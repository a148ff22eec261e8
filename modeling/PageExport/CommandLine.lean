import PageExport.Convert
import PageExport.Markdown.NodeValue
import PageExport.Settings.Load
import PageExport.Text.Control
import PageExport.Unicode.Uppercase
import PageExport.Value.Printer

/-!
The commands of the program over a tree of files: to convert snapshots, to show the syntax tree of
one, and to check that one can be converted. What they print has no control sequences.
-/
namespace PageExport

/-- Arguments taken apart: those in order, and the options with their values, the last one first. -/
structure Arguments where
  positional : List String := []
  options : List (String × String) := []
  help : Bool := false
  deriving DecidableEq, Repr

namespace Arguments

/-- An option and the value after an equals sign, if there is one. -/
def splitOption (a : String) : String × Option String :=
  let t := a.toList
  match t.dropWhile (· ≠ '=') with
  | _ :: value => (String.ofList (t.takeWhile (· ≠ '=')), some (String.ofList value))
  | [] => (a, none)

def isOption (a : String) : Bool :=
  match a.toList with
  | '-' :: _ :: _ => true
  | _ => false

/-- Takes arguments apart; an unknown option or one without its value is refused. -/
def read (known : List String) (done : Arguments) : List String → Option Arguments
  | [] => some done
  | a :: rest =>
    if a = "--" then some { done with positional := done.positional ++ rest }
    else if !isOption a then read known { done with positional := done.positional ++ [a] } rest
    else if a = "--help" then read known { done with help := true } rest
    else
      match splitOption a, rest with
      | (name, some value), rest =>
        if known.contains name then
          read known { done with options := (name, value) :: done.options } rest
        else none
      | (name, none), value :: rest =>
        if known.contains name then
          read known { done with options := (name, value) :: done.options } rest
        else none
      | (_, none), [] => none

def option? (a : Arguments) (name : String) : Option String := a.options.lookup name

end Arguments

inductive Command where
  | convert (path : String) (outDir assetsDir profile logLevel : Option String)
  | tree (path : String) (assetsDir : Option String)
  | check (path : String) (profile : Option String)
  | help
  deriving DecidableEq, Repr

namespace Command

/-- Reads the arguments of a command with one path; none if they do not fit. -/
def ofArguments (known : List String) (command : Arguments → String → Command)
    (args : List String) : Option Command := do
  let a ← Arguments.read known {} args
  if a.help then return .help
  match a.positional with
  | [path] => return command a path
  | _ => none

/-- Reads the arguments of the program, after the hyphens that may come before the command. -/
def read (args : List String) : Option Command :=
  match if args.head? = some "--" then args.drop 1 else args with
  | "convert" :: args =>
    ofArguments ["--out-dir", "--assets-dir", "--profile", "--log-level"]
      (fun a path => .convert path (a.option? "--out-dir") (a.option? "--assets-dir")
        (a.option? "--profile") (a.option? "--log-level")) args
  | "ast" :: args =>
    ofArguments ["--assets-dir"] (fun a path => .tree path (a.option? "--assets-dir")) args
  | "check" :: args =>
    ofArguments ["--profile"] (fun a path => .check path (a.option? "--profile")) args
  | "--help" :: _ => some .help
  | _ => none

def path? : Command → Option String
  | .convert path _ _ _ _ | .tree path _ | .check path _ => some path
  | .help => none

def member (name : String) (v : Option String) : String × Value :=
  (name, (v.map Value.string).getD .null)

def overrides : Command → Members
  | .convert _ outDir assetsDir profile logLevel =>
    [member "output_dir" outDir, member "assets_dir" assetsDir, member "profile" profile,
      member "log_level" logLevel]
  | .tree _ assetsDir => [member "assets_dir" assetsDir]
  | .check _ profile => [member "profile" profile]
  | .help => []

end Command

/-- Faults that end the program without a message of its own. -/
inductive CommandFault where
  | config (fault : ConfigFault)
  | logLevel (name : String)
  | convert (fault : ConvertFault)
  /-- A line of the output has no form in UTF-8. -/
  | output
  deriving DecidableEq, Repr

/-- How a command ends: what it writes, what it complains of, the files it leaves, and the messages to
show. -/
structure CommandResult where
  exitCode : Nat
  output : String := ""
  complaint : String := ""
  fault : Option CommandFault := none
  files : FileTree
  log : Log := []

/-- A message as it is printed, on a line of its own. -/
def printed (message : String) : String :=
  String.ofList (Text.dropControls message.toList) ++ "\n"

namespace CommandResult

/-- A failure that is told on the error stream, with its cause on a line of its own. -/
def failure (message : String) (cause : Option String) (files : FileTree) (log : Log) :
    CommandResult :=
  let causeLine := match cause with
    | some c => printed ("  " ++ c)
    | none => ""
  { exitCode := 1, complaint := printed ("Error: " ++ message) ++ causeLine, files := files,
    log := log }

def escape (fault : CommandFault) (files : FileTree) (log : Log) : CommandResult :=
  { exitCode := 1, fault := some fault, files := files, log := log }

/-- Prints messages in turn, up to the first one that has no form in UTF-8. -/
def print (r : CommandResult) : List String → CommandResult
  | [] => r
  | m :: ms =>
    if Unicode.isEncodable m.toList then print { r with output := r.output ++ printed m } ms
    else { r with exitCode := 1, fault := some .output }

end CommandResult

def usage : String :=
  "Usage: COMMAND [OPTIONS] PATH\n\n"
    ++ "  convert  Convert snapshots to Markdown files, copying referenced assets\n"
    ++ "           [--out-dir DIR] [--assets-dir DIR] [--profile NAME] [--log-level LEVEL]\n"
    ++ "  ast      Print the Markdown syntax tree of a snapshot as JSON [--assets-dir DIR]\n"
    ++ "  check    Convert a snapshot and count its lines [--profile NAME]\n"

/-- What is told of a fault in the snapshots or their pages. Other faults are not told. -/
def ConvertFault.report? : ConvertFault → Option String
  | .load (.json p text r) =>
    if r.fault = .integerTooLong || r.fault = .tooDeep then none
    else some (LoadFault.json p text r).message
  | .load (.snapshot p f) => some (LoadFault.snapshot p f).message
  | .page (.misplaced m) => some m.message
  | .page (.walk (.context (.itemExpected _))) => none
  | .page (.walk (.context f)) => some f.message
  | .page (.walk (.resolver (.unreadable message)))
  | .page (.walk (.resolver (.malformed message))) => some message
  | .store (.resolve (.unreadable message)) | .store (.resolve (.malformed message)) => some message
  | _ => none

/-- The fault of a file that a conversion failed with. -/
def ConvertFault.fileError? : ConvertFault → Option FileError
  | .load (.read (.file e)) | .page (.walk (.resolver (.file e))) | .store (.resolve (.file e))
  | .store (.file e) | .file e => some e
  | _ => none

/-- What is told of a fault, the faults of files included if they have a number. -/
def ConvertFault.reportWithFiles? (f : ConvertFault) : Option String :=
  match f.fileError? with
  | some e => e.code?.map fun _ => e.message
  | none => f.report?

/-- The escapes of code points from here on are too large to be looked at. -/
def codePointLimit : Nat := 0x80000000

/-- A configuration that cannot be used is told, unless its file or its keys are at fault or it is beyond a
limit of the reader or has a text that is not of the type of its tag. -/
def ConfigFault.report? : ConfigFault → Option String
  | .read (.file _) | .keyNotText => none
  | .document .tooDeep | .document .noCharacter | .document (.noTruthValue _)
  | .document .tooManyParts | .document .noTimestamp | .document .timestampInMapping => none
  | .document (.codePoint n) =>
    if n < codePointLimit then some (ConfigFault.document (.codePoint n)).message else none
  | f => some f.message

def logLevels : List (String × Nat) :=
  [("TRACE", 5), ("DEBUG", 10), ("INFO", 20), ("SUCCESS", 25), ("WARNING", 30), ("ERROR", 40),
    ("CRITICAL", 50)]

def logRank? (name : String) : Option Nat :=
  logLevels.lookup (String.ofList (Unicode.asciiUppercase name.toList))

/-- The messages of a log that are shown from a rank on. -/
def Log.atLeast (rank : Nat) (log : Log) : Log :=
  log.filter fun e => (logRank? e.level.name).any fun r => rank ≤ r

def CommandFault.message : CommandFault → String
  | .config f => f.message
  | .logLevel name => "Unknown log level " ++ quotedName name
  | .convert f => f.reportWithFiles?.getD "The conversion cannot go on"
  | .output => "The output has no form in UTF-8"

/-- Ends a command that failed. -/
def endWith (report? : ConvertFault → Option String) (message : String) (f : ConvertFault)
    (s : ConvertState) : CommandResult :=
  match report? f with
  | some cause => .failure message (some cause) s.files s.log
  | none => .escape (.convert f) s.files s.log

def Converted.line (c : Converted) : String :=
  let suffix := if c.assets = 0 then ""
    else " (+" ++ String.ofList (Text.ofNat c.assets) ++ " asset(s))"
  "  " ++ c.source.toString ++ " -> " ++ c.markdown.toString ++ suffix

def runConvert (settings : Settings) (path : String) (files : FileTree) : CommandResult :=
  let p := Path.ofString path
  match files.exists? p with
  | .error e => .escape (.convert (.file e)) files []
  | .ok false => .failure ("No such file or directory: " ++ path) none files []
  | .ok true =>
    match Convert.all settings p (.start settings files) with
    | .error f s => endWith ConvertFault.report? "Conversion failed" f s
    | .ok done s =>
      let summary := "Converted " ++ String.ofList (Text.ofNat done.length) ++ " document(s) to "
        ++ settings.outputDir ++ "/"
      CommandResult.print { exitCode := 0, files := s.files, log := s.log }
        (done.map Converted.line ++ [summary])

/-- The syntax tree of a snapshot file with the references of its assets. -/
def Convert.tree (settings : Settings) (p : Path) : Convert Value := do
  let b ← loadTrimmed settings p
  let s ← get
  let resolver := s.assets.map fun d => d.resolve s.files
  let r ← ofExcept (ConvertFault.page ∘ PageFault.walk) (← logged (b.walk resolver (.root [])))
  return .object [("ast", r.tree.toValue), ("asset_ids", .array (r.assetIds.map .string))]

def runTree (settings : Settings) (path : String) (files : FileTree) : CommandResult :=
  match Convert.tree settings (.ofString path) (.start settings files) with
  | .error f s => endWith ConvertFault.reportWithFiles? ("Cannot read " ++ path) f s
  | .ok v s => CommandResult.print { exitCode := 0, files := s.files, log := s.log } [v.pretty]

def isLineEnd (c : Char) : Bool :=
  (0xA ≤ c.toNat && c.toNat ≤ 0xD) || (0x1C ≤ c.toNat && c.toNat ≤ 0x1E)
    || [0x85, 0x2028, 0x2029].contains c.toNat

/-- The ends of lines in a text, where a carriage return and a line feed after it are one. -/
def lineEnds : Text → Nat
  | '\r' :: '\n' :: t => lineEnds t + 1
  | c :: t => if isLineEnd c then lineEnds t + 1 else lineEnds t
  | [] => 0

/-- The lines of a text, where an end of a line at its end starts no further line. -/
def lineCount (t : Text) : Nat :=
  if t.getLast?.all isLineEnd then lineEnds t else lineEnds t + 1

example : lineCount "a\r\nb\u2028\u2028c".toList = 4 := by decide

def runCheck (settings : Settings) (path : String) (files : FileTree) : CommandResult :=
  match Convert.file settings (.ofString path) { files := files } with
  | .error f s => endWith ConvertFault.reportWithFiles? ("Cannot read " ++ path) f s
  | .ok (_, page) s =>
    let summary := String.ofList (Text.ofNat (lineCount page.markdown.toList)) ++ " line(s), "
      ++ String.ofList (Text.ofNat page.assetIds.length) ++ " asset reference(s)"
    CommandResult.print { exitCode := 0, files := s.files, log := s.log } [summary]

def Command.run (c : Command) (files : FileTree) (environment : List (String × String)) :
    CommandResult :=
  match Settings.load files environment c.overrides with
  | .error f =>
    match f.report? with
    | some message => .failure message none files []
    | none => .escape (.config f) files []
  | .ok settings =>
    match logRank? settings.logLevel with
    | none => .escape (.logLevel settings.logLevel) files []
    | some rank =>
      let r := match c with
        | .convert path _ _ _ _ => runConvert settings path files
        | .tree path _ => runTree settings path files
        | .check path _ => runCheck settings path files
        | .help => { exitCode := 0, output := usage, files := files }
      { r with log := r.log.atLeast rank }

/-- Runs the program with its arguments; arguments that do not fit end it with the code two. -/
def runProgram (args : List String) (environment : List (String × String)) (files : FileTree) :
    CommandResult :=
  match Command.read args with
  | some .help => { exitCode := 0, output := usage, files := files }
  | some c => c.run files environment
  | none => { exitCode := 2, complaint := usage, files := files }

end PageExport
