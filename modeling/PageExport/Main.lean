import PageExport.CommandLine

/-! The program: reads the files that a command may need, runs it, and writes what it changed. -/
namespace PageExport

/-- The place that a path means if no name on it is a link. -/
def Path.place (home : Place) (p : Path) : Place :=
  p.names.foldl (fun q name => if name = ".." then q.dropLast else q ++ [name])
    (if p.rooted then [] else home)

def pathAt (p : Place) : Path := ⟨true, p⟩

/-- Adds what the disk has at a place, with all below it. -/
partial def readPlace (t : FileTree) (place : Place) : IO FileTree := do
  let p := (← IO.currentDir) / (pathAt place).toString
  if ← p.isDir then
    let mut t := t.put (pathAt place) .directory
    for e in ← p.readDir do
      t ← readPlace t (place ++ [e.fileName])
    return t
  else if ← p.pathExists then
    return t.put (pathAt place) (.file (← IO.FS.readBinFile p))
  else return t

def readPaths (t : FileTree) (ps : List Path) : IO FileTree :=
  ps.foldlM (fun t p => readPlace t (p.place t.home)) t

def environmentOf (names : List String) : IO (List (String × String)) := do
  let found ← names.mapM fun name => return (← IO.getEnv name).map fun v => (name, v)
  return found.filterMap id

/-- The paths that a command reads or writes. -/
def Command.paths (c : Command) (s : Settings) : List Path :=
  (c.path?.toList ++ s.assetsDir.toList ++ [s.outputDir]).map Path.ofString

/-- Writes the entries that the disk does not have yet. -/
def writeChanges (before after : FileTree) : IO Unit := do
  for (place, e) in after.entries do
    if before.entries.lookup place != some e then
      let p := (← IO.currentDir) / (pathAt place).toString
      match e with
      | .directory => IO.FS.createDirAll p
      | .file data => IO.FS.writeBinFile p data

def start (args : List String) : IO UInt32 := do
  let home := (Path.ofString (← IO.currentDir).toString).names
  let environment ← environmentOf (Settings.names.map Settings.variableName)
  let t := ({ home := home } : FileTree).put (pathAt home) .directory
  let t ← readPaths t [Settings.configFile]
  let t ← match Command.read args with
    | some c =>
      match Settings.load t environment c.overrides with
      | .ok s => readPaths t (c.paths s)
      | .error _ => pure t
    | none => pure t
  let r := runProgram args environment t
  writeChanges t r.files
  for e in r.log do
    IO.eprintln (e.level.name ++ " | " ++ e.message)
  IO.print r.output
  IO.eprint r.complaint
  match r.fault with
  | some f => IO.eprintln f.message
  | none => pure ()
  return UInt32.ofNat r.exitCode

end PageExport

def main (args : List String) : IO UInt32 := PageExport.start args
