import PageExport.Files.Read
import PageExport.Settings.Basic
import PageExport.Yaml.Document

/-!
Loading settings. Each setting comes from the first source that has it: the overrides, unless they
hold null; the environment, unless the variable is empty; the configuration file; the default.
-/
namespace PageExport

inductive ConfigFault where
  | read (fault : ReadFault)
  | document (fault : Yaml.Fault)
  | notAMapping (typeName : String)
  | keyNotText
  | invalid (faults : List FaultPath)
  deriving DecidableEq, Repr

namespace ConfigFault

def message : ConfigFault → String
  | .read f => f.message
  | .document .malformed => "Invalid config.yaml: " ++ Yaml.Fault.malformed.message
  | .document f => f.message
  | .notAMapping typeName => "Invalid config.yaml: expected a mapping, got " ++ typeName
  | .keyNotText => "keywords must be strings"
  | .invalid faults =>
    let n := faults.length
    String.ofList (Text.ofNat n) ++ (if n = 1 then " validation error" else " validation errors")
      ++ " for Settings"

end ConfigFault

namespace Settings

def configFile : Path := ⟨false, ["config.yaml"]⟩

/-- All keys of a mapping are texts. -/
def hasTextKeys (entries : List (Yaml.Datum × Yaml.Datum)) : Bool :=
  entries.all fun (key, _) => match key with
    | .text _ => true
    | _ => false

/-- The members that the text of a configuration file holds; the last entry of a key counts. -/
def configMembers (t : Text) : Except ConfigFault Members :=
  match Yaml.read t with
  | .error f => .error (.document f)
  | .ok d =>
    if d.isNothing then .ok []
    else match d with
      | .mapping entries =>
        if hasTextKeys entries then .ok (Members.ofList (Yaml.Datum.toMembers entries))
        else .error .keyNotText
      | d => .error (.notAMapping d.typeName)

/-- The members of the configuration file, none if there is no such file. -/
def fileMembers (t : FileTree) : Except ConfigFault Members :=
  match t.exists? configFile with
  | .error e => .error (.read (.file e))
  | .ok false => .ok []
  | .ok true =>
    match t.readText configFile with
    | .ok text => configMembers text
    | .error f => .error (.read f)

def variableName (name : String) : String := "BLOCKMD_" ++ name.map Char.toUpper

/-- Settings from environment variables that are not empty. -/
def environmentMembers (environment : List (String × String)) : Members :=
  names.filterMap fun name =>
    match environment.lookup (variableName name) with
    | some v => if v.isEmpty then none else some (name, .string v)
    | none => none

def load (t : FileTree) (environment : List (String × String)) (overrides : Members) :
    Except ConfigFault Settings := do
  let file ← fileMembers t
  let given := overrides.filter fun (_, v) => !v.isNull
  match read ((file.overlay (environmentMembers environment)).overlay given) with
  | .ok s => return s
  | .faulty fs => .error (.invalid fs)

end Settings
end PageExport
