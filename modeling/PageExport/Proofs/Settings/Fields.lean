import Mathlib.Tactic.SplitIfs
import PageExport.Proofs.Reading.Faults
import PageExport.Settings.Basic

/-!
Settings one by one: what each of them can be given, and what it becomes. Settings that are read from
members are those of the members each for itself, and every setting at fault is a fault of its own.
-/
namespace PageExport

inductive Setting where
  | outputDir | assetsDir | profile | bullet | emphasis | rule | template | skipEmpty | logLevel
  deriving DecidableEq

namespace Setting

def all : List Setting :=
  [.outputDir, .assetsDir, .profile, .bullet, .emphasis, .rule, .template, .skipEmpty, .logLevel]

def name : Setting → String
  | .outputDir => "output_dir"
  | .assetsDir => "assets_dir"
  | .profile => "profile"
  | .bullet => "bullet"
  | .emphasis => "emphasis"
  | .rule => "rule"
  | .template => "blob_url_template"
  | .skipEmpty => "skip_empty"
  | .logLevel => "log_level"

/-- The texts that a setting can have, if not every text will do. -/
def words? : Setting → Option (List String)
  | .profile => some ["mdast", "legacy"]
  | .bullet => some ["-", "*", "+"]
  | .emphasis => some ["_", "*"]
  | .rule => some ["---", "***", "___"]
  | _ => none

/-- The words for a truth value, each in any case. -/
def truthWords : Bool → List String
  | true => ["true", "t", "yes", "y", "on", "1"]
  | false => ["false", "f", "no", "n", "off", "0"]

/-- A truth value, the number one or zero, or a word for it. -/
def truthOf? : Value → Option Bool
  | .bool b => some b
  | .int i => if i = 1 then some true else if i = 0 then some false else none
  | .float x => if x.toInt? = some 1 then some true else if x.toInt? = some 0 then some false else none
  | .string s => [true, false].find? fun b => (truthWords b).contains (s.map Char.toLower)
  | _ => none

/-- What a setting becomes if it is given as a value, unless it cannot have that value. -/
def accepted? (k : Setting) (v : Value) : Option Value :=
  match k, v with
  | .skipEmpty, v => (truthOf? v).map .bool
  | .assetsDir, .null => some .null
  | k, .string s => if k.words?.all (s ∈ ·) then some (.string s) else none
  | _, _ => none

/-- What settings hold for one of them. -/
def value (k : Setting) (s : Settings) : Value := (s.toMembers.lookup k.name).getD .null

def default (k : Setting) : Value := k.value {}

variable {α : Type}

/-- A reading of values is that of a setting: its results are what the setting becomes, and it fails at
the value itself exactly on what the setting cannot have. -/
structure IsReadBy (k : Setting) (read : Value → Reading α) (render : α → Value) : Prop where
  ok : ∀ v a, read v = .ok a → k.accepted? v = some (render a)
  faulty : ∀ v fs, read v = .faulty fs → fs = [[]] ∧ k.accepted? v = none

theorem IsReadBy.located {k : Setting} {read : Value → Reading α} {render : α → Value}
    (h : k.IsReadBy read render) (v : Value) : (read v).Located := fun hread => by
  cases (h.faulty v [] hread).1

variable {k : Setting} {read : Value → Reading α} {render : α → Value} {d : α} {ms : Members}

end Setting

open Setting

end PageExport
