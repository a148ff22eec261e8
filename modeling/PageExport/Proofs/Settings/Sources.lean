import PageExport.Proofs.Settings.Fields
import PageExport.Settings.Load

/-!
The sources of settings. Each setting is decided by the first source that has it, and by nothing else:
whatever the other sources say of it, and whatever any source says of other settings, it has the value that
this source gives it, or is at fault if that is no value for it.
-/
namespace PageExport

open Setting

/-- What the environment says of a setting of some name; an empty variable says nothing. -/
def Settings.fromEnvironment? (environment : List (String × String)) (name : String) : Option Value :=
  ((environment.lookup (variableName name)).filter fun s => !s.isEmpty).map .string

/-- The sources of settings but for the defaults, the first of them first. -/
structure Sources where
  overrides : Members
  environment : List (String × String)
  file : Members

namespace Sources

/-- What the overrides say of a setting; null says nothing. -/
def override? (x : Sources) (k : Setting) : Option Value :=
  (x.overrides.lookup k.name).filter fun v => !v.isNull

/-- The value that a setting is given by the first source that says something of it. -/
def selected (x : Sources) (k : Setting) : Value :=
  ((x.override? k).or ((Settings.fromEnvironment? x.environment k.name).or (x.file.lookup k.name))).getD
    k.default

/-- The value that the setting has by its sources, if it can have the one that it is given. -/
def decided? (x : Sources) (k : Setting) : Option Value := k.accepted? (x.selected k)

end Sources

theorem Members.lookup_eq_none_iff {ms : Members} {key : String} :
    ms.lookup key = none ↔ key ∉ ms.map Prod.fst := by
  rw [List.lookup_eq_none_iff]
  simp only [bne_iff_ne, ne_eq, List.mem_map, not_exists, not_and]
  exact forall₂_congr fun m _ => not_congr eq_comm

namespace Sources

/-- The members of all sources, those of an earlier source in place of those of later ones. -/
def merged (x : Sources) : Members :=
  (x.file.overlay (Settings.environmentMembers x.environment)).overlay
    (x.overrides.filter fun (_, v) => !v.isNull)

/-- The settings at fault, each under its name. -/
def faults (x : Sources) : List FaultPath :=
  (Setting.all.filter fun k => (x.decided? k).isNone).map fun k => [.key k.name]

variable {x : Sources} {t : FileTree}

end Sources
end PageExport
