import PageExport.Legacy
import PageExport.Reading

/-!
Settings of the program and their reading from members; members that are no settings are ignored.
-/
namespace PageExport

open Markdown (Bullet EmphasisMark Options Rule)

/-- The way from blocks to Markdown: by a syntax tree, or straight as the legacy profile does. -/
inductive Profile where
  | tree | legacy
  deriving DecidableEq, Repr, Inhabited

def Profile.name : Profile → String
  | .tree => "mdast"
  | .legacy => "legacy"

structure Settings where
  outputDir : String := "dist"
  assetsDir : Option String := none
  profile : Profile := .tree
  options : Options := {}
  template : String := Legacy.defaultTemplate
  skipEmpty : Bool := true
  logLevel : String := "WARNING"
  deriving DecidableEq, Repr, Inhabited

namespace Settings

def names : List String := ["output_dir", "assets_dir", "profile", "bullet", "emphasis", "rule",
  "blob_url_template", "skip_empty", "log_level"]

def profiles : List (String × Profile) :=
  [Profile.tree, Profile.legacy].map fun p => (p.name, p)

def bullets : List (String × Bullet) := Bullet.all.map fun b => (String.singleton b.char, b)

def emphasisMarks : List (String × EmphasisMark) :=
  EmphasisMark.all.map fun m => (String.singleton m.char, m)

def rules : List (String × Rule) := Rule.all.map fun r => (String.ofList r.text, r)

def readOptions (ms : Members) : Reading Options :=
  let default : Options := {}
  Options.mk <$> .field ms "bullet" default.bullet (.choice bullets)
    <*> .field ms "emphasis" default.emphasis (.choice emphasisMarks)
    <*> .field ms "rule" default.rule (.choice rules)

def read (ms : Members) : Reading Settings :=
  let default : Settings := {}
  Settings.mk <$> .field ms "output_dir" default.outputDir .string
    <*> .field ms "assets_dir" default.assetsDir (.optional .string)
    <*> .field ms "profile" default.profile (.choice profiles)
    <*> readOptions ms
    <*> .field ms "blob_url_template" default.template .string
    <*> .field ms "skip_empty" default.skipEmpty .truth
    <*> .field ms "log_level" default.logLevel .string

def toMembers (s : Settings) : Members := [
  ("output_dir", .string s.outputDir),
  ("assets_dir", (s.assetsDir.map Value.string).getD .null),
  ("profile", .string s.profile.name),
  ("bullet", .string (String.singleton s.options.bullet.char)),
  ("emphasis", .string (String.singleton s.options.emphasis.char)),
  ("rule", .string (String.ofList s.options.rule.text)),
  ("blob_url_template", .string s.template),
  ("skip_empty", .bool s.skipEmpty),
  ("log_level", .string s.logLevel)]

end Settings
end PageExport
