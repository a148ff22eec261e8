import PageExport.Log
import PageExport.Markdown.Phrasing
import PageExport.Reading

/-!
Inline runs: pieces of text with styles, as documents store them, and the content they become.
-/
namespace PageExport

open Markdown (Inline)

structure Styles where
  bold : Option Bool := none
  italic : Option Bool := none
  strike : Option Bool := none
  underline : Option Bool := none
  code : Option Bool := none
  link : Option String := none
  deriving DecidableEq, Repr, Inhabited

/-- A run of text in one style. -/
structure Delta where
  insert : String := ""
  styles : Styles := {}
  deriving DecidableEq, Repr, Inhabited

def Styles.read (ms : Members) : Reading Styles :=
  Styles.mk <$> .field ms "bold" none (.optional .truth)
    <*> .field ms "italic" none (.optional .truth)
    <*> .field ms "strike" none (.optional .truth)
    <*> .field ms "underline" none (.optional .truth)
    <*> .field ms "code" none (.optional .truth)
    <*> .field ms "link" none (.optional .string)

namespace Delta

def read : Value → Reading Delta :=
  Reading.record fun ms =>
    Delta.mk <$> .field ms "insert" "" .string
      <*> .field ms "attributes" {} (.recordOrNull Styles.read)

/-- Reads the runs of a list; runs that cannot be read are left out. -/
def readItems : List Value → Logged (List Delta)
  | [] => pure []
  | v :: vs => do
    match read v with
    | .ok d => return d :: (← readItems vs)
    | .faulty fs =>
      Logged.note .warning
        s!"Dropping malformed delta {String.ofList v.display}: {fs.length} error(s)"
      readItems vs

/-- Reads a text: a string, a list of runs, or a list of runs in an envelope. -/
def readText (v : Value) : Logged (List Delta) :=
  let list : Value → Logged (List Delta)
    | .array vs => readItems vs
    | v => do
      Logged.note .warning s!"Unreadable text value of type {v.typeName}; using empty text"
      return []
  match v with
  | .null => pure []
  | .string s => pure (if s.isEmpty then [] else [⟨s, {}⟩])
  | .object ms => list ((ms.lookup "delta").getD (.array []))
  | v => list v

/-- Content in a style, if the style is set. -/
def wrapIf (style : Option Bool) (wrap : List Inline → Inline) (n : Inline) : Inline :=
  if style = some true then wrap [n] else n

/-- A run without its link: code, or text that may be underlined, in its styles. -/
def styled (d : Delta) : Inline :=
  let base :=
    if d.styles.code = some true then .code d.insert
    else if d.styles.underline = some true then .text ("<u>" ++ d.insert ++ "</u>")
    else .text d.insert
  wrapIf d.styles.strike .delete
    (wrapIf d.styles.bold .strong (wrapIf d.styles.italic .emphasis base))

/-- A run as content. A link without text of its own shows its target. -/
def toInline (d : Delta) : Inline :=
  match d.styles.link with
  | some url =>
    if url.isEmpty || d.insert = url then d.styled
    else if d.insert.isEmpty then .text url
    else .link url none [d.styled]
  | none => d.styled

/-- Runs as content, after four spaces for each level of depth. -/
def content (depth : Nat) (ds : List Delta) : List Inline :=
  let indent := if depth = 0 then [] else [Inline.text (String.ofList (List.replicate (4 * depth) ' '))]
  indent ++ ds.map toInline

def plainText (sep : String) (ds : List Delta) : String :=
  String.ofList (Text.join sep.toList (ds.map fun d => d.insert.toList))

end Delta
end PageExport
