import PageExport.Yaml.Datum

/-!
Documents in YAML: a text holds at most one, and nothing counts as null.
-/
namespace PageExport.Yaml

def isAllowed (c : Char) : Bool :=
  let n := c.toNat
  n = 9 || n = 10 || n = 13 || (0x20 ≤ n && n ≤ 0x7E) || n = 0x85
    || (0xA0 ≤ n && n ≤ 0xFFFD) || 0x10000 ≤ n

/-- Reads the document in a text whose line breaks are unified, after the byte order mark that may
start it. -/
def read (t : Text) : Except Fault Datum := do
  let t := match t with
    | '\uFEFF' :: t => t
    | t => t
  if !t.all isAllowed then throw .malformed
  match ← Node.ofText? t with
  | none => return .null
  | some n =>
    match Datum.ofNode 0 n with
    | .ok d => return d
    | .error e => throw e.fault

end PageExport.Yaml
