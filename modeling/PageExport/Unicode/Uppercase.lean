import PageExport.Text.Basic

/-!
Upper case as far as it lies in ASCII. Some letters beyond ASCII have one or several capitals there.
-/
namespace PageExport.Unicode

/-- The letters beyond ASCII whose upper case is in ASCII. -/
def asciiCapitals : List (Char × String) := [
  ('ß', "SS"), ('ı', "I"), ('ſ', "S"), ('ﬀ', "FF"), ('ﬁ', "FI"), ('ﬂ', "FL"), ('ﬃ', "FFI"),
  ('ﬄ', "FFL"), ('ﬅ', "ST"), ('ﬆ', "ST")]

/-- The text with every letter in upper case that has it in ASCII. -/
def asciiUppercase (t : Text) : Text :=
  t.flatMap fun c =>
    match asciiCapitals.lookup c with
    | some s => s.toList
    | none => [c.toUpper]

end PageExport.Unicode
