import PageExport.Text.Blank

/-!
Writing text so that a reader takes it literally: escapes inside a line, fences longer than any
run of backticks inside, and link destinations that end where they should.
-/
namespace PageExport.Markdown

/-- The characters that are escaped wherever they stand. -/
def isSpecial (c : Char) : Bool :=
  c = '\\' || c = '`' || c = '*' || c = '_' || c = '[' || c = ']'

def escape (t : Text) : Text := t.flatMap fun c => if isSpecial c then ['\\', c] else [c]

/-- The length of the longest run of `c` in a text that follows `run` times `c`. -/
def longestRunFrom (c : Char) (run : Nat) : Text → Nat
  | [] => run
  | d :: t => if d = c then longestRunFrom c (run + 1) t else max run (longestRunFrom c 0 t)

def longestRun (c : Char) (t : Text) : Nat := longestRunFrom c 0 t

theorem le_longestRunFrom (c : Char) (run : Nat) (t : Text) : run ≤ longestRunFrom c run t := by
  induction t generalizing run with
  | nil => exact Nat.le_refl run
  | cons d t ih =>
    unfold longestRunFrom
    split
    · exact Nat.le_trans (Nat.le_succ run) (ih (run + 1))
    · exact Nat.le_max_left ..

/-- A run inside a text is no longer than the longest one. -/
theorem length_le_longestRun (c : Char) (t u : Text) (n : Nat) :
    n ≤ longestRun c (t ++ List.replicate n c ++ u) := by
  have inner : ∀ run n, run + n ≤ longestRunFrom c run (List.replicate n c ++ u) := by
    intro run n
    induction n generalizing run with
    | zero => simpa using le_longestRunFrom c run u
    | succ n ih =>
      simp only [List.replicate_succ, List.cons_append, longestRunFrom, ↓reduceIte]
      have := ih (run + 1)
      omega
  have outer : ∀ run, n ≤ longestRunFrom c run (t ++ (List.replicate n c ++ u)) := by
    induction t with
    | nil => intro run; exact Nat.le_trans (Nat.le_add_left n run) (inner run n)
    | cons d t ih =>
      intro run
      simp only [List.cons_append, longestRunFrom]
      split
      · exact ih (run + 1)
      · exact Nat.le_trans (ih 0) (Nat.le_max_right ..)
  simpa [longestRun] using outer 0

/-- A fence of at least `least` backticks that does not occur inside `t`. -/
def fence (least : Nat) (t : Text) : Text :=
  List.replicate (max least (longestRun '`' t + 1)) '`'

/-- A code span; a backtick at an edge is kept apart from the fence by a space. -/
def codeSpan (t : Text) : Text :=
  let f := fence 1 t
  let pad := if t.head? = some '`' || t.getLast? = some '`' then [' '] else []
  f ++ pad ++ t ++ pad ++ f

/-- A destination in need of angle brackets: blank, with spaces or brackets, or out of balance. -/
def needsBrackets (url : Text) : Bool :=
  url.isEmpty || url.any (fun c => isBlank c || c = '<' || c = '>')
    || url.count '(' != url.count ')'

def linkDestination (url : Text) : Text :=
  if needsBrackets url then
    '<' :: Text.replaceChar '>' ['%', '3', 'E'] url ++ ['>']
  else url

def titlePart (title : Option String) : Text :=
  match title with
  | some t => if t.isEmpty then [] else [' ', '"'] ++ t.toList ++ ['"']
  | none => []

end PageExport.Markdown
