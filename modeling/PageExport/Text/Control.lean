import PageExport.Text.Basic

/-!
Control sequences of terminals: an escape character and a bracket, parameters, and a letter.
-/
namespace PageExport.Text

def isParameter (c : Char) : Bool := c.isDigit || c = ';' || c = '?'

/-- The text after the control sequence that it starts with, if it starts with one. -/
def afterControl? : Text → Option Text
  | '\x1b' :: '[' :: t =>
    match t.dropWhile isParameter with
    | c :: rest => if c.isAlpha then some rest else none
    | [] => none
  | _ => none

/-- Drops control sequences from a text of at most `fuel` characters. -/
def dropControlsFrom (fuel : Nat) (t : Text) : Text :=
  match fuel, t with
  | 0, _ | _, [] => []
  | fuel + 1, c :: t =>
    match afterControl? (c :: t) with
    | some rest => dropControlsFrom fuel rest
    | none => c :: dropControlsFrom fuel t

/-- The text without control sequences. -/
def dropControls (t : Text) : Text := dropControlsFrom t.length t

theorem dropControlsFrom_of_not_mem {t : Text} (h : '\x1b' ∉ t) (fuel : Nat)
    (hf : t.length ≤ fuel) : dropControlsFrom fuel t = t := by
  induction t generalizing fuel with
  | nil => cases fuel <;> rfl
  | cons c t ih =>
    obtain ⟨hc, ht⟩ := not_or.1 (mt List.mem_cons.2 h)
    cases fuel with
    | zero => simp at hf
    | succ fuel =>
      have hn : afterControl? (c :: t) = none := by
        unfold afterControl?
        split
        · simp_all
        · rfl
      simp only [dropControlsFrom, hn]
      rw [ih ht fuel (by simpa using hf)]

theorem dropControls_of_not_mem {t : Text} (h : '\x1b' ∉ t) : dropControls t = t :=
  dropControlsFrom_of_not_mem h t.length (Nat.le_refl _)

end PageExport.Text
