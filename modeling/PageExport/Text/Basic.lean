/-!
Texts as lists of characters, and their lines. Splitting at a character and joining with it again
gives the text back.
-/
namespace PageExport

abbrev Text := List Char

namespace Text

/-- The parts of a text between the occurrences of `sep`; there is always one. -/
def split (sep : Char) : Text → List Text
  | [] => [[]]
  | c :: cs =>
    if c = sep then [] :: split sep cs
    else match split sep cs with
      | [] => [[c]]
      | l :: ls => (c :: l) :: ls

/-- The lines of a text; a text without a line feed is one line. -/
def lines (t : Text) : List Text := split '\n' t

/-- The texts of a list with `sep` between neighbours. -/
def join (sep : Text) : List Text → Text
  | [] => []
  | [t] => t
  | t :: ts => t ++ sep ++ join sep ts

def unlines (ls : List Text) : Text := join ['\n'] ls

@[simp] theorem join_nil (sep : Text) : join sep [] = [] := rfl

@[simp] theorem join_singleton (sep t : Text) : join sep [t] = t := rfl

@[simp] theorem join_cons_cons (sep t u : Text) (ts : List Text) :
    join sep (t :: u :: ts) = t ++ sep ++ join sep (u :: ts) := rfl

theorem mem_join {c : Char} {sep t : Text} {ts : List Text} (ht : t ∈ ts) (hc : c ∈ t) :
    c ∈ join sep ts := by
  induction ts with
  | nil => cases ht
  | cons u ts ih =>
    cases ts with
    | nil => simpa [List.mem_singleton.1 ht] using hc
    | cons v ts =>
      rw [join_cons_cons]
      rcases List.mem_cons.1 ht with rfl | ht
      · simp [hc]
      · exact List.mem_append_right _ (ih ht)

theorem not_mem_join {c : Char} {sep : Text} (hsep : c ∉ sep) {ts : List Text}
    (h : ∀ t ∈ ts, c ∉ t) : c ∉ join sep ts := by
  induction ts with
  | nil => simp
  | cons t ts ih =>
    obtain ⟨ht, hts⟩ := List.forall_mem_cons.1 h
    cases ts with
    | nil => exact ht
    | cons u ts =>
      rw [join_cons_cons, List.mem_append, List.mem_append, not_or, not_or]
      exact ⟨⟨ht, hsep⟩, ih hts⟩

theorem split_ne_nil (sep : Char) (t : Text) : split sep t ≠ [] := by
  cases t with
  | nil => simp [split]
  | cons c cs =>
    by_cases h : c = sep
    · simp [split, h]
    · simp only [split, h, ↓reduceIte]
      split <;> simp

theorem join_split (sep : Char) (t : Text) : join [sep] (split sep t) = t := by
  induction t with
  | nil => rfl
  | cons c cs ih =>
    obtain ⟨l, ls, hl⟩ := List.exists_cons_of_ne_nil (split_ne_nil sep cs)
    by_cases h : c = sep
    · subst h
      simp only [split, ↓reduceIte, hl, join_cons_cons, List.nil_append] at ih ⊢
      simp [ih]
    · simp only [split, h, ↓reduceIte, hl]
      rw [hl] at ih
      cases ls with
      | nil => simpa using ih
      | cons m ms => simpa [join_cons_cons] using ih

theorem split_cons_self (sep : Char) (t : Text) : split sep (sep :: t) = [] :: split sep t := by
  simp [split]

theorem split_of_not_mem {sep : Char} {t : Text} (h : sep ∉ t) : split sep t = [t] := by
  induction t with
  | nil => rfl
  | cons c t ih =>
    obtain ⟨hc, ht⟩ := not_or.1 (mt List.mem_cons.2 h)
    simp [split, Ne.symm hc, ih ht]

theorem split_append_cons (sep : Char) (t u : Text) :
    split sep (t ++ sep :: u) = split sep t ++ split sep u := by
  induction t with
  | nil => simp [split]
  | cons c t ih =>
    by_cases h : c = sep
    · simp [split, h, ih]
    · obtain ⟨l, ls, hl⟩ := List.exists_cons_of_ne_nil (split_ne_nil sep t)
      simp [split, h, ih, hl]

theorem not_mem_of_mem_split {sep : Char} {t l : Text} (h : l ∈ split sep t) : sep ∉ l := by
  induction t generalizing l with
  | nil => simp_all [split]
  | cons c t ih =>
    obtain ⟨m, ms, hm⟩ := List.exists_cons_of_ne_nil (split_ne_nil sep t)
    simp only [hm, List.mem_cons] at ih
    by_cases hc : c = sep
    · simp only [split, hc, ↓reduceIte, hm, List.mem_cons] at h
      rcases h with rfl | h
      · simp
      · exact ih h
    · simp only [split, hc, ↓reduceIte, hm, List.mem_cons] at h
      rcases h with rfl | h
      · simp [Ne.symm hc, ih (.inl rfl)]
      · exact ih (.inr h)

theorem split_join {sep : Char} {ls : List Text} (hne : ls ≠ []) (h : ∀ l ∈ ls, sep ∉ l) :
    split sep (join [sep] ls) = ls := by
  induction ls with
  | nil => exact absurd rfl hne
  | cons l ls ih =>
    have hl := split_of_not_mem (h l (by simp))
    cases ls with
    | nil => simpa using hl
    | cons m ms =>
      have hm := ih (by simp) fun l hl => h l (List.mem_cons_of_mem _ hl)
      simp only [join_cons_cons, List.append_assoc, List.singleton_append, split_append_cons, hl, hm]

theorem length_split (sep : Char) (t : Text) : (split sep t).length = t.count sep + 1 := by
  induction t with
  | nil => rfl
  | cons c t ih =>
    obtain ⟨l, ls, hl⟩ := List.exists_cons_of_ne_nil (split_ne_nil sep t)
    by_cases h : c = sep <;> simp_all [split]

theorem lines_unlines {ls : List Text} (hne : ls ≠ []) (h : ∀ l ∈ ls, '\n' ∉ l) :
    (unlines ls).lines = ls := split_join hne h

theorem unlines_lines (t : Text) : unlines t.lines = t := join_split '\n' t

/-- Every occurrence of the character `c` replaced by `by_`. -/
def replaceChar (c : Char) (by_ : Text) (t : Text) : Text :=
  t.flatMap fun d => if d = c then by_ else [d]

theorem replaceChar_append (c : Char) (by_ t u : Text) :
    replaceChar c by_ (t ++ u) = replaceChar c by_ t ++ replaceChar c by_ u :=
  List.flatMap_append

theorem replaceChar_of_not_mem {c : Char} {t : Text} (h : c ∉ t) (by_ : Text) :
    replaceChar c by_ t = t := by
  induction t with
  | nil => rfl
  | cons d t ih =>
    obtain ⟨hd, ht⟩ := not_or.1 (mt List.mem_cons.2 h)
    have := ih ht
    simp_all [replaceChar, Ne.symm hd]

/-- The text with every carriage return, alone or before a line feed, as a line feed. -/
def unifyNewlines : Text → Text
  | '\r' :: '\n' :: t => '\n' :: unifyNewlines t
  | '\r' :: t => '\n' :: unifyNewlines t
  | c :: t => c :: unifyNewlines t
  | [] => []

def ofNat (n : Nat) : Text := Nat.toDigits 10 n

def ofInt (i : Int) : Text :=
  match i with
  | .ofNat n => ofNat n
  | .negSucc n => '-' :: ofNat (n + 1)

end Text
end PageExport
