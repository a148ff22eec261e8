import Mathlib.Data.List.TakeWhile
import PageExport.Files.Glob

/-!
What name patterns stand for. A text without wildcards stands for itself; a pattern with a wildcard
also stands for other names, unless it has a class without members and stands for none.
-/
namespace PageExport.Glob

theorem admits_cons_cons {p : Part} (hp : p ≠ .anyText) (ps : Pattern) (c : Char) (t : Text) :
    admits (p :: ps) (c :: t) = (p.admits c && admits ps t) := by
  have hendings : endings (p :: ps) (c :: t) =
      List.zipWith (fun c b => p.admits c && b) (c :: t) (endings ps (c :: t)).tail ++ [false] := by
    cases p <;> first | rfl | exact absurd rfl hp
  obtain ⟨b, bs, hb⟩ := List.exists_cons_of_ne_nil (endings_ne_nil ps t)
  rw [admits, hendings, endings_cons, List.tail_cons, admits, hb]
  rfl

theorem admits_cons_nil {p : Part} (hp : p ≠ .anyText) (ps : Pattern) :
    admits (p :: ps) [] = false := by
  cases p <;> first | rfl | exact absurd rfl hp

theorem admits_anyText (t : Text) : admits [.anyText] t = true := by
  induction t with
  | nil => rfl
  | cons c t ih => rw [admits_anyText_cons, ih, Bool.or_true]

theorem exists_endings_nil (ps : Pattern) : ∃ b, endings ps [] = [b] := by
  induction ps with
  | nil => exact ⟨true, rfl⟩
  | cons p ps ih =>
    obtain ⟨b, hb⟩ := ih
    cases p <;> simp [endings, hb, orLater]

theorem admits_anyText_nil (ps : Pattern) : admits (.anyText :: ps) [] = admits ps [] := by
  obtain ⟨b, hb⟩ := exists_endings_nil ps
  simp [admits, endings, hb, orLater]

/-- A star may stand for nothing. -/
theorem admits_anyText_of_admits {ps : Pattern} {t : Text} (h : admits ps t = true) :
    admits (.anyText :: ps) t = true := by
  cases t with
  | nil => rwa [admits_anyText_nil]
  | cons c t => rw [admits_anyText_cons, h, Bool.true_or]

/-- Characters at the start of a pattern stand for themselves. -/
theorem admits_map_char_append (t : Text) (ps : Pattern) (name : Text) :
    admits (t.map .char ++ ps) name = true ↔ ∃ rest, name = t ++ rest ∧ admits ps rest = true := by
  induction t generalizing name with
  | nil => simp
  | cons c t ih =>
    rw [List.map_cons, List.cons_append]
    cases name with
    | nil => simp [admits_cons_nil]
    | cons d name =>
      rw [admits_cons_cons (by simp), Bool.and_eq_true, ih]
      simp only [Part.admits, decide_eq_true_eq, List.cons_append, List.cons.injEq]
      constructor
      · rintro ⟨rfl, rest, rfl, h⟩
        exact ⟨rest, ⟨rfl, rfl⟩, h⟩
      · rintro ⟨rest, ⟨rfl, rfl⟩, h⟩
        exact ⟨rfl, rest, rfl, h⟩

/-- The text up to the first closing bracket, behind `start`, and the rest. -/
def upToBracket (start t : Text) : Option (Text × Text) :=
  match t.dropWhile (· ≠ ']') with
  | _ :: rest => some (start ++ t.takeWhile (· ≠ ']'), rest)
  | [] => none

theorem upToBracket_append (start t : Text) {u : Text} (hu : ']' ∉ u) :
    upToBracket start (t ++ u) =
      (upToBracket start t).map fun (body, rest) => (body, rest ++ u) := by
  have hnone : u.dropWhile (· ≠ ']') = [] :=
    List.dropWhile_eq_nil_iff.2 fun c hc => decide_eq_true fun h => hu (h ▸ hc)
  unfold upToBracket
  rw [List.dropWhile_append, List.takeWhile_append]
  cases hdrop : t.dropWhile (· ≠ ']') with
  | nil =>
    rw [List.isEmpty_nil, if_pos rfl, hnone]
    rfl
  | cons c rest =>
    have hlength : (t.takeWhile (· ≠ ']')).length ≠ t.length := by
      have := congrArg List.length (List.takeWhile_append_dropWhile (p := (· ≠ ']')) (l := t))
      rw [hdrop, List.length_append, List.length_cons] at this
      omega
    rw [if_neg hlength]
    rfl

theorem length_upToBracket {start t body rest : Text} (h : upToBracket start t = some (body, rest)) :
    rest.length < t.length := by
  unfold upToBracket at h
  split at h
  · next c rest' hdrop =>
    cases h
    have := congrArg List.length (List.takeWhile_append_dropWhile (p := (· ≠ ']')) (l := t))
    rw [hdrop, List.length_append, List.length_cons] at this
    omega
  · cases h

theorem splitClass_mark {t : Text} (h : t.head? ≠ some ']') :
    splitClass ('!' :: t) = upToBracket ['!'] t := by
  unfold splitClass
  split
  next start t' heq =>
  split at heq
  · simp_all
  · obtain ⟨rfl, rfl⟩ := Prod.mk.inj heq
    simp_all only [List.cons.injEq, true_and]
    rfl
  · simp_all
  · simp_all

theorem splitClass_of_head? {t : Text} (hmark : t.head? ≠ some '!') (hclose : t.head? ≠ some ']') :
    splitClass t = upToBracket [] t := by
  unfold splitClass
  split
  next start t' heq =>
  split at heq
  · simp_all
  · simp_all
  · simp_all
  · obtain ⟨rfl, rfl⟩ := Prod.mk.inj heq
    rfl

theorem head?_append_ne {t u : Text} {c : Char} (ht : t.head? ≠ some c) (hu : u.head? ≠ some c) :
    (t ++ u).head? ≠ some c := by
  cases t with
  | nil => exact hu
  | cons d t => exact ht

/-- Where the search for the closing bracket starts does not depend on what follows. -/
theorem exists_splitClass_append (t : Text) : ∃ start rest, t = start ++ rest ∧
    ∀ u : Text, u.head? ≠ some '!' → u.head? ≠ some ']' →
      splitClass (t ++ u) = upToBracket start (rest ++ u) := by
  by_cases hm : t.head? = some '!'
  · obtain ⟨t, rfl⟩ := List.head?_eq_some_iff.1 hm
    by_cases hc : t.head? = some ']'
    · obtain ⟨t, rfl⟩ := List.head?_eq_some_iff.1 hc
      exact ⟨['!', ']'], t, rfl, fun u _ _ => rfl⟩
    · exact ⟨['!'], t, rfl, fun u _ hclose => splitClass_mark (head?_append_ne hc hclose)⟩
  · by_cases hc : t.head? = some ']'
    · obtain ⟨t, rfl⟩ := List.head?_eq_some_iff.1 hc
      exact ⟨[']'], t, rfl, fun u _ _ => rfl⟩
    · exact ⟨[], t, rfl, fun u hmark hclose =>
        splitClass_of_head? (head?_append_ne hm hmark) (head?_append_ne hc hclose)⟩

/-- A class that a text holds whole is the same whatever follows, and what follows completes none unless
it has a closing bracket. -/
theorem splitClass_append (t : Text) {u : Text} (hmark : u.head? ≠ some '!') (hu : ']' ∉ u) :
    splitClass (t ++ u) = (splitClass t).map fun (body, rest) => (body, rest ++ u) := by
  obtain ⟨start, rest, -, hsplit⟩ := exists_splitClass_append t
  have halone := hsplit [] (by simp) (by simp)
  rw [List.append_nil, List.append_nil] at halone
  rw [hsplit u hmark fun h => hu (List.mem_of_mem_head? h), halone]
  exact upToBracket_append start rest hu

/-- A class has at least its closing bracket. -/
theorem length_splitClass {t body rest : Text} (h : splitClass t = some (body, rest)) :
    rest.length < t.length := by
  obtain ⟨start, t', rfl, hsplit⟩ := exists_splitClass_append t
  have halone := hsplit [] (by simp) (by simp)
  rw [List.append_nil, List.append_nil, h] at halone
  have := length_upToBracket halone.symm
  rw [List.length_append]
  omega

theorem readClass_eq (t : Text) : ∃ ms, readClass t = .oneOf ms ∨ readClass t = .noneOf ms := by
  unfold readClass
  generalize List.filter _ _ = members
  simp only
  split <;> simp

/-- How a text is read as a pattern, part by part. -/
inductive Reads : Text → Pattern → Prop where
  | nil : Reads [] []
  | anyText {t : Text} {ps : Pattern} (hrest : Reads t ps) : Reads ('*' :: t) (.anyText :: ps)
  | any {t : Text} {ps : Pattern} (hrest : Reads t ps) : Reads ('?' :: t) (.any :: ps)
  | ofClass {t body rest : Text} {ps : Pattern} (hsplit : splitClass t = some (body, rest))
    (hrest : Reads rest ps) : Reads ('[' :: t) (readClass body :: ps)
  | char {c : Char} {t : Text} {ps : Pattern} (hstar : c ≠ '*') (hmark : c ≠ '?')
    (hopen : c = '[' → splitClass t = none) (hrest : Reads t ps) : Reads (c :: t) (.char c :: ps)

theorem reads_readFrom {fuel : Nat} {t : Text} (h : t.length ≤ fuel) : Reads t (readFrom fuel t) := by
  induction fuel generalizing t with
  | zero =>
    rw [List.eq_nil_of_length_eq_zero (Nat.le_zero.1 h)]
    exact .nil
  | succ fuel ih =>
    match t with
    | [] => exact .nil
    | c :: t =>
      have hlength : t.length ≤ fuel := by simpa using h
      by_cases hstar : c = '*'
      · subst hstar
        exact .anyText (ih hlength)
      by_cases hmark : c = '?'
      · subst hmark
        exact .any (ih hlength)
      by_cases hopen : c = '['
      · subst hopen
        cases hsplit : splitClass t with
        | none =>
          simp only [readFrom, hsplit]
          exact .char hstar hmark (fun _ => hsplit) (ih hlength)
        | some found =>
          have := length_splitClass hsplit
          simp only [readFrom, hsplit]
          exact .ofClass hsplit (ih (by omega))
      · simp only [readFrom]
        exact .char hstar hmark (fun h => absurd h hopen) (ih hlength)

theorem reads_read (t : Text) : Reads t (read t) := reads_readFrom (Nat.le_refl _)

namespace Reads

variable {t : Text} {ps : Pattern}

/-- A text is read in one way only. -/
theorem unique (h : Reads t ps) {qs : Pattern} (h' : Reads t qs) : ps = qs := by
  induction h generalizing qs with
  | nil =>
    cases h'
    rfl
  | anyText _ ih =>
    cases h' with
    | anyText hrest => rw [ih hrest]
    | char hstar => exact absurd rfl hstar
  | any _ ih =>
    cases h' with
    | any hrest => rw [ih hrest]
    | char _ hmark => exact absurd rfl hmark
  | ofClass hsplit _ ih =>
    cases h' with
    | ofClass hsplit' hrest =>
      rw [hsplit] at hsplit'
      cases hsplit'
      rw [ih hrest]
    | char _ _ hopen =>
      rw [hopen rfl] at hsplit
      cases hsplit
  | char hstar hmark hopen _ ih =>
    cases h' with
    | anyText => exact absurd rfl hstar
    | any => exact absurd rfl hmark
    | ofClass hsplit =>
      rw [hopen rfl] at hsplit
      cases hsplit
    | char _ _ _ hrest => rw [ih hrest]

/-- What a dot and a star mean does not depend on the text before them. -/
theorem append_extension (h : Reads t ps) :
    Reads (t ++ ['.', '*']) (ps ++ [.char '.', .anyText]) := by
  induction h with
  | nil => exact .char (by decide) (by decide) (by decide) (.anyText .nil)
  | anyText _ ih => exact .anyText ih
  | any _ ih => exact .any ih
  | @ofClass t _ _ _ hsplit _ ih =>
    have happend := splitClass_append t (u := ['.', '*']) (by decide) (by decide)
    rw [hsplit] at happend
    exact .ofClass happend ih
  | @char _ t _ hstar hmark hopen _ ih =>
    have happend := splitClass_append t (u := ['.', '*']) (by decide) (by decide)
    refine .char hstar hmark (fun hc => ?_) ih
    rw [hopen hc] at happend
    exact happend

/-- A text whose pattern has characters only stands for itself. -/
theorem eq_map_char (h : Reads t ps) (hchars : ∀ p ∈ ps, ∃ c, p = .char c) : ps = t.map .char := by
  induction h with
  | nil => rfl
  | anyText => simp at hchars
  | any => simp at hchars
  | @ofClass _ body _ _ _ _ _ =>
    obtain ⟨⟨c, hc⟩, -⟩ := List.forall_mem_cons.1 hchars
    obtain ⟨ms, hms | hms⟩ := readClass_eq body <;> simp [hms] at hc
  | char _ _ _ _ ih => rw [ih (List.forall_mem_cons.1 hchars).2, List.map_cons]

/-- A text without wildcards stands for itself. -/
theorem of_plain (h : Reads t ps) (hplain : ∀ c ∈ t, c ≠ '*' ∧ c ≠ '?' ∧ c ≠ '[') :
    ps = t.map .char := by
  apply h.eq_map_char
  induction h with
  | nil => simp
  | anyText => simp at hplain
  | any => simp at hplain
  | ofClass => simp at hplain
  | char _ _ _ _ ih =>
    exact List.forall_mem_cons.2 ⟨⟨_, rfl⟩, ih (List.forall_mem_cons.1 hplain).2⟩

/-- A text whose parts all admit something stands for a text that is no longer and differs from it
unless it has characters only. -/
theorem exists_admits (h : Reads t ps) (hsome : ∀ p ∈ ps, ∃ c, p.admits c = true) (qs : Pattern)
    (u : Text) (hu : admits qs u = true) :
    ∃ w, admits (ps ++ qs) (w ++ u) = true ∧ w.length ≤ t.length ∧
      (w = t → ∀ p ∈ ps, ∃ c, p = .char c) := by
  induction h with
  | nil => exact ⟨[], hu, Nat.le_refl _, by simp⟩
  | anyText _ ih =>
    obtain ⟨w, hw, hlength, -⟩ := ih (List.forall_mem_cons.1 hsome).2
    refine ⟨w, admits_anyText_of_admits hw, Nat.le_succ_of_le hlength, fun heq => ?_⟩
    rw [heq, List.length_cons] at hlength
    omega
  | any _ ih =>
    obtain ⟨w, hw, hlength, -⟩ := ih (List.forall_mem_cons.1 hsome).2
    refine ⟨'a' :: w, ?_, Nat.succ_le_succ hlength, fun heq => by simp at heq⟩
    rw [List.cons_append, List.cons_append, admits_cons_cons (by simp), hw]
    rfl
  | @ofClass _ body _ _ hsplit _ ih =>
    obtain ⟨⟨d, hd⟩, hsome⟩ := List.forall_mem_cons.1 hsome
    obtain ⟨w, hw, hlength, -⟩ := ih hsome
    have hshorter := length_splitClass hsplit
    have hclass : readClass body ≠ .anyText := by
      obtain ⟨ms, hms | hms⟩ := readClass_eq body <;> simp [hms]
    refine ⟨d :: w, ?_, by simp only [List.length_cons]; omega, fun heq => ?_⟩
    · rw [List.cons_append, List.cons_append, admits_cons_cons hclass, hd, hw]
      rfl
    · -- the class took at least two characters
      have := congrArg List.length heq
      simp only [List.length_cons] at this
      omega
  | @char c _ _ _ _ _ _ ih =>
    obtain ⟨w, hw, hlength, hchars⟩ := ih (List.forall_mem_cons.1 hsome).2
    refine ⟨c :: w, ?_, Nat.succ_le_succ hlength, fun heq => ?_⟩
    · rw [List.cons_append, List.cons_append, admits_cons_cons (by simp), hw]
      simp [Part.admits]
    · exact List.forall_mem_cons.2 ⟨⟨c, rfl⟩, hchars (List.cons.inj heq).2⟩

end Reads

theorem read_append_extension (t : Text) :
    read (t ++ ['.', '*']) = read t ++ [.char '.', .anyText] :=
  (reads_read _).unique (reads_read t).append_extension

/-- A pattern with a part that admits no character stands for nothing. -/
theorem admits_eq_false_of_mem {ps : Pattern} {p : Part} (hp : p ∈ ps)
    (hnone : ∀ c, p.admits c = false) (name : Text) : admits ps name = false := by
  induction ps generalizing name with
  | nil => cases hp
  | cons q ps ih =>
    rcases List.mem_cons.1 hp with rfl | htail
    · have hany : p ≠ .anyText := fun h => by simpa [h, Part.admits] using hnone 'a'
      cases name with
      | nil => exact admits_cons_nil hany ps
      | cons c name => rw [admits_cons_cons hany, hnone, Bool.false_and]
    · by_cases hq : q = .anyText
      · subst hq
        have hrest := ih htail
        clear ih
        induction name with
        | nil => rw [admits_anyText_nil, hrest]
        | cons c name ih => rw [admits_anyText_cons, hrest, ih, Bool.or_false]
      · cases name with
        | nil => exact admits_cons_nil hq ps
        | cons c name => rw [admits_cons_cons hq, ih htail, Bool.and_false]

/-- With any extension, a text whose pattern has characters only stands for the names that start with
the text and a dot. -/
theorem admits_extension {t : Text} (h : read t = t.map .char) (name : Text) :
    admits (read (t ++ ['.', '*'])) name = true ↔ t ++ ['.'] <+: name := by
  rw [read_append_extension, h, admits_map_char_append]
  constructor
  · rintro ⟨rest, rfl, hrest⟩
    cases rest with
    | nil => simp [admits_cons_nil] at hrest
    | cons c rest =>
      rw [admits_cons_cons (by simp), Bool.and_eq_true] at hrest
      have hc : c = '.' := by simpa [Part.admits] using hrest.1
      exact ⟨rest, by simp [hc]⟩
  · rintro ⟨rest, rfl⟩
    refine ⟨'.' :: rest, by simp, ?_⟩
    rw [admits_cons_cons (by simp), admits_anyText]
    rfl

/-- The names that a text with any extension stands for all start with the text and a dot, exactly if
the text's pattern has characters only or a class without members. -/
theorem admits_extension_iff (t : Text) :
    (∀ name, admits (read (t ++ ['.', '*'])) name = true → t ++ ['.'] <+: name) ↔
      read t = t.map .char ∨ ∃ p ∈ read t, ∀ c, p.admits c = false := by
  constructor
  · intro h
    by_cases hnone : ∃ p ∈ read t, ∀ c, p.admits c = false
    · exact .inr hnone
    · left
      simp only [not_exists, not_and, not_forall, Bool.not_eq_false] at hnone
      obtain ⟨w, hw, hlength, hchars⟩ :=
        (reads_read t).exists_admits hnone [.char '.', .anyText] ['.'] (by decide)
      have hprefix : t ++ ['.'] <+: w ++ ['.'] := h _ (by rwa [read_append_extension])
      have heq : t ++ ['.'] = w ++ ['.'] := hprefix.eq_of_length_le (by simpa using hlength)
      exact (reads_read t).eq_map_char (hchars (List.append_cancel_right heq).symm)
  · rintro (hread | ⟨p, hp, hnone⟩) name hname
    · exact (admits_extension hread name).1 hname
    · rw [read_append_extension, admits_eq_false_of_mem (List.mem_append_left _ hp) hnone] at hname
      cases hname

end PageExport.Glob
