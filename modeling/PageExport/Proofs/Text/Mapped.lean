import PageExport.Text.Blank

/-!
Texts with each character replaced by another one. What is split off, joined or stripped is the same
before and after, as long as the characters that decide about it keep their places.
-/
namespace PageExport.Text

/-- The character `c` stays as it is, and no other character becomes `c`. -/
def Keeps (f : Char → Char) (c : Char) : Prop := ∀ d, f d = c ↔ d = c

section
variable {f : Char → Char} {p : Char → Bool} (h : ∀ c, p (f c) = p c)
include h

theorem takeWhile_map (t : Text) : (t.map f).takeWhile p = (t.takeWhile p).map f := by
  rw [List.takeWhile_map, funext h (f := p ∘ f)]

theorem dropWhile_map (t : Text) : (t.map f).dropWhile p = (t.dropWhile p).map f := by
  rw [List.dropWhile_map, funext h (f := p ∘ f)]

end

section
variable {f : Char → Char} (h : ∀ c, isBlank (f c) = isBlank c)
include h

theorem leading_map (t : Text) : leading (t.map f) = (leading t).map f := takeWhile_map h t

theorem trailing_map (t : Text) : trailing (t.map f) = (trailing t).map f := by
  rw [trailing, ← List.map_reverse, takeWhile_map h, ← List.map_reverse, trailing]

theorem strip_map (t : Text) : strip (t.map f) = (strip t).map f := by
  rw [strip, stripLeft, dropWhile_map h, stripRight, ← List.map_reverse, dropWhile_map h,
    ← List.map_reverse]
  rfl

end

variable {f : Char → Char}

section
variable {c : Char} (h : Keeps f c)
include h

theorem takeWhile_eq_map (t : Text) :
    (t.map f).takeWhile (· = c) = (t.takeWhile (· = c)).map f :=
  takeWhile_map (p := (· = c)) (fun d => decide_eq_decide.2 (h d)) t

theorem dropWhile_eq_map (t : Text) :
    (t.map f).dropWhile (· = c) = (t.dropWhile (· = c)).map f :=
  dropWhile_map (p := (· = c)) (fun d => decide_eq_decide.2 (h d)) t

theorem head?_map_eq_some_iff (t : Text) : (t.map f).head? = some c ↔ t.head? = some c := by
  cases t with
  | nil => simp
  | cons d t => simpa using h d

theorem getLast?_map_eq_some_iff (t : Text) :
    (t.map f).getLast? = some c ↔ t.getLast? = some c := by
  rw [← List.head?_reverse, ← List.map_reverse, head?_map_eq_some_iff h, List.head?_reverse]

end

theorem map_eq_iff {s : Text} (h : ∀ c ∈ s, Keeps f c) (t : Text) : t.map f = s ↔ t = s := by
  induction s generalizing t with
  | nil => simp
  | cons c s ih =>
    obtain ⟨hc, hs⟩ := List.forall_mem_cons.1 h
    cases t with
    | nil => simp
    | cons d t => simp [hc d, ih hs]

theorem suffix_map_iff {s : Text} (h : ∀ c ∈ s, Keeps f c) (t : Text) :
    s <:+ t.map f ↔ s <:+ t := by
  constructor
  · rintro ⟨u, hu⟩
    obtain ⟨v, w, rfl, -, hw⟩ := List.map_eq_append_iff.1 hu.symm
    rw [(map_eq_iff h w).1 hw]
    exact List.suffix_append v s
  · rintro ⟨u, rfl⟩
    rw [List.map_append, (map_eq_iff h s).2 rfl]
    exact List.suffix_append _ s

theorem join_map (sep : Text) (ts : List Text) :
    (join sep ts).map f = join (sep.map f) (ts.map (List.map f)) := by
  fun_induction join sep ts with
  | case1 => rfl
  | case2 t => rfl
  | case3 t ts hne ih =>
    obtain ⟨u, us, rfl⟩ := List.exists_cons_of_ne_nil (mt (· ▸ rfl) hne : ts ≠ [])
    simp [ih]

theorem split_map {sep : Char} (h : Keeps f sep) (t : Text) :
    split sep (t.map f) = (split sep t).map (List.map f) := by
  induction t with
  | nil => rfl
  | cons c t ih =>
    obtain ⟨l, ls, hl⟩ := List.exists_cons_of_ne_nil (split_ne_nil sep t)
    by_cases hc : c = sep
    · simp [split, hc, (h sep).2 rfl, ih]
    · simp [split, hc, mt (h c).1 hc, ih, hl]

theorem lines_map (h : Keeps f '\n') (t : Text) : lines (t.map f) = (lines t).map (List.map f) :=
  split_map h t

theorem unlines_map (h : Keeps f '\n') (ls : List Text) :
    unlines (ls.map (List.map f)) = (unlines ls).map f := by
  rw [unlines, unlines, join_map, List.map_singleton, (h '\n').2 rfl]

theorem replaceChar_map {c : Char} (h : Keeps f c) {by_ : Text} (hb : by_.map f = by_) (t : Text) :
    replaceChar c by_ (t.map f) = (replaceChar c by_ t).map f := by
  simp only [replaceChar, List.flatMap_map, List.map_flatMap]
  congr 1
  funext d
  by_cases hd : d = c
  · simp [hd, (h c).2 rfl, hb]
  · simp [hd, mt (h d).1 hd]

end PageExport.Text
