import PageExport.Proofs.Markdown.Flanking

/-!
Destinations of links and their reader. A destination between angle brackets goes on to the next bracket,
one without them to the first place where it has closed all parentheses that it opened. A backslash takes
the punctuation behind it along, whether it was meant to or not: the end of a destination, or one of two
parentheses that balance each other.
-/
namespace PageExport.Markdown

/-- Controls of ASCII, and the space. -/
def endsBare (c : Char) : Bool := c.toNat ≤ 0x20 || c.toNat = 0x7F

/-- Takes characters as long as there is a next state, with what a backslash escapes in any state. Returns
what was taken, the last state, and what is left. -/
def readWhile {σ : Type} (step : σ → Char → Option σ) (s : σ) : Text → Text × σ × Text
  | [] => ([], s, [])
  | '\\' :: c :: t =>
    if isAsciiPunctuation c then
      let r := readWhile step s t
      ('\\' :: c :: r.1, r.2)
    else match step s '\\' with
      | some s =>
        let r := readWhile step s (c :: t)
        ('\\' :: r.1, r.2)
      | none => ([], s, '\\' :: c :: t)
  | c :: t =>
    match step s c with
    | some s =>
      let r := readWhile step s t
      (c :: r.1, r.2)
    | none => ([], s, c :: t)

/-- Nothing stops inside brackets but another bracket or a line break. -/
def stepInside (_ : Unit) (c : Char) : Option Unit :=
  if c = '<' || c = '>' || c = '\n' || c = '\r' then none else some ()

/-- The number of parentheses that are open behind a character. -/
def stepNested (depth : Nat) (c : Char) : Option Nat :=
  if c = '(' then some (depth + 1)
  else if c = ')' then (if depth = 0 then none else some (depth - 1))
  else if endsBare c then none
  else some depth

/-- The text up to a closing bracket, and what is behind the bracket. -/
def readBracketed (t : Text) : Option (Text × Text) :=
  match readWhile stepInside () t with
  | (u, _, '>' :: rest) => some (u, rest)
  | _ => none

/-- The text up to the first place where all parentheses are closed, and what is left there. -/
def readBare (t : Text) : Option (Text × Text) :=
  match readWhile stepNested 0 t with
  | (u, 0, rest) => if u.isEmpty then none else some (u, rest)
  | _ => none

/-- The destination at the start of a text, and what is behind it. -/
def readDestination : Text → Option (Text × Text)
  | '<' :: t => (readBracketed t).map fun p => ('<' :: p.1 ++ ['>'], p.2)
  | t => readBare t

/-- The characters of a text that are not escaped. -/
def unescaped : Text → Text
  | '\\' :: c :: t => if isAsciiPunctuation c then unescaped t else '\\' :: unescaped (c :: t)
  | c :: t => c :: unescaped t
  | [] => []

/-- The character does not escape the one behind it. -/
def Alone (c : Char) (t : Text) : Prop := c = '\\' → ∀ d ∈ t.head?, isAsciiPunctuation d = false

theorem alone_of_ne {c : Char} (hc : c ≠ '\\') (t : Text) : Alone c t := fun h => absurd h hc

/-- A text is read escape by escape, and otherwise character by character. -/
@[elab_as_elim]
theorem escapeInduction {motive : Text → Prop} (nil : motive [])
    (escape : ∀ c t, isAsciiPunctuation c = true → motive t → motive ('\\' :: c :: t))
    (alone : ∀ c t, Alone c t → motive t → motive (c :: t)) (t : Text) : motive t := by
  induction t using unescaped.induct with
  | case1 c t hc ih => exact escape c t hc ih
  | case2 c t hc ih =>
    refine alone '\\' (c :: t) (fun _ d hd => ?_) ih
    obtain rfl : c = d := by simpa using hd
    simpa using hc
  | case3 c t hc ih =>
    refine alone c t (fun hslash d hd => ?_) ih
    obtain ⟨u, rfl⟩ := List.head?_eq_some_iff.1 hd
    exact (hc d u hslash rfl).elim
  | case4 => exact nil

theorem unescaped_escape {c : Char} (hc : isAsciiPunctuation c = true) (t : Text) :
    unescaped ('\\' :: c :: t) = unescaped t := by
  rw [unescaped, if_pos hc]

theorem unescaped_cons {c : Char} {t : Text} (h : Alone c t) : unescaped (c :: t) = c :: unescaped t := by
  cases t with
  | nil => by_cases hc : c = '\\' <;> simp [unescaped]
  | cons d t =>
    by_cases hc : c = '\\'
    · have hd : isAsciiPunctuation d = false := h hc d rfl
      rw [hc, unescaped, if_neg (by simp [hd])]
    · rw [unescaped]
      exact fun _ _ hslash _ => hc hslash

/-- Only punctuation can be escaped. -/
theorem mem_unescaped {c : Char} (hc : isAsciiPunctuation c = false) (t : Text) :
    c ∈ unescaped t ↔ c ∈ t := by
  induction t using escapeInduction with
  | nil => rfl
  | escape d t hd ih =>
    have hslash : c ≠ '\\' := by
      rintro rfl
      cases hc
    have hne : c ≠ d := by
      rintro rfl
      rw [hc] at hd
      cases hd
    rw [unescaped_escape hd, ih]
    simp [hslash, hne]
  | alone d t hd ih => rw [unescaped_cons hd, List.mem_cons, ih, List.mem_cons]

theorem unescaped_subset (t : Text) : unescaped t ⊆ t := by
  induction t using escapeInduction with
  | nil => exact List.Subset.refl _
  | escape c t hc ih =>
    rw [unescaped_escape hc]
    exact fun d hd => List.mem_cons_of_mem _ (List.mem_cons_of_mem _ (ih hd))
  | alone c t hc ih =>
    rw [unescaped_cons hc]
    exact List.cons_subset_cons c ih

theorem unescaped_append {t : Text} (h : '\\' ∉ t) (u : Text) : unescaped (t ++ u) = t ++ unescaped u := by
  induction t with
  | nil => rfl
  | cons c t ih =>
    obtain ⟨hc, ht⟩ := not_or.1 (mt List.mem_cons.2 h)
    rw [List.cons_append, unescaped_cons (alone_of_ne (Ne.symm hc) _), ih ht, List.cons_append]

/-- The last backslash would escape what is put behind the text. -/
def Dangles (t : Text) : Prop := (unescaped t).getLast? = some '\\'

theorem dangles_escape {c : Char} (hc : isAsciiPunctuation c = true) (t : Text) :
    Dangles ('\\' :: c :: t) ↔ Dangles t := by
  rw [Dangles, Dangles, unescaped_escape hc]

theorem dangles_append {t : Text} (h : '\\' ∉ t) (u : Text) : Dangles (t ++ u) ↔ Dangles u := by
  have hlast : t.getLast? ≠ some '\\' := fun hlast => h (List.mem_of_getLast? hlast)
  unfold Dangles
  rw [unescaped_append h, List.getLast?_append]
  cases hu : (unescaped u).getLast? <;> simp [hlast]

theorem dangles_cons {c : Char} {t : Text} (h : Alone c t) (ht : c = '\\' → t ≠ []) :
    Dangles (c :: t) ↔ Dangles t := by
  by_cases hc : c = '\\'
  · obtain ⟨d, u, rfl⟩ := List.exists_cons_of_ne_nil (ht hc)
    have hd : d ≠ '\\' := by
      rintro rfl
      exact absurd (h hc '\\' rfl) (by decide)
    unfold Dangles
    rw [unescaped_cons h, unescaped_cons (alone_of_ne hd u), List.getLast?_cons_cons]
  · exact dangles_append (t := [c]) (by simpa using Ne.symm hc) t

section
variable {σ : Type} {step : σ → Char → Option σ} {s s' : σ} {x : Char} {rest t : Text}

theorem readWhile_escape {c : Char} (hc : isAsciiPunctuation c = true) (t : Text) :
    readWhile step s ('\\' :: c :: t) =
      ('\\' :: c :: (readWhile step s t).1, (readWhile step s t).2) := by
  rw [readWhile, if_pos hc]

theorem readWhile_cons {c : Char} (h : Alone c t) :
    readWhile step s (c :: t) = match step s c with
      | some s => (c :: (readWhile step s t).1, (readWhile step s t).2)
      | none => ([], s, c :: t) := by
  by_cases hc : c = '\\'
  · subst hc
    cases t with
    | nil => rfl
    | cons d t =>
      have hd : isAsciiPunctuation d = false := h rfl d rfl
      rw [readWhile, if_neg (by simp [hd])]
  · rw [readWhile]
    exact fun _ _ hslash _ => hc hslash

/-- Just those texts are read up to a character behind them whose unescaped characters have next states
while that character has none, and which do not escape it. -/
theorem readWhile_append_iff (hx : isAsciiPunctuation x = true) (hslash : x ≠ '\\') (t : Text) :
    readWhile step s (t ++ x :: rest) = (t, s', x :: rest) ↔
      (unescaped t).foldlM step s = some s' ∧ step s' x = none ∧ ¬Dangles t := by
  induction t using escapeInduction generalizing s with
  | nil =>
    have hnil : unescaped [] = [] ∧ ¬Dangles [] := ⟨rfl, nofun⟩
    rw [List.nil_append, readWhile_cons (alone_of_ne hslash rest), hnil.1, List.foldlM_nil]
    cases hs : step s x with
    | none =>
      have hsame : some s = some s' → step s' x = none := by
        rintro ⟨⟩
        exact hs
      simpa [hnil.2] using hsame
    | some s₁ =>
      have hsame : some s = some s' → step s' x ≠ none := by
        rintro ⟨⟩
        simp [hs]
      simpa [hnil.2] using hsame
  | escape c t hc ih =>
    rw [unescaped_escape hc, dangles_escape hc, ← ih, List.cons_append, List.cons_append,
      readWhile_escape hc]
    simp [Prod.ext_iff]
  | alone c t hc ih =>
    by_cases hend : c = '\\' ∧ t = []
    · -- the backslash takes the character behind it along
      obtain ⟨rfl, rfl⟩ := hend
      have hdangles : Dangles ['\\'] := rfl
      rw [List.cons_append, List.nil_append, readWhile_escape hx]
      simp [hdangles]
    · have hnext : c = '\\' → t ≠ [] := fun h ht => hend ⟨h, ht⟩
      have halone : Alone c (t ++ x :: rest) := by
        intro h d hd
        rw [List.head?_append_of_ne_nil _ (hnext h)] at hd
        exact hc h d hd
      rw [unescaped_cons hc, dangles_cons hc hnext, List.cons_append, readWhile_cons halone,
        List.foldlM_cons]
      cases hs : step s c with
      | none => simp
      | some s₁ => simpa [Prod.ext_iff] using ih

end

theorem foldlM_stepInside_iff (t : Text) : t.foldlM stepInside () = some () ↔
    '<' ∉ t ∧ '>' ∉ t ∧ '\n' ∉ t ∧ '\r' ∉ t := by
  induction t with
  | nil => simp
  | cons c t ih =>
    rw [List.foldlM_cons]
    unfold stepInside at ih ⊢
    split
    · next h =>
      simp only [Bool.or_eq_true, decide_eq_true_eq] at h
      rcases h with ((h | h) | h) | h <;> simp [h]
    · next h =>
      simp only [Bool.or_eq_true, decide_eq_true_eq, not_or] at h
      obtain ⟨⟨⟨h₁, h₂⟩, h₃⟩, h₄⟩ := h
      simpa [Ne.symm h₁, Ne.symm h₂, Ne.symm h₃, Ne.symm h₄] using ih

/-- Inside `depth` open parentheses the text closes these and those it opens, and none before it is open. -/
def Balances (depth : Nat) (t : Text) : Prop :=
  t.count ')' = depth + t.count '(' ∧ ∀ u, u <+: t → u.count ')' ≤ depth + u.count '('

theorem balances_nil (depth : Nat) : Balances depth [] ↔ depth = 0 := by
  simp [Balances, eq_comm]

/-- A further character in front is a step to another depth, if there are parentheses left to close. -/
theorem balances_cons (depth : Nat) (c : Char) (t : Text) : Balances depth (c :: t) ↔
    if c = '(' then Balances (depth + 1) t
    else if c = ')' then 0 < depth ∧ Balances (depth - 1) t
    else Balances depth t := by
  have hfront (P : Text → Prop) :
      (∀ u, u <+: c :: t → P u) ↔ P [] ∧ ∀ u, u <+: t → P (c :: u) := by
    constructor
    · exact fun h => ⟨h [] List.nil_prefix, fun u hu => h _ (List.cons_prefix_cons.2 ⟨rfl, hu⟩)⟩
    · rintro ⟨hnil, hcons⟩ u hu
      rcases List.prefix_cons_iff.1 hu with rfl | ⟨v, rfl, hv⟩
      · exact hnil
      · exact hcons v hv
  unfold Balances
  rw [hfront]
  split
  · next h =>
    subst h
    simp [Nat.add_assoc, Nat.add_comm 1]
  · split
    · next h =>
      subst h
      have hclosed (u : Text) : (')' :: u).count ')' = u.count ')' + 1 := List.count_cons_self
      have hopened (u : Text) : (')' :: u).count '(' = u.count '(' := List.count_cons_of_ne (by decide)
      simp only [hclosed, hopened, List.count_nil]
      constructor
      · rintro ⟨hall, -, hparts⟩
        have hfirst := hparts [] List.nil_prefix
        simp only [List.count_nil] at hfirst
        refine ⟨by omega, by omega, fun u hu => ?_⟩
        have := hparts u hu
        omega
      · rintro ⟨hdepth, hall, hparts⟩
        refine ⟨by omega, Nat.zero_le _, fun u hu => ?_⟩
        have := hparts u hu
        omega
    · next h₁ h₂ => simp [h₁, h₂]

theorem foldlM_stepNested_iff (depth : Nat) (t : Text) : t.foldlM stepNested depth = some 0 ↔
    (∀ c ∈ t, endsBare c = false) ∧ Balances depth t := by
  induction t generalizing depth with
  | nil => simp [balances_nil]
  | cons c t ih =>
    rw [List.foldlM_cons, List.forall_mem_cons, balances_cons]
    by_cases hopen : c = '('
    · have hstep : stepNested depth '(' = some (depth + 1) := rfl
      have hc : endsBare '(' = false := rfl
      simpa [hopen, hstep, hc] using ih (depth + 1)
    by_cases hclose : c = ')'
    · have hc : endsBare ')' = false := rfl
      cases depth with
      | zero =>
        have hstep : stepNested 0 ')' = none := rfl
        simp [hclose, hstep]
      | succ depth =>
        have hstep : stepNested (depth + 1) ')' = some depth := rfl
        simpa [hclose, hstep, hc] using ih depth
    · have hstep : stepNested depth c = if endsBare c then none else some depth := by
        rw [stepNested, if_neg hopen, if_neg hclose]
      rw [hstep, if_neg hopen, if_neg hclose]
      cases hc : endsBare c with
      | true => simp
      | false => simpa using ih depth

/-- Between brackets a text is read whole that has no bracket without a backslash, no line break, and no
backslash that dangles. -/
structure FitsBrackets (t : Text) : Prop where
  brackets : '<' ∉ unescaped t ∧ '>' ∉ unescaped t
  breaks : '\n' ∉ t ∧ '\r' ∉ t
  dangles : ¬Dangles t

/-- Without brackets a text is read whole that does not start like a destination in brackets, has no control
and no space, balances the parentheses without a backslash, and has no backslash that dangles. -/
structure FitsBare (t : Text) : Prop where
  ne_nil : t ≠ []
  head : t.head? ≠ some '<'
  chars : ∀ c ∈ t, endsBare c = false
  balances : Balances 0 (unescaped t)
  dangles : ¬Dangles t

/-- A text that is one destination. -/
def IsDestination (d : Text) : Prop := (∃ t, d = '<' :: t ++ ['>'] ∧ FitsBrackets t) ∨ FitsBare d

theorem not_endsBare_of_punctuation {c : Char} (h : isAsciiPunctuation c = true) : endsBare c = false := by
  simp only [isAsciiPunctuation, List.any_cons, List.any_nil, Bool.or_false, Bool.or_eq_true,
    Bool.and_eq_true, decide_eq_true_eq] at h
  simp only [endsBare, Bool.or_eq_false_iff, decide_eq_false_iff_not]
  omega

theorem forall_not_endsBare_iff (t : Text) :
    (∀ c ∈ unescaped t, endsBare c = false) ↔ ∀ c ∈ t, endsBare c = false := by
  have hmem {c : Char} (hc : endsBare c = true) : c ∈ unescaped t ↔ c ∈ t := by
    apply mem_unescaped
    rw [← Bool.not_eq_true]
    intro h
    rw [not_endsBare_of_punctuation h] at hc
    cases hc
  constructor <;> intro h c hc <;> rw [← Bool.not_eq_true] <;> intro hends
  · exact absurd hends (by simp [h c ((hmem hends).2 hc)])
  · exact absurd hends (by simp [h c ((hmem hends).1 hc)])

theorem readBracketed_eq_some_iff {t u rest : Text} : readBracketed t = some (u, rest) ↔
    readWhile stepInside () t = (u, (), '>' :: rest) := by
  unfold readBracketed
  split
  · next v s r h => simp [h, Prod.ext_iff]
  · next h =>
    constructor
    · intro hnone
      cases hnone
    · intro hread
      exact absurd hread (h u () rest)

theorem readBare_eq_some_iff {t u rest : Text} : readBare t = some (u, rest) ↔
    u ≠ [] ∧ readWhile stepNested 0 t = (u, 0, rest) := by
  unfold readBare
  split
  · next v r h =>
    rw [h]
    by_cases hv : v = []
    · subst hv
      simp +contextual [Prod.ext_iff, eq_comm]
    · simp +contextual [hv, Prod.ext_iff]
      rintro rfl rfl
      exact hv
  · next h =>
    constructor
    · intro hnone
      cases hnone
    · intro hread
      exact absurd hread.2 (h u rest)

theorem readDestination_of_head?_ne {t : Text} (h : t.head? ≠ some '<') :
    readDestination t = readBare t := by
  unfold readDestination
  split
  · exact absurd rfl h
  · rfl

/-- A destination is read to its end, and just a destination is. -/
theorem readDestination_append_iff (d rest : Text) :
    readDestination (d ++ ')' :: rest) = some (d, ')' :: rest) ↔ IsDestination d := by
  by_cases hhead : d.head? = some '<'
  · obtain ⟨u, rfl⟩ := List.head?_eq_some_iff.1 hhead
    have hread (v : Text) :
        readBracketed (v ++ '>' :: ')' :: rest) = some (v, ')' :: rest) ↔ FitsBrackets v := by
      have hstop : stepInside () '>' = none := rfl
      rw [readBracketed_eq_some_iff, readWhile_append_iff (by decide) (by decide), foldlM_stepInside_iff,
        mem_unescaped (c := '\n') (by decide), mem_unescaped (c := '\r') (by decide)]
      constructor
      · exact fun h => ⟨⟨h.1.1, h.1.2.1⟩, h.1.2.2, h.2.2⟩
      · exact fun h => ⟨⟨h.brackets.1, h.brackets.2, h.breaks⟩, hstop, h.dangles⟩
    rw [List.cons_append, readDestination]
    constructor
    · intro h
      obtain ⟨⟨v, r⟩, hv, heq⟩ := Option.map_eq_some_iff.1 h
      simp only [Prod.mk.injEq, List.cons_append, List.cons.injEq, true_and] at heq
      obtain ⟨rfl, rfl⟩ := heq
      rw [List.append_assoc] at hv
      exact .inl ⟨v, rfl, (hread v).1 hv⟩
    · rintro (⟨v, hv, hfits⟩ | hbare)
      · obtain rfl : u = v ++ ['>'] := (List.cons.inj hv).2
        rw [List.append_assoc]
        exact Option.map_eq_some_iff.2 ⟨_, (hread v).2 hfits, rfl⟩
      · exact absurd rfl hbare.head
  · have hhead' : (d ++ ')' :: rest).head? ≠ some '<' := by
      cases d with
      | nil => simp
      | cons c d => simpa using hhead
    have hstop : stepNested 0 ')' = none := rfl
    rw [readDestination_of_head?_ne hhead', readBare_eq_some_iff,
      readWhile_append_iff (by decide) (by decide), foldlM_stepNested_iff, forall_not_endsBare_iff]
    constructor
    · rintro ⟨hne, ⟨hchars, hbalances⟩, -, hdangles⟩
      exact .inr ⟨hne, hhead, hchars, hbalances, hdangles⟩
    · rintro (⟨t, rfl, -⟩ | h)
      · exact absurd rfl hhead
      · exact ⟨h.ne_nil, ⟨h.chars, h.balances⟩, hstop, h.dangles⟩

/-- Nothing in the text breaks out of the destination that it is written as: no backslash dangles; between
brackets, no unescaped bracket opens and no line ends; without brackets, no character ends the destination and
the unescaped parentheses balance. -/
def Contained (url : Text) : Prop :=
  ¬Dangles url ∧
    if needsBrackets url then '<' ∉ unescaped url ∧ '\n' ∉ url ∧ '\r' ∉ url
    else (∀ c ∈ url, endsBare c = false) ∧ Balances 0 (unescaped url)

/-- A text as it stands between brackets. -/
def bracketed (url : Text) : Text := Text.replaceChar '>' ['%', '3', 'E'] url

theorem bracketed_cons (c : Char) (t : Text) :
    bracketed (c :: t) = (if c = '>' then ['%', '3', 'E'] else [c]) ++ bracketed t := by
  rw [bracketed, Text.replaceChar, List.flatMap_cons]
  rfl

theorem bracketed_cons_of_ne {c : Char} (hc : c ≠ '>') (t : Text) :
    bracketed (c :: t) = c :: bracketed t := by
  rw [bracketed_cons, if_neg hc]
  rfl

theorem mem_bracketed_iff {c : Char} (hc : c ∉ ['%', '3', 'E']) (t : Text) :
    c ∈ bracketed t ↔ c ∈ t ∧ c ≠ '>' := by
  induction t with
  | nil => simp [bracketed, Text.replaceChar]
  | cons d t ih =>
    by_cases hd : d = '>'
    · rw [bracketed_cons, if_pos hd, List.mem_append, ih, or_iff_right hc, List.mem_cons, hd]
      constructor
      · exact fun h => ⟨.inr h.1, h.2⟩
      · exact fun h => ⟨h.1.resolve_left h.2, h.2⟩
    · rw [bracketed_cons_of_ne hd, List.mem_cons, ih, List.mem_cons]
      constructor
      · rintro (rfl | h)
        · exact ⟨.inl rfl, hd⟩
        · exact ⟨.inr h.1, h.2⟩
      · exact fun h => h.1.imp_right fun ht => ⟨ht, h.2⟩

theorem alone_bracketed {c : Char} {t : Text} (h : Alone c t) : Alone c (bracketed t) := by
  intro hc d hd
  cases t with
  | nil => cases hd
  | cons e t =>
    have he : isAsciiPunctuation e = false := h hc e rfl
    have hclosing : e ≠ '>' := by
      rintro rfl
      cases he
    rw [bracketed_cons_of_ne hclosing] at hd
    obtain rfl : e = d := by simpa using hd
    exact he

/-- The brackets that close are the only characters for which others are written, and these are no
brackets. -/
theorem mem_unescaped_bracketed (t : Text) : '<' ∈ unescaped (bracketed t) ↔ '<' ∈ unescaped t := by
  induction t using escapeInduction with
  | nil => rfl
  | escape c t hc ih =>
    rw [bracketed_cons_of_ne (by decide), unescaped_escape hc, ← ih]
    by_cases hclosing : c = '>'
    · rw [bracketed_cons, if_pos hclosing, List.cons_append, unescaped_escape (by decide),
        unescaped_append (by decide), List.mem_append, or_iff_right (by decide)]
    · rw [bracketed_cons_of_ne hclosing, unescaped_escape hc]
  | alone c t hc ih =>
    rw [unescaped_cons hc, List.mem_cons, ← ih]
    by_cases hclosing : c = '>'
    · rw [bracketed_cons, if_pos hclosing, unescaped_append (by decide), List.mem_append,
        or_iff_right (by decide), or_iff_right (by rw [hclosing]; decide)]
    · rw [bracketed_cons_of_ne hclosing, unescaped_cons (alone_bracketed hc), List.mem_cons]

theorem dangles_bracketed (t : Text) : Dangles (bracketed t) ↔ Dangles t := by
  induction t using escapeInduction with
  | nil => rfl
  | escape c t hc ih =>
    rw [bracketed_cons_of_ne (by decide), dangles_escape hc, ← ih]
    by_cases hclosing : c = '>'
    · rw [bracketed_cons, if_pos hclosing, List.cons_append, dangles_escape (by decide),
        dangles_append (by decide)]
    · rw [bracketed_cons_of_ne hclosing, dangles_escape hc]
  | alone c t hc ih =>
    by_cases hclosing : c = '>'
    · have hslash : c = '\\' → t ≠ [] := fun h => absurd (hclosing.symm.trans h) (by decide)
      rw [bracketed_cons, if_pos hclosing, dangles_append (by decide), dangles_cons hc hslash, ih]
    · by_cases hend : t = []
      · rw [hend, bracketed_cons_of_ne hclosing]
        rfl
      · have hne : bracketed t ≠ [] := by
          obtain ⟨d, u, rfl⟩ := List.exists_cons_of_ne_nil hend
          rw [bracketed_cons]
          split <;> simp
        rw [bracketed_cons_of_ne hclosing, dangles_cons (alone_bracketed hc) fun _ => hne,
          dangles_cons hc fun _ => hend, ih]

theorem fitsBrackets_bracketed_iff (url : Text) : FitsBrackets (bracketed url) ↔
    ¬Dangles url ∧ '<' ∉ unescaped url ∧ '\n' ∉ url ∧ '\r' ∉ url := by
  have hclosing : '>' ∉ unescaped (bracketed url) := fun h =>
    ((mem_bracketed_iff (by decide) url).1 (unescaped_subset _ h)).2 rfl
  have hbreaks : '\n' ∉ bracketed url ∧ '\r' ∉ bracketed url ↔ '\n' ∉ url ∧ '\r' ∉ url := by
    rw [mem_bracketed_iff (by decide), mem_bracketed_iff (by decide)]
    simp
  rw [← mem_unescaped_bracketed, ← hbreaks, ← dangles_bracketed]
  constructor
  · exact fun h => ⟨h.dangles, h.brackets.1, h.breaks⟩
  · exact fun h => ⟨⟨h.2.1, hclosing⟩, h.2.2, h.1⟩

theorem isDestination_linkDestination_iff (url : Text) :
    IsDestination (linkDestination url) ↔ Contained url := by
  unfold linkDestination Contained
  split
  · rw [← fitsBrackets_bracketed_iff]
    constructor
    · rintro (⟨t, ht, hfits⟩ | hbare)
      · obtain rfl : bracketed url = t := List.append_cancel_right (List.cons.inj ht).2
        exact hfits
      · exact absurd rfl hbare.head
    · exact fun h => .inl ⟨bracketed url, rfl, h⟩
  · next h =>
    simp only [needsBrackets, Bool.or_eq_true, not_or, List.isEmpty_iff, List.any_eq_true, not_exists,
      not_and, decide_eq_true_eq] at h
    obtain ⟨⟨hne, hplain⟩, -⟩ := h
    have hhead : url.head? ≠ some '<' := fun hhead =>
      (hplain '<' (List.mem_of_mem_head? hhead)).1.2 rfl
    constructor
    · rintro (⟨t, rfl, -⟩ | hfits)
      · exact absurd rfl hhead
      · exact ⟨hfits.dangles, hfits.chars, hfits.balances⟩
    · exact fun h => .inr ⟨hne, hhead, h.2.1, h.2.2, h.1⟩

/-- The destination that a text is written as is read to its end just if nothing in the text breaks out
of it. -/
theorem readDestination_linkDestination_iff (url rest : Text) :
    (readDestination (linkDestination url ++ ')' :: rest) = some (linkDestination url, ')' :: rest) ↔
      IsDestination (linkDestination url)) ∧
    (IsDestination (linkDestination url) ↔ Contained url) :=
  ⟨readDestination_append_iff _ rest, isDestination_linkDestination_iff url⟩

/-- Parentheses that are closed before they are opened are as many on both sides, so no brackets are put
around them, and the first one ends the link. -/
theorem readDestination_closed_first :
    phrasing {} none none [.link ")(" none [.text "s"]] = "[s]()()".toList ∧
    linkDestination ")(".toList = ")(".toList ∧
    readDestination (linkDestination ")(".toList ++ [')']) = none := by
  refine ⟨?_, ?_, ?_⟩ <;> decide +kernel

end PageExport.Markdown
