import Mathlib.Data.List.TakeWhile
import PageExport.Proofs.Snapshot.Subtree
import PageExport.Snapshot.Blank

/-!
What trimming leaves of a tree. It takes away just the blank blocks that pages and containers start with,
where these are themselves inside pages and containers only; all else keeps its order, its parent and its
contents, and a second trimming finds nothing to do.
-/
namespace PageExport.Block

/-- The block is blank, whatever is noted about its text. -/
def blank (b : Block) : Bool := b.isBlank.value

/-- The tree without its blank starts, whatever is noted about its texts. -/
def trimmed (b : Block) : Block := b.trim.value

theorem value_trimEach (bs : List Block) : (trimEach bs).value = bs.map trimmed := by
  induction bs with
  | nil => simp [trimEach]
  | cons b bs ih => simp [trimEach, ih, trimmed]

theorem value_trimAfterBlank (bs : List Block) :
    (trimAfterBlank bs).value = (bs.dropWhile blank).map trimmed := by
  induction bs with
  | nil => simp [trimAfterBlank]
  | cons b bs ih =>
    rw [trimAfterBlank, Logged.value_bind]
    by_cases hb : b.blank
    · have hvalue : b.isBlank.value = true := hb
      rw [if_pos hvalue, List.dropWhile_cons_of_pos hb, ih]
    · have hvalue : ¬ b.isBlank.value = true := hb
      rw [if_neg hvalue, List.dropWhile_cons_of_neg hb]
      simp [value_trimEach, trimmed]

/-- A page or a container loses the blank blocks it starts with, and its other children are trimmed. -/
theorem trimmed_of_isTrimmed {b : Block} (h : b.isTrimmed = true) :
    b.trimmed = { b with children := (b.children.dropWhile blank).map trimmed } := by
  obtain ⟨id, tag, props, children⟩ := b
  rw [trimmed, trim]
  simp [h, value_trimAfterBlank]

/-- Any other block is left alone with all that is in it. -/
theorem trimmed_of_not_isTrimmed {b : Block} (h : b.isTrimmed = false) : b.trimmed = b := by
  obtain ⟨id, tag, props, children⟩ := b
  rw [trimmed, trim]
  simp [h]

theorem isTrimmed_eq_of_tag {b b' : Block} (h : b'.tag = b.tag) : b'.isTrimmed = b.isTrimmed := by
  have hflavour : b'.flavour = b.flavour := by rw [flavour, flavour, h]
  simp only [isTrimmed, hflavour]

/-- The block has the id, the tag and the props of another one. -/
structure SameHead (b b' : Block) : Prop where
  id : b'.id = b.id
  tag : b'.tag = b.tag
  props : b'.props = b.props

theorem sameHead_trimmed (b : Block) : SameHead b b.trimmed := by
  cases h : b.isTrimmed with
  | true =>
    rw [trimmed_of_isTrimmed h]
    exact ⟨rfl, rfl, rfl⟩
  | false =>
    rw [trimmed_of_not_isTrimmed h]
    exact ⟨rfl, rfl, rfl⟩

theorem isTrimmed_trimmed (b : Block) : b.trimmed.isTrimmed = b.isTrimmed :=
  isTrimmed_eq_of_tag (sameHead_trimmed b).tag

/-- A blank block is a paragraph without children. -/
theorem mayBeBlank_of_blank {b : Block} (h : b.blank = true) : b.mayBeBlank = true := by
  unfold blank isBlank at h
  by_contra hmay
  rw [if_neg hmay] at h
  cases h

theorem children_of_blank {b : Block} (h : b.blank = true) : b.children = [] := by
  have hmay := mayBeBlank_of_blank h
  simp only [mayBeBlank, Bool.and_eq_true, List.isEmpty_iff] at hmay
  exact hmay.1.2

theorem not_isTrimmed_of_blank {b : Block} (h : b.blank = true) : b.isTrimmed = false := by
  have hmay := mayBeBlank_of_blank h
  simp only [mayBeBlank, Bool.and_eq_true, decide_eq_true_eq] at hmay
  simp [isTrimmed, hmay.1.1, Flavour.isContainer]

/-- Trimming makes no block blank: the blocks that it changes are pages and containers. -/
theorem blank_trimmed (b : Block) : b.trimmed.blank = b.blank := by
  cases h : b.isTrimmed with
  | false => rw [trimmed_of_not_isTrimmed h]
  | true =>
    have hnot {c : Block} (hc : c.isTrimmed = true) : c.blank = false := by
      by_contra hblank
      rw [not_isTrimmed_of_blank (Bool.of_not_eq_false hblank)] at hc
      cases hc
    rw [hnot h, hnot ((isTrimmed_trimmed b).trans h)]

theorem dropWhile_blank_map_trimmed (bs : List Block) :
    (bs.map trimmed).dropWhile blank = (bs.dropWhile blank).map trimmed := by
  have hcomp : blank ∘ trimmed = blank := funext blank_trimmed
  rw [List.dropWhile_map, hcomp]

mutual

theorem trimmed_trimmed : (b : Block) → b.trimmed.trimmed = b.trimmed
  | ⟨id, tag, props, children⟩ => by
    have hchildren := trimmed_trimmed_of_mem children
    generalize hb : (⟨id, tag, props, children⟩ : Block) = b
    cases h : b.isTrimmed with
    | false => rw [trimmed_of_not_isTrimmed h, trimmed_of_not_isTrimmed h]
    | true =>
      have htwice : ((children.dropWhile blank).map trimmed).map trimmed =
          (children.dropWhile blank).map trimmed := by
        rw [List.map_map]
        exact List.map_congr_left fun c hc => hchildren c ((List.dropWhile_sublist _).subset hc)
      rw [trimmed_of_isTrimmed ((isTrimmed_trimmed b).trans h), trimmed_of_isTrimmed h, ← hb]
      simp only
      have hstart : (children.dropWhile blank).dropWhile blank = children.dropWhile blank :=
        List.dropWhile_eq_self_iff.2 (List.dropWhile_get_zero_not blank children)
      rw [dropWhile_blank_map_trimmed, hstart, htwice]

theorem trimmed_trimmed_of_mem : (bs : List Block) → ∀ b ∈ bs, b.trimmed.trimmed = b.trimmed
  | [] => by simp
  | b :: bs => List.forall_mem_cons.2 ⟨trimmed_trimmed b, trimmed_trimmed_of_mem bs⟩

end

/-- How many of its children a block loses. -/
def lost (b : Block) : Nat := if b.isTrimmed then (b.children.takeWhile blank).length else 0

/-- Where the block at a position is after trimming, if it is still there. In what is not trimmed nothing
moves. -/
def newPosition? : List Nat → Block → Option (List Nat)
  | [], _ => some []
  | i :: path, b =>
    if b.isTrimmed then
      if i < b.lost then none
      else (b.children[i]?.bind (newPosition? path)).map ((i - b.lost) :: ·)
    else some (i :: path)

/-- All that is around a position is trimmed, and the block there is blank with all its siblings before
it. -/
structure LeadsBlank (t : Block) (path : List Nat) : Prop where
  ne_nil : path ≠ []
  around : ∀ above a, above <+: path → above ≠ path → t.at? above = some a → a.isTrimmed = true
  siblings : ∀ above i j b, path = above ++ [i] → j ≤ i → t.at? (above ++ [j]) = some b →
    b.blank = true

variable {t b b' c : Block} {i j : Nat} {path path' : List Nat}

theorem newPosition?_of_not_isTrimmed (h : t.isTrimmed = false) (path : List Nat) :
    newPosition? path t = some path := by
  cases path with
  | nil => rfl
  | cons i path => rw [newPosition?, if_neg (by simp [h])]

theorem newPosition?_cons (h : t.isTrimmed = true) (hc : t.children[i]? = some c) :
    newPosition? (i :: path) t =
      if i < t.lost then none else (newPosition? path c).map ((i - t.lost) :: ·) := by
  rw [newPosition?, if_pos h, hc]
  rfl

theorem lost_of_isTrimmed (h : t.isTrimmed = true) :
    t.lost = (t.children.takeWhile blank).length := by rw [lost, if_pos h]

theorem lt_length_takeWhile_iff {α : Type} {p : α → Bool} {l : List α} {i : Nat} (hi : i < l.length) :
    i < (l.takeWhile p).length ↔ ∀ j ≤ i, ∀ x, l[j]? = some x → p x = true := by
  induction l generalizing i with
  | nil => cases hi
  | cons y l ih =>
    by_cases hy : p y = true
    · rw [List.takeWhile_cons_of_pos hy]
      cases i with
      | zero => simp [hy]
      | succ i =>
        rw [List.length_cons, Nat.succ_lt_succ_iff, ih (Nat.succ_lt_succ_iff.1 hi)]
        constructor
        · intro h j hj x hx
          cases j with
          | zero => rwa [← Option.some.inj hx]
          | succ j => exact h j (Nat.succ_le_succ_iff.1 hj) x hx
        · exact fun h j hj x hx => h (j + 1) (Nat.succ_le_succ hj) x hx
    · rw [List.takeWhile_cons_of_neg hy]
      simp only [List.length_nil, Nat.not_lt_zero, false_iff]
      exact fun h => hy (h 0 (Nat.zero_le i) y rfl)

/-- The blocks that are lost are those that are blank with all their siblings before them. -/
theorem lt_lost_iff (h : t.isTrimmed = true) (hc : t.children[i]? = some c) :
    i < t.lost ↔ ∀ j ≤ i, ∀ b, t.children[j]? = some b → b.blank = true := by
  rw [lost_of_isTrimmed h]
  exact lt_length_takeWhile_iff (List.getElem?_eq_some_iff.1 hc).1

theorem blank_of_lt_lost (h : t.isTrimmed = true) (hc : t.children[i]? = some c) (hi : i < t.lost) :
    c.blank = true := (lt_lost_iff h hc).1 hi i (Nat.le_refl i) c hc

theorem at?_cons (hc : t.children[i]? = some c) (path : List Nat) :
    t.at? (i :: path) = c.at? path := by simp [at?, hc]

theorem at?_singleton (t : Block) (i : Nat) : t.at? [i] = t.children[i]? := by
  cases hc : t.children[i]? <;> simp [at?, hc]

theorem LeadsBlank.isTrimmed (h : LeadsBlank t path) : t.isTrimmed = true :=
  h.around [] t List.nil_prefix (Ne.symm h.ne_nil) rfl

theorem leadsBlank_singleton_iff (hc : t.children[i]? = some c) :
    LeadsBlank t [i] ↔ t.isTrimmed = true ∧ i < t.lost := by
  constructor
  · intro h
    refine ⟨h.isTrimmed, (lt_lost_iff h.isTrimmed hc).2 fun j hj b hb => ?_⟩
    exact h.siblings [] i j b rfl hj ((at?_singleton t j).trans hb)
  · rintro ⟨htrimmed, hi⟩
    refine ⟨by simp, fun above a hprefix hne ha => ?_, fun above k j b heq hj hb => ?_⟩
    · obtain rfl : above = [] := by
        rcases List.prefix_cons_iff.1 hprefix with rfl | ⟨rest, rfl, hrest⟩
        · rfl
        · exact absurd (by rw [List.prefix_nil.1 hrest]) hne
      cases ha
      exact htrimmed
    · obtain ⟨rfl, hk⟩ := List.append_eq_singleton_iff.1 heq.symm |>.resolve_right (by simp)
      obtain rfl : k = i := by simpa using hk
      exact (lt_lost_iff htrimmed hc).1 hi j hj b ((at?_singleton t j).symm.trans hb)

theorem leadsBlank_cons_cons_iff (hc : t.children[i]? = some c) :
    LeadsBlank t (i :: j :: path) ↔ t.isTrimmed = true ∧ LeadsBlank c (j :: path) := by
  constructor
  · intro h
    refine ⟨h.isTrimmed, by simp, fun above a hprefix hne ha => ?_, fun above k l b heq hl hb => ?_⟩
    · refine h.around (i :: above) a (List.prefix_cons_inj i |>.2 hprefix) (by simpa using hne) ?_
      rwa [at?_cons hc]
    · refine h.siblings (i :: above) k l b (by simp [heq]) hl ?_
      rwa [List.cons_append, at?_cons hc]
  · rintro ⟨htrimmed, h⟩
    refine ⟨by simp, fun above a hprefix hne ha => ?_, fun above k l b heq hl hb => ?_⟩
    · rcases List.prefix_cons_iff.1 hprefix with rfl | ⟨rest, rfl, hrest⟩
      · cases ha
        exact htrimmed
      · rw [at?_cons hc] at ha
        exact h.around rest a hrest (by simpa using hne) ha
    · cases above with
      | nil => simp at heq
      | cons m above =>
        obtain ⟨rfl, hrest⟩ := List.cons.inj heq
        rw [List.cons_append, at?_cons hc] at hb
        exact h.siblings above k l b hrest hl hb

/-- A block is missing exactly if all around it is trimmed and it is blank with all its siblings before
it. -/
theorem newPosition?_eq_none_iff (hb : t.at? path = some b) :
    newPosition? path t = none ↔ LeadsBlank t path := by
  induction path generalizing t with
  | nil => exact iff_of_false (by simp [newPosition?]) fun h => h.ne_nil rfl
  | cons i path ih =>
    obtain ⟨c, hc, hat⟩ := at?_cons_eq_some_iff.1 hb
    cases h : t.isTrimmed with
    | false =>
      rw [newPosition?_of_not_isTrimmed h]
      exact iff_of_false (by simp) fun hlead => by simp [hlead.isTrimmed] at h
    | true =>
      rw [newPosition?_cons h hc]
      cases path with
      | nil =>
        rw [leadsBlank_singleton_iff hc]
        simp [h, newPosition?]
      | cons j path =>
        -- a block that is lost has no children
        have hkept : ¬ i < t.lost := by
          intro hi
          have hnone := children_of_blank (blank_of_lt_lost h hc hi)
          simp [at?, hnone] at hat
        rw [if_neg hkept, Option.map_eq_none_iff, ih hat, leadsBlank_cons_cons_iff hc]
        simp [h]

theorem children_trimmed (h : t.isTrimmed = true) (i : Nat) :
    t.trimmed.children[i]? = (t.children[i + t.lost]?).map trimmed := by
  have hdrop : t.children[i + t.lost]? = (t.children.dropWhile blank)[i]? :=
    calc t.children[i + t.lost]?
        = (t.children.takeWhile blank ++ t.children.dropWhile blank)[i + t.lost]? := by
          rw [List.takeWhile_append_dropWhile]
      _ = (t.children.dropWhile blank)[i]? := by
          rw [lost_of_isTrimmed h, List.getElem?_append_right (Nat.le_add_left _ _),
            Nat.add_sub_cancel]
  rw [trimmed_of_isTrimmed h, hdrop]
  exact List.getElem?_map

/-- The position of what is kept below a page or a container. -/
theorem newPosition?_cons_eq_some (h : t.isTrimmed = true)
    (hpath : newPosition? (i :: path) t = some path') :
    ∃ c rest, t.children[i]? = some c ∧ t.lost ≤ i ∧ newPosition? path c = some rest ∧
      path' = (i - t.lost) :: rest := by
  rw [newPosition?, if_pos h] at hpath
  split at hpath
  · cases hpath
  · next hi =>
    obtain ⟨rest, hrest, rfl⟩ := Option.map_eq_some_iff.1 hpath
    obtain ⟨c, hc, hrest⟩ := Option.bind_eq_some_iff.1 hrest
    exact ⟨c, rest, hc, Nat.not_lt.1 hi, hrest, rfl⟩

/-- What is kept is trimmed if all around it is, and else left alone. -/
theorem at?_trimmed (hb : t.at? path = some b) (hpath : newPosition? path t = some path') :
    t.trimmed.at? path' = some b.trimmed ∨ t.trimmed.at? path' = some b := by
  induction path generalizing t path' with
  | nil =>
    cases hpath
    cases hb
    exact .inl rfl
  | cons i path ih =>
    cases h : t.isTrimmed with
    | false =>
      rw [newPosition?_of_not_isTrimmed h] at hpath
      cases hpath
      rw [trimmed_of_not_isTrimmed h]
      exact .inr hb
    | true =>
      obtain ⟨c, rest, hc, hi, hrest, rfl⟩ := newPosition?_cons_eq_some h hpath
      have hchild : t.trimmed.children[i - t.lost]? = some c.trimmed := by
        rw [children_trimmed h, Nat.sub_add_cancel hi, hc]
        rfl
      rw [at?_cons hc] at hb
      rw [at?_cons hchild]
      exact ih hb hrest

/-- All that is there after trimming was kept. -/
theorem exists_newPosition? (hb : t.trimmed.at? path' = some b') :
    ∃ path b, t.at? path = some b ∧ newPosition? path t = some path' := by
  induction path' generalizing t with
  | nil => exact ⟨[], t, rfl, rfl⟩
  | cons i path' ih =>
    cases h : t.isTrimmed with
    | false =>
      rw [trimmed_of_not_isTrimmed h] at hb
      exact ⟨i :: path', b', hb, newPosition?_of_not_isTrimmed h _⟩
    | true =>
      obtain ⟨c', hc', hb⟩ := at?_cons_eq_some_iff.1 hb
      rw [children_trimmed h] at hc'
      obtain ⟨c, hc, rfl⟩ := Option.map_eq_some_iff.1 hc'
      obtain ⟨path, b, hpath, hrest⟩ := ih hb
      refine ⟨(i + t.lost) :: path, b, by rwa [at?_cons hc], ?_⟩
      rw [newPosition?_cons h hc, if_neg (Nat.not_lt.2 (Nat.le_add_left _ _)), hrest,
        Nat.add_sub_cancel]
      rfl

/-- Different blocks are kept at different positions. -/
theorem newPosition?_injective {path₁ path₂ : List Nat} (h₁ : newPosition? path₁ t = some path')
    (h₂ : newPosition? path₂ t = some path') : path₁ = path₂ := by
  induction path₁ generalizing t path₂ path' with
  | nil =>
    cases h₁
    cases path₂ with
    | nil => rfl
    | cons i path₂ =>
      cases h : t.isTrimmed with
      | false =>
        rw [newPosition?_of_not_isTrimmed h] at h₂
        cases h₂
      | true =>
        obtain ⟨_, _, -, -, -, hnil⟩ := newPosition?_cons_eq_some h h₂
        cases hnil
  | cons i path₁ ih =>
    cases h : t.isTrimmed with
    | false =>
      rw [newPosition?_of_not_isTrimmed h] at h₁ h₂
      exact Option.some.inj (h₁.trans h₂.symm)
    | true =>
      obtain ⟨c, rest, hc, hi, hrest, rfl⟩ := newPosition?_cons_eq_some h h₁
      cases path₂ with
      | nil => cases h₂
      | cons j path₂ =>
        obtain ⟨d, rest', hd, hj, hrest', heq⟩ := newPosition?_cons_eq_some h h₂
        obtain ⟨hindex, rfl⟩ := List.cons.inj heq
        obtain rfl : i = j := by omega
        rw [hc] at hd
        cases hd
        rw [ih hrest hrest']

/-- The children of a block that is kept stay its children in their order, but for the first ones, which
are missing. -/
theorem exists_newPosition?_child (hb : t.at? path = some b)
    (hpath : newPosition? path t = some path') :
    ∃ k, ∀ i < b.children.length,
      newPosition? (path ++ [i]) t = if i < k then none else some (path' ++ [i - k]) := by
  induction path generalizing t path' with
  | nil =>
    obtain rfl : t = b := Option.some.inj hb
    cases hpath
    cases h : t.isTrimmed with
    | false => exact ⟨0, fun i _ => by rw [newPosition?_of_not_isTrimmed h]; rfl⟩
    | true =>
      refine ⟨t.lost, fun i hi => ?_⟩
      rw [List.nil_append, newPosition?_cons h (List.getElem?_eq_getElem hi)]
      rfl
  | cons j path ih =>
    cases h : t.isTrimmed with
    | false =>
      rw [newPosition?_of_not_isTrimmed h] at hpath
      cases hpath
      exact ⟨0, fun i _ => by rw [newPosition?_of_not_isTrimmed h]; rfl⟩
    | true =>
      obtain ⟨c, rest, hc, hj, hrest, rfl⟩ := newPosition?_cons_eq_some h hpath
      rw [at?_cons hc] at hb
      obtain ⟨k, hk⟩ := ih hb hrest
      refine ⟨k, fun i hi => ?_⟩
      rw [List.cons_append, newPosition?_cons h hc, if_neg (Nat.not_lt.2 hj), hk i hi]
      split <;> rfl

/-- Trimming twice is trimming once. A block is missing exactly if it leads blank. A block that is kept has
its id, tag and props, with all that is below it unless it is a page or a container, and keeps its parent
and its place among the siblings that are kept; and only blocks that were there before are there. -/
theorem trimmed_positions (t : Block) :
    t.trimmed.trimmed = t.trimmed ∧
    (∀ path b, t.at? path = some b → (newPosition? path t = none ↔ LeadsBlank t path)) ∧
    (∀ path b path', t.at? path = some b → newPosition? path t = some path' →
      (∃ b', t.trimmed.at? path' = some b' ∧ SameHead b b' ∧ (b.isTrimmed = false → b' = b)) ∧
      ∃ k, ∀ i < b.children.length,
        newPosition? (path ++ [i]) t = if i < k then none else some (path' ++ [i - k])) ∧
    (∀ path' b', t.trimmed.at? path' = some b' →
      ∃ path b, t.at? path = some b ∧ newPosition? path t = some path' ∧
        ∀ other, newPosition? other t = some path' → other = path) := by
  refine ⟨trimmed_trimmed t, fun path b hb => newPosition?_eq_none_iff hb,
    fun path b path' hb hpath => ⟨?_, exists_newPosition?_child hb hpath⟩, fun path' b' hb' => ?_⟩
  · rcases at?_trimmed hb hpath with hat | hat
    · exact ⟨b.trimmed, hat, sameHead_trimmed b, trimmed_of_not_isTrimmed⟩
    · exact ⟨b, hat, ⟨rfl, rfl, rfl⟩, fun _ => rfl⟩
  · obtain ⟨path, b, hb, hpath⟩ := exists_newPosition? hb'
    exact ⟨path, b, hb, hpath, fun other hother => newPosition?_injective hother hpath⟩

def textBlock (id text : String) (children : List Block) : Block :=
  ⟨id, "affine:paragraph", [("text", .string text)], children⟩

/-- A page with blank paragraphs before, in and after its note. -/
def blankStarts : Block :=
  ⟨"page", "affine:page", [], [textBlock "a" " " [], ⟨"note", "affine:note", [],
    [textBlock "b" "" [], textBlock "c" "x" [textBlock "d" "" []], textBlock "e" "" []]⟩,
    textBlock "f" "" []]⟩

theorem trimmed_positions_blankStarts :
    blankStarts.at? [1, 0] = some (textBlock "b" "" []) ∧
    LeadsBlank blankStarts [1, 0] ∧
    blankStarts.at? [1, 1] = some (textBlock "c" "x" [textBlock "d" "" []]) ∧
    newPosition? [1, 1] blankStarts = some [0, 0] ∧
    ∃ b', blankStarts.trimmed.at? [0, 0] = some b' ∧
      b' = textBlock "c" "x" [textBlock "d" "" []] := by
  have hb : blankStarts.at? [1, 0] = some (textBlock "b" "" []) := rfl
  have hc : blankStarts.at? [1, 1] = some (textBlock "c" "x" [textBlock "d" "" []]) := rfl
  have hmissing : newPosition? [1, 0] blankStarts = none := by decide
  have hkept : newPosition? [1, 1] blankStarts = some [0, 0] := by decide
  obtain ⟨-, hlead, hplace, -⟩ := trimmed_positions blankStarts
  obtain ⟨⟨b', hat, -, hsame⟩, -⟩ := hplace _ _ _ hc hkept
  exact ⟨hb, (hlead _ _ hb).1 hmissing, hc, hkept, b', hat, hsame (by decide)⟩

end PageExport.Block
