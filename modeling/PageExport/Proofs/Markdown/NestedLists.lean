import PageExport.Page
import PageExport.Proofs.Markdown.Nesting
import PageExport.Proofs.Markdown.Seams

/-!
Lists inside items. A list that goes on the line right after a paragraph is only seen there if its first
line has a mark that may follow a paragraph, and something visible behind the mark. The mark is looked at
before the list is put there, what is behind it is not: that is up to the first item of the list.
-/
namespace PageExport.Markdown

/-- The text up to its first line break. -/
def firstLine (t : Text) : Text := t.takeWhile fun c => c ≠ '\n' && c ≠ '\r'

def isVisible (line : Text) : Bool := line.any fun c => !isSpaceOrTab c

/-- The marks of a list that may follow a paragraph: a bullet or the number one. -/
def startMarks : List Text := [['-'], ['+'], ['*'], ['1', '.'], ['1', ')']]

/-- A line that starts a list after a paragraph has a space and something visible behind the mark. -/
def startsList (line : Text) : Bool :=
  startMarks.any fun mark => ((mark ++ [' ']).isPrefixOf? line).any isVisible

/-- In a tight item the sibling is written on the line after what is before it. -/
def OnNextLine (o : Options) (content : List Flow) (i : Nat) : Prop :=
  flowText o true (content.take (i + 1)) =
    flowText o true (content.take i) ++ '\n' :: siblingText o content i

def Flow.firstItem? : Flow → Option Item
  | .list _ _ _ items => items.head?
  | _ => none

/-- A block that is written as its text alone, without a mark before it. -/
def Flow.isUnmarked : Flow → Bool
  | .paragraph _ => true
  | .heading depth _ => depth = 0
  | _ => false

/-- Something visible is behind the mark of the item: a checkbox, or the start of the first block that has
text. -/
def Item.opens (o : Options) : Item → Bool
  | .mk checked _ content => checked.isSome ||
      (content.find? fun n => !(n.render o false).isEmpty).any fun n =>
        !n.isUnmarked || isVisible (firstLine (n.render o false))

theorem firstLine_append {t : Text} (ht : ∀ c ∈ t, c ≠ '\n' ∧ c ≠ '\r') (u : Text) :
    firstLine (t ++ u) = t ++ firstLine u :=
  List.takeWhile_append_of_pos fun c hc => by simpa using ht c hc

theorem firstLine_append_break (t : Text) {u : Text} (hu : u = [] ∨ u.head? = some '\n') :
    firstLine (t ++ u) = firstLine t := by
  have hrest : u.takeWhile (fun c => c ≠ '\n' && c ≠ '\r') = [] := by
    rcases hu with rfl | hu
    · rfl
    · obtain ⟨v, rfl⟩ := List.head?_eq_some_iff.1 hu
      rfl
  rw [firstLine, List.takeWhile_append, hrest]
  split
  · next h => rw [List.append_nil, firstLine, (List.takeWhile_prefix _).eq_of_length h]
  · rfl

theorem firstLine_join {sep : Text} (hsep : sep.head? = some '\n') (t : Text) (ts : List Text) :
    firstLine (Text.join sep (t :: ts)) = firstLine t := by
  cases ts with
  | nil => rfl
  | cons u us =>
    obtain ⟨v, rfl⟩ := List.head?_eq_some_iff.1 hsep
    rw [Text.join_cons_cons, List.append_assoc]
    exact firstLine_append_break t (.inr rfl)

theorem firstLine_of_lines {t first : Text} {rest : List Text} (h : t.lines = first :: rest) :
    firstLine t = firstLine first := by
  rw [← Text.unlines_lines t, h, Text.unlines, firstLine_join rfl]

theorem firstLine_hang {mark : Text} (hmark : ∀ c ∈ mark, c ≠ '\n' ∧ c ≠ '\r') (content : Text) :
    firstLine (hang mark content) = if content = [] then mark else mark ++ ' ' :: firstLine content := by
  split
  · next h =>
    have hall := firstLine_append hmark []
    rw [List.append_nil] at hall
    rw [h, hang, List.isEmpty_nil, if_pos rfl, hall]
    exact List.append_nil mark
  · next h =>
    obtain ⟨first, rest, hlines⟩ := List.exists_cons_of_ne_nil (lines_ne_nil content)
    have hbreak : '\n' ∉ mark := fun hmem => (hmark _ hmem).1 rfl
    rw [firstLine_of_lines (lines_hang hbreak h hlines), firstLine_of_lines hlines, firstLine_append hmark]
    rfl

theorem firstLine_stack (tight : Bool) {pieces rest : List Piece} {p : Piece}
    (h : pieces.filter (fun q => !q.text.isEmpty) = p :: rest) :
    firstLine (stack tight pieces) = firstLine p.text := by
  unfold stack
  rw [h]
  apply firstLine_append_break
  cases rest with
  | nil => exact .inl rfl
  | cons q rest =>
    refine .inr ?_
    rw [List.flatMap_cons, Piece.gap]
    split <;> rfl

theorem isVisible_firstLine_cons {c : Char} (hc : isBlank c = false) (t : Text) :
    isVisible (firstLine (c :: t)) = true := by
  have hne : c ≠ '\n' ∧ c ≠ '\r' ∧ isSpaceOrTab c = false := by
    refine ⟨?_, ?_, ?_⟩
    · rintro rfl
      exact absurd hc (by decide)
    · rintro rfl
      exact absurd hc (by decide)
    · by_contra h
      simp only [isSpaceOrTab, Bool.not_eq_false, Bool.or_eq_true, decide_eq_true_eq] at h
      rcases h with rfl | rfl <;> exact absurd hc (by decide)
  simp [firstLine, isVisible, hne]

section
variable (o : Options)

theorem isBlank_of_isDigit {c : Char} (h : c.isDigit = true) : isBlank c = false := by
  have hrange : 48 ≤ c.toNat ∧ c.toNat ≤ 57 := by
    simp only [Char.isDigit, Bool.and_eq_true, decide_eq_true_eq] at h
    exact ⟨UInt32.le_iff_toNat_le.1 h.1, UInt32.le_iff_toNat_le.1 h.2⟩
  simp only [isBlank, blankRanges, List.any_cons, List.any_nil, Bool.or_false, Bool.or_eq_false_iff,
    Bool.and_eq_false_iff, decide_eq_false_iff_not]
  omega

theorem exists_itemMark_eq (alternate ordered : Bool) (start : Option Int) (index : Nat) :
    ∃ c t, itemMark o alternate ordered start index = c :: t ∧ isBlank c = false := by
  unfold itemMark
  split
  · cases h : Text.ofInt (start.getD 1 + index) with
    | nil => exact ⟨_, [], rfl, by cases alternate <;> decide⟩
    | cons c t =>
      refine ⟨c, _, rfl, ?_⟩
      rcases isDigit_of_mem_ofInt (h ▸ List.mem_cons_self : c ∈ Text.ofInt _) with rfl | hc
      · decide
      · exact isBlank_of_isDigit hc
  · refine ⟨_, [], rfl, ?_⟩
    cases alternate <;> cases o.bullet <;> decide

theorem prefix_render_list (a ordered : Bool) (start : Option Int) (spread : Bool) (item : Item)
    (items : List Item) :
    itemMark o a ordered start 0 <+: (Flow.list ordered start spread (item :: items)).render o a := by
  obtain ⟨checked, loose, content⟩ := item
  rw [Flow.render, renderItems, Item.render]
  exact (prefix_hang _ _).trans (prefix_join _ _ _)

/-- Whether a block has text does not depend on the marks it gets. -/
theorem render_eq_nil_iff (a b : Bool) (n : Flow) : n.render o a = [] ↔ n.render o b = [] := by
  cases n with
  | list ordered start spread items =>
    cases items with
    | nil => rw [render_list_nil, render_list_nil]
    | cons item items =>
      have hne (a : Bool) : (Flow.list ordered start spread (item :: items)).render o a ≠ [] := by
        intro h
        obtain ⟨c, t, hmark, -⟩ := exists_itemMark_eq o a ordered start 0
        have hprefix := prefix_render_list o a ordered start spread item items
        rw [h, List.prefix_nil, hmark] at hprefix
        cases hprefix
      exact iff_of_false (hne a) (hne b)
  | _ => rfl

theorem render_of_isUnmarked {n : Flow} (h : n.isUnmarked = true) (a b : Bool) :
    n.render o a = n.render o b := by
  cases n with
  | paragraph | heading => rfl
  | code | thematicBreak | blockquote | list | table => cases h

/-- A block with a mark starts with its mark, and only rules and lists share marks with each other. -/
theorem exists_prefix_render {n : Flow} (a : Bool) (hmark : n.isUnmarked = false)
    (htext : n.render o a ≠ []) : ∃ c t, c :: t <+: n.render o a ∧ isBlank c = false ∧
      (c ∈ ['#', '`', '>', '|'] ∨ n = .thematicBreak ∨ n.order?.isSome = true) := by
  cases n with
  | paragraph content => cases hmark
  | heading depth content =>
    cases depth with
    | zero => cases hmark
    | succ depth => exact ⟨'#', _, List.prefix_rfl, by decide, .inl (by decide)⟩
  | code language info value =>
    obtain ⟨k, hk⟩ : ∃ k, (fence 3 value.toList).length = k + 1 := by
      rw [length_fence]
      exact ⟨_, (Nat.succ_pred_eq_of_pos (by omega)).symm⟩
    refine ⟨'`', List.replicate k '`', ?_, by decide, .inl (by decide)⟩
    rw [Flow.render, codeBlock, ← List.replicate_succ, ← hk, ← fence_eq_replicate, List.append_assoc,
      List.append_assoc]
    exact List.prefix_append _ _
  | thematicBreak =>
    refine ⟨o.rule.char, _, List.prefix_rfl, ?_, .inr (.inl rfl)⟩
    cases o.rule <;> decide
  | blockquote content =>
    rw [Flow.render, quote]
    obtain ⟨first, rest, hlines⟩ :=
      List.exists_cons_of_ne_nil (lines_ne_nil (stack false (renderSiblings o none false content)))
    obtain ⟨u, hu⟩ : ∃ u, quoteLine first = '>' :: u := by
      unfold quoteLine
      split <;> exact ⟨_, rfl⟩
    refine ⟨'>', u, ?_, by decide, .inl (by decide)⟩
    rw [hlines, List.map_cons, ← hu]
    exact prefix_join _ _ _
  | list ordered start spread items =>
    cases items with
    | nil => exact absurd (render_list_nil o a ordered start spread) htext
    | cons item items =>
      obtain ⟨c, t, hitem, hc⟩ := exists_itemMark_eq o a ordered start 0
      exact ⟨c, t, hitem ▸ prefix_render_list o a ordered start spread item items, hc, .inr (.inr rfl)⟩
  | table align rows =>
    rw [Flow.render] at htext ⊢
    unfold tableText at htext ⊢
    simp only at htext ⊢
    split at htext
    · exact absurd rfl htext
    · split at htext
      · exact absurd rfl htext
      · next hwidth =>
        rw [if_neg hwidth]
        exact ⟨'|', _, prefix_join _ _ _, by decide, .inl (by decide)⟩

theorem isVisible_render {n : Flow} (a : Bool) (hmark : n.isUnmarked = false)
    (htext : n.render o a ≠ []) : isVisible (firstLine (n.render o a)) = true := by
  obtain ⟨c, t, ⟨u, hu⟩, hc, -⟩ := exists_prefix_render o a hmark htext
  rw [← hu]
  exact isVisible_firstLine_cons hc (t ++ u)

end

theorem stack_append_singleton (tight : Bool) (ps : List Piece) (p : Piece) :
    stack tight (ps ++ [p]) =
      if p.text = [] then stack tight ps
      else if stack tight ps = [] then p.text
      else stack tight ps ++ p.gap tight ++ p.text := by
  by_cases hp : p.text = []
  · have hfilter : (ps ++ [p]).filter (fun q => !q.text.isEmpty) =
        ps.filter fun q => !q.text.isEmpty := by simp [hp]
    rw [if_pos hp, stack, hfilter, stack]
  · have hfilter : (ps ++ [p]).filter (fun q => !q.text.isEmpty) =
        (ps.filter fun q => !q.text.isEmpty) ++ [p] := by simp [hp]
    rw [if_neg hp]
    cases hps : ps.filter fun q => !q.text.isEmpty with
    | nil =>
      rw [if_pos ((stack_eq_nil_iff tight ps).2 hps), stack, hfilter, hps]
      simp
    | cons q qs =>
      have hne : stack tight ps ≠ [] := by
        intro h
        rw [(stack_eq_nil_iff tight ps).1 h] at hps
        cases hps
      rw [if_neg hne, stack, hfilter, hps, stack, hps]
      simp

theorem getElem?_renderSiblings (o : Options) {content : List Flow} {i : Nat} {n : Flow}
    (hn : content[i]? = some n) (previous : Option Bool) (alternate : Bool) :
    ∃ a, (renderSiblings o previous alternate content)[i]? = some ⟨n.render o a, n.interrupts⟩ := by
  induction content generalizing i previous alternate with
  | nil => cases hn
  | cons m content ih =>
    cases i with
    | zero =>
      obtain rfl := Option.some.inj hn
      exact ⟨_, rfl⟩
    | succ i => exact ih hn _ _

theorem renderSiblings_take (o : Options) (content : List Flow) (i : Nat) (previous : Option Bool)
    (alternate : Bool) : renderSiblings o previous alternate (content.take i) =
      (renderSiblings o previous alternate content).take i := by
  induction content generalizing i previous alternate with
  | nil => simp [renderSiblings]
  | cons n content ih =>
    cases i with
    | zero => rfl
    | succ i => simp only [List.take_succ_cons, renderSiblings, ih]

/-- Only a list that may follow a paragraph is put on the next line. -/
theorem OnNextLine.interrupts {o : Options} {content : List Flow} {i : Nat} {n : Flow}
    (h : OnNextLine o content i) (hn : content[i]? = some n) : n.interrupts = true := by
  obtain ⟨a, ha⟩ := getElem?_renderSiblings o hn none false
  have htext : siblingText o content i = n.render o a := by
    rw [siblingText, ha]
    rfl
  rw [OnNextLine, flowText, flowText, renderSiblings_take, renderSiblings_take, List.take_add_one, ha,
    Option.toList_some, stack_append_singleton, htext] at h
  by_contra hinterrupts
  have hgap : (Piece.mk (n.render o a) n.interrupts).gap true = ['\n', '\n'] := by
    simp [Piece.gap, hinterrupts]
  have hlength := congrArg List.length h
  rw [hgap] at hlength
  split at hlength
  · simp at hlength
  · split at hlength
    · next hnil =>
      simp [hnil] at hlength
    · simp at hlength

theorem startsList_of_mem {mark : Text} (h : mark ∈ startMarks) :
    startsList mark = false ∧ ∀ rest, startsList (mark ++ ' ' :: rest) = isVisible rest := by
  simp only [startMarks, List.mem_cons, List.not_mem_nil, or_false] at h
  rcases h with rfl | rfl | rfl | rfl | rfl <;>
    exact ⟨by decide, fun rest => by simp [startsList, startMarks, List.isPrefixOf?]⟩

theorem itemMark_mem_startMarks (o : Options) (alternate : Bool) {ordered : Bool} {start : Option Int}
    (h : ordered = true → start.getD 1 = 1) : itemMark o alternate ordered start 0 ∈ startMarks := by
  unfold itemMark
  split
  · next hordered =>
    rw [h hordered]
    cases alternate <;> decide
  · cases alternate <;> cases o.bullet <;> decide

/-- Blocks start with the first line of the first one that has text. -/
theorem firstLine_siblings (o : Options) (tight : Bool) (content : List Flow) (previous : Option Bool)
    (alternate : Bool) :
    ((content.find? fun n => !(n.render o false).isEmpty) = none ∧
        firstLine (stack tight (renderSiblings o previous alternate content)) = []) ∨
      ∃ n a, (content.find? fun n => !(n.render o false).isEmpty) = some n ∧ n.render o a ≠ [] ∧
        firstLine (stack tight (renderSiblings o previous alternate content)) =
          firstLine (n.render o a) := by
  induction content generalizing previous alternate with
  | nil => exact .inl ⟨rfl, rfl⟩
  | cons n content ih =>
    rw [renderSiblings]
    generalize alternates previous alternate n.order? = a
    have hsame := render_eq_nil_iff o a false n
    by_cases htext : n.render o a = []
    · have hskip : stack tight (⟨n.render o a, n.interrupts⟩ :: renderSiblings o n.order? a content) =
          stack tight (renderSiblings o n.order? a content) := by
        rw [stack, stack, List.filter_cons_of_neg (by simp [htext])]
      rw [List.find?_cons_of_neg (by simp [hsame.1 htext]), hskip]
      exact ih n.order? a
    · rw [List.find?_cons_of_pos (by simpa using mt hsame.2 htext)]
      exact .inr ⟨n, a, rfl, htext, firstLine_stack tight (List.filter_cons_of_pos (by simp [htext]))⟩

/-- Blocks that stand behind a mark show something on its line if the first one with text does. -/
theorem isVisible_stack (o : Options) (tight : Bool) (content : List Flow) (previous : Option Bool)
    (alternate : Bool) :
    isVisible (firstLine (stack tight (renderSiblings o previous alternate content))) =
      (content.find? fun n => !(n.render o false).isEmpty).any fun n =>
        !n.isUnmarked || isVisible (firstLine (n.render o false)) := by
  obtain ⟨hnone, hline⟩ | ⟨n, a, hfirst, htext, hline⟩ :=
    firstLine_siblings o tight content previous alternate
  · rw [hnone, hline]
    rfl
  · rw [hfirst, hline, Option.any_some]
    cases hmark : n.isUnmarked with
    | false => exact isVisible_render o a hmark htext
    | true => rw [render_of_isUnmarked o hmark a false, Bool.not_true, Bool.false_or]

theorem startsList_item (o : Options) {mark : Text} (hmark : mark ∈ startMarks) (item : Item) :
    startsList (firstLine (item.render o mark)) = item.opens o := by
  obtain ⟨checked, spread, content⟩ := item
  obtain ⟨halone, hbehind⟩ := startsList_of_mem hmark
  have hmarks : startMarks.all (fun m => m.all fun c => c ≠ '\n' && c ≠ '\r') = true := by decide
  have hbreak : ∀ c ∈ mark, c ≠ '\n' ∧ c ≠ '\r' := by
    simpa using List.all_eq_true.1 hmarks mark hmark
  have hhang (t : Text) : startsList (firstLine (hang mark t)) = isVisible (firstLine t) := by
    rw [firstLine_hang hbreak]
    split
    · next h => rw [halone, h]; rfl
    · exact hbehind _
  rw [Item.render, hhang, Item.opens]
  cases checked with
  | none => exact isVisible_stack o (!spread) content none false
  | some done => cases done <;> exact isVisible_firstLine_cons (by decide) _

/-- A list on the line after another block has items. Its first line starts a list just if its first item
has a checkbox, or a block with text of which the first one starts with a mark or a visible line. -/
theorem startsList_of_onNextLine (o : Options) {content : List Flow} {i : Nat} {n : Flow}
    (hn : content[i]? = some n) (hnext : OnNextLine o content i) :
    ∃ item, n.firstItem? = some item ∧
      startsList (firstLine (siblingText o content i)) = item.opens o := by
  have hinterrupts := hnext.interrupts hn
  cases n with
  | list ordered start spread items =>
    simp only [Flow.interrupts, Bool.and_eq_true, Bool.or_eq_true, decide_eq_true_eq] at hinterrupts
    obtain ⟨hitems, hstart⟩ := hinterrupts
    cases items with
    | nil => cases hitems
    | cons item items =>
      refine ⟨item, rfl, ?_⟩
      have hmark : itemMark o (runLength ordered (content.take i) % 2 == 1) ordered start 0 ∈
          startMarks := by
        apply itemMark_mem_startMarks
        intro hordered
        simpa [hordered] using hstart
      rw [siblingText_list hn rfl, Flow.render, renderItems, firstLine_join (by split <;> rfl)]
      exact startsList_item o hmark item
  | paragraph | heading | code | thematicBreak | blockquote | table => cases hinterrupts

def nestedLetter : List Flow := [.paragraph [.text "a"], oneItem "b"]

theorem startsList_nestedLetter : nestedLetter[1]? = some (oneItem "b") ∧ OnNextLine {} nestedLetter 1 ∧
    ∃ item, (oneItem "b").firstItem? = some item ∧
      startsList (firstLine (siblingText {} nestedLetter 1)) = item.opens {} := by
  have hnext : OnNextLine {} nestedLetter 1 := by
    unfold OnNextLine
    decide +kernel
  exact ⟨rfl, hnext, startsList_of_onNextLine {} rfl hnext⟩

def emptyBelow : Block :=
  ⟨"a", "affine:list", [("text", .string "a")], [⟨"b", "affine:list", [("text", .string "")], []⟩]⟩

def nestedBlank : List Flow :=
  [.paragraph [.text "a"], .list false none false [.mk none false [.paragraph []]]]

/-- The list of an item without text is put on the next line, where its bullet underlines a heading. -/
theorem not_startsList_nestedBlank :
    (emptyBelow.toPage none {}).value = .ok ⟨"- a\n  -\n", []⟩ ∧
    (Document.mk [.list false none false [.mk none false nestedBlank]]).text {} =
      "- a\n  -\n".toList ∧
    OnNextLine {} nestedBlank 1 ∧
    startsList (firstLine (siblingText {} nestedBlank 1)) = false := by
  have hnext : OnNextLine {} nestedBlank 1 := by
    unfold OnNextLine
    decide +kernel
  exact ⟨by decide +kernel, by decide +kernel, hnext, by decide +kernel⟩

end PageExport.Markdown
