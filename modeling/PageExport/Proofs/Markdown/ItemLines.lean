import PageExport.Proofs.Markdown.NestedLists

/-!
The first line of an item. Its mark, its checkbox and the first of its blocks that has text stand on one
line. A bullet goes on there with the strokes of a rule or with the bullets of lists inside it, so that the
line can be a rule for a reader; and behind a checkbox stands the start of whatever block comes first if the
item has no text of its own.
-/
namespace PageExport.Markdown

def ruleMarks : List Char := ['-', '_', '*']

/-- How often the mark is in a line that has nothing else but the mark and blanks. -/
def strokesIn (m : Char) (line : Text) : Option Nat :=
  if line.all fun c => c = m || isSpaceOrTab c then some (line.count m) else none

mutual

/-- The strokes of a mark that a block with text has in its first line: a rule has three, a bullet is one
and goes on with those behind it. None are counted if the line has something else. -/
def Flow.strokes (o : Options) (m : Char) (alternate : Bool) : Flow → Option Nat
  | .thematicBreak => if o.rule.char = m then some 3 else none
  | .list false _ _ items => if markChar o alternate false = m then listStrokes o m items else none
  | n => if n.isUnmarked then strokesIn m (firstLine (n.render o alternate)) else none

def listStrokes (o : Options) (m : Char) : List Item → Option Nat
  | [] => none
  | item :: _ => (item.strokes o m).map (· + 1)

/-- The strokes behind the bullet of an item. -/
def Item.strokes (o : Options) (m : Char) : Item → Option Nat
  | .mk none _ content => contentStrokes o m none false content
  | .mk (some _) _ _ => none

/-- The strokes of the first block that has text. -/
def contentStrokes (o : Options) (m : Char) (previous : Option Bool) (alternate : Bool) :
    List Flow → Option Nat
  | [] => some 0
  | n :: ns =>
    let alternate := alternates previous alternate n.order?
    if (n.render o alternate).isEmpty then contentStrokes o m n.order? alternate ns
    else n.strokes o m alternate

end

theorem strokesIn_cons (m c : Char) (t : Text) : strokesIn m (c :: t) =
    if c = m then (strokesIn m t).map (· + 1) else if isSpaceOrTab c then strokesIn m t else none := by
  unfold strokesIn
  by_cases hc : c = m
  · simp [hc]
  · by_cases hblank : isSpaceOrTab c = true <;> simp [hc, hblank]

theorem strokesIn_eq_none {m c : Char} {line : Text} (hmem : c ∈ line) (hc : c ≠ m)
    (hblank : isSpaceOrTab c = false) : strokesIn m line = none := by
  refine if_neg fun hall => ?_
  have htest := List.all_eq_true.1 hall c hmem
  simp [hc, hblank] at htest

/-- A rule starts with a mark and has two more strokes of it or more. -/
theorem isRule_cons_iff (c : Char) (t : Text) : isRule (c :: t) = true ↔
    c ∈ ruleMarks ∧ ∃ k, strokesIn c t = some k ∧ 2 ≤ k := by
  simp only [isRule, Bool.and_eq_true, Bool.or_eq_true, decide_eq_true_eq, strokesIn,
    Option.ite_none_right_eq_some, Option.some.injEq, ruleMarks, List.mem_cons, List.not_mem_nil, or_false,
    or_assoc, and_assoc]
  constructor
  · rintro ⟨hc, hall, hcount⟩
    exact ⟨hc, _, hall, rfl, hcount⟩
  · rintro ⟨hc, k, hall, rfl, hcount⟩
    exact ⟨hc, hall, hcount⟩

/-- No rule has another character in it. -/
theorem not_isRule_of_mem {d : Char} {line : Text} (hd : d ∈ line) (hmark : d ∉ ruleMarks)
    (hblank : isSpaceOrTab d = false) : isRule line = false := by
  cases line with
  | nil => rfl
  | cons c t =>
    rw [← Bool.not_eq_true, isRule_cons_iff]
    rintro ⟨hc, k, hk, -⟩
    have hne : d ≠ c := by
      rintro rfl
      exact hmark hc
    have hmem : d ∈ t := (List.mem_cons.1 hd).resolve_left hne
    rw [strokesIn_eq_none hmem hne hblank] at hk
    cases hk

section
variable (o : Options) {m : Char}

theorem markChar_bullet (a : Bool) : markChar o a false ≠ '\n' ∧ markChar o a false ≠ '\r' ∧
    isSpaceOrTab (markChar o a false) = false := by
  cases a <;> cases h : o.bullet <;> simp [markChar, h] <;> decide

theorem markChar_delimiter (a : Bool) : markChar o a true ≠ '\n' ∧ markChar o a true ≠ '\r' ∧
    markChar o a true ∉ ruleMarks ∧ isSpaceOrTab (markChar o a true) = false := by
  have hmark : markChar o a true = if a then ')' else '.' := rfl
  rw [hmark]
  cases a <;> decide

theorem itemMark_breaks (a ordered : Bool) (start : Option Int) (index : Nat) :
    ∀ c ∈ itemMark o a ordered start index, c ≠ '\n' ∧ c ≠ '\r' := by
  cases ordered with
  | false =>
    obtain ⟨hn, hr, -⟩ := markChar_bullet o a
    intro c hc
    obtain rfl : c = markChar o a false := List.mem_singleton.1 hc
    exact ⟨hn, hr⟩
  | true =>
    obtain ⟨hn, hr, -⟩ := markChar_delimiter o a
    intro c hc
    rcases List.mem_append.1 hc with hc | hc
    · rcases isDigit_of_mem_ofInt hc with rfl | hdigit
      · decide
      · constructor <;> rintro rfl <;> exact absurd hdigit (by decide)
    · obtain rfl : c = markChar o a true := List.mem_singleton.1 hc
      exact ⟨hn, hr⟩

theorem mem_firstLine_cons {c : Char} (hc : c ≠ '\n' ∧ c ≠ '\r') (t : Text) : c ∈ firstLine (c :: t) := by
  simp [firstLine, hc]

theorem strokesIn_marked (hm : m ∈ ruleMarks) {n : Flow} (a : Bool) (hmark : n.isUnmarked = false)
    (hrule : n ≠ .thematicBreak) (hlist : n.order? = none) (htext : n.render o a ≠ []) :
    strokesIn m (firstLine (n.render o a)) = none := by
  obtain ⟨c, t, ⟨u, hu⟩, -, hc⟩ := exists_prefix_render o a hmark htext
  have hopening : c ∈ ['#', '`', '>', '|'] :=
    hc.resolve_right fun h => h.elim hrule fun hsome => by simp [hlist] at hsome
  have hother : c ∉ ruleMarks ∧ isSpaceOrTab c = false ∧ c ≠ '\n' ∧ c ≠ '\r' := by
    simp only [List.mem_cons, List.not_mem_nil, or_false] at hopening
    rcases hopening with rfl | rfl | rfl | rfl <;> decide
  obtain ⟨hmarks, hblank, hn, hr⟩ := hother
  rw [← hu]
  refine strokesIn_eq_none (mem_firstLine_cons ⟨hn, hr⟩ _) ?_ hblank
  rintro rfl
  exact hmarks hm

theorem strokesIn_rule (r : Rule) :
    strokesIn m (firstLine r.text) = if r.char = m then some 3 else none := by
  have hline : firstLine r.text = [r.char, r.char, r.char] := by cases r <;> decide
  have hblank : isSpaceOrTab r.char = false := by cases r <;> decide
  rw [hline]
  split
  · next h => simp [strokesIn, h]
  · next h => exact strokesIn_eq_none List.mem_cons_self h hblank

theorem firstLine_bullet {c : Char} (hc : c ≠ '\n' ∧ c ≠ '\r') (content : Text) :
    firstLine (hang [c] content) = c :: if content = [] then [] else ' ' :: firstLine content := by
  rw [firstLine_hang (by simpa using hc)]
  split <;> rfl

theorem strokesIn_bullet (hm : m ∈ ruleMarks) {c : Char} (hc : c ≠ '\n' ∧ c ≠ '\r')
    (hblank : isSpaceOrTab c = false) (content : Text) : strokesIn m (firstLine (hang [c] content)) =
      if c = m then (strokesIn m (firstLine content)).map (· + 1) else none := by
  have hspace : ' ' ≠ m := by
    rintro rfl
    exact absurd hm (by decide)
  have hbehind : strokesIn m (if content = [] then [] else ' ' :: firstLine content) =
      strokesIn m (firstLine content) := by
    split
    · next h => rw [h]; rfl
    · rw [strokesIn_cons, if_neg hspace]
      rfl
  rw [firstLine_bullet hc, strokesIn_cons, hbehind, hblank]
  rfl

/-- A number goes on to its delimiter, which is in no rule. -/
theorem mem_firstLine_ordered (a : Bool) (start : Option Int) (index : Nat) (item : Item) :
    markChar o a true ∈ firstLine (item.render o (itemMark o a true start index)) := by
  obtain ⟨checked, spread, content⟩ := item
  have hmark : markChar o a true ∈ itemMark o a true start index := by
    simp [itemMark, markChar]
  rw [Item.render, firstLine_hang (itemMark_breaks o a true start index)]
  split
  · exact hmark
  · exact List.mem_append_left _ hmark

mutual

/-- What is counted along the first blocks is what stands in the line. -/
theorem strokesIn_render (hm : m ∈ ruleMarks) (n : Flow) (a : Bool) (htext : n.render o a ≠ []) :
    strokesIn m (firstLine (n.render o a)) = n.strokes o m a := by
  cases n with
  | paragraph content => rfl
  | heading depth content =>
    cases depth with
    | zero => rfl
    | succ depth => exact strokesIn_marked o hm a rfl nofun rfl htext
  | code | blockquote | table => exact strokesIn_marked o hm a rfl nofun rfl htext
  | thematicBreak => exact strokesIn_rule o.rule
  | list ordered start spread items =>
    cases items with
    | nil => exact absurd (render_list_nil o a ordered start spread) htext
    | cons item items =>
      rw [Flow.render, renderItems, firstLine_join (by split <;> rfl)]
      cases ordered with
      | false => exact strokesIn_item hm item a
      | true =>
        obtain ⟨-, -, hdelimiter, hblank⟩ := markChar_delimiter o a
        refine strokesIn_eq_none (mem_firstLine_ordered o a start 0 item) ?_ hblank
        rintro rfl
        exact hdelimiter hm

theorem strokesIn_item (hm : m ∈ ruleMarks) (item : Item) (a : Bool) :
    strokesIn m (firstLine (item.render o [markChar o a false])) =
      if markChar o a false = m then (item.strokes o m).map (· + 1) else none := by
  obtain ⟨hn, hr, hblank⟩ := markChar_bullet o a
  cases item with
  | mk checked spread content =>
    rw [Item.render, strokesIn_bullet hm ⟨hn, hr⟩ hblank]
    congr 2
    cases checked with
    | none => exact strokesIn_stack hm content (!spread) none false
    | some done =>
      have hbracket : '[' ≠ m := by
        rintro rfl
        exact absurd hm (by decide)
      refine strokesIn_eq_none ?_ hbracket rfl
      cases done <;> exact mem_firstLine_cons (by decide) _

theorem strokesIn_stack (hm : m ∈ ruleMarks) (content : List Flow) (tight : Bool) (previous : Option Bool)
    (a : Bool) : strokesIn m (firstLine (stack tight (renderSiblings o previous a content))) =
      contentStrokes o m previous a content := by
  cases content with
  | nil => rfl
  | cons n ns =>
    rw [renderSiblings, contentStrokes]
    generalize alternates previous a n.order? = b
    by_cases htext : n.render o b = []
    · rw [if_pos (by simp [htext]), ← strokesIn_stack hm ns tight n.order? b, stack, stack,
        List.filter_cons_of_neg (by simp [htext])]
    · rw [if_neg (by simpa using htext),
        firstLine_stack tight (List.filter_cons_of_pos (by simpa using htext))]
      exact strokesIn_render hm n b htext

end

theorem firstLine_render_eq_nil_iff {n : Flow} {a b : Bool} (htext : n.render o a ≠ []) :
    firstLine (n.render o a) = [] ↔ firstLine (n.render o b) = [] := by
  cases hmark : n.isUnmarked with
  | true => rw [render_of_isUnmarked o hmark a b]
  | false =>
    have hvisible {c : Bool} (h : n.render o c ≠ []) : firstLine (n.render o c) ≠ [] := by
      intro hnil
      have hline := isVisible_render o c hmark h
      rw [hnil] at hline
      cases hline
    exact iff_of_false (hvisible htext) (hvisible (mt (render_eq_nil_iff o a b n).2 htext))

theorem isRule_item (a ordered : Bool) (start : Option Int) (index : Nat) (item : Item) :
    isRule (firstLine (item.render o (itemMark o a ordered start index))) = true ↔
      ordered = false ∧ markChar o a false ∈ ruleMarks ∧
        ∃ k, item.strokes o (markChar o a false) = some k ∧ 2 ≤ k := by
  cases ordered with
  | true =>
    obtain ⟨-, -, hdelimiter, hblank⟩ := markChar_delimiter o a
    rw [not_isRule_of_mem (mem_firstLine_ordered o a start index item) hdelimiter hblank]
    simp
  | false =>
    obtain ⟨hn, hr, -⟩ := markChar_bullet o a
    have hmark : itemMark o a false start index = [markChar o a false] := rfl
    rw [hmark]
    obtain ⟨t, ht⟩ : ∃ t, firstLine (item.render o [markChar o a false]) = markChar o a false :: t := by
      obtain ⟨checked, spread, content⟩ := item
      exact ⟨_, firstLine_bullet ⟨hn, hr⟩ _⟩
    rw [ht, isRule_cons_iff, and_iff_right rfl]
    refine and_congr_right fun hm => ?_
    have hstrokes := strokesIn_item o hm item a
    rw [ht, strokesIn_cons, if_pos rfl, if_pos rfl] at hstrokes
    rw [Option.map_injective (Nat.succ_injective) hstrokes]

end

/-- An item that starts with its own text, and the blocks below it. -/
def ownItem (checked : Option Bool) (spread : Bool) (own : List Inline) (below : List Flow) : Item :=
  .mk checked spread (.paragraph own :: below)

def ownText (o : Options) (own : List Inline) : Text := guardLines (phrasing o none none own)

/-- The item has a text of its own, or its line goes on with nothing: no block below it has text, or the
first one that has starts with an empty line. -/
def StartsAlone (o : Options) (own : List Inline) (below : List Flow) : Prop :=
  ownText o own = [] →
    ∀ n ∈ below.find? fun n => !(n.render o false).isEmpty, firstLine (n.render o false) = []

/-- What the item has behind its checkbox. -/
theorem firstLine_ownItem (o : Options) {mark : Text} (hmark : ∀ c ∈ mark, c ≠ '\n' ∧ c ≠ '\r')
    (done spread : Bool) (own : List Inline) (below : List Flow) : ∃ behind,
      firstLine ((ownItem (some done) spread own below).render o mark) =
        mark ++ ' ' :: checkbox (some done) ++ behind ∧
      ((behind = firstLine (ownText o own) ∨ behind = []) ↔ StartsAlone o own below) := by
  have hbox : ∀ c ∈ checkbox (some done), c ≠ '\n' ∧ c ≠ '\r' := by cases done <;> simp [checkbox]
  have hne (t : Text) : checkbox (some done) ++ t ≠ [] := by cases done <;> exact List.cons_ne_nil _ _
  refine ⟨firstLine (stack (!spread) (renderSiblings o none false (.paragraph own :: below))), ?_, ?_⟩
  · rw [ownItem, Item.render, firstLine_hang hmark, if_neg (hne _), firstLine_append hbox,
      List.append_assoc]
    rfl
  · have hown : (Flow.paragraph own).render o false = ownText o own := rfl
    by_cases htext : ownText o own = []
    · have hrest : ((Flow.paragraph own :: below).find? fun n => !(n.render o false).isEmpty) =
          below.find? fun n => !(n.render o false).isEmpty :=
        List.find?_cons_of_neg (by simp [hown, htext])
      have hempty : firstLine (ownText o own) = [] := by rw [htext]; rfl
      rw [StartsAlone, hempty, or_self, ← hrest]
      obtain ⟨hnone, hline⟩ | ⟨n, a, hfirst, hn, hline⟩ :=
        firstLine_siblings o (!spread) (.paragraph own :: below) none false
      · simp [hline, hnone]
      · rw [hline, hfirst, firstLine_render_eq_nil_iff o hn (b := false)]
        simp [htext]
    · have hline : firstLine (stack (!spread) (renderSiblings o none false (.paragraph own :: below))) =
          firstLine (ownText o own) :=
        firstLine_stack _ (List.filter_cons_of_pos (by simpa [Flow.render, ownText] using htext))
      rw [hline]
      exact iff_of_true (.inl rfl) fun h => absurd h htext

/-- The first line of an item is a rule just if the item has a bullet with which a rule can be drawn and,
behind the bullet, two strokes of it or more and nothing else but blanks. Behind a checkbox stands the start
of the text of the item or nothing just if the item has a text or no other block starts on the line. -/
theorem isRule_ownItem_iff (o : Options) (alternate ordered : Bool) (start : Option Int) (index : Nat)
    (checked : Option Bool) (done spread : Bool) (own : List Inline) (below : List Flow) :
    (isRule (firstLine ((ownItem checked spread own below).render o
        (itemMark o alternate ordered start index))) = true ↔
      ordered = false ∧ markChar o alternate false ∈ ruleMarks ∧
        ∃ k, (ownItem checked spread own below).strokes o (markChar o alternate false) = some k ∧ 2 ≤ k) ∧
    ∃ behind, firstLine ((ownItem (some done) spread own below).render o
        (itemMark o alternate ordered start index)) =
          itemMark o alternate ordered start index ++ ' ' :: checkbox (some done) ++ behind ∧
      ((behind = firstLine (ownText o own) ∨ behind = []) ↔ StartsAlone o own below) := by
  constructor
  · exact isRule_item o alternate ordered start index _
  · exact firstLine_ownItem o (itemMark_breaks o alternate ordered start index) done spread own below

def ruleBelow (type : String) : Block :=
  ⟨"a", "affine:list", [("type", .string type), ("text", .string "")], [⟨"b", "affine:divider", [], []⟩]⟩

/-- The rule below an item without text goes on its line, where it is a rule with one more stroke, or no
rule but text behind a checkbox. -/
theorem isRule_ruleBelow :
    ((ruleBelow "bulleted").toPage none {}).value = .ok ⟨"- ---\n", []⟩ ∧
    isRule "- ---".toList = true ∧
    ((ruleBelow "todo").toPage none {}).value = .ok ⟨"- [ ] ---\n", []⟩ ∧
    (ownItem (some false) false [] [.thematicBreak]).render {} ['-'] = "- [ ] ---".toList ∧
    ¬StartsAlone {} [] [.thematicBreak] := by
  refine ⟨?_, ?_, ?_, ?_, fun h => ?_⟩
  · decide +kernel
  · decide +kernel
  · decide +kernel
  · decide +kernel
  · exact absurd (h rfl .thematicBreak rfl) (by decide)

end PageExport.Markdown
