import Mathlib.Data.List.Forall2
import PageExport.Proofs.Markdown.FencedCode
import PageExport.Proofs.Markdown.ListMarks

/-!
Documents one behind the other. Where no list meets a list of its own order, the blocks of two
documents have the text of the first, an empty line, and the text of the second.
-/
namespace PageExport.Markdown

theorem stack_eq_nil_iff (tight : Bool) (ps : List Piece) :
    stack tight ps = [] ↔ ps.filter (fun p => !p.text.isEmpty) = [] := by
  unfold stack
  cases h : ps.filter fun p => !p.text.isEmpty with
  | nil => simp
  | cons p rest =>
    have hp : p ∈ ps.filter fun p => !p.text.isEmpty := h ▸ List.mem_cons_self
    have htext : p.text ≠ [] := by simpa using List.of_mem_filter hp
    simp [htext]

theorem stack_append (ps qs : List Piece) :
    stack false (ps ++ qs) =
      if stack false ps = [] then stack false qs
      else if stack false qs = [] then stack false ps
      else stack false ps ++ '\n' :: '\n' :: stack false qs := by
  simp only [stack_eq_nil_iff]
  unfold stack
  rw [List.filter_append]
  cases ps.filter fun p => !p.text.isEmpty with
  | nil => rfl
  | cons p ps' =>
    cases qs.filter fun p => !p.text.isEmpty with
    | nil => simp
    | cons q qs' => simp [Piece.gap]

theorem fst_foldl_settle (xs : List Flow) (before : Option Bool × Bool) :
    (xs.foldl settle before).1 = (xs.getLast?.map Flow.order?).getD before.1 := by
  induction xs using List.reverseRecOn with
  | nil => rfl
  | append_singleton xs x => simp [settle]

/-- Blocks in front of siblings leave no trace in them but at a list that goes on with a list. -/
theorem renderSiblings_of_seam (o : Options) {before : Option Bool × Bool} {ys : List Flow}
    (h : ∀ ordered, before.1 = some ordered → ys.head?.bind Flow.order? ≠ some ordered) :
    renderSiblings o before.1 before.2 ys = renderSiblings o none false ys := by
  cases ys with
  | nil => rfl
  | cons y ys =>
    have hseam : alternates before.1 before.2 y.order? = false := by
      cases hb : before.1 with
      | none => rfl
      | some ordered =>
        have hy : y.order? ≠ some ordered := h ordered hb
        simp [alternates, hy]
    rw [renderSiblings, renderSiblings, hseam]
    rfl

theorem unlines_append {ls ms : List Text} (hl : ls ≠ []) (hm : ms ≠ []) :
    Text.unlines (ls ++ ms) = Text.unlines ls ++ '\n' :: Text.unlines ms := by
  obtain ⟨l, ls, rfl⟩ := List.exists_cons_of_ne_nil hl
  obtain ⟨m, ms, rfl⟩ := List.exists_cons_of_ne_nil hm
  induction ls generalizing l with
  | nil => simp [Text.unlines]
  | cons k ls ih =>
    have hrest := ih k (List.cons_ne_nil k ls)
    simp only [Text.unlines, List.cons_append, Text.join_cons_cons] at hrest ⊢
    simp [hrest]

/-- Softening goes on behind a line break as at the start of a text. -/
theorem softenEnds_append_break (t u : Text) :
    softenEnds (t ++ '\n' :: u) =
      Text.unlines (t.lines.map softenEnd) ++ '\n' :: softenEnds u := by
  obtain ⟨front, last, hu⟩ : ∃ front last, u.lines = front ++ [last] :=
    (List.eq_nil_or_concat' u.lines).resolve_left (Text.split_ne_nil '\n' u)
  have hlines : (t ++ '\n' :: u).lines = t.lines ++ front ++ [last] := by
    rw [List.append_assoc, ← hu]
    exact Text.split_append_cons '\n' t u
  have ht : t.lines.map softenEnd ≠ [] := by simp [Text.lines, Text.split_ne_nil]
  rw [softenEnds, softenEnds, hlines, hu, softenLines_append_singleton, softenLines_append_singleton,
    List.map_append, List.append_assoc, unlines_append ht (by simp)]

theorem Document.text_eq (o : Options) (d : Document) :
    d.text o = if flowText o false d.content = [] then []
      else Text.unlines ((flowText o false d.content).lines.map softenEnd) ++ ['\n'] := by
  rw [Document.text, Document.rawText]
  by_cases h : flowText o false d.content = []
  · simp [h, softenEnds, softenLines, Text.lines, Text.split, Text.unlines]
  · simp only [List.isEmpty_iff, if_neg h]
    exact softenEnds_append_break _ []

theorem Document.text_eq_nil_iff (o : Options) (d : Document) :
    d.text o = [] ↔ flowText o false d.content = [] := by
  rw [Document.text_eq]
  split <;> simp_all

theorem flowText_append (o : Options) {xs ys : List Flow}
    (h : ∀ ordered, xs.getLast?.bind Flow.order? = some ordered →
      ys.head?.bind Flow.order? ≠ some ordered) :
    flowText o false (xs ++ ys) =
      if flowText o false xs = [] then flowText o false ys
      else if flowText o false ys = [] then flowText o false xs
      else flowText o false xs ++ '\n' :: '\n' :: flowText o false ys := by
  have hbehind : renderSiblings o (xs.foldl settle (none, false)).1 (xs.foldl settle (none, false)).2 ys =
      renderSiblings o none false ys := by
    refine renderSiblings_of_seam o fun ordered hlast => h ordered ?_
    rw [fst_foldl_settle] at hlast
    cases hx : xs.getLast? with
    | none => simp [hx] at hlast
    | some x => simpa [hx] using hlast
  have hsiblings := renderSiblings_append o (none, false) xs ys
  rw [hbehind] at hsiblings
  rw [flowText, hsiblings, stack_append]
  rfl

/-- The text of blocks behind other blocks. -/
theorem Document.text_append (o : Options) {xs ys : List Flow}
    (h : ∀ ordered, xs.getLast?.bind Flow.order? = some ordered →
      ys.head?.bind Flow.order? ≠ some ordered) :
    (Document.mk (xs ++ ys)).text o =
      if (Document.mk xs).text o = [] then (Document.mk ys).text o
      else if (Document.mk ys).text o = [] then (Document.mk xs).text o
      else (Document.mk xs).text o ++ '\n' :: (Document.mk ys).text o := by
  simp only [Document.text_eq_nil_iff]
  have hbody := flowText_append o h
  by_cases hx : flowText o false xs = []
  · rw [if_pos hx] at hbody ⊢
    rw [Document.text_eq, Document.text_eq, hbody]
  by_cases hy : flowText o false ys = []
  · rw [if_neg hx, if_pos hy] at hbody ⊢
    rw [Document.text_eq, Document.text_eq, hbody]
  rw [if_neg hx, if_neg hy] at hbody ⊢
  have hrest : softenEnds ('\n' :: (flowText o false ys ++ ['\n'])) =
      '\n' :: (Document.mk ys).text o := by
    have := softenEnds_append_break [] (flowText o false ys ++ ['\n'])
    simpa [Text.lines, Text.split, softenEnd, Text.unlines, encodedSpace, Document.text,
      Document.rawText, hy] using this
  have hraw : (Document.mk (xs ++ ys)).rawText o =
      flowText o false xs ++ '\n' :: '\n' :: (flowText o false ys ++ ['\n']) := by
    rw [Document.rawText, hbody]
    simp
  rw [Document.text, hraw, softenEnds_append_break, hrest, Document.text_eq o ⟨xs⟩, if_neg hx]
  simp

/-- Whether a node is an ordered list; `none` for a node that is not a list. -/
def Node.order? : Node → Option Bool
  | .list ordered _ _ _ => some ordered
  | _ => none

theorem order?_of_ofNode {n : Node} {c : Flow} (h : Flow.ofNode n = .ok c) : c.order? = n.order? := by
  have hmap {α β : Type} {x : Except Misplaced α} {f : α → β} {b : β} (h : x.map f = .ok b) :
      ∃ a, b = f a := by
    cases x with
    | error e => cases h
    | ok a => exact ⟨a, (Except.ok.inj h).symm⟩
  cases n with
  | paragraph | heading | blockquote | list | table =>
    obtain ⟨cs, rfl⟩ := hmap h
    rfl
  | code | thematicBreak =>
    cases h
    rfl
  | _ => cases h

theorem flowOfNodes_eq_ok_iff {ns : List Node} {cs : List Flow} :
    flowOfNodes ns = .ok cs ↔ List.Forall₂ (fun n c => Flow.ofNode n = .ok c) ns cs := by
  induction ns generalizing cs with
  | nil =>
    rw [flowOfNodes, List.forall₂_nil_left_iff, Except.ok.injEq, eq_comm]
  | cons n ns ih =>
    rw [List.forall₂_cons_left_iff]
    simp only [flowOfNodes, bind, Except.bind, ← ih]
    cases Flow.ofNode n with
    | error e => simp
    | ok c =>
      cases flowOfNodes ns with
      | error e => simp
      | ok cs' => simp [eq_comm]

theorem map_order? {ns : List Node} {cs : List Flow}
    (h : List.Forall₂ (fun n c => Flow.ofNode n = .ok c) ns cs) :
    cs.map Flow.order? = ns.map Node.order? := by
  induction h with
  | nil => rfl
  | cons hn _ ih => rw [List.map_cons, List.map_cons, ih, order?_of_ofNode hn]

/-- Two documents of which the first does not end in a list of the order with which the second starts
have, one behind the other, the texts of both with an empty line between them; one without text leaves
no trace. -/
theorem markdown_append (o : Options) {xs ys : List Node} {s t : String}
    (hx : markdown o (.root xs) = .ok s) (hy : markdown o (.root ys) = .ok t)
    (hseam : ∀ ordered, xs.getLast?.bind Node.order? = some ordered →
      ys.head?.bind Node.order? ≠ some ordered) :
    markdown o (.root (xs ++ ys)) =
      .ok (if s = "" then t else if t = "" then s else s ++ "\n" ++ t) := by
  have hdocument {ns : List Node} {r : String} (h : markdown o (.root ns) = .ok r) :
      ∃ cs, flowOfNodes ns = .ok cs ∧ r = String.ofList ((Document.mk cs).text o) := by
    rw [markdown, Document.ofNode] at h
    cases hcs : flowOfNodes ns with
    | error e =>
      rw [hcs] at h
      cases h
    | ok cs =>
      rw [hcs] at h
      exact ⟨cs, rfl, (Except.ok.inj h).symm⟩
  obtain ⟨cs, hcs, rfl⟩ := hdocument hx
  obtain ⟨ds, hds, rfl⟩ := hdocument hy
  rw [flowOfNodes_eq_ok_iff] at hcs hds
  have happend : flowOfNodes (xs ++ ys) = .ok (cs ++ ds) :=
    flowOfNodes_eq_ok_iff.2 (List.rel_append hcs hds)
  have hbind {n : Option Node} {c : Option Flow} (h : c.map Flow.order? = n.map Node.order?) :
      c.bind Flow.order? = n.bind Node.order? := by
    cases n <;> cases c <;> simp_all
  have hlast : cs.getLast?.bind Flow.order? = xs.getLast?.bind Node.order? :=
    hbind (by rw [← List.getLast?_map, ← List.getLast?_map, map_order? hcs])
  have hhead : ds.head?.bind Flow.order? = ys.head?.bind Node.order? :=
    hbind (by rw [← List.head?_map, ← List.head?_map, map_order? hds])
  rw [← hlast, ← hhead] at hseam
  have hempty (u : Text) : String.ofList u = "" ↔ u = [] := by
    rw [← String.ofList_nil, String.ofList_inj]
  rw [markdown, Document.ofNode, happend]
  change Except.ok (String.ofList ((Document.mk (cs ++ ds)).text o)) = _
  rw [Document.text_append o hseam]
  simp only [hempty]
  split
  · rfl
  · split
    · rfl
    · simp [String.ofList_append, String.ofList_cons, String.append_assoc]

/-- A list of one item with a text. -/
def listNode (ordered : Bool) (t : String) : Node :=
  .list ordered none false [.listItem none false [.paragraph [.text (some t)]]]

theorem markdown_append_lists :
    markdown {} (.root ([listNode false "a", listNode false "b\u00a0"] ++ [listNode true "c\u00a0"])) =
      .ok "- a\n\n* b \n\n1. c \n" := by
  have hx : markdown {} (.root [listNode false "a", listNode false "b\u00a0"]) =
      .ok "- a\n\n* b \n" := by rfl
  have hy : markdown {} (.root [listNode true "c\u00a0"]) = .ok "1. c \n" := by rfl
  exact markdown_append {} hx hy (by decide)

end PageExport.Markdown
