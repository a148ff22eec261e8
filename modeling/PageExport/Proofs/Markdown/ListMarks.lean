import Mathlib.Data.List.Induction
import PageExport.Markdown.Flow

/-!
Which marks the lists among siblings get. Each list of a run of lists of one order has marks other
than the list before it, and a sibling that is no such list ends the run, whether it has text or not.
-/
namespace PageExport.Markdown

/-- The number of lists of an order at the end of siblings. -/
def runLength (ordered : Bool) (front : List Flow) : Nat :=
  (front.reverse.takeWhile fun n => n.order? = some ordered).length

theorem runLength_append_singleton (ordered : Bool) (front : List Flow) (n : Flow) :
    runLength ordered (front ++ [n]) =
      if n.order? = some ordered then runLength ordered front + 1 else 0 := by
  unfold runLength
  rw [List.reverse_append, List.reverse_singleton, List.singleton_append, List.takeWhile_cons]
  split <;> simp_all

/-- The order and the marks of a sibling from those of the sibling before it. -/
def settle (before : Option Bool × Bool) (n : Flow) : Option Bool × Bool :=
  (n.order?, alternates before.1 before.2 n.order?)

theorem renderSiblings_append (o : Options) (before : Option Bool × Bool) (ms ns : List Flow) :
    renderSiblings o before.1 before.2 (ms ++ ns) =
      renderSiblings o before.1 before.2 ms ++
        renderSiblings o (ms.foldl settle before).1 (ms.foldl settle before).2 ns := by
  induction ms generalizing before with
  | nil => rfl
  | cons m ms ih =>
    simp only [List.cons_append, renderSiblings, List.foldl_cons]
    congr 1
    exact ih (settle before m)

theorem length_renderSiblings (o : Options) (previous : Option Bool) (alternate : Bool)
    (ns : List Flow) : (renderSiblings o previous alternate ns).length = ns.length := by
  induction ns generalizing previous alternate with
  | nil => rfl
  | cons n ns ih => simp [renderSiblings, ih]

/-- A list takes the other marks behind a run of odd length. -/
theorem alternates_settle (ordered : Bool) (front : List Flow) :
    alternates (front.foldl settle (none, false)).1 (front.foldl settle (none, false)).2
      (some ordered) = (runLength ordered front % 2 == 1) := by
  induction front using List.reverseRecOn with
  | nil => rfl
  | append_singleton front n ih =>
    rw [List.foldl_append, runLength_append_singleton]
    simp only [List.foldl_cons, List.foldl_nil, settle]
    split
    · next hn =>
      rw [hn, ih, alternates]
      rcases Nat.mod_two_eq_zero_or_one (runLength ordered front) with h | h <;>
        simp [h, Nat.add_mod]
    · next hn => simp [alternates, Ne.symm hn]

def siblingText (o : Options) (content : List Flow) (i : Nat) : Text :=
  (((renderSiblings o none false content)[i]?).map Piece.text).getD []

theorem siblingText_list {o : Options} {content : List Flow} {i : Nat} {n : Flow} {ordered : Bool}
    (hi : content[i]? = some n) (hn : n.order? = some ordered) :
    siblingText o content i = n.render o (runLength ordered (content.take i) % 2 == 1) := by
  obtain ⟨hlt, rfl⟩ := List.getElem?_eq_some_iff.1 hi
  have hlen : (renderSiblings o none false (content.take i)).length = i := by
    rw [length_renderSiblings, List.length_take]
    omega
  have hcontent : content.take i ++ content[i] :: content.drop (i + 1) = content := by
    rw [List.getElem_cons_drop, List.take_append_drop]
  have hsplit : renderSiblings o none false (content.take i ++ content[i] :: content.drop (i + 1)) =
      renderSiblings o none false (content.take i) ++ _ := renderSiblings_append o (none, false) ..
  rw [hcontent, renderSiblings, hn, alternates_settle] at hsplit
  rw [siblingText, hsplit, List.getElem?_append_right (by omega), hlen, Nat.sub_self]
  rfl

/-- The character that tells the lists of one order apart. -/
def markChar (o : Options) (alternate ordered : Bool) : Char :=
  if ordered then (if alternate then ')' else '.')
  else if alternate then o.bullet.other.char else o.bullet.char

theorem markChar_inj {o : Options} {ordered a b : Bool} :
    markChar o a ordered = markChar o b ordered ↔ a = b := by
  have hbullet (x y : Bullet) : x.char = y.char ↔ x = y := by cases x <;> cases y <;> decide
  have hother := o.bullet.other_ne
  cases ordered <;> cases a <;> cases b <;> simp [markChar, hbullet, hother, hother.symm]

/-- The mark that a reader finds at the start of a list: its bullet, or the character behind the
number of its first item. -/
def listMark (ordered : Bool) (t : Text) : Option Char :=
  if ordered then (t.dropWhile fun c => c = '-' || c.isDigit).head? else t.head?

theorem isDigit_of_mem_ofInt {k : Int} {c : Char} (h : c ∈ Text.ofInt k) :
    c = '-' ∨ c.isDigit = true := by
  cases k with
  | ofNat n => exact .inr (Nat.isDigit_of_mem_toDigits (by decide) (by decide) h)
  | negSucc n =>
    rcases List.mem_cons.1 h with rfl | h
    · exact .inl rfl
    · exact .inr (Nat.isDigit_of_mem_toDigits (by decide) (by decide) h)

theorem listMark_itemMark (o : Options) (alternate ordered : Bool) (start : Option Int)
    (index : Nat) (rest : Text) :
    listMark ordered (itemMark o alternate ordered start index ++ rest) =
      some (markChar o alternate ordered) := by
  cases ordered with
  | false => rfl
  | true =>
    have hdigits : ∀ c ∈ Text.ofInt (start.getD 1 + index), (c = '-' || c.isDigit) = true :=
      fun c hc => by simpa using isDigit_of_mem_ofInt hc
    have hmark : (markChar o alternate true = '-' || (markChar o alternate true).isDigit) = false := by
      cases alternate <;> rfl
    have hitem : itemMark o alternate true start index =
        Text.ofInt (start.getD 1 + index) ++ [markChar o alternate true] := rfl
    rw [listMark, if_pos rfl, hitem, List.append_assoc, List.dropWhile_append_of_pos hdigits,
      List.singleton_append, List.dropWhile_cons_of_neg (by simp [hmark])]
    rfl

theorem prefix_join (sep t : Text) (ts : List Text) : t <+: Text.join sep (t :: ts) := by
  cases ts with
  | nil => exact List.prefix_rfl
  | cons u us =>
    rw [Text.join_cons_cons, List.append_assoc]
    exact List.prefix_append t _

theorem prefix_hang (mark content : Text) : mark <+: hang mark content := by
  unfold hang
  split
  · exact List.prefix_rfl
  · split
    · exact List.prefix_rfl
    · exact (List.prefix_append mark _).trans (prefix_join _ _ _)

theorem listMark_render (o : Options) (alternate ordered : Bool) (start : Option Int)
    (spread : Bool) {items : List Item} (h : items ≠ []) :
    listMark ordered ((Flow.list ordered start spread items).render o alternate) =
      some (markChar o alternate ordered) := by
  obtain ⟨⟨checked, loose, content⟩, items, rfl⟩ := List.exists_cons_of_ne_nil h
  rw [Flow.render, renderItems, Item.render]
  obtain ⟨rest, hrest⟩ := (prefix_hang _ _).trans (prefix_join _ _ _)
  rw [← hrest]
  exact listMark_itemMark o alternate ordered start 0 rest

theorem render_list_nil (o : Options) (alternate ordered : Bool) (start : Option Int)
    (spread : Bool) : (Flow.list ordered start spread []).render o alternate = [] := by
  rw [Flow.render, renderItems, Text.join_nil]

/-- Two lists of one order among siblings have different marks just if the runs before them differ in
parity, and so always if no sibling stands between them. -/
theorem listMark_ne_iff (o : Options) {content : List Flow} {i j : Nat} {a b : Flow}
    {ordered : Bool} (ha : content[i]? = some a) (hb : content[j]? = some b)
    (hao : a.order? = some ordered) (hbo : b.order? = some ordered)
    (hat : siblingText o content i ≠ []) (hbt : siblingText o content j ≠ []) :
    (listMark ordered (siblingText o content i) ≠ listMark ordered (siblingText o content j) ↔
      runLength ordered (content.take i) % 2 ≠ runLength ordered (content.take j) % 2) ∧
    (j = i + 1 →
      listMark ordered (siblingText o content i) ≠ listMark ordered (siblingText o content j)) := by
  -- a list has text just if it has items, and then its text shows the mark
  have hmark {k : Nat} {n : Flow} (hn : content[k]? = some n) (hno : n.order? = some ordered)
      (hnt : siblingText o content k ≠ []) : listMark ordered (siblingText o content k) =
        some (markChar o (runLength ordered (content.take k) % 2 == 1) ordered) := by
    rw [siblingText_list hn hno] at hnt ⊢
    cases n with
    | list ordered' start spread items =>
      cases hno
      refine listMark_render o _ ordered start spread fun hitems => ?_
      rw [hitems, render_list_nil] at hnt
      exact hnt rfl
    | _ => cases hno
  have hiff : listMark ordered (siblingText o content i) ≠
      listMark ordered (siblingText o content j) ↔
      runLength ordered (content.take i) % 2 ≠ runLength ordered (content.take j) % 2 := by
    rw [hmark ha hao hat, hmark hb hbo hbt, ne_eq, Option.some_inj, markChar_inj]
    rcases Nat.mod_two_eq_zero_or_one (runLength ordered (content.take i)) with hi | hi <;>
      rcases Nat.mod_two_eq_zero_or_one (runLength ordered (content.take j)) with hj | hj <;>
      simp [hi, hj]
  refine ⟨hiff, ?_⟩
  rintro rfl
  rw [hiff]
  have htake : content.take (i + 1) = content.take i ++ [a] := by
    obtain ⟨hlt, rfl⟩ := List.getElem?_eq_some_iff.1 ha
    rw [List.take_append_getElem]
  rw [htake, runLength_append_singleton, if_pos hao]
  omega

def oneItem (t : String) : Flow := .list false none false [.mk none false [.paragraph [.text t]]]

theorem listMark_ne_oneItem :
    listMark false (siblingText {} [oneItem "a", oneItem "b"] 0) ≠
      listMark false (siblingText {} [oneItem "a", oneItem "b"] 1) := by
  have hat : siblingText {} [oneItem "a", oneItem "b"] 0 ≠ [] := by decide +kernel
  have hbt : siblingText {} [oneItem "a", oneItem "b"] 1 ≠ [] := by decide +kernel
  exact (listMark_ne_iff {} (i := 0) (j := 1) rfl rfl rfl rfl hat hbt).2 rfl

/-- A paragraph without text between two lists leaves no trace but gives them the same marks. -/
theorem listMark_eq_blank_between :
    siblingText {} [oneItem "a", .paragraph [], oneItem "b"] 1 = [] ∧
    listMark false (siblingText {} [oneItem "a", .paragraph [], oneItem "b"] 0) =
      listMark false (siblingText {} [oneItem "a", .paragraph [], oneItem "b"] 2) ∧
    flowText {} false [oneItem "a", .paragraph [], oneItem "b"] = "- a\n\n- b".toList := by
  refine ⟨?_, ?_, ?_⟩ <;> decide +kernel

end PageExport.Markdown
