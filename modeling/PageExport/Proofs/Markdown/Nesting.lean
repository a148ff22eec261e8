import PageExport.Proofs.Markdown.FencedCode
import PageExport.Proofs.Markdown.ListMarks

/-!
Blocks inside items and quotes. What a list mark or a quote puts before the lines of its content can be
taken off again, line by line, and so through any number of layers; the lines of a code block stand
in the text of a document just as they are but for that.
-/
namespace PageExport.Markdown

/-- Takes `width` spaces off a line, and nothing off an empty one. -/
def unindentLine? (width : Nat) (line : Text) : Option Text :=
  if line.isEmpty then some [] else (List.replicate width ' ').isPrefixOf? line

/-- Takes a quote mark and a space off a line, or a quote mark that stands alone. -/
def unquoteLine? (line : Text) : Option Text :=
  if line = ['>'] then some [] else ['>', ' '].isPrefixOf? line

/-- The content behind a list mark; a mark that stands alone has none. -/
def unhang? (mark t : Text) : Option Text :=
  if t = mark then some []
  else match t.lines with
    | [] => none
    | first :: rest => do
      let first ← (mark ++ [' ']).isPrefixOf? first
      let rest ← rest.mapM (unindentLine? (mark.length + 1))
      some (Text.unlines (first :: rest))

def unquote? (t : Text) : Option Text := (t.lines.mapM unquoteLine?).map Text.unlines

theorem isPrefixOf?_append (t u : Text) : t.isPrefixOf? (t ++ u) = some u :=
  List.isPrefixOf?_eq_some_iff_append_eq.2 rfl

theorem unindentLine?_indentLine (width : Nat) (line : Text) :
    unindentLine? width (indentLine width line) = some line := by
  cases line with
  | nil => rfl
  | cons c t =>
    have hne : (List.replicate width ' ' ++ c :: t).isEmpty = false := by simp
    simp [unindentLine?, indentLine, hne, isPrefixOf?_append]

theorem unquoteLine?_quoteLine (line : Text) : unquoteLine? (quoteLine line) = some line := by
  cases line with
  | nil => rfl
  | cons c t => exact isPrefixOf?_append ['>', ' '] (c :: t)

theorem mapM_map_inverse {f : Text → Text} {g : Text → Option Text} (h : ∀ l, g (f l) = some l)
    (ls : List Text) : (ls.map f).mapM g = some ls := by
  induction ls with
  | nil => rfl
  | cons l ls ih => simp [List.mapM_cons, h, ih]

theorem lines_ne_nil (t : Text) : t.lines ≠ [] := Text.split_ne_nil '\n' t

theorem not_mem_of_mem_lines {t l : Text} (h : l ∈ t.lines) : '\n' ∉ l := Text.not_mem_of_mem_split h

theorem lines_quote (content : Text) : (quote content).lines = content.lines.map quoteLine := by
  refine Text.lines_unlines (by simp [lines_ne_nil]) ?_
  rw [List.forall_mem_map]
  intro line hline
  unfold quoteLine
  split
  · decide
  · simpa using not_mem_of_mem_lines hline

theorem lines_hang {mark : Text} (hmark : '\n' ∉ mark) {content first : Text} {rest : List Text}
    (hne : content ≠ []) (hlines : content.lines = first :: rest) :
    (hang mark content).lines =
      (mark ++ ' ' :: first) :: rest.map (indentLine (mark.length + 1)) := by
  have hcontent : ∀ l ∈ first :: rest, '\n' ∉ l := fun l hl => not_mem_of_mem_lines (hlines ▸ hl)
  have hempty : ¬ content.isEmpty = true := by simpa using hne
  rw [hang, if_neg hempty, hlines]
  refine Text.lines_unlines (List.cons_ne_nil _ _) ?_
  rw [List.forall_mem_cons, List.forall_mem_map]
  refine ⟨?_, fun line hline => ?_⟩
  · have := hcontent first List.mem_cons_self
    simp [hmark, this]
  · have := hcontent line (List.mem_cons_of_mem _ hline)
    unfold indentLine
    split
    · simp
    · simp [List.mem_replicate, this]

theorem unquote?_quote (content : Text) : unquote? (quote content) = some content := by
  rw [unquote?, lines_quote, mapM_map_inverse unquoteLine?_quoteLine, Option.map_some,
    Text.unlines_lines]

theorem unhang?_hang {mark : Text} (hmark : '\n' ∉ mark) (content : Text) :
    unhang? mark (hang mark content) = some content := by
  by_cases hne : content = []
  · subst hne
    simp [unhang?, hang]
  · obtain ⟨first, rest, hfirst⟩ := List.exists_cons_of_ne_nil (lines_ne_nil content)
    have hlines := lines_hang hmark hne hfirst
    have hlonger : hang mark content ≠ mark := by
      intro h
      rw [h, Text.lines, Text.split_of_not_mem hmark] at hlines
      have hlength := congrArg List.length (List.cons.inj hlines).1
      simp at hlength
    have hmarked : (mark ++ [' ']).isPrefixOf? (mark ++ ' ' :: first) = some first := by
      rw [List.append_cons mark ' ' first]
      exact isPrefixOf?_append _ first
    rw [unhang?, if_neg hlonger, hlines]
    simp only [hmarked, mapM_map_inverse (unindentLine?_indentLine _)]
    rw [← Text.unlines_lines content, hfirst]
    rfl

theorem not_mem_itemMark (o : Options) (alternate ordered : Bool) (start : Option Int) (index : Nat) :
    '\n' ∉ itemMark o alternate ordered start index := by
  unfold itemMark
  split
  · rw [List.mem_append, not_or]
    refine ⟨fun h => ?_, by cases alternate <;> decide⟩
    rcases isDigit_of_mem_ofInt h with h | h <;> exact absurd h (by decide)
  · have hbullet (b : Bullet) : '\n' ∉ [b.char] := by cases b <;> decide
    split
    · exact hbullet o.bullet.other
    · exact hbullet o.bullet

/-- What a block may stand in: an item, behind its mark, or a quote. -/
inductive Layer where
  | item (mark : Text)
  | quote
  deriving DecidableEq, Repr

namespace Layer

/-- A line of what stands in the layer, but for the first one of an item. -/
def wrap : Layer → Text → Text
  | .item mark => indentLine (mark.length + 1)
  | .quote => quoteLine

def unwrap? : Layer → Text → Option Text
  | .item mark => unindentLine? (mark.length + 1)
  | .quote => unquoteLine?

/-- A line inside layers, of which the first is the outermost. -/
def wrapAll (layers : List Layer) (line : Text) : Text := layers.foldr wrap line

def unwrapAll? (layers : List Layer) (line : Text) : Option Text :=
  layers.foldlM (fun line layer => layer.unwrap? line) line

@[simp] theorem wrapAll_nil : wrapAll [] = id := rfl

theorem unwrap?_wrap (layer : Layer) (line : Text) : layer.unwrap? (layer.wrap line) = some line := by
  cases layer with
  | item mark => exact unindentLine?_indentLine _ line
  | quote => exact unquoteLine?_quoteLine line

theorem unwrapAll?_wrapAll (layers : List Layer) (line : Text) :
    unwrapAll? layers (wrapAll layers line) = some line := by
  induction layers with
  | nil => rfl
  | cons layer layers ih =>
    rw [unwrapAll?, List.foldlM_cons, wrapAll, List.foldr_cons, unwrap?_wrap]
    exact ih

theorem suffix_wrap (layer : Layer) (line : Text) : line <:+ layer.wrap line := by
  cases line with
  | nil => exact List.nil_suffix
  | cons c t =>
    cases layer with
    | item mark => exact List.suffix_append _ (c :: t)
    | quote => exact List.suffix_append ['>', ' '] (c :: t)

end Layer

open Layer

/-- Lines stand in a text inside layers, behind a line that ends in `opening`. -/
def Shows (layers : List Layer) (opening : Text) (body : List Text) (t : Text) : Prop :=
  ∃ before line after, t.lines = before ++ line :: (body.map (wrapAll layers) ++ after) ∧
    opening <:+ line

/-- The last line of a text and the first line of the text behind it become one. -/
theorem lines_append (t u : Text) : ∃ front last first back,
    t.lines = front ++ [last] ∧ u.lines = first :: back ∧
      (t ++ u).lines = front ++ (last ++ first) :: back := by
  obtain ⟨first, back, hu⟩ := List.exists_cons_of_ne_nil (lines_ne_nil u)
  induction t with
  | nil => exact ⟨[], [], first, back, rfl, hu, hu⟩
  | cons c t ih =>
    obtain ⟨front, last, first', back', ht, hu', htu⟩ := ih
    rw [hu] at hu'
    cases hu'
    by_cases hc : c = '\n'
    · refine ⟨[] :: front, last, first, back, ?_, hu, ?_⟩
      · rw [hc, Text.lines, Text.split_cons_self, ← Text.lines, ht, List.cons_append]
      · rw [hc, List.cons_append, Text.lines, Text.split_cons_self, ← Text.lines, htu,
          List.cons_append]
    · rw [Text.lines] at ht htu
      cases front with
      | nil =>
        exact ⟨[], c :: last, first, back, by simp [Text.lines, Text.split, hc, ht], hu,
          by simp [Text.lines, Text.split, hc, htu]⟩
      | cons f front =>
        exact ⟨(c :: f) :: front, last, first, back, by simp [Text.lines, Text.split, hc, ht], hu,
          by simp [Text.lines, Text.split, hc, htu]⟩

namespace Shows

variable {layers : List Layer} {opening : Text} {body : List Text} {t : Text}

theorem ne_nil (h : Shows layers opening body t) (hbody : body ≠ []) : t ≠ [] := by
  rintro rfl
  obtain ⟨before, line, after, hlines, -⟩ := h
  have hlength := congrArg List.length hlines
  have hpos := List.length_pos_of_ne_nil hbody
  simp [Text.lines, Text.split] at hlength
  omega

theorem append_left (h : Shows layers opening body t) (u : Text) :
    Shows layers opening body (u ++ t) := by
  obtain ⟨before, line, after, hlines, hopening⟩ := h
  obtain ⟨front, last, first, back, -, ht, hut⟩ := lines_append u t
  rw [hlines] at ht
  cases before with
  | nil =>
    obtain ⟨rfl, rfl⟩ := List.cons.inj ht
    exact ⟨front, last ++ line, after, hut, hopening.trans (List.suffix_append last line)⟩
  | cons b before =>
    obtain ⟨rfl, rfl⟩ := List.cons.inj ht
    exact ⟨front ++ (last ++ b) :: before, line, after, by simp [hut], hopening⟩

theorem append_right (h : Shows layers opening body t) {u : Text}
    (hu : u = [] ∨ u.head? = some '\n') : Shows layers opening body (t ++ u) := by
  rcases hu with rfl | hu
  · rwa [List.append_nil]
  · obtain ⟨v, rfl⟩ := List.head?_eq_some_iff.1 hu
    obtain ⟨before, line, after, hlines, hopening⟩ := h
    refine ⟨before, line, after ++ Text.lines v, ?_, hopening⟩
    rw [Text.lines, Text.split_append_cons, ← Text.lines, ← Text.lines, hlines]
    simp

theorem quote (h : Shows layers opening body t) :
    Shows (.quote :: layers) opening body (quote t) := by
  obtain ⟨before, line, after, hlines, hopening⟩ := h
  refine ⟨before.map quoteLine, quoteLine line, after.map quoteLine, ?_,
    hopening.trans (suffix_wrap .quote line)⟩
  rw [lines_quote, hlines]
  simp [wrapAll, wrap, Function.comp_def]

theorem hang (h : Shows layers opening body t) (hbody : body ≠ []) {mark : Text}
    (hmark : '\n' ∉ mark) : Shows (.item mark :: layers) opening body (hang mark t) := by
  have hne := h.ne_nil hbody
  obtain ⟨before, line, after, hlines, hopening⟩ := h
  cases before with
  | nil =>
    refine ⟨[], mark ++ ' ' :: line, after.map (indentLine (mark.length + 1)), ?_, ?_⟩
    · rw [lines_hang hmark hne hlines]
      simp [wrapAll, wrap, Function.comp_def]
    · rw [List.append_cons]
      exact hopening.trans (List.suffix_append _ line)
  | cons b before =>
    refine ⟨(mark ++ ' ' :: b) :: before.map (indentLine (mark.length + 1)),
      indentLine (mark.length + 1) line, after.map (indentLine (mark.length + 1)), ?_,
      hopening.trans (suffix_wrap (.item mark) line)⟩
    rw [lines_hang hmark hne hlines]
    simp [wrapAll, wrap, Function.comp_def]

end Shows

/-- A part of joined texts, and what is behind it. -/
theorem exists_join_eq {sep : Text} (hsep : sep.head? = some '\n') {ts : List Text} {t : Text}
    (h : t ∈ ts) : ∃ front back, Text.join sep ts = front ++ t ++ back ∧
      (back = [] ∨ back.head? = some '\n') := by
  induction ts with
  | nil => cases h
  | cons u ts ih =>
    cases ts with
    | nil =>
      rw [List.mem_singleton.1 h]
      exact ⟨[], [], by simp, .inl rfl⟩
    | cons v ts =>
      rw [Text.join_cons_cons]
      rcases List.mem_cons.1 h with rfl | h
      · refine ⟨[], sep ++ Text.join sep (v :: ts), by simp, .inr ?_⟩
        rw [List.head?_append, hsep]
        rfl
      · obtain ⟨front, back, hjoin, hback⟩ := ih h
        exact ⟨u ++ sep ++ front, back, by rw [hjoin]; simp, hback⟩

theorem exists_stack_eq (tight : Bool) {pieces : List Piece} {p : Piece} (h : p ∈ pieces)
    (hp : p.text ≠ []) : ∃ front back, stack tight pieces = front ++ p.text ++ back ∧
      (back = [] ∨ back.head? = some '\n') := by
  have hgap (q : Piece) : (q.gap tight).head? = some '\n' := by
    unfold Piece.gap
    split <;> rfl
  have hbehind (ps : List Piece) : ps.flatMap (fun q => q.gap tight ++ q.text) = [] ∨
      (ps.flatMap fun q => q.gap tight ++ q.text).head? = some '\n' := by
    cases ps with
    | nil => exact .inl rfl
    | cons q ps =>
      refine .inr ?_
      rw [List.flatMap_cons, List.head?_append, List.head?_append, hgap]
      rfl
  have hmem : p ∈ pieces.filter fun p => !p.text.isEmpty := by simp [h, hp]
  obtain ⟨as, bs, hsplit⟩ := List.append_of_mem hmem
  unfold stack
  rw [hsplit]
  cases as with
  | nil => exact ⟨[], _, by simp, hbehind bs⟩
  | cons a as =>
    exact ⟨a.text ++ as.flatMap (fun q => q.gap tight ++ q.text) ++ p.gap tight, _, by simp,
      hbehind bs⟩

theorem exists_mem_renderSiblings (o : Options) {content : List Flow} {n : Flow}
    (h : n ∈ content) (previous : Option Bool) (alternate : Bool) :
    ∃ a, ⟨n.render o a, n.interrupts⟩ ∈ renderSiblings o previous alternate content := by
  induction content generalizing previous alternate with
  | nil => cases h
  | cons m content ih =>
    rw [renderSiblings]
    rcases List.mem_cons.1 h with rfl | h
    · exact ⟨_, List.mem_cons_self⟩
    · obtain ⟨a, ha⟩ := ih h _ _
      exact ⟨a, List.mem_cons_of_mem _ ha⟩

theorem exists_piece {o : Options} {content : List Flow} {i : Nat} {n : Flow}
    (h : content[i]? = some n) :
    ∃ p ∈ renderSiblings o none false content, p.text = siblingText o content i := by
  obtain ⟨hi, -⟩ := List.getElem?_eq_some_iff.1 h
  rw [← length_renderSiblings o none false] at hi
  exact ⟨_, List.getElem_mem hi, by simp [siblingText, List.getElem?_eq_getElem hi]⟩

theorem getElem?_renderItems (o : Options) (mark : Nat → Text) (items : List Item) (k j : Nat) :
    (renderItems o mark k items)[j]? = items[j]?.map fun item => item.render o (mark (k + j)) := by
  induction items generalizing k j with
  | nil => rfl
  | cons item items ih =>
    rw [renderItems]
    cases j with
    | zero => rfl
    | succ j =>
      rw [List.getElem?_cons_succ, List.getElem?_cons_succ, ih, Nat.add_assoc, Nat.add_comm 1 j]

namespace Shows

variable {layers : List Layer} {opening : Text} {body : List Text}

theorem stack {tight : Bool} {pieces : List Piece} {p : Piece} (hp : p ∈ pieces)
    (h : Shows layers opening body p.text) (hbody : body ≠ []) :
    Shows layers opening body (stack tight pieces) := by
  obtain ⟨front, back, hstack, hback⟩ := exists_stack_eq tight hp (h.ne_nil hbody)
  rw [hstack]
  exact (h.append_left front).append_right hback

theorem join {sep : Text} (hsep : sep.head? = some '\n') {ts : List Text} {t : Text} (ht : t ∈ ts)
    (h : Shows layers opening body t) : Shows layers opening body (Text.join sep ts) := by
  obtain ⟨front, back, hjoin, hback⟩ := exists_join_eq hsep ht
  rw [hjoin]
  exact (h.append_left front).append_right hback

end Shows

/-- A block stands below others inside layers, the outermost first. The mark of an item is the one that
it gets in its list, given the siblings before that. -/
inductive Within (o : Options) (n : Flow) : List Layer → List Flow → Prop where
  | here {content : List Flow} (h : n ∈ content) : Within o n [] content
  | quote {layers : List Layer} {content inner : List Flow} (h : .blockquote inner ∈ content)
      (hn : Within o n layers inner) : Within o n (.quote :: layers) content
  | item {layers : List Layer} {content inner : List Flow} {i j : Nat} {ordered spread loose : Bool}
      {start : Option Int} {items : List Item} {checked : Option Bool}
      (hlist : content[i]? = some (.list ordered start spread items))
      (hitem : items[j]? = some (.mk checked loose inner)) (hn : Within o n layers inner) :
      Within o n
        (.item (itemMark o (runLength ordered (content.take i) % 2 == 1) ordered start j) :: layers)
        content

/-- What a block shows wherever it stands is shown by the text around it. -/
theorem Within.shows {o : Options} {n : Flow} {layers : List Layer} {content : List Flow}
    (h : Within o n layers content) {opening : Text} {body : List Text} (hbody : body ≠ [])
    (hn : ∀ alternate, Shows [] opening body (n.render o alternate)) (tight : Bool) :
    Shows layers opening body (flowText o tight content) := by
  induction h generalizing tight with
  | here h =>
    obtain ⟨a, ha⟩ := exists_mem_renderSiblings o h none false
    exact Shows.stack ha (hn a) hbody
  | quote h _ ih =>
    obtain ⟨a, ha⟩ := exists_mem_renderSiblings o h none false
    refine Shows.stack ha ?_ hbody
    rw [Flow.render]
    exact (ih false).quote
  | @item layers content inner i j ordered spread loose start items checked hlist hitem _ ih =>
    obtain ⟨p, hp, htext⟩ := exists_piece (o := o) hlist
    refine Shows.stack hp ?_ hbody
    rw [htext, siblingText_list hlist rfl, Flow.render]
    have hmem := List.mem_of_getElem? ((getElem?_renderItems o
      (itemMark o (runLength ordered (content.take i) % 2 == 1) ordered start) items 0 j).trans
      (congrArg _ hitem))
    refine Shows.join (by cases spread <;> rfl) hmem ?_
    simp only [Item.render, Nat.zero_add]
    exact ((ih (!loose)).append_left (checkbox checked)).hang hbody
      (not_mem_itemMark o _ ordered start j)

/-- The closing line of a code block and the lines of its value stand behind its opening line. -/
theorem shows_codeBlock (language info : Option String) (value : Text) :
    ∃ opening, (fence 3 value ++ infoText language info).lines.getLast? = some opening ∧
      Shows [] opening (valueLines value ++ [fence 3 value]) (codeBlock language info value) := by
  obtain ⟨front, opening, hlines⟩ := (List.eq_nil_or_concat _).resolve_left
    (lines_ne_nil (fence 3 value ++ infoText language info))
  refine ⟨opening, by simp [hlines], front, opening, [], ?_, List.suffix_rfl⟩
  rw [codeBlock_eq, Text.lines, Text.split_append_cons, ← Text.lines, ← Text.lines, lines_codeBody,
    hlines]
  simp

/-- Nesting can be undone. Taking the mark and the indentation off an item gives its checkbox and its
content, and taking the quote marks off a quote gives its content. Behind the opening line of a code
block the first line to close it is its last line, and the lines before that are its value. In the text
of a document these lines are found again behind the opening line, however deep the block stands, by
taking off the layers around it. -/
theorem nesting_undone (o : Options) :
    (∀ alternate ordered start index checked spread content,
      unhang? (itemMark o alternate ordered start index)
          ((Item.mk checked spread content).render o (itemMark o alternate ordered start index)) =
        some (checkbox checked ++ flowText o (!spread) content)) ∧
    (∀ alternate content, unquote? ((Flow.blockquote content).render o alternate) =
      some (flowText o false content)) ∧
    (∀ alternate language info value, ∃ body : Text,
      (Flow.code language info value).render o alternate =
          fence 3 value.toList ++ infoText language info ++ '\n' :: body ∧
        body.lines.takeWhile (fun line => !closesFence (fence 3 value.toList).length line) =
          valueLines value.toList ∧
        body.lines.dropWhile (fun line => !closesFence (fence 3 value.toList).length line) =
          [fence 3 value.toList]) ∧
    ∀ layers content language info value, Within o (.code language info value) layers content →
      ∃ before line block after opening,
        ((Document.mk content).rawText o).lines = before ++ line :: (block ++ after) ∧
        (fence 3 value.toList ++ infoText language info).lines.getLast? = some opening ∧
        opening <:+ line ∧
        block.mapM (unwrapAll? layers) = some (valueLines value.toList ++ [fence 3 value.toList]) := by
  refine ⟨?_, ?_, ?_, ?_⟩
  · intro alternate ordered start index checked spread content
    rw [Item.render]
    exact unhang?_hang (not_mem_itemMark o alternate ordered start index) _
  · intro alternate content
    rw [Flow.render]
    exact unquote?_quote _
  · intro alternate language info value
    rw [Flow.render]
    exact ⟨_, codeBlock_eq .., split_codeBody _⟩
  · intro layers content language info value h
    obtain ⟨opening, hopening, hcode⟩ := shows_codeBlock language info value.toList
    have hbody : valueLines value.toList ++ [fence 3 value.toList] ≠ [] := by simp
    have hflow := h.shows hbody (fun alternate => by rwa [Flow.render]) false
    have hraw : (Document.mk content).rawText o = flowText o false content ++ ['\n'] := by
      simp [Document.rawText, hflow.ne_nil hbody]
    obtain ⟨before, line, after, hlines, hline⟩ := hflow.append_right (u := ['\n']) (.inr rfl)
    exact ⟨before, line, _, after, opening, hraw ▸ hlines, hopening, hline,
      mapM_map_inverse (unwrapAll?_wrapAll layers) _⟩

/-- Code in a quote in the second of two numbered items. -/
def quotedCode : List Flow :=
  [.list true (some 9) false
    [.mk none false [.paragraph [.text "a"]],
      .mk (some true) false [.blockquote [.code (some "py") none "x\n\n  y"]]]]

theorem nesting_undone_quotedCode :
    Within {} (.code (some "py") none "x\n\n  y") [.item "10.".toList, .quote] quotedCode ∧
    ∃ before line block after opening,
      ((Document.mk quotedCode).rawText {}).lines = before ++ line :: (block ++ after) ∧
      (fence 3 "x\n\n  y".toList ++ infoText (some "py") none).lines.getLast? = some opening ∧
      opening <:+ line ∧
      block.mapM (unwrapAll? [.item "10.".toList, .quote]) =
        some (valueLines "x\n\n  y".toList ++ [fence 3 "x\n\n  y".toList]) := by
  have hwithin : Within {} (.code (some "py") none "x\n\n  y") [.item "10.".toList, .quote]
      quotedCode := by
    have hmark : itemMark {} (runLength true (quotedCode.take 0) % 2 == 1) true (some 9) 1 =
        "10.".toList := by decide
    rw [← hmark]
    exact .item (i := 0) (j := 1) rfl rfl (.quote List.mem_cons_self (.here List.mem_cons_self))
  exact ⟨hwithin, (nesting_undone {}).2.2.2 _ _ _ _ _ hwithin⟩

end PageExport.Markdown
