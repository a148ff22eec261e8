import PageExport.Markdown.Document
import PageExport.Proofs.Text.Mapped

/-!
What the options of a writer decide. Two writers with different options write texts that differ only
in characters which are marks in both of them.
-/
namespace PageExport.Markdown

open Text (Keeps)

def isMark (c : Char) : Bool := c = '-' || c = '*' || c = '+' || c = '_'

def maskChar (c : Char) : Char := if isMark c then '*' else c

/-- The text with every mark as a star. -/
def mask (t : Text) : Text := t.map maskChar

def blurChar (c : Char) : Char := if c = '_' then '*' else c

/-- The text with every underscore as a star: emphasis has no other marks. -/
def blur (t : Text) : Text := t.map blurChar

theorem keeps_maskChar {c : Char} (h : isMark c = false) : Keeps maskChar c := by
  intro d
  unfold maskChar
  split
  · next hd =>
    have hc : '*' ≠ c := by rintro rfl; cases h
    have hdc : d ≠ c := by rintro rfl; rw [h] at hd; cases hd
    exact iff_of_false hc hdc
  · rfl

theorem keeps_blurChar {c : Char} (hs : c ≠ '*') (hu : c ≠ '_') : Keeps blurChar c := by
  intro d
  unfold blurChar
  split
  · next hd => exact iff_of_false hs.symm (hd ▸ hu.symm)
  · rfl

@[simp] theorem mask_append (t u : Text) : mask (t ++ u) = mask t ++ mask u := List.map_append

@[simp] theorem blur_append (t u : Text) : blur (t ++ u) = blur t ++ blur u := List.map_append

@[simp] theorem mask_blur (t : Text) : mask (blur t) = mask t := by
  rw [mask, blur, List.map_map]
  refine List.map_congr_left fun c _ => ?_
  by_cases hc : c = '_'
  · simp [hc, blurChar, maskChar, isMark]
  · simp [blurChar, hc]

theorem mask_eq_of_blur_eq {t u : Text} (h : blur t = blur u) : mask t = mask u := by
  rw [← mask_blur t, h, mask_blur]

/-- A property of characters that tells no mark from another one. -/
theorem blind {p : Char → Bool} (h : p '_' = p '*') (c : Char) : p (blurChar c) = p c := by
  unfold blurChar
  split
  · next hc => rw [hc, h]
  · rfl

theorem isBlank_blurChar : ∀ c, isBlank (blurChar c) = isBlank c := blind (by decide)

theorem blur_settleMark (m : Text) (beside : List Char) : blur (settleMark m beside) = blur m := by
  unfold settleMark
  split
  · next h =>
    simp only [Bool.and_eq_true, decide_eq_true_eq] at h
    rw [h.1]
    rfl
  · rfl

/-- The characters beside delimited content only choose between its marks. -/
theorem blur_delimit (m : Text) (before after : Option Char) (inner : Text) :
    blur (delimit m before after inner) =
      if (blur inner).strip.isEmpty then blur inner
      else (blur inner).leading ++ blur m ++ (blur inner).strip ++ blur m ++ (blur inner).trailing := by
  have hcore : (blur inner).strip = blur inner.strip := Text.strip_map isBlank_blurChar inner
  have hlead : (blur inner).leading = blur inner.leading := Text.leading_map isBlank_blurChar inner
  have htrail : (blur inner).trailing = blur inner.trailing :=
    Text.trailing_map isBlank_blurChar inner
  have hempty : (blur inner.strip).isEmpty = inner.strip.isEmpty := List.isEmpty_map
  rw [hcore, hlead, htrail, hempty, delimit]
  split
  · rfl
  · simp only [blur_append, blur_settleMark]

theorem blur_delimit_congr {m m' inner inner' : Text} (hm : blur m = blur m')
    (h : blur inner = blur inner') (before after before' after' : Option Char) :
    blur (delimit m before after inner) = blur (delimit m' before' after' inner') := by
  rw [blur_delimit, blur_delimit, hm, h]

theorem blur_emphasisMark (m m' : EmphasisMark) : blur [m.char] = blur [m'.char] := by
  cases m <;> cases m' <;> rfl

section
variable (o o' : Options)

mutual

/-- Neither the options nor the characters beside content change more of it than its marks. -/
theorem blur_render (before after before' after' : Option Char) (n : Inline) :
    blur (n.render o before after) = blur (n.render o' before' after') := by
  cases n with
  | text | code | image => rfl
  | strong content | delete content =>
    rw [Inline.render, Inline.render]
    exact blur_delimit_congr rfl (blur_renderAmong _ _ _ _ content) _ _ _ _
  | emphasis content =>
    rw [Inline.render, Inline.render]
    exact blur_delimit_congr (blur_emphasisMark _ _) (blur_renderAmong _ _ _ _ content) _ _ _ _
  | link url title content =>
    have h := blur_renderAmong (some '[') (some ']') (some '[') (some ']') content
    simp only [Inline.render, blur, List.map_cons, List.map_append] at h ⊢
    rw [h]

theorem blur_renderAmong (before after before' after' : Option Char) (ns : List Inline) :
    blur (renderAmong o before after ns (renderEach o ns)) =
      blur (renderAmong o' before' after' ns (renderEach o' ns)) := by
  cases ns with
  | nil => rfl
  | cons n ns =>
    simp only [renderEach, renderAmong, blur_append]
    congr 1
    · split
      · exact blur_render _ _ _ _ n
      · exact blur_render _ _ _ _ n
    · exact blur_renderAmong _ _ _ _ ns

end

theorem blur_phrasing (content : List Inline) :
    blur (phrasing o none none content) = blur (phrasing o' none none content) :=
  blur_renderAmong o o' none none none none content

end

theorem keeps_space : Keeps blurChar ' ' := keeps_blurChar (by decide) (by decide)

theorem keeps_break : Keeps blurChar '\n' := keeps_blurChar (by decide) (by decide)

theorem atWordEnd_blur (t : Text) : atWordEnd (blur t) = atWordEnd t := by
  cases t with
  | nil => rfl
  | cons c t => exact decide_eq_decide.2 (keeps_space c)

theorem splitIndent_blur (line : Text) :
    splitIndent (blur line) = (splitIndent line).map (Prod.map blur blur) := by
  simp only [splitIndent, blur, Text.takeWhile_eq_map keeps_space,
    Text.dropWhile_eq_map keeps_space, List.length_map]
  split <;> rfl

theorem opensBlock_blur (t : Text) : opensBlock (blur t) = opensBlock t := by
  cases t with
  | nil => rfl
  | cons c t =>
    have hc {d : Char} (hs : d ≠ '*') (hu : d ≠ '_') : decide (blurChar c = d) = decide (c = d) :=
      decide_eq_decide.2 (keeps_blurChar hs hu c)
    have ht : atWordEnd (t.map blurChar) = atWordEnd t := atWordEnd_blur t
    simp only [opensBlock, blur, List.map_cons, ht]
    rw [hc (d := '#') (by decide) (by decide), hc (d := '>') (by decide) (by decide),
      hc (d := '-') (by decide) (by decide), hc (d := '+') (by decide) (by decide)]

theorem isDecimalDigit_blurChar :
    ∀ c, Unicode.isDecimalDigit (blurChar c) = Unicode.isDecimalDigit c := blind (by decide +kernel)

theorem splitOrdinal_blur (t : Text) :
    splitOrdinal (blur t) = (splitOrdinal t).map (Prod.map blur blur) := by
  unfold splitOrdinal
  simp only [blur, Text.takeWhile_map isDecimalDigit_blurChar,
    Text.dropWhile_map isDecimalDigit_blurChar, List.length_map]
  cases t.dropWhile Unicode.isDecimalDigit with
  | nil => rfl
  | cons c rest =>
    have hpoint := keeps_blurChar (c := '.') (by decide) (by decide) c
    have hparen := keeps_blurChar (c := ')') (by decide) (by decide) c
    have hrest : atWordEnd (rest.map blurChar) = atWordEnd rest := atWordEnd_blur rest
    simp only [List.map_cons, hpoint, hparen, hrest]
    split <;> rfl

theorem all_blur {p : Char → Bool} (h : p '_' = p '*') (t : Text) : (blur t).all p = t.all p := by
  rw [blur, List.all_map, funext (blind h) (f := p ∘ blurChar)]

theorem isUnderline_blur (t : Text) : isUnderline (blur t) = isUnderline t := by
  cases t with
  | nil => rfl
  | cons c t =>
    by_cases hc : c = '=' ∨ c = '-'
    · have hkeeps : Keeps blurChar c := by
        rcases hc with rfl | rfl <;> exact keeps_blurChar (by decide) (by decide)
      have hself : blur (c :: t) = c :: blur t := by rw [blur, List.map_cons, (hkeeps c).2 rfl, blur]
      have htake : (blur (c :: t)).takeWhile (· = c) = blur ((c :: t).takeWhile (· = c)) :=
        Text.takeWhile_eq_map hkeeps _
      have hdrop : (blur (c :: t)).dropWhile (· = c) = blur ((c :: t).dropWhile (· = c)) :=
        Text.dropWhile_eq_map hkeeps _
      rw [hself] at htake hdrop ⊢
      simp only [isUnderline, htake, hdrop]
      rw [all_blur (by decide), blur, List.length_map]
    · obtain ⟨heq, hdash⟩ := not_or.1 hc
      have heq' := mt (keeps_blurChar (c := '=') (by decide) (by decide) c).1 heq
      have hdash' := mt (keeps_blurChar (c := '-') (by decide) (by decide) c).1 hdash
      simp [isUnderline, blur, heq, hdash, heq', hdash']

theorem escapeBlockStart_blur (line : Text) :
    escapeBlockStart (blur line) = blur (escapeBlockStart line) := by
  unfold escapeBlockStart
  rw [splitIndent_blur]
  cases splitIndent line with
  | none => rfl
  | some parts =>
    obtain ⟨indent, rest⟩ := parts
    simp only [Option.map_some, Prod.map, opensBlock_blur]
    split
    · rw [blur_append]
      rfl
    · rfl

theorem escapeOrdinal_blur (line : Text) : escapeOrdinal (blur line) = blur (escapeOrdinal line) := by
  unfold escapeOrdinal
  rw [splitIndent_blur]
  cases splitIndent line with
  | none => rfl
  | some parts =>
    obtain ⟨indent, rest⟩ := parts
    simp only [Option.map_some, Prod.map, splitOrdinal_blur]
    cases splitOrdinal rest with
    | none => rfl
    | some parts =>
      obtain ⟨digits, rest⟩ := parts
      simp only [Option.map_some, Prod.map, blur_append]
      rfl

theorem escapeUnderline_blur (line : Text) :
    escapeUnderline (blur line) = blur (escapeUnderline line) := by
  unfold escapeUnderline
  rw [splitIndent_blur]
  cases splitIndent line with
  | none => rfl
  | some parts =>
    obtain ⟨indent, rest⟩ := parts
    simp only [Option.map_some, Prod.map, isUnderline_blur]
    split
    · rw [blur_append]
      rfl
    · rfl

theorem encodeFirst_blur (line : Text) : encodeFirst (blur line) = blur (encodeFirst line) := by
  cases line with
  | nil => rfl
  | cons c rest =>
    by_cases hc : c = ' '
    · subst hc
      exact (blur_append encodedSpace rest).symm
    · have hc' : blurChar c ≠ ' ' := mt (keeps_space c).1 hc
      simp [blur, encodeFirst, hc, hc']

theorem encodeLast_blur (line : Text) : encodeLast (blur line) = blur (encodeLast line) := by
  have hlast : (blur line).getLast? = some ' ' ↔ line.getLast? = some ' ' :=
    Text.getLast?_map_eq_some_iff keeps_space line
  have hfront : (blur line).dropLast = blur line.dropLast := List.map_dropLast.symm
  simp only [encodeLast, hlast, hfront]
  split
  · exact (blur_append line.dropLast encodedSpace).symm
  · rfl

theorem guardLine_blur (line : Text) : guardLine (blur line) = blur (guardLine line) := by
  rw [guardLine, escapeBlockStart_blur, escapeOrdinal_blur, escapeUnderline_blur, encodeFirst_blur,
    encodeLast_blur, guardLine]

theorem unlines_blur (ls : List Text) : Text.unlines (ls.map blur) = blur (Text.unlines ls) :=
  Text.unlines_map keeps_break ls

theorem guardLines_blur (t : Text) : guardLines (blur t) = blur (guardLines t) := by
  have hlines : (blur t).lines = t.lines.map blur := Text.lines_map keeps_break t
  have hguard : guardLine ∘ blur = blur ∘ guardLine := funext guardLine_blur
  rw [guardLines, guardLines, hlines, List.map_map, hguard, ← List.map_map, unlines_blur]

theorem headingText_blur (depth : Nat) (content : Text) :
    headingText depth (blur content) = blur (headingText depth content) := by
  simp only [headingText, blur, List.isEmpty_map, List.map_append, List.map_replicate]
  split <;> rfl

theorem cellText_blur (content : Text) : cellText (blur content) = blur (cellText content) := by
  have hpipe : Keeps blurChar '|' := keeps_blurChar (by decide) (by decide)
  rw [cellText, blur, Text.replaceChar_map hpipe rfl, Text.replaceChar_map keeps_break rfl,
    Text.strip_map isBlank_blurChar]
  rfl

theorem rowLine_blur (width : Nat) (cells : List Text) :
    rowLine width (cells.map blur) = blur (rowLine width cells) := by
  have hjoin := Text.join_map (f := blurChar) [' ', '|', ' ']
    (cells ++ List.replicate (width - cells.length) [])
  simp only [rowLine, blur, hjoin, List.map_append, List.map_replicate, List.length_map]
  rfl

theorem tableText_blur (align : List (Option String)) (rows : List (List Text)) :
    tableText align (rows.map (List.map blur)) = blur (tableText align rows) := by
  have hmark (a : Option String) : blur (alignMark a) = alignMark a := by
    unfold alignMark
    split <;> rfl
  cases rows with
  | nil => rfl
  | cons head body =>
    have hwidth : ((head :: body).map (List.map blur)).map List.length =
        (head :: body).map List.length := by simp
    have hbody (width : Nat) : (body.map (List.map blur)).map (rowLine width) =
        (body.map (rowLine width)).map blur := by
      simp only [List.map_map]
      exact List.map_congr_left fun row _ => rowLine_blur width row
    have hmarks (width : Nat) (marks : List (Option String)) :
        blur (rowLine width (marks.map alignMark)) = rowLine width (marks.map alignMark) := by
      rw [← rowLine_blur, List.map_map]
      exact congrArg _ (List.map_congr_left fun a _ => hmark a)
    unfold tableText
    simp only [hwidth]
    simp only [List.map_cons, rowLine_blur, hbody]
    split
    · rfl
    · rw [← unlines_blur, List.map_cons, List.map_cons, hmarks]

theorem keeps_mask_break : Keeps maskChar '\n' := keeps_maskChar (by decide)

theorem lines_mask (t : Text) : (mask t).lines = t.lines.map mask := Text.lines_map keeps_mask_break t

theorem unlines_mask (ls : List Text) : Text.unlines (ls.map mask) = mask (Text.unlines ls) :=
  Text.unlines_map keeps_mask_break ls

theorem mask_indentLine (width : Nat) (line : Text) :
    mask (indentLine width line) = indentLine width (mask line) := by
  simp only [indentLine, mask, List.isEmpty_map]
  split
  · rfl
  · rw [List.map_append, List.map_replicate]
    rfl

theorem mask_hang (mark content : Text) : mask (hang mark content) = hang (mask mark) (mask content) := by
  simp only [hang, lines_mask]
  simp only [mask, List.isEmpty_map, List.length_map]
  split
  · rfl
  · cases content.lines with
    | nil => rfl
    | cons first rest =>
      have hrest : (rest.map (indentLine (mark.length + 1))).map mask =
          (rest.map mask).map (indentLine (mark.length + 1)) := by
        simp only [List.map_map]
        exact List.map_congr_left fun line _ => mask_indentLine _ line
      have hfirst : mask (mark ++ ' ' :: first) = mask mark ++ ' ' :: mask first :=
        mask_append mark (' ' :: first)
      have h := unlines_mask ((mark ++ ' ' :: first) :: rest.map (indentLine (mark.length + 1)))
      rw [List.map_cons, hrest, hfirst] at h
      exact h.symm

theorem mask_quote (content : Text) : mask (quote content) = quote (mask content) := by
  have hline (line : Text) : quoteLine (mask line) = mask (quoteLine line) := by
    simp only [quoteLine, mask, List.isEmpty_map]
    split <;> rfl
  rw [quote, quote, lines_mask, List.map_map, ← unlines_mask, List.map_map]
  exact congrArg _ (List.map_congr_left fun line _ => (hline line).symm)

/-- A rendered sibling with its marks masked. -/
def Piece.masked (p : Piece) : Piece := ⟨mask p.text, p.interrupts⟩

theorem mask_stack (tight : Bool) (ps : List Piece) :
    mask (stack tight ps) = stack tight (ps.map Piece.masked) := by
  have hempty (p : Piece) : p.masked.text.isEmpty = p.text.isEmpty := List.isEmpty_map
  have hgap (p : Piece) : mask (p.gap tight) = p.gap tight := by
    unfold Piece.gap
    split <;> rfl
  have hfilter : (ps.map Piece.masked).filter (fun p => !p.text.isEmpty) =
      (ps.filter fun p => !p.text.isEmpty).map Piece.masked := by
    rw [List.filter_map]
    exact congrArg _ (List.filter_congr fun p _ => congrArg not (hempty p))
  rw [stack, stack, hfilter]
  cases ps.filter fun p => !p.text.isEmpty with
  | nil => rfl
  | cons p ps =>
    have hrest : mask (ps.flatMap fun q => q.gap tight ++ q.text) =
        (ps.map Piece.masked).flatMap fun q => q.gap tight ++ q.text := by
      rw [mask, List.map_flatMap, List.flatMap_map]
      congr 1
      funext q
      exact (mask_append _ _).trans (by rw [hgap]; rfl)
    rw [List.map_cons, mask_append, hrest]
    rfl

theorem mask_itemMark (o o' : Options) (alternate ordered : Bool) (start : Option Int) (index : Nat) :
    mask (itemMark o alternate ordered start index) = mask (itemMark o' alternate ordered start index) := by
  have hbullet (b : Bullet) : mask [b.char] = ['*'] := by cases b <;> rfl
  cases ordered with
  | true => rfl
  | false =>
    simp only [itemMark, Bool.false_eq_true, ↓reduceIte]
    cases alternate <;> simp [hbullet]

theorem mask_rule (r r' : Rule) : mask r.text = mask r'.text := by
  cases r <;> cases r' <;> rfl

section
variable (o o' : Options)

mutual

theorem mask_render (alternate : Bool) (n : Flow) :
    mask (n.render o alternate) = mask (n.render o' alternate) := by
  cases n with
  | paragraph content =>
    rw [Flow.render, Flow.render]
    apply mask_eq_of_blur_eq
    rw [← guardLines_blur, ← guardLines_blur, blur_phrasing o o']
  | heading depth content =>
    rw [Flow.render, Flow.render]
    apply mask_eq_of_blur_eq
    have hbreak (t : Text) : blur (Text.replaceChar '\n' [' '] t) = Text.replaceChar '\n' [' '] (blur t) :=
      (Text.replaceChar_map keeps_break rfl t).symm
    rw [← headingText_blur, ← headingText_blur, hbreak, hbreak, ← guardLines_blur, ← guardLines_blur,
      blur_phrasing o o']
  | code => rfl
  | thematicBreak => exact mask_rule _ _
  | blockquote content =>
    rw [Flow.render, Flow.render, mask_quote, mask_quote, mask_stack, mask_stack,
      masked_renderSiblings]
  | list ordered start spread items =>
    rw [Flow.render, Flow.render]
    have hjoin (sep : Text) (ts : List Text) : mask (Text.join sep ts) =
        Text.join (mask sep) (ts.map mask) := Text.join_map sep ts
    rw [hjoin, hjoin, mask_renderItems (mask_itemMark o o' alternate ordered start) 0 items]
  | table align rows =>
    rw [Flow.render, Flow.render]
    apply mask_eq_of_blur_eq
    rw [← tableText_blur, ← tableText_blur]
    have hcell (c : List Inline) : blur (cellText (phrasing o none none c)) =
        blur (cellText (phrasing o' none none c)) := by
      rw [← cellText_blur, ← cellText_blur, blur_phrasing o o']
    simp only [List.map_map, Function.comp_def, hcell]

theorem masked_renderSiblings (previous : Option Bool) (alternate : Bool) (ns : List Flow) :
    (renderSiblings o previous alternate ns).map Piece.masked =
      (renderSiblings o' previous alternate ns).map Piece.masked := by
  cases ns with
  | nil => rfl
  | cons n ns =>
    simp only [renderSiblings, List.map_cons, Piece.masked]
    rw [mask_render _ n, masked_renderSiblings _ _ ns]

theorem mask_renderItems {mark mark' : Nat → Text} (h : ∀ i, mask (mark i) = mask (mark' i))
    (index : Nat) (items : List Item) :
    (renderItems o mark index items).map mask = (renderItems o' mark' index items).map mask := by
  cases items with
  | nil => rfl
  | cons item items =>
    rw [renderItems, renderItems, List.map_cons, List.map_cons, mask_renderItem (h index) item,
      mask_renderItems h _ items]

theorem mask_renderItem {mark mark' : Text} (h : mask mark = mask mark') (item : Item) :
    mask (item.render o mark) = mask (item.render o' mark') := by
  cases item with
  | mk checked spread content =>
    rw [Item.render, Item.render, mask_hang, mask_hang, h, mask_append, mask_append, mask_stack,
      mask_stack, masked_renderSiblings]

end

end

theorem softenEnd_mask (line : Text) : softenEnd (mask line) = mask (softenEnd line) := by
  have hencoded : ∀ c ∈ encodedSpace, Keeps maskChar c := by
    intro c hc
    have hmarks : (encodedSpace.all fun c => !isMark c) = true := by decide
    exact keeps_maskChar (by simpa using List.all_eq_true.1 hmarks c hc)
  have hsuffix : encodedSpace.isSuffixOf (mask line) = encodedSpace.isSuffixOf line := by
    rw [Bool.eq_iff_iff, List.isSuffixOf_iff_suffix, List.isSuffixOf_iff_suffix]
    exact Text.suffix_map_iff hencoded line
  have hlast : (mask line).getLast? = some '\u00a0' ↔ line.getLast? = some '\u00a0' :=
    Text.getLast?_map_eq_some_iff (keeps_maskChar (by decide)) line
  have hfront (n : Nat) : (mask line).take n = mask (line.take n) := List.map_take.symm
  have hlength : (mask line).length = line.length := List.length_map ..
  have hdrop : (mask line).dropLast = mask line.dropLast := List.map_dropLast.symm
  unfold softenEnd
  simp only [hsuffix, hlast, hfront, hlength, hdrop]
  split
  · exact (mask_append _ [' ']).symm
  · split
    · exact (mask_append _ [' ']).symm
    · rfl

theorem softenLines_mask (ls : List Text) :
    softenLines (ls.map mask) = (softenLines ls).map mask := by
  fun_induction softenLines ls with
  | case1 => rfl
  | case2 line => rfl
  | case3 line lines hne ih =>
    obtain ⟨next, lines, rfl⟩ := List.exists_cons_of_ne_nil (mt (· ▸ rfl) hne : lines ≠ [])
    rw [List.map_cons, List.map_cons, softenLines, softenEnd_mask, ← List.map_cons, ih, List.map_cons]
    exact fun h => by cases h

theorem softenEnds_mask (t : Text) : softenEnds (mask t) = mask (softenEnds t) := by
  rw [softenEnds, lines_mask, softenLines_mask, unlines_mask, softenEnds]

theorem mask_text (o o' : Options) (d : Document) : mask (d.text o) = mask (d.text o') := by
  have hbody : mask (flowText o false d.content) = mask (flowText o' false d.content) := by
    rw [flowText, flowText, mask_stack, mask_stack, masked_renderSiblings o o']
  have hempty (t : Text) : (mask t).isEmpty = t.isEmpty := List.isEmpty_map
  have hraw (o : Options) : mask (d.rawText o) = if (mask (flowText o false d.content)).isEmpty then []
      else mask (flowText o false d.content) ++ ['\n'] := by
    rw [hempty, Document.rawText]
    split
    · rfl
    · exact mask_append _ _
  rw [Document.text, Document.text, ← softenEnds_mask, ← softenEnds_mask, hraw, hraw, hbody]

/-- Under any two choices of options a tree is refused with the same fault, or has two texts that are
equal once every mark in them is masked. -/
theorem mask_markdown (o o' : Options) (n : Node) :
    (markdown o n).map (fun s => mask s.toList) = (markdown o' n).map fun s => mask s.toList := by
  unfold markdown
  cases Document.ofNode n with
  | error m => rfl
  | ok d =>
    change Except.ok (mask (String.ofList _).toList) = Except.ok (mask (String.ofList _).toList)
    rw [String.toList_ofList, String.toList_ofList, mask_text o o']

end PageExport.Markdown
