import PageExport.Proofs.Markdown.FencedCode

/-!
Lines of a table and the cells in them. A cell escapes its bars and its special characters with
backslashes, so that a reader finds the bars between the cells, takes the backslashes off again and has
the text of each cell, without the blanks at its ends and with its line breaks as spaces.
-/
namespace PageExport

namespace Text

/-- Stripping commutes with rewriting each character that is not blank to others that are not. -/
theorem strip_flatMap {f : Char → Text}
    (hf : ∀ c, f c = [c] ∨ isBlank c = false ∧ f c ≠ [] ∧ ∀ d ∈ f c, isBlank d = false) (t : Text) :
    strip (t.flatMap f) = (strip t).flatMap f := by
  have hleft {g : Char → Text}
      (hg : ∀ c, g c = [c] ∨ isBlank c = false ∧ g c ≠ [] ∧ ∀ d ∈ g c, isBlank d = false) (t : Text) :
      (t.flatMap g).dropWhile isBlank = (t.dropWhile isBlank).flatMap g := by
    induction t with
    | nil => rfl
    | cons c t ih =>
      rw [List.flatMap_cons]
      obtain hsame | ⟨hc, hne, hall⟩ := hg c
      · by_cases hc : isBlank c = true
        · simp [hsame, hc, ih]
        · simp [hsame, hc]
      · obtain ⟨d, ds, hd⟩ := List.exists_cons_of_ne_nil hne
        have hdblank := hall d (hd ▸ List.mem_cons_self)
        rw [hd, List.cons_append, List.dropWhile_cons_of_neg (by simp [hdblank]),
          List.dropWhile_cons_of_neg (by simp [hc]), List.flatMap_cons, hd, List.cons_append]
  have hreverse : ∀ c, (f c).reverse = [c] ∨
      isBlank c = false ∧ (f c).reverse ≠ [] ∧ ∀ d ∈ (f c).reverse, isBlank d = false := by
    intro c
    obtain hsame | ⟨hc, hne, hall⟩ := hf c
    · exact .inl (by rw [hsame]; rfl)
    · exact .inr ⟨hc, by simpa using hne, fun d hd => hall d (List.mem_reverse.1 hd)⟩
  rw [strip, stripLeft, hleft hf, stripRight, List.reverse_flatMap, strip, stripLeft, stripRight]
  have hright := hleft hreverse (t.dropWhile isBlank).reverse
  rw [show (List.reverse ∘ f) = fun c => (f c).reverse from rfl, hright, List.reverse_flatMap]
  simp [Function.comp_def]

theorem strip_subset (t : Text) : t.strip ⊆ t := fun _ h =>
  List.dropWhile_subset _ ((List.rdropWhile_prefix isBlank t.stripLeft).subset h)

theorem strip_strip (t : Text) : t.strip.strip = t.strip := by
  have hleft : t.strip.stripLeft = t.strip := by
    cases h : t.strip with
    | nil => rfl
    | cons c u =>
      obtain ⟨v, hv⟩ : t.strip <+: t.stripLeft := List.rdropWhile_prefix isBlank t.stripLeft
      have hc := List.head?_dropWhile_not isBlank t
      rw [← stripLeft, ← hv, h] at hc
      exact List.dropWhile_cons_of_neg (by simpa using hc)
  rw [strip, hleft]
  exact List.rdropWhile_idempotent isBlank t.stripLeft

end Text

namespace Markdown

/-- The parts of a line between its bars. A bar right behind a backslash separates nothing; `behind` says
that a backslash stands before the text. -/
def splitBars (behind : Bool) : Text → List Text
  | [] => [[]]
  | c :: t =>
    if c = '|' && !behind then [] :: splitBars false t
    else match splitBars (c = '\\') t with
      | [] => [[c]]
      | part :: parts => (c :: part) :: parts

/-- The cells of a line, which are the parts between its first and its last bar. -/
def cellsOf (line : Text) : List Text := (splitBars false line).tail.dropLast

/-- Takes the backslash off each escaped bar. -/
def unescapeBars : Text → Text
  | '\\' :: '|' :: t => '|' :: unescapeBars t
  | c :: t => c :: unescapeBars t
  | [] => []

/-- Takes the backslash off each escaped special character. -/
def unescape : Text → Text
  | '\\' :: c :: t => if isSpecial c then c :: unescape t else '\\' :: unescape (c :: t)
  | c :: t => c :: unescape t
  | [] => []

def readCell (t : Text) : Text := unescape (unescapeBars t.strip)

theorem splitBars_ne_nil (behind : Bool) (t : Text) : splitBars behind t ≠ [] := by
  cases t with
  | nil => simp [splitBars]
  | cons c t =>
    unfold splitBars
    split
    · simp
    · split <;> simp

/-- A bar behind a space separates. -/
theorem splitBars_append (behind : Bool) (t u : Text) :
    splitBars behind (t ++ ' ' :: '|' :: u) = splitBars behind (t ++ [' ']) ++ splitBars false u := by
  induction t generalizing behind with
  | nil => simp [splitBars]
  | cons c t ih =>
    simp only [List.cons_append, splitBars]
    split
    · rw [ih, List.cons_append]
    · rw [ih]
      obtain ⟨part, parts, hparts⟩ :=
        List.exists_cons_of_ne_nil (splitBars_ne_nil (c = '\\') (t ++ [' ']))
      rw [hparts]
      rfl

theorem unescapeBars_cons {c : Char} {t : Text} (h : c ≠ '\\' ∨ t.head? ≠ some '|') :
    unescapeBars (c :: t) = c :: unescapeBars t := by
  rw [unescapeBars]
  rintro t' rfl rfl
  simp at h

theorem unescape_cons {c : Char} (h : c ≠ '\\') (t : Text) :
    unescape (c :: t) = c :: unescape t := by
  rw [unescape]
  rintro d t' rfl
  exact absurd rfl h

theorem unescape_escape_append (t u : Text) : unescape (escape t ++ u) = t ++ unescape u := by
  induction t with
  | nil => rfl
  | cons c t ih =>
    rw [escape] at ih
    rw [escape, List.flatMap_cons, List.append_assoc]
    by_cases hc : isSpecial c = true
    · rw [if_pos hc, List.cons_append, List.singleton_append, unescape, if_pos hc, ih, List.cons_append]
    · have hslash : c ≠ '\\' := by
        rintro rfl
        exact hc (by decide)
      rw [if_neg hc, List.singleton_append, unescape_cons hslash, ih, List.cons_append]

theorem unescape_escape (t : Text) : unescape (escape t) = t := by
  have h := unescape_escape_append t []
  rwa [List.append_nil, unescape, List.append_nil] at h

theorem escape_inj {t u : Text} : escape t = escape u ↔ t = u := by
  constructor
  · intro h
    rw [← unescape_escape t, h, unescape_escape]
  · rintro rfl
    rfl

/-- A character as it stands in a cell. -/
def cellChar (c : Char) : Text := if c = '|' || isSpecial c then ['\\', c] else [c]

/-- What a cell shows of a text. -/
def shownInCell (t : Text) : Text := (Text.replaceChar '\n' [' '] t).strip

theorem cellChar_cases (c : Char) :
    (cellChar c = ['\\', c] ∧ isBlank c = false) ∨ (cellChar c = [c] ∧ c ≠ '|' ∧ c ≠ '\\') := by
  by_cases hbar : c = '|'
  · subst hbar
    exact .inl ⟨rfl, by decide⟩
  by_cases hc : isSpecial c = true
  · refine .inl ⟨by simp [cellChar, hc], ?_⟩
    simp only [isSpecial, Bool.or_eq_true, decide_eq_true_eq] at hc
    rcases hc with ((((rfl | rfl) | rfl) | rfl) | rfl) | rfl <;> decide
  · refine .inr ⟨by simp [cellChar, hbar, hc], hbar, ?_⟩
    rintro rfl
    exact hc (by decide)

theorem cellText_escape (t : Text) : cellText (escape t) = (shownInCell t).flatMap cellChar := by
  have hchar (c : Char) :
      ((if isSpecial c then ['\\', c] else [c]).flatMap
        fun d => (if d = '|' then ['\\', '|'] else [d]).flatMap fun e => if e = '\n' then [' '] else [e]) =
        (if c = '\n' then [' '] else [c]).flatMap cellChar := by
    by_cases hbreak : c = '\n'
    · subst hbreak
      decide
    by_cases hbar : c = '|'
    · subst hbar
      decide
    by_cases hc : isSpecial c = true <;> simp [cellChar, hbreak, hbar, hc]
  have hstrip : ∀ c, cellChar c = [c] ∨
      isBlank c = false ∧ cellChar c ≠ [] ∧ ∀ d ∈ cellChar c, isBlank d = false := by
    intro c
    obtain ⟨hc, hblank⟩ | ⟨hc, -⟩ := cellChar_cases c
    · refine .inr ⟨hblank, by simp [hc], ?_⟩
      rw [hc]
      simpa [hblank] using (by decide : isBlank '\\' = false)
    · exact .inl hc
  rw [shownInCell, ← Text.strip_flatMap hstrip, cellText]
  simp only [Text.replaceChar, escape, List.flatMap_assoc, hchar]

theorem not_mem_cellText (t : Text) : '\n' ∉ cellText t := by
  intro h
  obtain ⟨c, -, hc⟩ := List.mem_flatMap.1 (Text.strip_subset _ h)
  by_cases hbreak : c = '\n'
  · simp [hbreak] at hc
  · rw [if_neg hbreak, List.mem_singleton] at hc
    exact hbreak hc.symm

theorem head?_flatMap_cellChar (t : Text) : (t.flatMap cellChar).head? ≠ some '|' := by
  cases t with
  | nil => simp
  | cons c t =>
    obtain ⟨hc, -⟩ | ⟨hc, hbar, -⟩ := cellChar_cases c
    · simp [hc]
    · simpa [hc] using hbar

theorem unescapeBars_flatMap_cellChar (t : Text) : unescapeBars (t.flatMap cellChar) = escape t := by
  induction t with
  | nil => rfl
  | cons c t ih =>
    rw [List.flatMap_cons, escape, List.flatMap_cons, ← escape, ← ih]
    by_cases hbar : c = '|'
    · subst hbar
      rfl
    have hnext := head?_flatMap_cellChar t
    by_cases hc : isSpecial c = true
    · have hcell : cellChar c = ['\\', c] := by simp [cellChar, hc]
      rw [hcell, if_pos hc, List.cons_append, List.singleton_append,
        unescapeBars_cons (.inr (by simpa using hbar)), unescapeBars_cons (.inr hnext)]
      rfl
    · have hcell : cellChar c = [c] := by simp [cellChar, hbar, hc]
      rw [hcell, if_neg hc, List.singleton_append, unescapeBars_cons (.inr hnext)]
      rfl

/-- A text without a bar that separates, wherever it stands. -/
def Whole (t : Text) : Prop := ∀ behind, splitBars behind (t ++ [' ']) = [t ++ [' ']]

/-- A cell between its spaces. -/
def padded (t : Text) : Text := ' ' :: t ++ [' ']

theorem whole_cellText (t : Text) : Whole (cellText (escape t)) := by
  rw [cellText_escape]
  induction shownInCell t with
  | nil => exact fun behind => by cases behind <;> rfl
  | cons c t ih =>
    intro behind
    have hrest := ih (c = '\\')
    rw [List.flatMap_cons]
    obtain ⟨hc, -⟩ | ⟨hc, hbar, -⟩ := cellChar_cases c
    · -- if this character is a bar, it stands behind its backslash
      simp [hc, splitBars, hrest]
    · simp [hc, splitBars, hrest, hbar]

theorem whole_alignMark (align : Option String) : Whole (alignMark align) := by
  intro behind
  unfold alignMark
  split <;> cases behind <;> rfl

theorem splitBars_join {cells : List Text} (hne : cells ≠ []) (h : ∀ c ∈ cells, Whole c) :
    splitBars false (' ' :: Text.join [' ', '|', ' '] cells ++ [' ', '|']) =
      cells.map padded ++ [[]] := by
  have hcell {c : Text} (hc : Whole c) : splitBars false (' ' :: c ++ [' ']) = [padded c] := by
    have := hc false
    simp only [padded, List.cons_append, splitBars] at this ⊢
    simp [this]
  induction cells with
  | nil => exact absurd rfl hne
  | cons c cells ih =>
    obtain ⟨hc, hcells⟩ := List.forall_mem_cons.1 h
    cases cells with
    | nil =>
      have happend := splitBars_append false (' ' :: c) []
      rw [hcell hc] at happend
      exact happend
    | cons d cells =>
      have happend := splitBars_append false (' ' :: c)
        (' ' :: Text.join [' ', '|', ' '] (d :: cells) ++ [' ', '|'])
      rw [hcell hc, ih (by simp) hcells] at happend
      simpa using happend

theorem rowLine_eq {width : Nat} {cells : List Text} (h : cells.length = width) :
    rowLine width cells = '|' :: ' ' :: Text.join [' ', '|', ' '] cells ++ [' ', '|'] := by
  simp [rowLine, h]

theorem cellsOf_rowLine {width : Nat} (hwidth : 0 < width) {cells : List Text}
    (hlength : cells.length = width) (h : ∀ c ∈ cells, Whole c) :
    cellsOf (rowLine width cells) = cells.map padded := by
  have hne : cells ≠ [] := by
    rintro rfl
    exact hwidth.ne hlength
  rw [cellsOf, rowLine_eq hlength, List.cons_append, splitBars, if_pos (by rfl),
    splitBars_join hne h, List.tail_cons, List.dropLast_concat]

theorem strip_padded (t : Text) : (padded t).strip = t.strip := by
  have hblank : isBlank ' ' = true := by decide
  have hleft : (padded t).stripLeft = (t ++ [' ']).stripLeft := by
    simp [padded, Text.stripLeft, hblank]
  rw [Text.strip, hleft, Text.strip, Text.stripLeft, Text.stripLeft, List.dropWhile_append]
  split
  · next hempty =>
    rw [List.isEmpty_iff.1 hempty]
    simp [Text.stripRight, hblank]
  · simp [Text.stripRight, hblank]

/-- A cell is read as what it shows. -/
theorem readCell_padded (t : Text) : readCell (padded (cellText (escape t))) = shownInCell t := by
  have hstrip : (cellText (escape t)).strip = cellText (escape t) := Text.strip_strip _
  rw [readCell, strip_padded, hstrip, cellText_escape, unescapeBars_flatMap_cellChar,
    unescape_escape]

theorem not_mem_rowLine {width : Nat} {cells : List Text} (h : ∀ c ∈ cells, '\n' ∉ c) :
    '\n' ∉ rowLine width cells := by
  have hjoin : '\n' ∉ Text.join [' ', '|', ' '] (cells ++ List.replicate (width - cells.length) []) := by
    refine Text.not_mem_join (by decide) fun t ht => ?_
    rcases List.mem_append.1 ht with ht | ht
    · exact h t ht
    · simp [(List.mem_replicate.1 ht).2]
  simp [rowLine, hjoin]

theorem not_mem_alignMark (align : Option String) : '\n' ∉ alignMark align := by
  unfold alignMark
  split <;> decide

theorem softenEnd_rowLine (width : Nat) (cells : List Text) :
    softenEnd (rowLine width cells) = rowLine width cells := by
  have hlast : ∃ t, rowLine width cells = t ++ ['|'] :=
    ⟨['|', ' '] ++ Text.join [' ', '|', ' '] (cells ++ List.replicate (width - cells.length) []) ++
      [' '], by simp [rowLine]⟩
  obtain ⟨t, ht⟩ := hlast
  refine softenEnd_of_not_endsSoft ?_
  rw [← Bool.not_eq_true, endsSoft_iff, ht]
  rintro (⟨u, hu⟩ | ⟨u, hu⟩)
  · simpa [encodedSpace] using congrArg List.getLast? hu
  · simpa using congrArg List.getLast? hu

/-- The marks between the head of a table and its other rows. -/
def alignMarks (align : List (Option String)) (width : Nat) : List Text :=
  ((align ++ List.replicate width none).take width).map alignMark

theorem length_alignMarks (align : List (Option String)) (width : Nat) :
    (alignMarks align width).length = width := by
  simp [alignMarks]

/-- The lines of a table with rows of one width. -/
def tableLines (align : List (Option String)) (width : Nat) (head : List Text)
    (body : List (List Text)) : List Text :=
  rowLine width head :: rowLine width (alignMarks align width) :: body.map (rowLine width)

theorem foldl_max_eq {width : Nat} {ns : List Nat} (hne : ns ≠ []) (h : ∀ n ∈ ns, n = width) :
    ns.foldl max 0 = width := by
  obtain ⟨n, ns, rfl⟩ := List.exists_cons_of_ne_nil hne
  obtain ⟨rfl, hns⟩ := List.forall_mem_cons.1 h
  rw [List.foldl_cons, Nat.zero_max]
  induction ns with
  | nil => rfl
  | cons m ns ih =>
    obtain ⟨rfl, hns⟩ := List.forall_mem_cons.1 hns
    rw [List.foldl_cons, Nat.max_self]
    exact ih (by simp) (List.forall_mem_cons.2 ⟨rfl, hns⟩) hns

theorem tableText_eq (align : List (Option String)) {width : Nat} (hwidth : 0 < width)
    {head : List Text} {body : List (List Text)} (h : ∀ row ∈ head :: body, row.length = width) :
    tableText align (head :: body) = Text.unlines (tableLines align width head body) := by
  have hmax : ((head :: body).map List.length).foldl max 0 = width :=
    foldl_max_eq (by simp) (List.forall_mem_map.2 h)
  simp only [tableText, hmax, if_neg hwidth.ne', tableLines, alignMarks]

/-- The text of a document that is one block: the lines of the block if none of them is softened, each
with a line break at its end. -/
theorem lines_text_of_render {o : Options} {n : Flow} {ls : List Text}
    (hrender : n.render o false = Text.unlines ls) (hne : Text.unlines ls ≠ [])
    (h : ∀ l ∈ ls, '\n' ∉ l ∧ softenEnd l = l) :
    Text.lines ((Document.mk [n]).text o) = ls ++ [[]] := by
  have hraw : (Document.mk [n]).rawText o = Text.unlines ls ++ ['\n'] := by
    have halternate : alternates none false n.order? = false := rfl
    simp [Document.rawText, flowText, renderSiblings, stack, halternate, hrender, hne]
  have hlines : Text.lines (Text.unlines ls ++ ['\n']) = ls ++ [[]] := by
    have hown : Text.split '\n' (Text.unlines ls) = ls :=
      Text.lines_unlines (fun hnil => hne (hnil ▸ rfl)) fun l hl => (h l hl).1
    rw [Text.lines, Text.split_append_cons, hown]
    rfl
  have hsoft : ls.map softenEnd = ls :=
    (List.map_congr_left fun l hl => (h l hl).2).trans (List.map_id _)
  rw [Document.text, hraw, softenEnds, hlines, softenLines_append_singleton, hsoft]
  refine Text.lines_unlines (by simp) fun l hl => ?_
  rcases List.mem_append.1 hl with hl | hl
  · exact (h l hl).1
  · simp [List.mem_singleton.1 hl]

/-- The texts of the cells in a row. -/
def cellTexts (o : Options) (row : List (List Inline)) : List Text :=
  row.map fun c => cellText (phrasing o none none c)

theorem lines_text_table (o : Options) (align : List (Option String)) {width : Nat}
    (hwidth : 0 < width) {head : List (List Inline)} {body : List (List (List Inline))}
    (h : ∀ row ∈ head :: body, row.length = width) :
    Text.lines ((Document.mk [.table align (head :: body)]).text o) =
      tableLines align width (cellTexts o head) (body.map (cellTexts o)) ++ [[]] := by
  have hlength : ∀ row ∈ (head :: body).map (cellTexts o), row.length = width :=
    List.forall_mem_map.2 fun row hrow => (List.length_map _).trans (h row hrow)
  have hbreak (row : List (List Inline)) : ∀ t ∈ cellTexts o row, '\n' ∉ t :=
    List.forall_mem_map.2 fun c _ => not_mem_cellText _
  refine lines_text_of_render ?_ ?_ (List.forall_mem_cons.2 ⟨⟨not_mem_rowLine (hbreak head),
    softenEnd_rowLine _ _⟩, List.forall_mem_cons.2 ⟨⟨not_mem_rowLine ?_, softenEnd_rowLine _ _⟩, ?_⟩⟩)
  · rw [Flow.render]
    exact tableText_eq align hwidth hlength
  · rw [tableLines, Text.unlines, Text.join_cons_cons, rowLine]
    simp
  · exact List.forall_mem_map.2 fun a _ => not_mem_alignMark a
  · rw [List.map_map]
    exact List.forall_mem_map.2 fun row _ => ⟨not_mem_rowLine (hbreak row), softenEnd_rowLine _ _⟩

end Markdown
end PageExport
