import Mathlib.Data.List.DropRight
import PageExport.Markdown.Flow
import PageExport.Proofs.Markdown.BlockStarts

/-!
Content inside a line with what each character is there for. Glyphs keep the delimiters of styled
content apart from characters that look like them; without their uses they are the text that is
written.
-/
namespace PageExport.Markdown

inductive Style where
  | strong | emphasis | delete
  deriving DecidableEq, Repr

/-- A character stands for itself, behind a backslash or without one, or delimits styled content. -/
inductive Use where
  | plain
  | escaped
  | opening (style : Style)
  | closing (style : Style)
  deriving DecidableEq, Repr

structure Glyph where
  char : Char
  use : Use
  deriving DecidableEq, Repr

def chars (g : List Glyph) : Text := g.map Glyph.char

@[simp] theorem chars_nil : chars [] = [] := rfl

@[simp] theorem chars_cons (x : Glyph) (g : List Glyph) : chars (x :: g) = x.char :: chars g := rfl

@[simp] theorem chars_append (g h : List Glyph) : chars (g ++ h) = chars g ++ chars h :=
  List.map_append

/-- The characters of a text in one use. -/
def inUse (use : Use) (t : Text) : List Glyph := t.map fun c => ⟨c, use⟩

abbrev plain (t : Text) : List Glyph := inUse .plain t

@[simp] theorem chars_inUse (use : Use) (t : Text) : chars (inUse use t) = t := by
  rw [chars, inUse, List.map_map]
  exact List.map_id t

namespace Glyph

def isBlank (x : Glyph) : Bool := PageExport.isBlank x.char

def leading (g : List Glyph) : List Glyph := g.takeWhile isBlank

def trailing (g : List Glyph) : List Glyph := g.rtakeWhile isBlank

def strip (g : List Glyph) : List Glyph := (g.dropWhile isBlank).rdropWhile isBlank

theorem chars_leading (g : List Glyph) : chars (leading g) = (chars g).leading :=
  List.takeWhile_map.symm

theorem chars_trailing (g : List Glyph) : chars (trailing g) = (chars g).trailing := by
  rw [chars, chars, trailing, List.rtakeWhile, Text.trailing, ← List.map_reverse, List.takeWhile_map,
    List.map_reverse]
  rfl

theorem chars_strip (g : List Glyph) : chars (strip g) = (chars g).strip := by
  rw [chars, chars, strip, List.rdropWhile, Text.strip, Text.stripLeft, Text.stripRight,
    List.dropWhile_map, ← List.map_reverse, List.dropWhile_map, List.map_reverse]
  rfl

/-- If not all is blank, the blanks at the two edges do not overlap. -/
theorem leading_strip_trailing {g : List Glyph} (h : strip g ≠ []) :
    leading g ++ strip g ++ trailing g = g := by
  have hrest : ¬((g.dropWhile isBlank).reverse.takeWhile isBlank).length =
      (g.dropWhile isBlank).reverse.length := by
    intro hlen
    have hall := (List.takeWhile_prefix isBlank).eq_of_length hlen
    refine h (List.rdropWhile_eq_nil_iff.2 fun x hx => ?_)
    exact List.takeWhile_eq_self_iff.1 hall x (List.mem_reverse.2 hx)
  have htrailing : trailing g = (g.dropWhile isBlank).rtakeWhile isBlank := by
    rw [trailing, List.rtakeWhile, List.rtakeWhile]
    conv_lhs => rw [← List.takeWhile_append_dropWhile (p := isBlank) (l := g)]
    rw [List.reverse_append, List.takeWhile_append, if_neg hrest]
  rw [htrailing, List.append_assoc, strip, List.rdropWhile_append_rtakeWhile]
  exact List.takeWhile_append_dropWhile

end Glyph

/-- What delimits styled content. -/
def delimiters : List Text := [['*'], ['_'], ['*', '*'], ['~', '~']]

theorem delimiters_cases {mark : Text} (h : mark ∈ delimiters) :
    mark = ['*'] ∨ mark = ['_'] ∨ mark = ['*', '*'] ∨ mark = ['~', '~'] := by
  simpa [delimiters] using h

theorem emphasisMark_mem (m : EmphasisMark) : [m.char] ∈ delimiters := by cases m <;> decide

theorem settleMark_mem {mark : Text} (h : mark ∈ delimiters) (beside : List Char) :
    settleMark mark beside ∈ delimiters := by
  unfold settleMark
  split
  · decide
  · exact h

/-- An escaped text. -/
def escapeGlyphs (t : Text) : List Glyph :=
  t.flatMap fun c => if isSpecial c then [⟨'\\', .plain⟩, ⟨c, .escaped⟩] else [⟨c, .plain⟩]

/-- Content between delimiters of a style, which go inside the blanks at its edges. -/
def delimitGlyphs (style : Style) (mark : Text) (before after : Option Char) (inner : List Glyph) :
    List Glyph :=
  let core := Glyph.strip inner
  if core.isEmpty then inner
  else
    let beside := ((chars (Glyph.leading inner)).getLast?.or before).toList
      ++ ((chars (Glyph.trailing inner)).head?.or after).toList
    let mark := settleMark mark beside
    Glyph.leading inner ++ inUse (.opening style) mark ++ core ++ inUse (.closing style) mark
      ++ Glyph.trailing inner

mutual

/-- Content that stands between the characters `before` and `after`. -/
def Inline.glyphs (o : Options) (before after : Option Char) : Inline → List Glyph
  | .text value => escapeGlyphs value.toList
  | .code value => plain (codeSpan value.toList)
  | .strong content =>
    delimitGlyphs .strong ['*', '*'] before after (glyphsAmong o before after content)
  | .emphasis content =>
    delimitGlyphs .emphasis [o.emphasis.char] before after (glyphsAmong o before after content)
  | .delete content =>
    delimitGlyphs .delete ['~', '~'] before after (glyphsAmong o before after content)
  | .link url title content =>
    plain ['['] ++ glyphsAmong o (some '[') (some ']') content
      ++ plain ([']', '('] ++ linkDestination url.toList ++ titlePart title ++ [')'])
  | .image url title alt =>
    plain ['!', '['] ++ escapeGlyphs (alt.getD "").toList
      ++ plain ([']', '('] ++ linkDestination url.toList ++ titlePart title ++ [')'])

/-- Siblings in a line, between the characters `before` and `after`. -/
def glyphsAmong (o : Options) (before after : Option Char) : List Inline → List Glyph
  | [] => []
  | n :: ns =>
    let following := ((renderEach o ns).flatten.head?).or after
    let g := if n.isDelimited then n.glyphs o before following else n.glyphs o none none
    g ++ glyphsAmong o ((chars g).getLast?.or before) after ns

end

theorem chars_escapeGlyphs (t : Text) : chars (escapeGlyphs t) = escape t := by
  rw [chars, escapeGlyphs, escape, List.map_flatMap]
  congr 1
  funext c
  split <;> rfl

theorem escapeGlyphs_eq_nil_iff {t : Text} : escapeGlyphs t = [] ↔ t = [] := by
  cases t with
  | nil => simp [escapeGlyphs]
  | cons c t =>
    rw [escapeGlyphs, List.flatMap_cons]
    split <;> simp

theorem use_escapeGlyphs (t : Text) : ∀ x ∈ escapeGlyphs t, x.use = .plain ∨ x.use = .escaped := by
  intro x hx
  obtain ⟨c, -, hx⟩ := List.mem_flatMap.1 hx
  split at hx
  · simp only [List.mem_cons, List.not_mem_nil, or_false] at hx
    rcases hx with rfl | rfl
    · exact .inl rfl
    · exact .inr rfl
  · exact .inl (List.mem_singleton.1 hx ▸ rfl)

theorem chars_delimitGlyphs (style : Style) (mark : Text) (before after : Option Char)
    (inner : List Glyph) :
    chars (delimitGlyphs style mark before after inner) = delimit mark before after (chars inner) := by
  have hempty : (Glyph.strip inner).isEmpty = (chars inner).strip.isEmpty := by
    rw [← Glyph.chars_strip, chars, List.isEmpty_map]
  unfold delimitGlyphs delimit
  simp only [hempty, Glyph.chars_leading, Glyph.chars_trailing]
  split
  · rfl
  · simp only [chars_append, chars_inUse, Glyph.chars_leading, Glyph.chars_trailing, Glyph.chars_strip]

section
variable (o : Options)

theorem glyphs_of_not_delimited {n : Inline} (h : n.isDelimited = false) (before after : Option Char) :
    n.glyphs o none none = n.glyphs o before after := by
  cases n with
  | strong | emphasis | delete => cases h
  | text | code | link | image => simp only [Inline.glyphs]

theorem glyphsAmong_cons (before after : Option Char) (n : Inline) (ns : List Inline) :
    glyphsAmong o before after (n :: ns) =
      let g := n.glyphs o before ((renderEach o ns).flatten.head?.or after)
      g ++ glyphsAmong o ((chars g).getLast?.or before) after ns := by
  rw [glyphsAmong]
  split
  · rfl
  · next h => rw [glyphs_of_not_delimited o (Bool.eq_false_iff.2 h) before]

mutual

theorem chars_glyphs (before after : Option Char) (n : Inline) :
    chars (n.glyphs o before after) = n.render o before after := by
  cases n with
  | text value => exact chars_escapeGlyphs _
  | code value => exact chars_inUse ..
  | strong content | emphasis content | delete content =>
    rw [Inline.glyphs, Inline.render, chars_delimitGlyphs, chars_glyphsAmong]
    rfl
  | link url title content =>
    simp [Inline.glyphs, Inline.render, chars_glyphsAmong, phrasing]
  | image url title alt =>
    simp [Inline.glyphs, Inline.render, chars_escapeGlyphs]

/-- The glyphs of siblings spell their text. -/
theorem chars_glyphsAmong (before after : Option Char) (ns : List Inline) :
    chars (glyphsAmong o before after ns) = phrasing o before after ns := by
  cases ns with
  | nil => rfl
  | cons n ns =>
    have hg : chars (if n.isDelimited then
          n.glyphs o before (((renderEach o ns).flatten.head?).or after) else n.glyphs o none none) =
        if n.isDelimited then n.render o before (((renderEach o ns).flatten.head?).or after)
        else n.render o none none := by
      split
      · exact chars_glyphs _ _ n
      · exact chars_glyphs _ _ n
    rw [phrasing, renderEach, renderAmong, glyphsAmong]
    simp only [chars_append, hg, chars_glyphsAmong]
    rfl

end

end

section
variable {α β : Type}

/-- A list with `a` before the member at the index, if there is one. -/
def insertAt (a : α) (i : Option Nat) (l : List α) : List α :=
  match i with
  | some i => l.take i ++ a :: l.drop i
  | none => l

theorem insertAt_map (f : α → β) (a : α) (i : Option Nat) (l : List α) :
    insertAt (f a) i (l.map f) = (insertAt a i l).map f := by
  cases i with
  | none => rfl
  | some i => simp [insertAt]

theorem insertAt_length (a : α) (l m : List α) : insertAt a (some l.length) (l ++ m) = l ++ a :: m := by
  simp [insertAt]

end

/-- The end of the indentation, if what follows it passes a test. -/
def startAt? (test : Text → Bool) (line : Text) : Option Nat :=
  match splitIndent line with
  | some (indent, rest) => if test rest then some indent.length else none
  | none => none

/-- The end of the digits of an ordered list mark. -/
def ordinalAt? (line : Text) : Option Nat :=
  match splitIndent line with
  | some (indent, rest) => (splitOrdinal rest).map fun (digits, _) => (indent ++ digits).length
  | none => none

theorem insertAt_startAt? (test : Text → Bool) (line : Text) :
    insertAt '\\' (startAt? test line) line =
      match splitIndent line with
      | some (indent, rest) => if test rest then indent ++ '\\' :: rest else line
      | none => line := by
  unfold startAt?
  cases h : splitIndent line with
  | none => rfl
  | some parts =>
    obtain ⟨indent, rest⟩ := parts
    simp only
    split
    · rw [(splitIndent_eq_some h).1, insertAt_length]
    · rfl

theorem insertAt_ordinalAt? (line : Text) :
    insertAt '\\' (ordinalAt? line) line = escapeOrdinal line := by
  unfold ordinalAt? escapeOrdinal
  cases h : splitIndent line with
  | none => rfl
  | some parts =>
    obtain ⟨indent, rest⟩ := parts
    cases ho : splitOrdinal rest with
    | none => simp [ho, insertAt]
    | some parts =>
      obtain ⟨digits, mark⟩ := parts
      simp only [ho, Option.map_some]
      rw [(splitIndent_eq_some h).1, (splitOrdinal_eq_some ho).1, ← List.append_assoc, insertAt_length]

namespace Glyph

def slash : Glyph := ⟨'\\', .plain⟩

/-- A backslash where the text of a line needs one. -/
def escapeAt (find : Text → Option Nat) (g : List Glyph) : List Glyph :=
  insertAt slash (find (chars g)) g

def encodeFirst : List Glyph → List Glyph
  | x :: g => if x.char = ' ' then plain encodedSpace ++ g else x :: g
  | [] => []

def encodeLast (g : List Glyph) : List Glyph :=
  if (chars g).getLast? = some ' ' then g.dropLast ++ plain encodedSpace else g

/-- A line as it stands in a paragraph. -/
def guardLine (g : List Glyph) : List Glyph :=
  encodeLast (encodeFirst (escapeAt (startAt? isUnderline) (escapeAt ordinalAt?
    (escapeAt (startAt? opensBlock) g))))

def lines : List Glyph → List (List Glyph)
  | [] => [[]]
  | x :: g =>
    if x.char = '\n' then [] :: lines g
    else match lines g with
      | [] => [[x]]
      | l :: ls => (x :: l) :: ls

def unlines : List (List Glyph) → List Glyph
  | [] => []
  | [l] => l
  | l :: ls => l ++ ⟨'\n', .plain⟩ :: unlines ls

/-- The lines of a paragraph or heading. -/
def guardLines (g : List Glyph) : List Glyph := unlines ((lines g).map guardLine)

theorem chars_escapeAt (find : Text → Option Nat) (g : List Glyph) :
    chars (escapeAt find g) = insertAt '\\' (find (chars g)) (chars g) :=
  (insertAt_map char slash _ g).symm

theorem chars_encodeFirst (g : List Glyph) :
    chars (encodeFirst g) = Markdown.encodeFirst (chars g) := by
  cases g with
  | nil => rfl
  | cons x g =>
    by_cases h : x.char = ' '
    · simp [encodeFirst, h, Markdown.encodeFirst]
    · rw [encodeFirst, if_neg h, chars_cons, encodeFirst_cons h]

theorem chars_encodeLast (g : List Glyph) :
    chars (encodeLast g) = Markdown.encodeLast (chars g) := by
  unfold encodeLast Markdown.encodeLast
  split
  · rw [chars_append, chars_inUse, chars, List.map_dropLast]
    rfl
  · rfl

theorem chars_guardLine (g : List Glyph) : chars (guardLine g) = Markdown.guardLine (chars g) := by
  rw [guardLine, chars_encodeLast, chars_encodeFirst, chars_escapeAt, insertAt_startAt?,
    chars_escapeAt, insertAt_ordinalAt?, chars_escapeAt, insertAt_startAt?]
  rfl

theorem map_chars_lines (g : List Glyph) : (lines g).map chars = (chars g).lines := by
  induction g with
  | nil => rfl
  | cons x g ih =>
    rw [chars_cons, Text.lines, Text.split, ← Text.lines, ← ih, lines]
    split
    · rfl
    · cases lines g <;> rfl

theorem chars_unlines (ls : List (List Glyph)) : chars (unlines ls) = Text.unlines (ls.map chars) := by
  induction ls with
  | nil => rfl
  | cons l ls ih =>
    cases ls with
    | nil => rfl
    | cons m ls =>
      rw [unlines, chars_append, chars_cons, ih]
      · simp [Text.unlines]
      · simp

theorem chars_guardLines (g : List Glyph) : chars (guardLines g) = Markdown.guardLines (chars g) := by
  have hguard : chars ∘ guardLine = Markdown.guardLine ∘ chars := by
    funext l
    rw [Function.comp_apply, Function.comp_apply, chars_guardLine]
  rw [guardLines, chars_unlines, Markdown.guardLines, ← map_chars_lines, List.map_map, List.map_map,
    hguard]

/-- A bar is escaped, and a line break becomes a space. -/
def inCell (x : Glyph) : List Glyph :=
  if x.char = '|' then [slash, x] else if x.char = '\n' then [⟨' ', .plain⟩] else [x]

def cell (g : List Glyph) : List Glyph := strip (g.flatMap inCell)

theorem chars_cell (g : List Glyph) : chars (cell g) = cellText (chars g) := by
  rw [cell, chars_strip, cellText, Text.replaceChar, Text.replaceChar, List.flatMap_assoc, chars, chars,
    List.map_flatMap, List.flatMap_map]
  congr 2
  funext x
  unfold inCell
  by_cases hbar : x.char = '|'
  · simp [hbar, slash]
  · by_cases hbreak : x.char = '\n' <;> simp [hbar, hbreak]

end Glyph

end PageExport.Markdown
