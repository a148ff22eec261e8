import PageExport.Text.Basic

/-!
White space: the characters of the Unicode property White_Space and the four information
separators. Stripping takes them off the ends of a text.
-/
namespace PageExport

def blankRanges : List (Nat × Nat) := [
  (0x9, 0xD), (0x1C, 0x20), (0x85, 0x85), (0xA0, 0xA0), (0x1680, 0x1680), (0x2000, 0x200A),
  (0x2028, 0x2029), (0x202F, 0x202F), (0x205F, 0x205F), (0x3000, 0x3000)]

def isBlank (c : Char) : Bool :=
  blankRanges.any fun r => r.1 ≤ c.toNat && c.toNat ≤ r.2

namespace Text

def leading (t : Text) : Text := t.takeWhile isBlank

def trailing (t : Text) : Text := (t.reverse.takeWhile isBlank).reverse

def stripLeft (t : Text) : Text := t.dropWhile isBlank

def stripRight (t : Text) : Text := (t.reverse.dropWhile isBlank).reverse

def strip (t : Text) : Text := t.stripLeft.stripRight

theorem leading_append_stripLeft (t : Text) : t.leading ++ t.stripLeft = t :=
  List.takeWhile_append_dropWhile

theorem stripRight_append_trailing (t : Text) : t.stripRight ++ t.trailing = t := by
  rw [stripRight, trailing, ← List.reverse_append, List.takeWhile_append_dropWhile,
    List.reverse_reverse]

end Text
end PageExport
