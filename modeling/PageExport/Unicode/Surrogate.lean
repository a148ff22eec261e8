import PageExport.Text.Basic

/-!
Halves of surrogate pairs that stand alone. They are code points without a character, so each of them
has a private-use character as its stand-in, from U+105800 to U+105FFF; texts are taken not to have these
characters on their own account. A text with a stand-in has no form in UTF-8.
-/
namespace PageExport.Unicode

def isHighSurrogate (n : Nat) : Bool := 0xD800 ≤ n && n < 0xDC00

def isLowSurrogate (n : Nat) : Bool := 0xDC00 ≤ n && n < 0xE000

def isSurrogate (n : Nat) : Bool := 0xD800 ≤ n && n < 0xE000

/-- The code point of a pair. -/
def joinSurrogates (high low : Nat) : Nat := 0x10000 + (high - 0xD800) * 0x400 + (low - 0xDC00)

/-- From a half to its stand-in, the last but one block of private-use characters. -/
def standInOffset : Nat := 0xF8000

/-- The character of a code point, or its stand-in. -/
def charOf (n : Nat) : Char := Char.ofNat (if isSurrogate n then n + standInOffset else n)

/-- A stand-in for half of a pair. -/
def isHalf (c : Char) : Bool := 0x105800 ≤ c.toNat && c.toNat < 0x106000

/-- The code point that a character of a text means. -/
def codePointOf (c : Char) : Nat := if isHalf c then c.toNat - standInOffset else c.toNat

/-- The text has a form in UTF-8. -/
def isEncodable (t : Text) : Bool := !t.any isHalf

theorem toNat_charOf {n : Nat} (h : isSurrogate n) : (charOf n).toNat = n + standInOffset := by
  have hn : 0xD800 ≤ n ∧ n < 0xE000 := by simpa [isSurrogate] using h
  have hv : (n + standInOffset).isValidChar := .inr (by simp only [standInOffset]; omega)
  rw [charOf, if_pos h, Char.ofNat, dif_pos hv]
  rfl

theorem isHalf_charOf {n : Nat} (h : isSurrogate n) : isHalf (charOf n) := by
  have hn : 0xD800 ≤ n ∧ n < 0xE000 := by simpa [isSurrogate] using h
  simp only [isHalf, toNat_charOf h, standInOffset, Bool.and_eq_true, decide_eq_true_eq]
  omega

theorem codePointOf_charOf {n : Nat} (h : isSurrogate n) : codePointOf (charOf n) = n := by
  rw [codePointOf, if_pos (isHalf_charOf h), toNat_charOf h, Nat.add_sub_cancel]

end PageExport.Unicode
