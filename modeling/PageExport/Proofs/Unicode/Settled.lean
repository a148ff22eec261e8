import Mathlib.Data.List.Basic
import Mathlib.Data.Nat.Bitwise
import Mathlib.Tactic.MkIffOfInductiveProp
import PageExport.Unicode.AsciiFold
import PageExport.Unicode.Lowercase

/-!
Folding and lowering settle a text: what they make of its characters they leave as it is. Beyond ASCII this is
a property of the tables, which are compared as sets of code points.
-/
namespace PageExport.Unicode

/-- The set of `count` code points from `first` on; each has a bit of the number. -/
def span (first count : Nat) : Nat := (2 ^ count - 1) <<< first

def union (sets : List Nat) : Nat := sets.foldr (· ||| ·) 0

/-- The set with every code point moved. -/
def shiftSet (set : Nat) : Int → Nat
  | .ofNat k => set <<< k
  | .negSucc k => set >>> (k + 1)

variable {n : Nat}

theorem testBit_span {first count : Nat} :
    (span first count).testBit n = true ↔ first ≤ n ∧ n < first + count := by
  rw [span, Nat.testBit_shiftLeft, Nat.testBit_two_pow_sub_one, Bool.and_eq_true, decide_eq_true_eq,
    decide_eq_true_eq]
  omega

theorem testBit_union_map {α : Type} {f : α → Nat} {l : List α} :
    (union (l.map f)).testBit n = true ↔ ∃ a ∈ l, (f a).testBit n = true := by
  induction l with
  | nil => simp [union]
  | cons a l ih =>
    rw [union] at ih ⊢
    rw [List.map_cons, List.foldr_cons, Nat.testBit_or, Bool.or_eq_true, ih]
    simp

theorem testBit_shiftSet {set : Nat} {shift : Int} (h : set.testBit n = true)
    (hn : 0 ≤ n + shift) : (shiftSet set shift).testBit (n + shift).toNat = true := by
  cases shift with
  | ofNat k =>
    have hsum : (n + Int.ofNat k).toNat = n + k := rfl
    rw [shiftSet, Nat.testBit_shiftLeft, hsum, Nat.add_sub_cancel, h]
    simp
  | negSucc k =>
    have hsum : k + 1 + (n + Int.negSucc k).toNat = n := by omega
    rw [shiftSet, Nat.testBit_shiftRight, hsum, h]

theorem testBit_of_disjoint {s t : Nat} (hdisjoint : s &&& t = 0) (h : s.testBit n = true) :
    t.testBit n = false := by
  have hand : (s &&& t).testBit n = false := by rw [hdisjoint, Nat.zero_testBit]
  rwa [Nat.testBit_and, h, Bool.true_and] at hand

theorem not_mem_span_of_disjoint {s first count : Nat} (hdisjoint : s &&& span first count = 0)
    (h : s.testBit n = true) : ¬ (first ≤ n ∧ n < first + count) := by
  rw [← testBit_span, testBit_of_disjoint hdisjoint h]
  exact Bool.false_ne_true

theorem lt_of_testBit {set bound : Nat} (hbound : set >>> bound = 0) (h : set.testBit n = true) :
    n < bound := by
  by_contra hle
  have hbit : (set >>> bound).testBit (n - bound) = true := by
    rw [Nat.testBit_shiftRight, Nat.add_sub_cancel' (Nat.le_of_not_lt hle), h]
  rw [hbound, Nat.zero_testBit] at hbit
  exact Bool.noConfusion hbit

def bytes (s : String) : List UInt8 := s.toByteArray.data.toList

def isAsciiOnly (s : String) : Bool := (bytes s).all fun b => b.toNat < 128

theorem bytes_eq (s : String) : bytes s = s.toList.flatMap String.utf8EncodeChar := by
  rw [bytes, ← String.utf8Encode_toList, List.utf8Encode, List.data_toByteArray]

theorem isAscii_of_utf8EncodeChar {c : Char} (h : ∀ b ∈ String.utf8EncodeChar c, b.toNat < 128) :
    isAscii c = true ∧ (String.utf8EncodeChar c).length = 1 := by
  rw [String.utf8EncodeChar] at h ⊢
  by_cases hc : c.val.toNat ≤ 127
  · rw [if_pos hc]
    exact ⟨decide_eq_true (Nat.lt_succ_of_le hc), rfl⟩
  · rw [if_neg hc] at h
    -- the first byte of a longer encoding is not ASCII
    exfalso
    split_ifs at h <;>
    · have hfirst := h _ List.mem_cons_self
      simp at hfirst
      omega

theorem isAscii_of_bytes {cs : List Char}
    (h : ∀ b ∈ cs.flatMap String.utf8EncodeChar, b.toNat < 128) :
    (∀ c ∈ cs, isAscii c = true) ∧ (cs.flatMap String.utf8EncodeChar).length = cs.length := by
  induction cs with
  | nil => simp
  | cons c cs ih =>
    rw [List.flatMap_cons, List.forall_mem_append] at h
    obtain ⟨hc, hone⟩ := isAscii_of_utf8EncodeChar h.1
    obtain ⟨hcs, hlength⟩ := ih h.2
    refine ⟨List.forall_mem_cons.2 ⟨hc, hcs⟩, ?_⟩
    rw [List.flatMap_cons, List.length_append, hone, hlength, List.length_cons, Nat.add_comm]

theorem isAscii_of_isAsciiOnly {s : String} (h : isAsciiOnly s = true) :
    (∀ c ∈ s.toList, isAscii c = true) ∧ (bytes s).length = s.toList.length := by
  have hbytes : ∀ b ∈ bytes s, b.toNat < 128 := by simpa [isAsciiOnly] using h
  rw [bytes_eq] at hbytes ⊢
  exact isAscii_of_bytes hbytes

/-- What is folded. -/
def foldedSet : Nat :=
  union (vanishingRanges.map fun r => span r.1 (r.2 + 1 - r.1)) |||
    (union (foldedLetters.map fun e => span e.1 (bytes e.2).length) |||
      union (foldedGroups.map fun e => span e.1 e.2.length))

def CaseRange.set (r : CaseRange) : Nat :=
  union ((List.range ((r.last - r.first) / r.step + 1)).map fun k => span (r.first + k * r.step) 1)

def capitalSet : Nat := union (caseRanges.map CaseRange.set)

/-- The lower case of the capitals of a range, of those that are not folded. -/
def CaseRange.loweredSet (r : CaseRange) : Nat :=
  shiftSet ((r.set ||| foldedSet) ^^^ foldedSet) r.shift

/-- The letters that lowering gives, with both forms of the sigma. -/
def loweredSet : Nat := union (caseRanges.map CaseRange.loweredSet) ||| span 0x3C2 2

/-- The tables fold to ASCII, and the letters that lowering gives are characters that no table is for. -/
@[mk_iff]
structure TablesSettle : Prop where
  letters : ∀ e ∈ foldedLetters, isAsciiOnly e.2 = true
  groups : ∀ e ∈ foldedGroups, ∀ s ∈ e.2, isAsciiOnly s = true
  dotted : foldedSet.testBit 0x130 = true
  shift : ∀ r ∈ caseRanges, 0 ≤ r.first + r.shift
  not_folded : loweredSet &&& foldedSet = 0
  not_capital : loweredSet &&& capitalSet = 0
  not_ascii : loweredSet &&& span 0 128 = 0
  not_surrogate : loweredSet &&& span 0xD800 0x800 = 0
  bounded : loweredSet >>> 0x110000 = 0

theorem tables_settle : TablesSettle := tablesSettle_iff.2 (by decide +kernel)

theorem CaseRange.testBit_set {r : CaseRange} (h : r.covers n = true) : r.set.testBit n = true := by
  simp only [covers, Bool.and_eq_true, decide_eq_true_eq] at h
  obtain ⟨⟨hfirst, hlast⟩, hstep⟩ := h
  have hn : r.first + (n - r.first) / r.step * r.step = n := by
    rw [Nat.div_mul_cancel (Nat.dvd_of_mod_eq_zero hstep)]
    omega
  refine testBit_union_map.2 ⟨(n - r.first) / r.step, List.mem_range.2 ?_, ?_⟩
  · exact Nat.lt_succ_of_le (Nat.div_le_div_right (Nat.sub_le_sub_right hlast _))
  · rw [hn]
    exact testBit_span.2 ⟨Nat.le_refl n, Nat.lt_succ_self n⟩

theorem find?_covers_eq_none (h : capitalSet.testBit n = false) :
    caseRanges.find? (·.covers n) = none := by
  refine List.find?_eq_none.2 fun r hr hcovers => ?_
  rw [capitalSet, testBit_union_map.2 ⟨r, hr, CaseRange.testBit_set hcovers⟩] at h
  exact Bool.noConfusion h

variable {c d : Char}

theorem length_bytes {e : Nat × String} (he : e ∈ foldedLetters) :
    (bytes e.2).length = e.2.toList.length :=
  (isAscii_of_isAsciiOnly (tables_settle.letters e he)).2

theorem foldTable?_isSome_iff :
    (foldTable? c).isSome = true ↔ foldedSet.testBit c.toNat = true := by
  have hvanishing : vanishingRanges.contains c = true ↔
      ∃ r ∈ vanishingRanges, (span r.1 (r.2 + 1 - r.1)).testBit c.toNat = true := by
    rw [Ranges.contains, List.any_eq_true]
    refine exists_congr fun r => and_congr_right fun _ => ?_
    rw [testBit_span, Bool.and_eq_true, decide_eq_true_eq, decide_eq_true_eq]
    omega
  have hletters (e : Nat × String) (he : e ∈ foldedLetters) :
      (if e.1 ≤ c.toNat then (e.2.toList[c.toNat - e.1]?).map ([·]) else none).isSome = true ↔
        (span e.1 (bytes e.2).length).testBit c.toNat = true := by
    rw [testBit_span, length_bytes he]
    split
    · simp; omega
    · simp; omega
  have hgroups (e : Nat × List String) :
      (if e.1 ≤ c.toNat then (e.2[c.toNat - e.1]?).map String.toList else none).isSome = true ↔
        (span e.1 e.2.length).testBit c.toNat = true := by
    rw [testBit_span]
    split
    · simp; omega
    · simp; omega
  rw [foldedSet, Nat.testBit_or, Bool.or_eq_true, testBit_union_map, Nat.testBit_or,
    Bool.or_eq_true, testBit_union_map, testBit_union_map, foldTable?, ← hvanishing]
  split
  · next h => simp [h]
  · next h =>
    rw [Option.isSome_or, Bool.or_eq_true, List.findSome?_isSome_iff, List.findSome?_isSome_iff]
    simp only [h, Bool.false_eq_true, false_or, hgroups]
    exact or_congr_left (exists_congr fun e => and_congr_right (hletters e))

/-- What a character is folded to is ASCII. -/
theorem isAscii_of_foldTable? {cs : List Char} (h : foldTable? c = some cs) (hd : d ∈ cs) :
    isAscii d = true := by
  rw [foldTable?] at h
  split at h
  · cases h
    cases hd
  · rcases Option.or_eq_some_iff.1 h with h | ⟨-, h⟩
    · obtain ⟨⟨start, letters⟩, he, h⟩ := List.exists_of_findSome?_eq_some h
      dsimp only at h
      split at h
      · obtain ⟨letter, hletter, rfl⟩ := Option.map_eq_some_iff.1 h
        rw [List.mem_singleton.1 hd]
        exact (isAscii_of_isAsciiOnly (tables_settle.letters _ he)).1 _ (List.mem_of_getElem? hletter)
      · cases h
    · obtain ⟨⟨start, groups⟩, he, h⟩ := List.exists_of_findSome?_eq_some h
      dsimp only at h
      split at h
      · obtain ⟨s, hs, rfl⟩ := Option.map_eq_some_iff.1 h
        exact (isAscii_of_isAsciiOnly (tables_settle.groups _ he s (List.mem_of_getElem? hs))).1 d hd
      · cases h

/-- Folding twice folds no further. -/
theorem asciiFold_of_mem (h : d ∈ asciiFold c) : asciiFold d = [d] := by
  by_cases hc : isAscii c = true
  · rw [asciiFold, if_pos hc] at h
    rw [List.mem_singleton.1 h, asciiFold, if_pos hc]
  · rw [asciiFold, if_neg hc] at h
    cases htable : foldTable? c with
    | none =>
      rw [htable, Option.getD_none] at h
      rw [List.mem_singleton.1 h, asciiFold, if_neg hc, htable, Option.getD_none]
    | some cs =>
      rw [htable, Option.getD_some] at h
      rw [asciiFold, if_pos (isAscii_of_foldTable? htable h)]

/-- Folding and lowering leave the character as it is, wherever it stands. -/
structure Settled (c : Char) : Prop where
  fold : asciiFold c = [c]
  lower : lowerChar c = [c]
  not_sigma : c.toNat ≠ 0x3A3

theorem settled_of_isAscii (h : isAscii c = true) (hlower : c.toLower = c) : Settled c where
  fold := by rw [asciiFold, if_pos h]
  lower := by rw [lowerChar, if_pos h, hlower]
  not_sigma := by
    have hlt : c.toNat < 128 := of_decide_eq_true h
    omega

/-- The dotted capital I, the one letter with a lower case of two characters, is folded. -/
theorem ne_dotted (h : foldedSet.testBit n = false) : n ≠ 0x130 := by
  rintro rfl
  rw [tables_settle.dotted] at h
  exact Bool.noConfusion h

theorem find?_covers_sigma : caseRanges.find? (·.covers 0x3A3) ≠ none := by
  rw [← Option.isSome_iff_ne_none]
  decide

theorem testBit_of_asciiFold (hascii : isAscii c = false) (h : asciiFold c = [c]) :
    foldedSet.testBit c.toNat = false := by
  rw [← Bool.not_eq_true, ← foldTable?_isSome_iff]
  intro hsome
  obtain ⟨cs, hcs⟩ := Option.isSome_iff_exists.1 hsome
  rw [asciiFold, hascii, if_neg Bool.false_ne_true, hcs, Option.getD_some] at h
  rw [isAscii_of_foldTable? hcs (h ▸ List.mem_singleton_self c)] at hascii
  exact Bool.noConfusion hascii

theorem settled_of_tables (hascii : isAscii c = false) (hfolded : foldedSet.testBit c.toNat = false)
    (hcapital : caseRanges.find? (·.covers c.toNat) = none) : Settled c where
  fold := by
    have htable : foldTable? c = none := by
      rw [← Option.not_isSome_iff_eq_none, foldTable?_isSome_iff, hfolded]
      exact Bool.false_ne_true
    rw [asciiFold, hascii, htable]
    rfl
  lower := by
    rw [lowerChar, hascii, if_neg Bool.false_ne_true, if_neg (ne_dotted hfolded), hcapital]
  not_sigma := by
    intro hc
    rw [hc] at hcapital
    exact find?_covers_sigma hcapital

theorem settled_ofNat (h : loweredSet.testBit n = true) : Settled (Char.ofNat n) := by
  have hascii := not_mem_span_of_disjoint tables_settle.not_ascii h
  have hsurrogate := not_mem_span_of_disjoint tables_settle.not_surrogate h
  have hlt : n < 0x110000 := lt_of_testBit tables_settle.bounded h
  have hvalid : n.isValidChar := by
    unfold Nat.isValidChar
    omega
  have hn : (Char.ofNat n).toNat = n := by
    rw [Char.ofNat, dif_pos hvalid]
    rfl
  refine settled_of_tables ?_ ?_ ?_
  · rw [isAscii, hn]
    simpa using hascii
  · rw [hn]
    exact testBit_of_disjoint tables_settle.not_folded h
  · rw [hn]
    exact find?_covers_eq_none (testBit_of_disjoint tables_settle.not_capital h)

theorem settled_sigma (h : n = 0x3C2 ∨ n = 0x3C3) : Settled (Char.ofNat n) := by
  refine settled_ofNat ?_
  rw [loweredSet, Nat.testBit_or, Bool.or_eq_true]
  exact .inr (testBit_span.2 (by omega))

theorem testBit_loweredSet {r : CaseRange} (hr : r ∈ caseRanges) (hcovers : r.covers n = true)
    (hfolded : foldedSet.testBit n = false) : loweredSet.testBit (n + r.shift).toNat = true := by
  have hfirst : r.first ≤ n := by
    simp only [CaseRange.covers, Bool.and_eq_true, decide_eq_true_eq] at hcovers
    exact hcovers.1.1
  have hshift := tables_settle.shift r hr
  have hleft : ((r.set ||| foldedSet) ^^^ foldedSet).testBit n = true := by
    rw [Nat.testBit_xor, Nat.testBit_or, CaseRange.testBit_set hcovers, hfolded]
    rfl
  rw [loweredSet, Nat.testBit_or, Bool.or_eq_true]
  exact .inl (testBit_union_map.2 ⟨r, hr, testBit_shiftSet hleft (by omega)⟩)

/-- The lower case of a character that is folded already. -/
theorem settled_of_mem_lowerChar (hfold : asciiFold d = [d]) (h : c ∈ lowerChar d) :
    Settled c := by
  cases hascii : isAscii d with
  | true =>
    have hlower : ∀ n < 128, isAscii (Char.ofNat n).toLower = true ∧
        (Char.ofNat n).toLower.toLower = (Char.ofNat n).toLower := by decide
    rw [lowerChar, if_pos hascii, List.mem_singleton] at h
    obtain ⟨hc, hsame⟩ := hlower d.toNat (of_decide_eq_true hascii)
    rw [Char.ofNat_toNat, ← h] at hc hsame
    exact settled_of_isAscii hc hsame
  | false =>
    have hfolded := testBit_of_asciiFold hascii hfold
    rw [lowerChar, hascii, if_neg Bool.false_ne_true, if_neg (ne_dotted hfolded)] at h
    cases hfind : caseRanges.find? (·.covers d.toNat) with
    | none =>
      rw [hfind] at h
      rw [List.mem_singleton.1 h]
      exact settled_of_tables hascii hfolded hfind
    | some r =>
      rw [hfind] at h
      rw [List.mem_singleton.1 h]
      have hcovers := List.find?_some hfind
      exact settled_ofNat (testBit_loweredSet (List.mem_of_find?_eq_some hfind) hcovers hfolded)

theorem mem_lowerFrom {before cs : List Char} (h : c ∈ lowerFrom before cs) :
    (∃ d ∈ cs, c ∈ lowerChar d) ∨ ∃ n, (n = 0x3C2 ∨ n = 0x3C3) ∧ c = Char.ofNat n := by
  induction cs generalizing before with
  | nil => cases h
  | cons d cs ih =>
    rw [lowerFrom] at h
    rcases List.mem_append.1 h with h | h
    · split at h
      · refine .inr ⟨_, ?_, List.mem_singleton.1 h⟩
        split
        · exact .inl rfl
        · exact .inr rfl
      · exact .inl ⟨d, List.mem_cons_self, h⟩
    · exact (ih h).imp_left fun ⟨e, he, hlower⟩ => ⟨e, List.mem_cons_of_mem d he, hlower⟩

/-- What folding and lowering make of a text is settled. -/
theorem settled_of_mem_lowercase {cs : List Char} (h : c ∈ lowercase (cs.flatMap asciiFold)) :
    Settled c := by
  rcases mem_lowerFrom h with ⟨d, hd, hlower⟩ | ⟨n, hn, rfl⟩
  · obtain ⟨e, -, hfold⟩ := List.mem_flatMap.1 hd
    exact settled_of_mem_lowerChar (asciiFold_of_mem hfold) hlower
  · exact settled_sigma hn

theorem lowerFrom_of_settled {cs : List Char} (h : ∀ c ∈ cs, Settled c) (before : List Char) :
    lowerFrom before cs = cs := by
  induction cs generalizing before with
  | nil => rfl
  | cons c cs ih =>
    obtain ⟨hc, hcs⟩ := List.forall_mem_cons.1 h
    rw [lowerFrom, if_neg hc.not_sigma, hc.lower, ih hcs]
    rfl

/-- Settled text is left as it is. -/
theorem lowercase_of_settled {cs : List Char} (h : ∀ c ∈ cs, Settled c) :
    lowercase (cs.flatMap asciiFold) = cs := by
  have hfold : cs.flatMap asciiFold = cs := by
    rw [List.flatMap_congr fun c hc => (h c hc).fold, List.flatMap_singleton']
  rw [hfold]
  exact lowerFrom_of_settled h []

end PageExport.Unicode
