import Mathlib.Data.List.Infix
import Mathlib.Data.List.TakeWhile
import PageExport.Value.Parser

/-!
The limits of reading JSON. A text is refused for the length of a whole number only if it has so many
digits in a row, and for the depth of its collections only if it opens so many of them.
-/
namespace PageExport
namespace JsonText

/-- The text has more digits in a row than a whole number may have. -/
def HasLongRun (t : Text) : Prop :=
  ∃ digits, digits <:+: t ∧ (∀ c ∈ digits, c.isDigit = true) ∧ maxDigits < digits.length

/-- The character opens a collection, unless it is part of a string. -/
def isOpening (c : Char) : Bool := c = '[' || c = '\x7b'

/-- If a refusal is for a limit, the text goes beyond that limit. -/
structure Justified (depth : Nat) (t : Text) (r : JsonRefusal) : Prop where
  long : r.fault = .integerTooLong → HasLongRun t
  deep : r.fault = .tooDeep → depth < t.countP isOpening

/-- Reading from a text leaves a part of it at its end, or is refused with justification. -/
def Consumes {α : Type} (depth : Nat) (t : Text) : Except JsonRefusal (α × Text) → Prop
  | .ok (_, rest) => rest <:+ t
  | .error r => Justified depth t r

variable {α β : Type} {depth : Nat} {t u : Text}

theorem Justified.mono {r : JsonRefusal} (h : Justified depth t r) (htu : t <:+ u) :
    Justified depth u r where
  long hr := by
    obtain ⟨digits, hinfix, hrun⟩ := h.long hr
    exact ⟨digits, hinfix.trans htu.isInfix, hrun⟩
  deep hr := (h.deep hr).trans_le (htu.sublist.countP_le)

/-- A refusal that is for no limit needs no justification. -/
theorem justified_of_fault {r : JsonRefusal}
    (h : r.fault ∉ [JsonFault.integerTooLong, .tooDeep]) : Justified depth t r := by
  constructor <;> intro hr <;> simp [hr] at h

theorem Consumes.mono {x : Except JsonRefusal (α × Text)} (h : Consumes depth t x) (htu : t <:+ u) :
    Consumes depth u x := by
  cases x with
  | ok a => exact List.IsSuffix.trans h htu
  | error r => exact Justified.mono h htu

theorem Consumes.bind {x : Except JsonRefusal (α × Text)}
    {f : α × Text → Except JsonRefusal (β × Text)} (hx : Consumes depth t x)
    (hf : ∀ a rest, rest <:+ t → Consumes depth rest (f (a, rest))) :
    Consumes depth t (x >>= f) := by
  cases x with
  | ok a => exact (hf a.1 a.2 hx).mono hx
  | error r => exact hx

theorem consumes_refuse {fault : JsonFault} (h : fault ∉ [JsonFault.integerTooLong, .tooDeep])
    (rest : Text) : Consumes depth t (refuse fault rest : Except JsonRefusal (α × Text)) :=
  justified_of_fault h

theorem skipSpace_suffix (t : Text) : skipSpace t <:+ t := List.dropWhile_suffix _

theorem readHex4_suffix {n : Nat} {rest : Text} (h : readHex4 t = some (n, rest)) : rest <:+ t := by
  unfold readHex4 at h
  split at h
  · next a b c d e tail =>
    simp only [Option.bind_eq_bind, Option.bind_eq_some_iff] at h
    obtain ⟨_, -, _, -, _, -, _, -, heq⟩ := h
    cases heq
    exact ⟨[a, b, c, d], rfl⟩
  · cases h

theorem consumes_readUnicode (t : Text) : Consumes depth t (readUnicode t) := by
  have hrefusal (n : Nat) : Justified depth t ⟨.unicodeEscape, n⟩ :=
    justified_of_fault (by simp)
  unfold readUnicode
  split
  · exact hrefusal _
  · next high rest hhigh =>
    have hrest := readHex4_suffix hhigh
    split
    · next rest' =>
      split
      · split
        · exact hrefusal _
        · next low rest'' hlow =>
          split
          · exact (readHex4_suffix hlow).trans (((List.suffix_cons _ _).trans
              (List.suffix_cons _ _)).trans hrest)
          · exact hrest
      · exact hrest
    · exact hrest

theorem consumes_readString (start done : Text) (fuel : Nat) (t : Text) :
    Consumes depth t (readString start done fuel t) := by
  induction fuel generalizing done t with
  | zero => exact consumes_refuse (by decide) _
  | succ fuel ih =>
    cases t with
    | nil => exact consumes_refuse (by decide) _
    | cons c t =>
      have hnext (done rest : Text) (hrest : rest <:+ t) :
          Consumes depth (c :: t) (readString start done fuel rest) :=
        (ih done rest).mono (hrest.trans (List.suffix_cons c t))
      rw [readString.eq_def]
      simp only
      split
      · exact List.suffix_cons c t
      · split
        · split
          · exact consumes_refuse (by decide) _
          · next t' =>
            refine Consumes.bind ((consumes_readUnicode t').mono ?_) fun d rest _ => ih _ rest
            exact (List.suffix_cons _ _).trans (List.suffix_cons _ _)
          · next e t' _ =>
            split
            · exact hnext _ t' (List.suffix_cons e t')
            · exact justified_of_fault (by simp)
        · split
          · exact consumes_refuse (by decide) _
          · exact hnext _ t (List.suffix_refl t)

theorem splitFraction_suffix (t : Text) : (splitFraction t).2 <:+ t := by
  unfold splitFraction
  split
  · next t =>
    simp only
    split
    · exact List.suffix_refl _
    · exact (List.dropWhile_suffix _).trans (List.suffix_cons _ t)
  · exact List.suffix_refl _

theorem splitExponent_suffix (t : Text) : (splitExponent t).2 <:+ t := by
  unfold splitExponent
  split
  · next c t =>
    have hdigits (sign r : Text) (hr : r <:+ t) :
        (if (r.takeWhile Char.isDigit).isEmpty then ([], c :: t)
          else (c :: sign ++ r.takeWhile Char.isDigit, r.dropWhile Char.isDigit)).2 <:+ c :: t := by
      split
      · exact List.suffix_refl _
      · exact ((List.dropWhile_suffix _).trans hr).trans (List.suffix_cons c t)
    split
    · simp only
      split
      · exact hdigits ['-'] _ (List.suffix_cons _ _)
      · exact hdigits ['+'] _ (List.suffix_cons _ _)
      · exact hdigits [] _ (List.suffix_refl _)
    · exact List.suffix_refl _
  · exact List.suffix_refl _

theorem consumes_readNumber (whole : Text) : Consumes depth whole (readNumber whole) := by
  unfold readNumber
  split
  next negative t hsigned =>
  extract_lets digits n
  have ht : t <:+ whole := by
    split at hsigned <;> cases hsigned
    · exact List.suffix_cons _ _
    · exact List.suffix_refl _
  have hdigits : digits <+: t ∧ ∀ c ∈ digits, c.isDigit = true := by
    unfold digits
    split
    · exact ⟨⟨_, rfl⟩, List.forall_mem_singleton.2 rfl⟩
    · exact ⟨List.takeWhile_prefix _, fun c hc => List.mem_takeWhile_imp hc⟩
  clear_value digits n
  have hrest : (splitExponent (splitFraction (t.drop digits.length)).2).2 <:+ whole :=
    (((splitExponent_suffix _).trans (splitFraction_suffix _)).trans (List.drop_suffix _ _)).trans ht
  split
  · exact consumes_refuse (by decide) _
  · simp only
    split
    · split
      · next hlong =>
        exact ⟨fun _ => ⟨digits, hdigits.1.isInfix.trans ht.isInfix, hdigits.2, hlong⟩, nofun⟩
      · exact hrest
    · split
      · exact hrest
      · exact consumes_refuse (by decide) _

theorem readWord?_suffix {v : Value} {rest : Text} (h : readWord? t = some (v, rest)) :
    rest <:+ t := by
  unfold readWord? at h
  obtain ⟨⟨word, w⟩, -, hword⟩ := List.exists_of_findSome?_eq_some h
  obtain ⟨-, hrest⟩ := Option.ite_none_right_eq_some.1 hword
  cases hrest
  exact List.drop_suffix _ _

/-- Where a collection is opened, one level less is left for what is in it. -/
theorem Consumes.opened {c : Char} (hc : isOpening c = true) {x : Except JsonRefusal (α × Text)}
    (h : Consumes depth t x) : Consumes (depth + 1) (c :: t) x := by
  cases x with
  | ok a => exact List.IsSuffix.trans h (List.suffix_cons c t)
  | error r =>
    refine ⟨(Justified.mono h (List.suffix_cons c t)).long, fun hr => ?_⟩
    have hdeep := Justified.deep h hr
    rw [List.countP_cons_of_pos hc]
    omega

theorem consumes_tooDeep {c : Char} (hc : isOpening c = true) (t rest : Text) :
    Consumes 0 (c :: t) (refuse .tooDeep rest : Except JsonRefusal (α × Text)) := by
  refine ⟨nofun, fun _ => ?_⟩
  rw [List.countP_cons_of_pos hc]
  omega

theorem consumes_values (size fuel : Nat) :
    (∀ depth t, Consumes depth t (readValue size depth fuel t)) ∧
    (∀ depth done t, Consumes depth t (readItems size depth fuel done t)) ∧
    ∀ depth done t, Consumes depth t (readMembers size depth fuel done t) := by
  induction fuel with
  | zero =>
    refine ⟨fun depth t => ?_, fun depth done t => ?_, fun depth done t => ?_⟩
    · cases t <;> exact consumes_refuse (by decide) _
    · exact consumes_refuse (by decide) _
    · exact consumes_refuse (by decide) _
  | succ fuel ih =>
    obtain ⟨hvalue, hitems, hmembers⟩ := ih
    refine ⟨fun depth t => ?_, fun depth done t => ?_, fun depth done t => ?_⟩
    · unfold readValue
      split
      case h_1 => exact consumes_refuse (by decide) _
      case h_2 => exact consumes_refuse (by decide) _
      case h_3 rest _ =>
        exact ((consumes_readString _ _ _ rest).mono (List.suffix_cons _ rest)).bind
          fun s rest _ => List.suffix_refl rest
      case h_4 fuel' rest heq =>
        obtain rfl : fuel = fuel' := Nat.succ.inj heq
        cases depth with
        | zero => exact consumes_tooDeep (by decide) rest _
        | succ depth =>
          refine Consumes.opened (by decide) ((?_ : Consumes depth _ _).mono (skipSpace_suffix rest))
          rw [if_neg (Nat.succ_ne_zero depth)]
          split
          · next heq =>
            rw [heq]
            exact List.suffix_cons _ _
          · exact (hitems depth [] _).bind fun vs rest _ => List.suffix_refl rest
      case h_5 fuel' rest heq =>
        obtain rfl : fuel = fuel' := Nat.succ.inj heq
        cases depth with
        | zero => exact consumes_tooDeep (by decide) rest _
        | succ depth =>
          refine Consumes.opened (by decide) ((?_ : Consumes depth _ _).mono (skipSpace_suffix rest))
          rw [if_neg (Nat.succ_ne_zero depth)]
          split
          · next heq =>
            rw [heq]
            exact List.suffix_cons _ _
          · exact (hmembers depth [] _).bind fun ms rest _ => List.suffix_refl rest
      case h_6 =>
        split
        · next r hword => exact readWord?_suffix hword
        · exact consumes_readNumber _
    · rw [readItems]
      refine (hvalue depth t).bind fun v rest _ => ?_
      dsimp only
      refine (?_ : Consumes depth _ _).mono (skipSpace_suffix rest)
      split
      · next heq =>
        rw [heq]
        exact List.suffix_cons _ _
      · next rest' heq =>
        rw [heq]
        exact (hitems depth _ _).mono ((skipSpace_suffix rest').trans (List.suffix_cons _ rest'))
      · exact consumes_refuse (by decide) _
    · unfold readMembers
      split
      case h_1 => exact consumes_refuse (by decide) _
      case h_2 fuel' rest heq =>
        obtain rfl : fuel = fuel' := Nat.succ.inj heq
        refine ((consumes_readString _ _ _ rest).mono (List.suffix_cons _ rest)).bind fun key rest _ => ?_
        dsimp only
        refine (?_ : Consumes depth _ _).mono (skipSpace_suffix rest)
        split
        · next rest' heq =>
          rw [heq]
          have hspace := (skipSpace_suffix rest').trans (List.suffix_cons ':' rest')
          refine ((hvalue depth _).mono hspace).bind fun v rest _ => ?_
          dsimp only
          refine (?_ : Consumes depth _ _).mono (skipSpace_suffix rest)
          split
          · next heq =>
            rw [heq]
            exact List.suffix_cons _ _
          · next rest' heq =>
            rw [heq]
            exact (hmembers depth _ _).mono ((skipSpace_suffix rest').trans (List.suffix_cons _ rest'))
          · exact consumes_refuse (by decide) _
        · exact consumes_refuse (by decide) _
      case h_3 => exact consumes_refuse (by decide) _

end JsonText

open JsonText

/-- A text that is refused for a limit goes beyond it. -/
theorem Value.justified_of_parse {t : Text} {r : JsonRefusal} (h : Value.parse t = .error r) :
    Justified maxDepth t r := by
  unfold Value.parse at h
  split at h
  · cases h
    exact justified_of_fault (by simp)
  · have hvalue := (consumes_values (t.length + 1) (2 * t.length + 2)).1 maxDepth (skipSpace t)
    simp only at h
    cases hread : readValue (t.length + 1) maxDepth (2 * t.length + 2) (skipSpace t) with
    | error r' =>
      rw [hread] at h hvalue
      cases h
      exact Justified.mono hvalue (skipSpace_suffix t)
    | ok read =>
      obtain ⟨v, rest⟩ := read
      rw [hread] at h
      dsimp only [bind, Except.bind] at h
      split at h
      · cases h
      · cases h
        exact justified_of_fault (by simp)

end PageExport
