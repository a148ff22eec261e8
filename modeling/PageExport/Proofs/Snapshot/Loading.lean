import PageExport.Proofs.Value.Limits
import PageExport.Snapshot.Load

/-!
How the loading of a file fails. A file whose bytes are no text in UTF-8, or whose text goes beyond a limit
of the reader of JSON, is not refused as a snapshot; every other file is loaded, or refused as one.
-/
namespace PageExport

/-- The snapshot is at fault: its text is not JSON, or not a block tree. Faults of reading the file and of
the limits of JSON are not of this kind. -/
def LoadFault.IsOfSnapshot : LoadFault → Prop
  | .read _ => False
  | .json _ _ r => r.fault ∉ [JsonFault.integerTooLong, .tooDeep]
  | .snapshot _ _ => True

instance : DecidablePred LoadFault.IsOfSnapshot
  | .read _ => inferInstanceAs (Decidable False)
  | .json _ _ r => inferInstanceAs (Decidable (r.fault ∉ [JsonFault.integerTooLong, .tooDeep]))
  | .snapshot _ _ => inferInstanceAs (Decidable True)

namespace Block

/-- The bytes are a text in UTF-8, which is read with a line feed for every line break. -/
def IsTextOf (text : Text) (data : ByteArray) : Prop :=
  ∃ s : String, s.toUTF8 = data ∧ Text.unifyNewlines s.toList = text

/-- The bytes are a text, and reading it as JSON does not end at a limit. -/
def IsLegible (data : ByteArray) : Prop :=
  ∃ text, IsTextOf text data ∧
    ∀ r, Value.parse text = .error r → r.fault ∉ [JsonFault.integerTooLong, .tooDeep]

variable {t : FileTree} {p : Path} {data : ByteArray} {text : Text}

theorem fromUTF8?_eq_some_iff {s : String} : String.fromUTF8? data = some s ↔ s.toUTF8 = data := by
  unfold String.fromUTF8?
  split
  · next hvalid =>
    rw [Option.some.injEq]
    constructor
    · rintro rfl
      rfl
    · rintro rfl
      rfl
  · next hinvalid =>
    simp only [reduceCtorEq, false_iff]
    rintro rfl
    exact hinvalid s.isValidUTF8

theorem not_isTextOf (h : String.fromUTF8? data = none) : ¬ IsTextOf text data := by
  rintro ⟨s, hs, -⟩
  rw [fromUTF8?_eq_some_iff.2 hs] at h
  cases h

theorem readText_of_isTextOf (hread : t.read p = .ok data) (htext : IsTextOf text data) :
    t.readText p = .ok text := by
  obtain ⟨s, hs, rfl⟩ := htext
  simp only [FileTree.readText, hread, fromUTF8?_eq_some_iff.2 hs]

theorem load_of_not_text (hread : t.read p = .ok data) (h : ¬ ∃ text, IsTextOf text data) :
    Block.load t p = .error (.read (.notUtf8 p (Utf8.fault? data))) := by
  have hnone : String.fromUTF8? data = none :=
    Option.eq_none_iff_forall_ne_some.2 fun s hs => h ⟨_, s, fromUTF8?_eq_some_iff.1 hs, rfl⟩
  simp only [Block.load, FileTree.readText, hread, hnone]

theorem load_of_refusal (hread : t.read p = .ok data) (htext : IsTextOf text data)
    {r : JsonRefusal} (hr : Value.parse text = .error r) :
    Block.load t p = .error (.json p text r) := by
  simp only [Block.load, readText_of_isTextOf hread htext, hr]

theorem load_of_value (hread : t.read p = .ok data) (htext : IsTextOf text data) {v : Value}
    (hv : Value.parse text = .ok v) :
    Block.load t p = (Block.parse v).mapError (LoadFault.snapshot p) := by
  simp only [Block.load, readText_of_isTextOf hread htext, hv]
  cases Block.parse v <;> rfl

/-- The faults of a text are of JSON or of its shape, each with a message of its own. -/
theorem message_of_load_of_text (hread : t.read p = .ok data) (htext : IsTextOf text data)
    {f : LoadFault} (h : Block.load t p = .error f) :
    (∃ r, Value.parse text = .error r ∧ f = .json p text r ∧
      f.message = "Invalid JSON in " ++ p.toString ++ ": " ++ r.message text) ∨
    ∃ v g, Value.parse text = .ok v ∧ Block.parse v = .error g ∧ f = .snapshot p g ∧
      f.message = p.toString ++ ": " ++ g.message := by
  cases hparse : Value.parse text with
  | error r =>
    rw [load_of_refusal hread htext hparse] at h
    cases h
    exact .inl ⟨r, rfl, rfl, rfl⟩
  | ok v =>
    rw [load_of_value hread htext hparse] at h
    cases hshape : Block.parse v with
    | error g =>
      rw [hshape] at h
      cases h
      exact .inr ⟨v, g, rfl, hshape, rfl, rfl⟩
    | ok b =>
      rw [hshape] at h
      cases h

theorem isLegible_iff (hread : t.read p = .ok data) :
    IsLegible data ↔ ∀ f, Block.load t p = .error f → f.IsOfSnapshot := by
  constructor
  · rintro ⟨text, htext, hparse⟩ f hf
    obtain ⟨r, hr, rfl, -⟩ | ⟨v, g, -, -, rfl, -⟩ := message_of_load_of_text hread htext hf
    · exact hparse r hr
    · trivial
  · intro h
    by_cases htext : ∃ text, IsTextOf text data
    · obtain ⟨text, htext⟩ := htext
      exact ⟨text, htext, fun r hr => h _ (load_of_refusal hread htext hr)⟩
    · exact (h _ (load_of_not_text hread htext)).elim

/-- A text within the limits of JSON is legible, whatever else is wrong with it. -/
theorem isLegible_of_text (htext : IsTextOf text data) (hlong : ¬ JsonText.HasLongRun text)
    (hdeep : text.countP JsonText.isOpening ≤ JsonText.maxDepth) : IsLegible data := by
  refine ⟨text, htext, fun r hr hlimit => ?_⟩
  have hjustified := Value.justified_of_parse hr
  rcases List.mem_pair.1 hlimit with h | h
  · exact hlong (hjustified.long h)
  · exact Nat.not_lt.2 hdeep (hjustified.deep h)

end Block

end PageExport
