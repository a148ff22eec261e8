import PageExport.Reading

/-!
The faults of combined readings. A reading of several parts has the faults of each of them in turn, and
it succeeds exactly if there are none, as long as no part fails without naming a place.
-/
namespace PageExport.Reading

variable {α β : Type}

theorem seq_eq_ok_iff {f : Reading (α → β)} {x : Reading α} {c : β} :
    f <*> x = .ok c ↔ ∃ g a, f = .ok g ∧ x = .ok a ∧ g a = c := by
  change Reading.seq f x = .ok c ↔ _
  cases f <;> cases x <;> simp [Reading.seq]

theorem map_eq_ok_iff {f : α → β} {x : Reading α} {c : β} :
    f <$> x = .ok c ↔ ∃ a, x = .ok a ∧ f a = c := by
  change Reading.map f x = .ok c ↔ _
  cases x <;> simp [Reading.map]

theorem under_eq_ok_iff {step : Step} {x : Reading α} {a : α} : x.under step = .ok a ↔ x = .ok a := by
  cases x <;> simp [under]

@[simp] theorem faults_map (f : α → β) (x : Reading α) : (f <$> x).faults = x.faults := by
  cases x <;> rfl

@[simp] theorem faults_seq (f : Reading (α → β)) (x : Reading α) :
    (f <*> x).faults = f.faults ++ x.faults := by
  change (Reading.seq f x).faults = _
  cases f <;> cases x <;> simp [Reading.seq, faults]

@[simp] theorem faults_under (step : Step) (x : Reading α) :
    (x.under step).faults = x.faults.map (step :: ·) := by
  cases x <;> rfl

/-- The reading does not fail without naming a place at fault. -/
def Located (x : Reading α) : Prop := x ≠ .faulty []

theorem Located.exists_eq_ok_iff {x : Reading α} (h : x.Located) :
    (∃ a, x = .ok a) ↔ x.faults = [] := by
  cases x with
  | ok a => simp [faults]
  | faulty fs =>
    have hne : fs ≠ [] := fun hnil => h (by rw [hnil])
    simpa [faults] using hne

theorem located_ok (a : α) : Located (.ok a) := nofun

theorem located_wrong : Located (wrong : Reading α) := by simp [Located, wrong]

theorem Located.map {x : Reading α} (h : x.Located) (f : α → β) : Located (f <$> x) := by
  cases x with
  | ok a => exact located_ok (f a)
  | faulty fs => exact fun heq => h (by cases heq; rfl)

theorem Located.seq {f : Reading (α → β)} {x : Reading α} (hf : f.Located) (hx : x.Located) :
    Located (f <*> x) := by
  change Reading.seq f x ≠ _
  cases f with
  | ok g =>
    cases x with
    | ok a => exact located_ok (g a)
    | faulty fs => exact fun heq => hx (by cases heq; rfl)
  | faulty fs =>
    have hne : fs ≠ [] := fun hnil => hf (by rw [hnil])
    cases x <;> simp [Reading.seq, hne]

theorem Located.under {x : Reading α} (h : x.Located) (step : Step) : (x.under step).Located := by
  cases x with
  | ok a => exact located_ok a
  | faulty fs =>
    have hne : fs ≠ [] := fun hnil => h (by rw [hnil])
    simp [Located, Reading.under, hne]

variable {ms : Members} {key : String} {default : α} {read : Value → Reading α}

theorem field_eq_ok_iff {a : α} : field ms key default read = .ok a ↔
    (ms.lookup key = none ∧ a = default) ∨ ∃ v, ms.lookup key = some v ∧ read v = .ok a := by
  unfold field
  cases ms.lookup key with
  | none => simp [eq_comm]
  | some v => simp [under_eq_ok_iff]

theorem required_eq_ok_iff {a : α} :
    required ms key read = .ok a ↔ ∃ v, ms.lookup key = some v ∧ read v = .ok a := by
  unfold required
  cases ms.lookup key with
  | none => simp
  | some v => simp [under_eq_ok_iff]

theorem Located.field (h : ∀ v, (read v).Located) : (field ms key default read).Located := by
  unfold Reading.field
  cases ms.lookup key with
  | none => exact located_ok default
  | some v => exact (h v).under _

theorem Located.required (h : ∀ v, (read v).Located) : (required ms key read).Located := by
  unfold Reading.required
  cases ms.lookup key with
  | none => simp [Located]
  | some v => exact (h v).under _

theorem string_eq_ok_iff {v : Value} {s : String} : string v = .ok s ↔ v = .string s := by
  cases v <;> simp [string, wrong, eq_comm]

theorem located_string (v : Value) : (string v).Located := by
  cases v <;> first | exact located_ok _ | exact located_wrong

end PageExport.Reading
