import PageExport.Files.Tree

/-!
What is left as it was when files change. Directories are never lost, so a path that leads to a place
leads there for good; making directories keeps every entry, and writing a file all entries but its own.
-/
namespace PageExport.FileTree

/-- The second tree has the working directory and all directories of the first. -/
structure Keeps (t t' : FileTree) : Prop where
  home : t'.home = t.home
  directory : ∀ p, t.get? p = some .directory → t'.get? p = some .directory

namespace Keeps

variable {t t' t'' : FileTree}

theorem refl (t : FileTree) : Keeps t t := ⟨rfl, fun _ h => h⟩

theorem trans (h : Keeps t t') (h' : Keeps t' t'') : Keeps t t'' :=
  ⟨h'.home.trans h.home, fun p hp => h'.directory p (h.directory p hp)⟩

theorem follow (h : Keeps t t') {place q : Place} {names : List String}
    (hq : t.follow place names = .ok q) : t'.follow place names = .ok q := by
  induction names generalizing place with
  | nil => exact hq
  | cons name names ih =>
    unfold FileTree.follow at hq ⊢
    cases hplace : t.get? place with
    | none => simp [hplace] at hq
    | some e =>
      cases e with
      | file data => simp [hplace] at hq
      | directory =>
        rw [hplace] at hq
        rw [h.directory place hplace]
        simp only at hq ⊢
        split at hq
        · cases hq
        · next hlength =>
          rw [if_neg hlength]
          exact ih hq

theorem locate (h : Keeps t t') {p : Path} {q : Place} (hq : t.locate p = .ok q) :
    t'.locate p = .ok q := by
  unfold FileTree.locate at hq ⊢
  split at hq
  · cases hq
  · have hstart : t'.start p = t.start p := by simp [start, h.home]
    rw [hstart]
    exact h.follow hq

end Keeps

variable {t t' : FileTree}

theorem get?_nil (t : FileTree) : t.get? [] = some .directory := by simp [get?]

theorem get?_set_of_ne_nil {p : Place} (hp : p ≠ []) (t : FileTree) (q : Place) (e : Entry) :
    (t.set p e).get? q = if q = p then some e else t.get? q := by
  by_cases hq : q = []
  · rw [hq, get?_nil, get?_nil, if_neg hp.symm]
  · exact get?_set t p q e hq

theorem makeFrom_keeps {place : Place} {names : List String}
    (h : t.makeFrom place names = .ok t') :
    t'.home = t.home ∧ ∀ p e, t.get? p = some e → t'.get? p = some e := by
  induction names generalizing t place with
  | nil =>
    cases h
    exact ⟨rfl, fun _ _ hp => hp⟩
  | cons name names ih =>
    unfold makeFrom at h
    simp only at h
    generalize (if name = ".." then place.dropLast else place ++ [name]) = inner at h
    split at h
    · cases h
    · split at h
      · next hnone =>
        obtain ⟨hhome, hkeep⟩ := ih h
        refine ⟨hhome, fun p e hp => hkeep p e ?_⟩
        have hinner : inner ≠ [] := by
          rintro rfl
          rw [get?_nil] at hnone
          cases hnone
        rw [get?_set_of_ne_nil hinner, if_neg, hp]
        rintro rfl
        rw [hnone] at hp
        cases hp
      · exact ih h
      · cases h

/-- Making directories keeps every entry. -/
theorem makeDirectories_keeps {p : Path} (h : t.makeDirectories p = .ok t') :
    t'.home = t.home ∧ ∀ q e, t.get? q = some e → t'.get? q = some e := by
  unfold makeDirectories at h
  split at h
  · cases h
  · next hmake =>
    cases h
    exact makeFrom_keeps hmake
  · cases h

/-- A file is written at the place that its path leads to, which is no directory. -/
theorem write_eq_ok {p : Path} {data : ByteArray} (h : t.write p data = .ok t') :
    ∃ place, t.locate p = .ok place ∧ place ≠ [] ∧ t.get? place ≠ some .directory ∧
      t' = t.set place (.file data) := by
  unfold write at h
  split at h
  · cases h
  · next place hplace =>
    split at h
    · cases h
    · next _ hfile =>
      cases h
      refine ⟨place, hplace, ?_, hfile, rfl⟩
      rintro rfl
      exact hfile (get?_nil t)
    · cases h
    · cases h

theorem makeDirectories_keeps_directories {p : Path} (h : t.makeDirectories p = .ok t') :
    Keeps t t' :=
  ⟨(makeDirectories_keeps h).1, fun q => (makeDirectories_keeps h).2 q .directory⟩

theorem write_keeps_directories {p : Path} {data : ByteArray} (h : t.write p data = .ok t') :
    Keeps t t' := by
  obtain ⟨place, -, hne, hfile, rfl⟩ := write_eq_ok h
  refine ⟨rfl, fun q hq => ?_⟩
  rw [get?_set_of_ne_nil hne, if_neg, hq]
  rintro rfl
  exact hfile hq

theorem follow_append_eq_ok {place q : Place} {ms ns : List String}
    (h : t.follow place (ms ++ ns) = .ok q) :
    ∃ m, t.follow place ms = .ok m ∧ t.follow m ns = .ok q := by
  induction ms generalizing place with
  | nil => exact ⟨place, rfl, h⟩
  | cons name ms ih =>
    rw [List.cons_append, follow] at h
    split at h
    · cases h
    · cases h
    · next hplace =>
      split at h
      · cases h
      · next hlength =>
        obtain ⟨m, hm, hq⟩ := ih h
        exact ⟨m, by rw [follow, hplace]; simp only [if_neg hlength]; exact hm, hq⟩

/-- A name but two dots leads to the place of that name in the directory. -/
theorem follow_singleton_eq_ok {place q : Place} {name : String} (hname : name ≠ "..")
    (h : t.follow place [name] = .ok q) : q = place ++ [name] := by
  rw [follow] at h
  split at h
  · cases h
  · cases h
  · rw [if_neg hname] at h
    split at h
    · cases h
    · exact (Except.ok.inj h).symm

theorem follow_of_locate {p : Path} {place : Place} (h : t.locate p = .ok place) :
    t.follow (t.start p) p.names = .ok place := by
  unfold locate at h
  split at h
  · cases h
  · exact h

theorem read_of_locate {p : Path} {place : Place} {data : ByteArray} (hp : t.locate p = .ok place)
    (hfile : t.get? place = some (.file data)) : t.read p = .ok data := by
  simp [read, hp, hfile]

end PageExport.FileTree
