import Mathlib.Data.List.Nodup
import Mathlib.Data.List.Pairwise
import PageExport.Asset.Store
import PageExport.Proofs.Bind
import PageExport.Proofs.Files.Changes

/-!
Where copied assets end up. Each asset is copied to the place that the link to it leads to, unless its
file name starts with a slash, and a later asset of the same file name takes the place of an earlier
one.
-/
namespace PageExport

namespace Asset

variable {r : Resolver} {dest : Path} {s s' : StoreState Unit}

theorem answer_eq_ok {ref : String} {a : Option Asset} (h : r.answer ref s = .ok a s') :
    r.asset? ref = a ∧ s'.files = s.files := by
  unfold Resolver.answer at h
  simp only at h
  split at h
  · next hvalue =>
    cases h
    exact ⟨by simp [Resolver.asset?, hvalue], rfl⟩
  · cases h

theorem onFiles_eq_ok {σ : Type} {f : FileTree → Except FileError FileTree} {s s' : StoreState σ}
    (h : onFiles f s = .ok () s') : f s.files = .ok s'.files ∧ s'.source = s.source := by
  unfold onFiles at h
  split at h
  · next hf =>
    cases h
    exact ⟨hf, rfl⟩
  · cases h

/-- A reference without an asset changes no file; an asset is written once its directory is there. -/
theorem store_eq_ok_of_answer {σ : Type} {answer : String → Storing σ (Option Asset)}
    {s s' : StoreState σ} {ref : String} {path : Option Path}
    (h : store answer dest ref s = .ok path s') :
    ∃ a s₁, answer ref s = .ok a s₁ ∧ path = a.map (fun a => a.target dest ref) ∧
      s'.source = s₁.source ∧
      match a with
      | none => s'.files = s₁.files
      | some a => ∃ t, s₁.files.makeDirectories (dest.child directory) = .ok t ∧
          t.write (a.target dest ref) a.data = .ok s'.files := by
  obtain ⟨answer, s₁, hanswer, h⟩ := bind_eq_ok_iff.1 h
  refine ⟨answer, s₁, hanswer, ?_⟩
  cases answer with
  | none =>
    cases h
    exact ⟨rfl, rfl, rfl⟩
  | some a =>
    obtain ⟨⟨⟩, s₂, hmake, h⟩ := bind_eq_ok_iff.1 h
    obtain ⟨⟨⟩, s₃, hwrite, h⟩ := bind_eq_ok_iff.1 h
    cases h
    obtain ⟨hfiles, hsource⟩ := onFiles_eq_ok hmake
    obtain ⟨hfiles', hsource'⟩ := onFiles_eq_ok hwrite
    exact ⟨rfl, hsource'.trans hsource, s₂.files, hfiles, hfiles'⟩

theorem store_eq_ok {ref : String} {path : Option Path}
    (h : store r.answer dest ref s = .ok path s') :
    (r.asset? ref = none ∧ path = none ∧ s'.files = s.files) ∨
    ∃ a t, r.asset? ref = some a ∧ path = some (a.target dest ref) ∧
      s.files.makeDirectories (dest.child directory) = .ok t ∧
      t.write (a.target dest ref) a.data = .ok s'.files := by
  obtain ⟨answer, s₁, hanswer, rfl, -, h⟩ := store_eq_ok_of_answer h
  obtain ⟨hasset, hfiles⟩ := answer_eq_ok hanswer
  rw [hfiles] at h
  cases answer with
  | none => exact .inl ⟨hasset, rfl, h⟩
  | some a =>
    obtain ⟨t, hmake, hwrite⟩ := h
    exact .inr ⟨a, t, hasset, rfl, hmake, hwrite⟩

theorem store_keeps {ref : String} {path : Option Path}
    (h : store r.answer dest ref s = .ok path s') : s.files.Keeps s'.files := by
  obtain ⟨-, -, hfiles⟩ | ⟨a, t, -, -, hmake, hwrite⟩ := store_eq_ok h
  · rw [hfiles]
    exact .refl _
  · exact (FileTree.makeDirectories_keeps_directories hmake).trans
      (FileTree.write_keeps_directories hwrite)

/-- The asset of the reference is the file at the place that its path leads to. -/
theorem store_writes {ref : String} {path : Option Path} {a : Asset}
    (h : store r.answer dest ref s = .ok path s') (ha : r.asset? ref = some a) :
    ∃ place, s'.files.locate (a.target dest ref) = .ok place ∧
      s'.files.get? place = some (.file a.data) := by
  obtain ⟨hnone, -⟩ | ⟨a', t, ha', -, -, hwrite⟩ := store_eq_ok h
  · rw [hnone] at ha
    cases ha
  · rw [ha'] at ha
    cases ha
    obtain ⟨place, hplace, hne, -, hfiles⟩ := FileTree.write_eq_ok hwrite
    refine ⟨place, (FileTree.write_keeps_directories hwrite).locate hplace, ?_⟩
    rw [hfiles, FileTree.get?_set_of_ne_nil hne, if_pos rfl]

/-- A file stays as it was unless the asset of the reference is written in its place. -/
theorem store_overwrites {ref : String} {path : Option Path}
    (h : store r.answer dest ref s = .ok path s') {place : Place} {data : ByteArray}
    (hfile : s.files.get? place = some (.file data)) :
    s'.files.get? place = some (.file data) ∨
    ∃ a, r.asset? ref = some a ∧ s'.files.locate (a.target dest ref) = .ok place ∧
      s'.files.get? place = some (.file a.data) := by
  obtain ⟨-, -, hfiles⟩ | ⟨a, t, ha, -, hmake, hwrite⟩ := store_eq_ok h
  · rw [hfiles]
    exact .inl hfile
  · obtain ⟨place', hplace', hne, -, hfiles⟩ := FileTree.write_eq_ok hwrite
    have hset := FileTree.get?_set_of_ne_nil hne t place (.file a.data)
    rw [← hfiles] at hset
    by_cases hsame : place = place'
    · subst hsame
      rw [if_pos rfl] at hset
      exact .inr ⟨a, ha, (FileTree.write_keeps_directories hwrite).locate hplace', hset⟩
    · rw [if_neg hsame, (FileTree.makeDirectories_keeps hmake).2 place _ hfile] at hset
      exact .inl hset

/-- The file at a place is the asset of one of the references, whose path leads there. -/
def Occupied (r : Resolver) (dest : Path) (refs : List String) (t : FileTree) (place : Place) : Prop :=
  ∃ ref ∈ refs, ∃ a, r.asset? ref = some a ∧ t.locate (a.target dest ref) = .ok place ∧
    t.get? place = some (.file a.data)

theorem Occupied.cons {refs : List String} {t : FileTree} {place : Place}
    (h : Occupied r dest refs t place) (ref : String) : Occupied r dest (ref :: refs) t place := by
  obtain ⟨ref', hmem, h⟩ := h
  exact ⟨ref', List.mem_cons_of_mem ref hmem, h⟩

theorem storeEach_cons_eq_ok {σ : Type} {answer : String → Storing σ (Option Asset)}
    {s s' : StoreState σ} {ref : String} {refs : List String} {paths : List Path}
    (h : storeEach answer dest (ref :: refs) s = .ok paths s') :
    ∃ path s₁ paths', store answer dest ref s = .ok path s₁ ∧
      storeEach answer dest refs s₁ = .ok paths' s' ∧ paths = path.toList ++ paths' := by
  obtain ⟨path, s₁, hstore, h⟩ := bind_eq_ok_iff.1 h
  obtain ⟨paths', s₂, hrest, h⟩ := bind_eq_ok_iff.1 h
  cases h
  exact ⟨path, s₁, paths', hstore, hrest, rfl⟩

theorem storeEach_keeps {refs : List String} {paths : List Path}
    (h : storeEach r.answer dest refs s = .ok paths s') : s.files.Keeps s'.files := by
  induction refs generalizing s paths with
  | nil =>
    cases h
    exact .refl _
  | cons ref refs ih =>
    obtain ⟨path, s₁, paths', hstore, hrest, -⟩ := storeEach_cons_eq_ok h
    exact (store_keeps hstore).trans (ih hrest)

/-- A file is as it was after a run unless the asset of one of the references is in its place. -/
theorem storeEach_overwrites {refs : List String} {paths : List Path}
    (h : storeEach r.answer dest refs s = .ok paths s') {place : Place} {data : ByteArray}
    (hfile : s.files.get? place = some (.file data)) :
    s'.files.get? place = some (.file data) ∨ Occupied r dest refs s'.files place := by
  induction refs generalizing s paths data with
  | nil =>
    cases h
    exact .inl hfile
  | cons ref refs ih =>
    obtain ⟨path, s₁, paths', hstore, hrest, -⟩ := storeEach_cons_eq_ok h
    obtain hkept | ⟨a, ha, hplace, hwritten⟩ := store_overwrites hstore hfile
    · exact (ih hrest hkept).imp_right fun h => h.cons ref
    · refine .inr ?_
      obtain hkept | hagain := ih hrest hwritten
      · exact ⟨ref, List.mem_cons_self, a, ha, (storeEach_keeps hrest).locate hplace, hkept⟩
      · exact hagain.cons ref

/-- The path of each asset leads to a place that is occupied. -/
theorem storeEach_writes {refs : List String} {paths : List Path}
    (h : storeEach r.answer dest refs s = .ok paths s') {ref : String} (hmem : ref ∈ refs)
    {a : Asset} (ha : r.asset? ref = some a) :
    ∃ place, s'.files.locate (a.target dest ref) = .ok place ∧
      Occupied r dest refs s'.files place := by
  induction refs generalizing s paths with
  | nil => cases hmem
  | cons first refs ih =>
    obtain ⟨path, s₁, paths', hstore, hrest, -⟩ := storeEach_cons_eq_ok h
    rcases List.mem_cons.1 hmem with rfl | hmem
    · obtain ⟨place, hplace, hfile⟩ := store_writes hstore ha
      have hplace' := (storeEach_keeps hrest).locate hplace
      obtain hkept | hagain := storeEach_overwrites hrest hfile
      · exact ⟨place, hplace', ref, List.mem_cons_self, a, ha, hplace', hkept⟩
      · exact ⟨place, hplace', hagain.cons ref⟩
    · obtain ⟨place, hplace, h'⟩ := ih hrest hmem
      exact ⟨place, hplace, h'.cons first⟩

theorem storeEach_paths {refs : List String} {paths : List Path}
    (h : storeEach r.answer dest refs s = .ok paths s') :
    paths = refs.filterMap fun ref => (r.asset? ref).map fun a => a.target dest ref := by
  induction refs generalizing s paths with
  | nil =>
    cases h
    rfl
  | cons ref refs ih =>
    obtain ⟨path, s₁, paths', hstore, hrest, rfl⟩ := storeEach_cons_eq_ok h
    rw [ih hrest]
    obtain ⟨hnone, rfl, -⟩ | ⟨a, -, ha, rfl, -⟩ := store_eq_ok hstore
    · simp [hnone]
    · simp [ha]

theorem nodup_eraseDups (refs : List String) : refs.eraseDups.Nodup := by
  induction hn : refs.length using Nat.strongRecOn generalizing refs with
  | ind n ih =>
    cases refs with
    | nil => simp
    | cons ref refs =>
      rw [List.eraseDups_cons, List.nodup_cons]
      refine ⟨by simp [List.mem_eraseDups], ih _ ?_ _ rfl⟩
      rw [← hn, List.length_cons]
      exact Nat.lt_succ_of_le (List.length_filter_le _ _)

/-- The names in a written path. -/
def parts (t : Text) : List String :=
  ((Text.split '/' t).filter fun p => p ≠ [] && p ≠ ['.']).map String.ofList

theorem parts_append_cons (t u : Text) : parts (t ++ '/' :: u) = parts t ++ parts u := by
  rw [parts, Text.split_append_cons, List.filter_append, List.map_append, parts, parts]

theorem ofString_eq (name : String) :
    Path.ofString name = ⟨name.toList.head? = some '/', parts name.toList⟩ := rfl

theorem child_directory (dest : Path) :
    dest.child directory = ⟨dest.rooted, dest.names ++ ["assets"]⟩ := by
  have hdirectory : Path.ofString directory = ⟨false, ["assets"]⟩ := by decide
  simp [Path.child, Path.append, hdirectory]

theorem target_eq (a : Asset) (dest : Path) (ref : String) :
    a.target dest ref =
      if (a.fileName ref).toList.head? = some '/' then ⟨true, parts (a.fileName ref).toList⟩
      else ⟨dest.rooted, dest.names ++ "assets" :: parts (a.fileName ref).toList⟩ := by
  rw [target, child_directory, Path.child, ofString_eq, Path.append]
  by_cases h : (a.fileName ref).toList.head? = some '/' <;> simp [h]

theorem child_url (a : Asset) (dest : Path) (ref : String) :
    dest.child (a.url ref) =
      ⟨dest.rooted, dest.names ++ "assets" :: parts (a.fileName ref).toList⟩ := by
  have hurl : (a.url ref).toList = "assets".toList ++ '/' :: (a.fileName ref).toList := by
    simp [url, directory]
  have hassets : parts "assets".toList = ["assets"] := by decide
  rw [Path.child, ofString_eq, hurl, parts_append_cons, hassets]
  simp [Path.append]

/-- The link to an asset leads to its file unless the name of the file starts with a slash. -/
theorem child_url_eq_iff {a : Asset} {dest : Path} {ref : String} :
    dest.child (a.url ref) = a.target dest ref ↔ (a.fileName ref).toList.head? ≠ some '/' := by
  rw [child_url, target_eq]
  split
  · next h =>
    refine ⟨fun hpath => ?_, fun hne => absurd h hne⟩
    have hlength := congrArg (fun p : Path => p.names.length) hpath
    simp only [List.length_append, List.length_cons] at hlength
    omega
  · next h => simp [h]

/-- The assets of references are in the files that the links to them lead to, each in one of its own. -/
structure Arrived (r : Resolver) (refs : List String) (dest : Path) (paths : List Path)
    (t : FileTree) : Prop where
  link : ∀ ref ∈ refs, ∀ a, r.asset? ref = some a → dest.child (a.url ref) = a.target dest ref
  data : ∀ ref ∈ refs, ∀ a, r.asset? ref = some a → t.read (a.target dest ref) = .ok a.data
  distinct : paths.Nodup

theorem nodup_targets_iff (r : Resolver) (dest : Path) (refs : List String) :
    (refs.eraseDups.filterMap fun ref => (r.asset? ref).map fun a => a.target dest ref).Nodup ↔
      ∀ x ∈ refs, ∀ y ∈ refs, ∀ a b, r.asset? x = some a → r.asset? y = some b → x ≠ y →
        a.target dest x ≠ b.target dest y := by
  rw [List.nodup_iff_pairwise_ne, List.pairwise_filterMap]
  constructor
  · intro hpairs x hx y hy a b ha hb hxy
    -- one of the two references comes first
    have hsymm : Std.Symm fun x y => ∀ p, (r.asset? x).map (fun a => a.target dest x) = some p →
        ∀ q, (r.asset? y).map (fun a => a.target dest y) = some q → p ≠ q :=
      ⟨fun x y h p hp q hq => (h q hq p hp).symm⟩
    exact hpairs.forall (List.mem_eraseDups.2 hx) (List.mem_eraseDups.2 hy) hxy _ (by simp [ha]) _
      (by simp [hb])
  · intro hdistinct
    refine (nodup_eraseDups refs).pairwise_of_forall_ne fun x hx y hy hxy p hp q hq => ?_
    obtain ⟨a, ha, rfl⟩ := Option.map_eq_some_iff.1 hp
    obtain ⟨b, hb, rfl⟩ := Option.map_eq_some_iff.1 hq
    exact hdistinct x (List.mem_eraseDups.1 hx) y (List.mem_eraseDups.1 hy) a b ha hb hxy

/-- After a run the data of all assets are in the files at their paths just if assets whose paths lead
to one place have the same data. -/
theorem read_iff {refs : List String} {paths : List Path}
    (h : storeEach r.answer dest refs s = .ok paths s') :
    (∀ ref ∈ refs, ∀ a, r.asset? ref = some a → s'.files.read (a.target dest ref) = .ok a.data) ↔
      ∀ x ∈ refs, ∀ y ∈ refs, ∀ a b, r.asset? x = some a → r.asset? y = some b →
        s'.files.locate (a.target dest x) = s'.files.locate (b.target dest y) → a.data = b.data := by
  constructor
  · intro hread x hx y hy a b ha hb hplace
    have hx' := hread x hx a ha
    have hy' := hread y hy b hb
    obtain ⟨place, hlocate, ref, -, c, -, -, hfile⟩ := storeEach_writes h hx ha
    rw [FileTree.read_of_locate hlocate hfile] at hx'
    rw [FileTree.read_of_locate (hplace ▸ hlocate) hfile] at hy'
    rw [← Except.ok.inj hx', ← Except.ok.inj hy']
  · intro hsame ref hmem a ha
    obtain ⟨place, hlocate, ref', hmem', a', ha', hlocate', hfile⟩ := storeEach_writes h hmem ha
    rw [hsame ref hmem ref' hmem' a a' ha ha' (hlocate.trans hlocate'.symm)]
    exact FileTree.read_of_locate hlocate hfile

theorem arrived_iff {refs : List String} {paths : List Path}
    (h : storeAll r.answer refs dest s = .ok paths s') :
    Arrived r refs dest paths s'.files ↔
      (∀ ref ∈ refs, ∀ a, r.asset? ref = some a → (a.fileName ref).toList.head? ≠ some '/') ∧
      ∀ x ∈ refs, ∀ y ∈ refs, ∀ a b, r.asset? x = some a → r.asset? y = some b → x ≠ y →
        a.target dest x ≠ b.target dest y ∧
        (s'.files.locate (a.target dest x) = s'.files.locate (b.target dest y) →
          a.data = b.data) := by
  have hread := read_iff h
  have hpaths := storeEach_paths h
  simp only [List.mem_eraseDups] at hread
  constructor
  · rintro ⟨hlink, hdata, hdistinct⟩
    rw [hpaths, nodup_targets_iff] at hdistinct
    exact ⟨fun ref hmem a ha => child_url_eq_iff.1 (hlink ref hmem a ha),
      fun x hx y hy a b ha hb hxy => ⟨hdistinct x hx y hy a b ha hb hxy,
        hread.1 hdata x hx y hy a b ha hb⟩⟩
  · rintro ⟨hslash, hapart⟩
    refine ⟨fun ref hmem a ha => child_url_eq_iff.2 (hslash ref hmem a ha), hread.2 ?_, ?_⟩
    · intro x hx y hy a b ha hb hplace
      by_cases hxy : x = y
      · subst hxy
        rw [ha] at hb
        rw [Option.some.inj hb]
      · exact (hapart x hx y hy a b ha hb hxy).2 hplace
    · rw [hpaths, nodup_targets_iff]
      exact fun x hx y hy a b ha hb hxy => (hapart x hx y hy a b ha hb hxy).1

/-- A file name that is one name of a path. -/
def isOneName (name : String) : Bool := !name.toList.contains '/' && name ≠ "." && name ≠ ".."

theorem isOneName_iff {name : String} :
    isOneName name = true ↔ '/' ∉ name.toList ∧ name ≠ "." ∧ name ≠ ".." := by
  simp [isOneName, and_assoc]

theorem head?_of_isOneName {name : String} (h : isOneName name = true) :
    name.toList.head? ≠ some '/' :=
  fun hhead => (isOneName_iff.1 h).1 (List.mem_of_mem_head? hhead)

theorem parts_of_isOneName {a : Asset} {ref : String} (h : isOneName (a.fileName ref) = true) :
    parts (a.fileName ref).toList = [a.fileName ref] := by
  obtain ⟨hslash, hdot, -⟩ := isOneName_iff.1 h
  have hempty : (a.fileName ref).toList ≠ [] := by simp [fileName]
  have hdot' : (a.fileName ref).toList ≠ ['.'] := fun h => hdot (String.toList_inj.1 h)
  rw [parts, Text.split_of_not_mem hslash]
  simp [hempty, hdot', String.ofList_toList]

theorem target_of_isOneName {a : Asset} {dest : Path} {ref : String}
    (h : isOneName (a.fileName ref) = true) :
    a.target dest ref = ⟨dest.rooted, dest.names ++ ["assets"] ++ [a.fileName ref]⟩ := by
  rw [target_eq, if_neg (head?_of_isOneName h), parts_of_isOneName h, List.append_assoc,
    List.singleton_append]

/-- An asset whose file name is one name lies in the directory of assets under that name. -/
theorem place_of_isOneName {t : FileTree} {a : Asset} {dest : Path} {ref : String}
    (h : isOneName (a.fileName ref) = true) {place : Place}
    (hplace : t.locate (a.target dest ref) = .ok place) :
    t.follow (t.start dest) (dest.names ++ ["assets"]) = .ok place.dropLast ∧
      place = place.dropLast ++ [a.fileName ref] := by
  rw [target_of_isOneName h] at hplace
  obtain ⟨above, habove, hlast⟩ := FileTree.follow_append_eq_ok (FileTree.follow_of_locate hplace)
  rw [FileTree.follow_singleton_eq_ok (isOneName_iff.1 h).2.2 hlast, List.dropLast_concat]
  exact ⟨habove, rfl⟩

/-- Assets of different one-name file names lie in different places. -/
theorem fileName_eq_of_locate_eq {t : FileTree} {a b : Asset} {dest : Path} {x y : String}
    (ha : isOneName (a.fileName x) = true) (hb : isOneName (b.fileName y) = true) {place : Place}
    (hx : t.locate (a.target dest x) = .ok place) (hy : t.locate (b.target dest y) = .ok place) :
    a.fileName x = b.fileName y := by
  have hname := (place_of_isOneName ha hx).2.symm.trans (place_of_isOneName hb hy).2
  simpa using hname

theorem target_eq_iff_of_isOneName {a b : Asset} {dest : Path} {x y : String}
    (ha : isOneName (a.fileName x) = true) (hb : isOneName (b.fileName y) = true) :
    a.target dest x = b.target dest y ↔ a.fileName x = b.fileName y := by
  rw [target_of_isOneName ha, target_of_isOneName hb]
  simp

/-- After a run each asset is where the link to it points, in a file of its own, just if no file name
starts with a slash and the assets of different references have different paths, with the same data
where these lead to one place. Where each file name is one name, it is enough that they differ. -/
theorem storeAll_arrived_iff {refs : List String} {paths : List Path}
    (h : storeAll r.answer refs dest s = .ok paths s') :
    (Arrived r refs dest paths s'.files ↔
      (∀ ref ∈ refs, ∀ a, r.asset? ref = some a → (a.fileName ref).toList.head? ≠ some '/') ∧
      ∀ x ∈ refs, ∀ y ∈ refs, ∀ a b, r.asset? x = some a → r.asset? y = some b → x ≠ y →
        a.target dest x ≠ b.target dest y ∧
        (s'.files.locate (a.target dest x) = s'.files.locate (b.target dest y) →
          a.data = b.data)) ∧
    ((∀ ref ∈ refs, ∀ a, r.asset? ref = some a → isOneName (a.fileName ref) = true) →
      (Arrived r refs dest paths s'.files ↔
        ∀ x ∈ refs, ∀ y ∈ refs, ∀ a b, r.asset? x = some a → r.asset? y = some b → x ≠ y →
          a.fileName x ≠ b.fileName y)) := by
  have hgeneral := arrived_iff h
  refine ⟨hgeneral, fun hone => hgeneral.trans ⟨?_, ?_⟩⟩
  · rintro ⟨-, hapart⟩ x hx y hy a b ha hb hxy hname
    exact (hapart x hx y hy a b ha hb hxy).1
      ((target_eq_iff_of_isOneName (hone x hx a ha) (hone y hy b hb)).2 hname)
  · intro hnames
    refine ⟨fun ref hmem a ha => head?_of_isOneName (hone ref hmem a ha), ?_⟩
    intro x hx y hy a b ha hb hxy
    have hname := hnames x hx y hy a b ha hb hxy
    refine ⟨mt (target_eq_iff_of_isOneName (hone x hx a ha) (hone y hy b hb)).1 hname, ?_⟩
    intro hsame
    obtain ⟨place, hplace, -⟩ := storeEach_writes h (List.mem_eraseDups.2 hx) ha
    exact absurd (fileName_eq_of_locate_eq (hone x hx a ha) (hone y hy b hb) hplace
      (hsame.symm.trans hplace)) hname

/-- Two photos with their display names. -/
def twoPhotos (name name' : String) : Resolver := fun ref =>
  ⟨.ok (if ref = "a" then some ⟨"first".toUTF8, some name, ""⟩
    else if ref = "b" then some ⟨"second".toUTF8, some name', ""⟩ else none), []⟩

/-- Copying succeeds and its outcome passes a check. -/
def succeeds (x : Storing Unit (List Path)) (s : StoreState Unit)
    (check : List Path → FileTree → Bool) : Bool :=
  match x s with
  | .ok paths s' => check paths s'.files
  | .error _ _ => false

theorem exists_of_succeeds {x : Storing Unit (List Path)} {check : List Path → FileTree → Bool}
    (h : succeeds x s check = true) : ∃ paths s', x s = .ok paths s' ∧ check paths s'.files = true := by
  unfold succeeds at h
  split at h
  · next paths s' hx => exact ⟨paths, s', hx, h⟩
  · cases h

theorem storeAll_arrived_twoPhotos : ∃ paths s',
    storeAll (twoPhotos "one.png" "two.png").answer ["a", "b", "a"] (Path.ofString "dest")
      ⟨{}, (), []⟩ = .ok paths s' ∧
    Arrived (twoPhotos "one.png" "two.png") ["a", "b", "a"] (Path.ofString "dest") paths
      s'.files := by
  obtain ⟨paths, s', hrun, -⟩ := exists_of_succeeds
    (by decide +kernel : succeeds
      (storeAll (twoPhotos "one.png" "two.png").answer ["a", "b", "a"] (Path.ofString "dest"))
      ⟨{}, (), []⟩ (fun _ _ => true) = true)
  have hname : ∀ ref ∈ ["a", "b", "a"], ∀ a,
      (twoPhotos "one.png" "two.png").asset? ref = some a →
        (ref = "a" ∧ a.fileName ref = "one.png") ∨ (ref = "b" ∧ a.fileName ref = "two.png") := by
    intro ref hmem a ha
    simp only [List.mem_cons, List.not_mem_nil, or_false] at hmem
    rcases hmem with rfl | rfl | rfl
    · exact .inl ⟨rfl, by cases ha; decide +kernel⟩
    · exact .inr ⟨rfl, by cases ha; decide +kernel⟩
    · exact .inl ⟨rfl, by cases ha; decide +kernel⟩
  refine ⟨paths, s', hrun, ((storeAll_arrived_iff hrun).2 ?_).2 ?_⟩
  · intro ref hmem a ha
    rcases hname ref hmem a ha with ⟨-, h⟩ | ⟨-, h⟩ <;> rw [h] <;> decide +kernel
  · intro x hx y hy a b ha hb hxy
    rcases hname x hx a ha with ⟨rfl, h⟩ | ⟨rfl, h⟩ <;>
      rcases hname y hy b hb with ⟨rfl, h'⟩ | ⟨rfl, h'⟩
    · exact absurd rfl hxy
    · rw [h, h']
      decide +kernel
    · rw [h, h']
      decide +kernel
    · exact absurd rfl hxy

/-- The later of two photos of one name takes the place of the earlier one. -/
theorem storeAll_same_name : ∃ paths s',
    storeAll (twoPhotos "same.png" "same.png").answer ["a", "b"] (Path.ofString "dest")
      ⟨{}, (), []⟩ = .ok paths s' ∧
    paths = [Path.ofString "dest/assets/same.png", Path.ofString "dest/assets/same.png"] ∧
    s'.files.read (Path.ofString "dest/assets/same.png") = .ok "second".toUTF8 ∧
    ¬ Arrived (twoPhotos "same.png" "same.png") ["a", "b"] (Path.ofString "dest") paths
      s'.files := by
  obtain ⟨paths, s', hrun, hcheck⟩ := exists_of_succeeds
    (by decide +kernel : succeeds
      (storeAll (twoPhotos "same.png" "same.png").answer ["a", "b"] (Path.ofString "dest"))
        ⟨{}, (), []⟩ (fun paths t =>
          paths = [Path.ofString "dest/assets/same.png", Path.ofString "dest/assets/same.png"] ∧
          t.read (Path.ofString "dest/assets/same.png") = .ok "second".toUTF8) = true)
  obtain ⟨hpaths, hread⟩ := of_decide_eq_true hcheck
  refine ⟨paths, s', hrun, hpaths, hread, fun h => ?_⟩
  have hdistinct := h.distinct
  simp [hpaths] at hdistinct

end Asset
end PageExport
