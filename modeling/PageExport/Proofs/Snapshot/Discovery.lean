import Mathlib.Data.List.Lex
import Mathlib.Data.String.Basic
import PageExport.Proofs.Files.Altered
import PageExport.Proofs.Snapshot.Loading

/-!
Which paths stand for snapshots. They are all the paths at or below a given one that lead to a file under
the name of a snapshot, in order and without repetition, and besides them those below it that lead to a
directory under such a name, which cannot be loaded.
-/
namespace PageExport

namespace Path

theorem takeWhile_ne_of_not_mem {c : Char} {t : Text} (h : c ∉ t) (rest : Text) :
    (t ++ rest).takeWhile (· ≠ c) = t ++ rest.takeWhile (· ≠ c) := by
  refine List.takeWhile_append_of_pos fun d hd => decide_eq_true ?_
  rintro rfl
  exact h hd

theorem splitName_of_not_mem {name : Text} (h : '.' ∉ name) : splitName name = (name, []) := by
  have hafter := takeWhile_ne_of_not_mem (t := name.reverse) (by simpa using h) []
  rw [List.append_nil, List.takeWhile_nil, List.append_nil] at hafter
  unfold splitName
  simp only [hafter, List.reverse_reverse]
  simp

/-- A name is split at its last dot, unless that is at one of its ends. -/
theorem splitName_append {before after : Text} (h : '.' ∉ after) :
    splitName (before ++ '.' :: after) = if before = [] ∨ after = []
      then (before ++ '.' :: after, []) else (before, '.' :: after) := by
  have hafter : (before ++ '.' :: after).reverse.takeWhile (· ≠ '.') = after.reverse := by
    rw [List.reverse_append, List.reverse_cons, List.append_assoc,
      takeWhile_ne_of_not_mem (by simpa using h)]
    simp
  have hlength : (before ++ '.' :: after).length = before.length + after.length + 1 := by
    simp only [List.length_append, List.length_cons]
    omega
  have hbefore : (before ++ '.' :: after).take
      ((before ++ '.' :: after).length - after.length - 1) = before := by
    have hcount : (before ++ '.' :: after).length - after.length - 1 = before.length := by omega
    rw [hcount, List.take_left]
  have hlonger : ¬ after.length = (before ++ '.' :: after).length := by omega
  unfold splitName
  simp only [hafter, List.reverse_reverse, hbefore, hlonger, decide_false, Bool.or_false,
    Bool.or_eq_true, List.isEmpty_iff, or_comm (a := after = [])]

/-- The path has the name of a snapshot: its extension behind something else. -/
def IsNamedSnapshot (p : Path) : Prop :=
  ∃ stem : Text, stem ≠ [] ∧ p.name.toList = stem ++ ".json".toList

theorem isSnapshot_iff {p : Path} : p.isSnapshot = true ↔ p.IsNamedSnapshot := by
  have hjson : '.' ∉ "json".toList := by decide
  rw [isSnapshot, decide_eq_true_eq, extension]
  constructor
  · intro h
    by_cases hdot : '.' ∈ p.name.toList
    · obtain ⟨after, before, heq, hafter⟩ := List.eq_append_cons_of_mem (List.mem_reverse.2 hdot)
      have hname : p.name.toList = before.reverse ++ '.' :: after.reverse := by
        rw [← List.reverse_reverse p.name.toList, heq]
        simp
      rw [hname, splitName_append (by simpa using hafter)] at h
      split at h
      · cases h
      · next hends =>
        refine ⟨before.reverse, fun hnil => hends (.inl hnil), ?_⟩
        rw [hname]
        exact congrArg (before.reverse ++ ·) h
    · rw [splitName_of_not_mem hdot] at h
      cases h
  · rintro ⟨stem, hstem, hname⟩
    have hsplit := @splitName_append stem _ hjson
    rw [if_neg (by simp [hstem])] at hsplit
    rw [hname]
    exact congrArg Prod.snd hsplit

end Path

namespace FileTree

variable {t : FileTree} {place : Place} {names : List String}

/-- Every place is there once, and all of them lie in directories. -/
structure IsRooted (t : FileTree) : Prop where
  distinct : (t.entries.map Prod.fst).Nodup
  inside : ∀ m ∈ t.entries, t.get? m.1.dropLast = some .directory

theorem exists_mem_entries_iff {q : Place} (hq : q ≠ []) :
    (∃ e, (q, e) ∈ t.entries) ↔ (t.get? q).isSome = true := by
  rw [get?, if_neg hq]
  constructor
  · rintro ⟨e, he⟩
    rw [Option.isSome_iff_ne_none]
    intro hnone
    simpa using List.lookup_eq_none_iff.1 hnone _ he
  · intro h
    obtain ⟨e, he⟩ := Option.isSome_iff_exists.1 h
    obtain ⟨before, after, hentries, -⟩ := List.lookup_eq_some_iff.1 he
    exact ⟨e, by simp [hentries]⟩

theorem way_eq_some_iff {q : Place} :
    (if place.isPrefixOf q && place.length < q.length then some (q.drop place.length) else none) =
      some names ↔ names ≠ [] ∧ q = place ++ names := by
  constructor
  · intro h
    split at h
    · next hbelow =>
      simp only [Bool.and_eq_true, List.isPrefixOf_iff_prefix, decide_eq_true_eq] at hbelow
      obtain ⟨⟨rest, rfl⟩, hlength⟩ := hbelow
      obtain rfl : rest = names := by simpa using h
      refine ⟨?_, rfl⟩
      rintro rfl
      simp at hlength
    · cases h
  · rintro ⟨hne, rfl⟩
    have hlength : 0 < names.length := List.length_pos_iff.2 hne
    simp [hlength]

theorem mem_below_iff :
    names ∈ t.below place ↔ names ≠ [] ∧ (t.get? (place ++ names)).isSome = true := by
  unfold below
  simp only [List.mem_mergeSort, List.mem_filterMap, way_eq_some_iff]
  constructor
  · rintro ⟨⟨q, e⟩, hmem, hne, rfl⟩
    exact ⟨hne, (exists_mem_entries_iff (by simp [hne])).1 ⟨e, hmem⟩⟩
  · rintro ⟨hne, hsome⟩
    obtain ⟨e, he⟩ := (exists_mem_entries_iff (by simp [hne])).2 hsome
    exact ⟨(place ++ names, e), he, hne, rfl⟩

theorem below_nodup (h : t.IsRooted) (place : Place) : (t.below place).Nodup := by
  unfold below
  refine (List.mergeSort_perm _ _).nodup_iff.2 ?_
  rw [List.Nodup, List.pairwise_filterMap]
  refine (List.pairwise_map.1 h.distinct).imp ?_
  rintro ⟨q, e⟩ ⟨q', e'⟩ hne names hnames names' hnames' rfl
  exact hne ((way_eq_some_iff.1 hnames).2.trans (way_eq_some_iff.1 hnames').2.symm)

/-- What is below a place is told in order and once. -/
theorem below_pairwise_lt (h : t.IsRooted) (place : Place) : (t.below place).Pairwise (· < ·) := by
  have hsorted : (t.below place).Pairwise fun a b => (!decide (b < a)) = true := by
    unfold below
    refine List.pairwise_mergeSort (fun a b c hab hbc => ?_) (fun a b => ?_) _
    · simp only [Bool.not_eq_true', decide_eq_false_iff_not, not_lt] at *
      exact hab.trans hbc
    · simpa using le_total a b
  refine ((below_nodup h place).and hsorted).imp fun ⟨hne, hle⟩ => ?_
  exact lt_of_le_of_ne (not_lt.1 (by simpa using hle)) hne

/-- There is nothing below a file. -/
theorem get?_below_file (h : t.IsRooted) {data : ByteArray} (hplace : t.get? place = some (.file data))
    (hnames : names ≠ []) : t.get? (place ++ names) = none := by
  induction names using List.reverseRecOn with
  | nil => exact absurd rfl hnames
  | append_singleton names name ih =>
    by_contra hsome
    have hne : place ++ (names ++ [name]) ≠ [] := by simp
    obtain ⟨e, he⟩ := (exists_mem_entries_iff hne).2 (Option.isSome_iff_ne_none.2 hsome)
    have hinside := h.inside _ he
    rw [← List.append_assoc, List.dropLast_concat] at hinside
    cases names with
    | nil => simp [hplace] at hinside
    | cons first names => simp [ih (by simp)] at hinside

/-- The path `q` is `p` or lies below it, and leads to an entry. -/
def IsAt (t : FileTree) (p : Path) (e : Entry) (q : Path) : Prop :=
  ∃ place names, t.locate p = .ok place ∧ q = p.descend names ∧ t.get? (place ++ names) = some e

variable {p q : Path} {e : Entry}

theorem snapshots_of_file {data : ByteArray} (hp : t.locate p = .ok place)
    (hfile : t.get? place = some (.file data)) :
    t.snapshots p = .ok (if p.isSnapshot then [p] else []) := by
  simp [snapshots, find?, hp, hfile, bind, Except.bind, pure, Except.pure]

theorem snapshots_of_directory (hp : t.locate p = .ok place)
    (hdir : t.get? place = some .directory) :
    t.snapshots p = .ok (((t.below place).map p.descend).filter Path.isSnapshot) := by
  simp [snapshots, find?, hp, hdir, bind, Except.bind, pure, Except.pure]
  rfl

theorem descend_eq_self_iff {names : List String} : p.descend names = p ↔ names = [] := by
  obtain ⟨rooted, own⟩ := p
  simp [Path.descend]

theorem isAt_iff (hp : t.locate p = .ok place) :
    t.IsAt p e q ↔ ∃ names, q = p.descend names ∧ t.get? (place ++ names) = some e := by
  constructor
  · rintro ⟨place', names, hplace', hq, he⟩
    obtain rfl : place = place' := Except.ok.inj (hp.symm.trans hplace')
    exact ⟨names, hq, he⟩
  · rintro ⟨names, hq, he⟩
    exact ⟨place, names, hp, hq, he⟩

theorem descend_injective {names names' : List String} (h : p.descend names = p.descend names') :
    names = names' := by
  simpa [Path.descend] using h

/-- A path leads to one entry at most. -/
theorem IsAt.unique {e' : Entry} (h : t.IsAt p e q) (h' : t.IsAt p e' q) : e = e' := by
  obtain ⟨place, names, hp, rfl, he⟩ := h
  obtain ⟨names', hq, he'⟩ := (isAt_iff hp).1 h'
  obtain rfl := descend_injective hq
  exact Option.some.inj (he.symm.trans he')

theorem mem_snapshots_of_directory (hp : t.locate p = .ok place) :
    q ∈ ((t.below place).map p.descend).filter Path.isSnapshot ↔
      q.IsNamedSnapshot ∧ q ≠ p ∧ ∃ e, t.IsAt p e q := by
  simp only [List.mem_filter, List.mem_map, mem_below_iff, Path.isSnapshot_iff, isAt_iff hp]
  constructor
  · rintro ⟨⟨names, ⟨hne, hsome⟩, rfl⟩, hname⟩
    obtain ⟨e, he⟩ := Option.isSome_iff_exists.1 hsome
    exact ⟨hname, mt descend_eq_self_iff.1 hne, e, names, rfl, he⟩
  · rintro ⟨hname, hne, e, names, rfl, he⟩
    exact ⟨⟨names, ⟨mt descend_eq_self_iff.2 hne, by simp [he]⟩, rfl⟩, hname⟩

/-- Every path that is told leads to a file, or to a directory below the path that is searched. -/
theorem exists_snapshots (ht : t.IsRooted) (hp : t.locate p = .ok place)
    (he : t.get? place = some e) : ∃ qs, t.snapshots p = .ok qs ∧
      qs.Pairwise (fun a b => a.names < b.names) ∧
      ∀ q, q ∈ qs ↔ q.IsNamedSnapshot ∧
        ((∃ data, t.IsAt p (.file data) q) ∨ q ≠ p ∧ t.IsAt p .directory q) := by
  cases e with
  | file data =>
    refine ⟨_, snapshots_of_file hp he, by split <;> simp, fun q => ?_⟩
    have hat (e' : Entry) : t.IsAt p e' q ↔ q = p ∧ e' = .file data := by
      rw [isAt_iff hp]
      constructor
      · rintro ⟨names, rfl, hnames⟩
        by_cases hnil : names = []
        · subst hnil
          rw [List.append_nil, he] at hnames
          exact ⟨descend_eq_self_iff.2 rfl, (Option.some.inj hnames).symm⟩
        · rw [get?_below_file ht he hnil] at hnames
          cases hnames
      · rintro ⟨rfl, rfl⟩
        exact ⟨[], (descend_eq_self_iff.2 rfl).symm, by rw [List.append_nil, he]⟩
    simp only [hat]
    rw [← Path.isSnapshot_iff]
    by_cases hq : q = p
    · subst hq
      cases q.isSnapshot <;> simp
    · cases p.isSnapshot <;> simp [hq]
  | directory =>
    refine ⟨_, snapshots_of_directory hp he, ?_, fun q => ?_⟩
    · refine List.Pairwise.filter _ (List.pairwise_map.2 ((below_pairwise_lt ht place).imp ?_))
      exact List.append_left_lt
    · rw [mem_snapshots_of_directory hp]
      refine and_congr_right fun _ => ⟨?_, ?_⟩
      · rintro ⟨hne, e, hat⟩
        cases e with
        | file data => exact .inl ⟨data, hat⟩
        | directory => exact .inr ⟨hne, hat⟩
      · rintro (⟨data, hat⟩ | ⟨hne, hat⟩)
        · refine ⟨?_, _, hat⟩
          rintro rfl
          have hself : t.IsAt q .directory q :=
            ⟨place, [], hp, (descend_eq_self_iff.2 rfl).symm, by rw [List.append_nil, he]⟩
          cases hself.unique hat
        · exact ⟨hne, _, hat⟩

/-- What a path leads to is at its own place. -/
theorem IsAt.get?_of_locate (ht : t.Proper) (h : t.IsAt p e q) {r : Place}
    (hr : t.locate q = .ok r) : t.get? r = some e := by
  obtain ⟨place, names, hp, rfl, he⟩ := h
  have hnames : ∀ name ∈ names, name ≠ ".." := by
    intro name hname
    have hne : place ++ names ≠ [] := by
      rintro hnil
      simp [(List.append_eq_nil_iff.1 hnil).2] at hname
    obtain ⟨e', he'⟩ := (exists_mem_entries_iff (t := t) hne).2 (by rw [he]; rfl)
    exact (ht.names _ (List.mem_cons_of_mem _ (List.mem_map_of_mem he')) name
      (List.mem_append_right place hname)).ne_dots
  rw [locate_descend hnames hp hr, he]

end FileTree

theorem load_of_directory {t : FileTree} {q : Path} {r : Place} (hr : t.locate q = .ok r)
    (hdir : t.get? r = some .directory) :
    Block.load t q = .error (.read (.file ⟨.isDirectory, q⟩)) := by
  simp [Block.load, FileTree.readText, FileTree.read, hr, hdir]

theorem load_ne_of_file {t : FileTree} {q : Path} {r : Place} {data : ByteArray} (f : FileError)
    (hr : t.locate q = .ok r) (hfile : t.get? r = some (.file data)) :
    Block.load t q ≠ .error (.read (.file f)) := by
  have hread : t.read q = .ok data := by simp only [FileTree.read, hr, hfile]
  intro hload
  by_cases htext : ∃ text, Block.IsTextOf text data
  · obtain ⟨text, htext⟩ := htext
    obtain ⟨_, -, hfault, -⟩ | ⟨_, _, -, -, hfault, -⟩ :=
      Block.message_of_load_of_text hread htext hload <;> cases hfault
  · rw [Block.load_of_not_text hread htext] at hload
    cases hload

namespace FileTree

variable {t : FileTree} {p : Path} {place : Place} {e : Entry}

/-- The snapshots that a path stands for are told in order and once. They are all the files at or below it
under the name of a snapshot, and the directories below it under such a name; they are just those files
exactly if there is no such directory. A snapshot that can be reached is refused for not being a file
exactly if it is such a directory. -/
theorem snapshots_files_iff (ht : t.IsRooted) (hn : t.Proper) (hp : t.locate p = .ok place)
    (he : t.get? place = some e) : ∃ qs, t.snapshots p = .ok qs ∧
      qs.Pairwise (fun a b => a.names < b.names) ∧
      (∀ q, q ∈ qs ↔ q.IsNamedSnapshot ∧
        ((∃ data, t.IsAt p (.file data) q) ∨ q ≠ p ∧ t.IsAt p .directory q)) ∧
      ((∀ q, q ∈ qs ↔ q.IsNamedSnapshot ∧ ∃ data, t.IsAt p (.file data) q) ↔
        ∀ q, q ≠ p → t.IsAt p .directory q → ¬ q.IsNamedSnapshot) ∧
      ∀ q ∈ qs, ∀ r, t.locate q = .ok r →
        (Block.load t q = .error (.read (.file ⟨.isDirectory, q⟩)) ↔ t.IsAt p .directory q) := by
  obtain ⟨qs, hqs, hsorted, hmem⟩ := exists_snapshots ht hp he
  refine ⟨qs, hqs, hsorted, hmem, ⟨fun h q hne hdir hname => ?_, fun h q => ?_⟩, fun q hq r hr => ?_⟩
  · obtain ⟨-, data, hfile⟩ := (h q).1 ((hmem q).2 ⟨hname, .inr ⟨hne, hdir⟩⟩)
    cases hfile.unique hdir
  · rw [hmem]
    refine and_congr_right fun hname => or_iff_left ?_
    rintro ⟨hne, hdir⟩
    exact h q hne hdir hname
  · constructor
    · intro hload
      rcases ((hmem q).1 hq).2 with ⟨data, hfile⟩ | ⟨-, hdir⟩
      · exact absurd hload (load_ne_of_file _ hr (hfile.get?_of_locate hn hr))
      · exact hdir
    · exact fun hdir => load_of_directory hr (hdir.get?_of_locate hn hr)

/-- A snapshot, a file whose name is an extension only, and a directory under the name of a snapshot. -/
def mixedNames : FileTree where
  entries := [(["in"], .directory), (["in", ".json"], .file "\x7b\x7d".toUTF8),
    (["in", "d.json"], .directory), (["in", "d.json", "a.json"], .file "\x7b\x7d".toUTF8)]

theorem isRooted_mixedNames : mixedNames.IsRooted := by
  refine ⟨by decide, ?_⟩
  simp only [mixedNames, List.forall_mem_cons]
  exact ⟨rfl, rfl, rfl, rfl, by simp⟩

theorem proper_mixedNames : mixedNames.Proper := by
  refine ⟨?_, rfl⟩
  have hnames : ∀ q ∈ [[], ["in"], ["in", ".json"], ["in", "d.json"], ["in", "d.json", "a.json"]],
    ∀ name ∈ q, IsName name := by decide
  exact hnames

theorem snapshots_files_iff_mixedNames : ∃ qs, mixedNames.snapshots (.ofString "in") = .ok qs ∧
    ⟨false, ["in", "d.json", "a.json"]⟩ ∈ qs ∧ ⟨false, ["in", ".json"]⟩ ∉ qs ∧
    ¬ ∀ q, q ∈ qs ↔ q.IsNamedSnapshot ∧ ∃ data, mixedNames.IsAt (.ofString "in") (.file data) q := by
  have hp : mixedNames.locate (.ofString "in") = .ok ["in"] := rfl
  have hdir : mixedNames.IsAt (.ofString "in") .directory ⟨false, ["in", "d.json"]⟩ :=
    ⟨["in"], ["d.json"], hp, rfl, rfl⟩
  have hfile : mixedNames.IsAt (.ofString "in") (.file "\x7b\x7d".toUTF8)
    ⟨false, ["in", "d.json", "a.json"]⟩ := ⟨["in"], ["d.json", "a.json"], hp, rfl, rfl⟩
  obtain ⟨qs, hqs, -, hmem, hfiles, -⟩ :=
    snapshots_files_iff isRooted_mixedNames proper_mixedNames hp rfl
  refine ⟨qs, hqs, (hmem _).2 ⟨Path.isSnapshot_iff.1 (by decide), .inl ⟨_, hfile⟩⟩, fun h => ?_,
    fun h => ?_⟩
  · have hname := Path.isSnapshot_iff.2 ((hmem _).1 h).1
    revert hname
    decide
  · exact hfiles.1 h _ (by decide) hdir (Path.isSnapshot_iff.1 (by decide))

/-- A directory under the name of a snapshot is told as a snapshot, and refused. -/
theorem snapshots_of_namedDirectory :
    mixedNames.snapshots (.ofString "in") =
      .ok [⟨false, ["in", "d.json"]⟩, ⟨false, ["in", "d.json", "a.json"]⟩] ∧
    mixedNames.find? ⟨false, ["in", "d.json"]⟩ = .ok (some .directory) ∧
    Block.load mixedNames ⟨false, ["in", "d.json"]⟩ =
      .error (.read (.file ⟨.isDirectory, ⟨false, ["in", "d.json"]⟩⟩)) := by
  refine ⟨?_, rfl, load_of_directory (r := ["in", "d.json"]) rfl rfl⟩
  have hbelow : mixedNames.below ["in"] = [[".json"], ["d.json"], ["d.json", "a.json"]] := by
    unfold below
    simp only
    rw [List.mergeSort_of_pairwise (by decide +kernel)]
    decide +kernel
  have hlocate : mixedNames.locate (.ofString "in") = .ok ["in"] := rfl
  rw [snapshots_of_directory hlocate rfl, hbelow]
  decide +kernel

end FileTree
end PageExport
