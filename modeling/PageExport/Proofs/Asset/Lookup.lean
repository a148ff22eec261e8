import PageExport.Proofs.Asset.Directory
import PageExport.Proofs.Files.Patterns

/-!
Which files a directory answers a reference with. The file of that name comes first; without it, a
reference counts as a pattern, so a wildcard in it reaches files of other names.
-/
namespace PageExport

/-- The text has no character that no path has. -/
def FileTree.IsPathText (t : Text) : Prop := ∀ c ∈ t, isFileCharacter c = true ∧ c ≠ '\x00'

instance : DecidablePred FileTree.IsPathText := fun t => t.decidableBAll _

/-- A name of an entry that is not too long and has no characters that no path has. -/
structure IsFileName (name : String) : Prop where
  isName : IsName name
  length : FileTree.isTooLong name = false
  chars : FileTree.IsPathText name.toList

/-- A name that is too long, with characters that paths can have. -/
def IsTooLongName (name : String) : Prop :=
  FileTree.isTooLong name = true ∧ FileTree.IsPathText name.toList

instance : DecidablePred IsTooLongName := fun _ => inferInstanceAs (Decidable (_ ∧ _))

theorem Path.mem_toString {p : Path} {name : String} {c : Char} (hname : name ∈ p.names)
    (hc : c ∈ name.toList) : c ∈ p.toString.toList := by
  have hbody : c ∈ Text.join ['/'] (p.names.map String.toList) :=
    Text.mem_join (List.mem_map_of_mem hname) hc
  have hne : p.names.isEmpty = false := by simpa using List.ne_nil_of_mem hname
  unfold toString
  split
  · simp [hbody]
  · simp [hne, hbody]

theorem Path.mem_toString_descend {p : Path} {name : String} {c : Char}
    (h : c ∈ (p.descend [name]).toString.toList) :
    c ∈ p.toString.toList ∨ c = '/' ∨ c ∈ name.toList := by
  have hbody : c = '/' ∨ c ∈ Text.join ['/'] ((p.names ++ [name]).map String.toList) := by
    unfold toString descend at h
    split at h
    · simpa using h
    · exact .inr (by simpa using h)
  by_contra hnone
  simp only [not_or] at hnone
  obtain ⟨hp, hslash, hname⟩ := hnone
  refine hbody.elim hslash (Text.not_mem_join (by simpa using hslash) fun t ht => ?_)
  obtain ⟨n, hn, rfl⟩ := List.mem_map.1 ht
  rcases List.mem_append.1 hn with hn | hn
  · exact fun hc => hp (mem_toString hn hc)
  · rwa [List.mem_singleton.1 hn]

namespace FileTree

theorem pathFault?_eq_none_iff {p : Path} : pathFault? p = none ↔
    IsPathText p.toString.toList ∧ p.toString.utf8ByteSize ≤ maxPathBytes := by
  unfold pathFault? IsPathText
  grind

theorem pathFault?_eq_nameTooLong_iff {p : Path} : pathFault? p = some .nameTooLong ↔
    IsPathText p.toString.toList ∧ maxPathBytes < p.toString.utf8ByteSize := by
  unfold pathFault? IsPathText
  grind

/-- A single name is a path without fault exactly if its characters are. -/
theorem pathFault?_singleton {name : String} (h : isTooLong name = false) :
    pathFault? ⟨false, [name]⟩ = none ↔ IsPathText name.toList := by
  have hstring : (⟨false, [name]⟩ : Path).toString = name := by simp [Path.toString]
  have hlength : name.utf8ByteSize ≤ maxPathBytes := by
    have hname : ¬ maxNameBytes < name.utf8ByteSize := of_decide_eq_false h
    simp only [maxNameBytes, maxPathBytes] at hname ⊢
    omega
  rw [pathFault?_eq_none_iff, hstring]
  exact and_iff_left hlength

variable {t : FileTree} {root : Path} {name : String} {data : ByteArray}

theorem read_eq_ok {p : Path} (h : t.read p = .ok data) :
    ∃ place, t.locate p = .ok place ∧ t.get? place = some (.file data) := by
  unfold read at h
  split at h
  · cases h
  · next place hplace =>
    split at h
    · cases h
    · cases h
    · next hfile =>
      cases h
      exact ⟨place, hplace, hfile⟩

theorem pathFault?_of_locate {p : Path} {place : Place} (h : t.locate p = .ok place) :
    pathFault? p = none := by
  unfold locate at h
  split at h
  · cases h
  · next hfault => exact hfault

/-- There is nothing at a path with characters that no path has. -/
theorem find?_of_not_isPathText {p : Path} (h : ¬ IsPathText p.toString.toList) :
    t.find? p = .ok none := by
  cases hfault : pathFault? p with
  | none => exact absurd (pathFault?_eq_none_iff.1 hfault).1 h
  | some f =>
    cases f with
    | nameTooLong => exact absurd (pathFault?_eq_nameTooLong_iff.1 hfault).1 h
    | _ => simp [find?, locate, hfault]

/-- A file of a directory that can be read has a name that files can have. -/
theorem isFileName_of_read (hname : IsName name) (h : t.read (root.descend [name]) = .ok data) :
    IsFileName name := by
  obtain ⟨place, hplace, -⟩ := read_eq_ok h
  have hfault := pathFault?_of_locate hplace
  have hfollow : t.follow (t.start root) (root.names ++ [name]) = .ok place := follow_of_locate hplace
  obtain ⟨m, -, hlast⟩ := follow_append_eq_ok hfollow
  refine ⟨hname, ?_, fun c hc => ?_⟩
  · rw [follow] at hlast
    split at hlast
    · cases hlast
    · cases hlast
    · split at hlast
      · cases hlast
      · next hlength => exact eq_false_of_ne_true hlength
  · exact (pathFault?_eq_none_iff.1 hfault).1 c
      (Path.mem_toString (List.mem_append_right _ List.mem_cons_self) hc)

/-- Whether there is a file of a name that is too long cannot be said in a directory. -/
theorem isFile_ne_false_of_tooLong {place : Place} (hroot : t.locate root = .ok place)
    (hdir : t.get? place = some .directory) (hlong : IsTooLongName name) :
    t.isFile (root.descend [name]) ≠ .ok false := by
  have hchars : IsPathText (root.descend [name]).toString.toList := by
    intro c hc
    rcases Path.mem_toString_descend hc with hc | rfl | hc
    · exact (pathFault?_eq_none_iff.1 (pathFault?_of_locate hroot)).1 c hc
    · decide
    · exact hlong.2 c hc
  have hlocate : t.locate (root.descend [name]) = .error .nameTooLong := by
    unfold locate
    by_cases hpath : maxPathBytes < (root.descend [name]).toString.utf8ByteSize
    · rw [pathFault?_eq_nameTooLong_iff.2 ⟨hchars, hpath⟩]
    · rw [pathFault?_eq_none_iff.2 ⟨hchars, Nat.not_lt.1 hpath⟩]
      change t.follow (t.start root) (root.names ++ [name]) = .error .nameTooLong
      rw [follow_append (follow_of_locate hroot)]
      simp [follow, hdir, hlong.1]
  simp [isFile, find?, hlocate, bind, Except.bind]

/-- A tree of one file in the working directory. -/
def single (name : String) (data : ByteArray) : FileTree := ⟨[([name], .file data)], []⟩

theorem single_proper (h : IsName name) : (single name data).Proper where
  names q hq := by
    simp only [single, List.map_cons, List.map_nil, List.mem_cons, List.not_mem_nil, or_false] at hq
    rcases hq with rfl | rfl
    · simp
    · simpa using h
  home := get?_nil _

theorem locate_single {ref : String} (hdots : ref ≠ "..") (hlength : isTooLong ref = false)
    (hfault : pathFault? ⟨false, [ref]⟩ = none) :
    (single name data).locate ⟨false, [ref]⟩ = .ok [ref] := by
  unfold locate
  rw [hfault]
  simp [start, single, follow, get?, hlength, hdots]

theorem get?_single (ref : String) :
    (single name data).get? [ref] = if ref = name then some (.file data) else none := by
  simp only [get?, single, List.lookup_cons, List.lookup_nil, List.cons_ne_nil, ↓reduceIte]
  grind

theorem read_single (h : IsFileName name) :
    (single name data).read ((⟨false, []⟩ : Path).descend [name]) = .ok data := by
  apply read_of_locate
    (locate_single h.isName.ne_dots h.length ((pathFault?_singleton h.length).2 h.chars))
  rw [get?_single, if_pos rfl]

/-- What can be read in the tree is its file. -/
theorem eq_of_read_single {ref : String} {d : ByteArray} (hname : IsName ref)
    (h : (single name data).read ((⟨false, []⟩ : Path).descend [ref]) = .ok d) : ref = name := by
  obtain ⟨place, hplace, hfile⟩ := read_eq_ok h
  have hlast : place = [ref] := follow_singleton_eq_ok hname.ne_dots (follow_of_locate hplace)
  rw [hlast, get?_single] at hfile
  by_contra hne
  simp [hne] at hfile

end FileTree

namespace AssetDirectory

open FileTree (Proper single isTooLong pathFault?)

/-- The name of a file that a reference means: its own, or its own with an extension. -/
def IsOwnName (ref name : String) : Prop := name = ref ∨ ref.toList ++ ['.'] <+: name.toList

instance (ref : String) : DecidablePred (IsOwnName ref) :=
  fun name => inferInstanceAs (Decidable (name = ref ∨ _))

/-- The name matches the reference with any extension, where the reference counts as a pattern. -/
def Matches (ref name : String) : Prop :=
  Glob.admits (Glob.read (ref.toList ++ ['.', '*'])) name.toList = true

instance (ref : String) : DecidablePred (Matches ref) :=
  fun _ => inferInstanceAs (Decidable (_ = true))

/-- Whatever directory answers the reference, without memory of earlier answers, the answer has the
bytes of a file in it that the reference means. -/
def ReachesOwnFiles (ref : String) : Prop :=
  ∀ (t : FileTree) (root : Path) (a : Asset), t.Proper →
    (resolve ⟨root, []⟩ t ref).value = .ok (some a) →
    ∃ name, IsName name ∧ IsOwnName ref name ∧ t.read (root.descend [name]) = .ok a.data

variable {t : FileTree} {root : Path} {ref name : String} {a : Asset} {data : ByteArray}

/-- Without memory, a reference is looked up. -/
theorem resolve_fresh (t : FileTree) (root : Path) (ref : String) :
    (resolve ⟨root, []⟩ t ref).value = lookUp t root ref := by
  unfold resolve
  simp only [List.lookup_nil]
  split
  · next h => rw [h]; rfl
  · rfl

theorem lookUp_eq_of_findName (h : findName t root ref = .ok (some name))
    (hread : t.read (root.child name) = .ok data) :
    lookUp t root ref = .ok (some (assetOf ref name data)) := by
  simp [lookUp, h, hread, bind, Except.bind, pure, Except.pure]

theorem lookUp_eq_none_of_isForbidden (h : isForbidden ref = true) : lookUp t root ref = .ok none := by
  simp [lookUp, findName, h, bind, Except.bind, pure, Except.pure]

/-- A file of exactly that name is answered, whatever other files there are. -/
theorem lookUp_exact (href : isForbidden ref = false)
    (h : t.read (root.descend [ref]) = .ok data) :
    lookUp t root ref = .ok (some (assetOf ref ref data)) := by
  rw [← Path.child_of_isName (isName_of_not_isForbidden href)] at h
  apply lookUp_eq_of_findName _ h
  obtain ⟨place, hplace, hfile⟩ := FileTree.read_eq_ok h
  simp [findName, href, FileTree.isFile, FileTree.find?, hplace, hfile, bind, Except.bind, pure,
    Except.pure]

/-- What is answered is read from a file of that name or else, if there is no such file, of a name that
matches. -/
theorem exists_file_of_lookUp (ht : t.Proper) (h : lookUp t root ref = .ok (some a)) :
    isForbidden ref = false ∧ ∃ name data, IsName name ∧ t.read (root.descend [name]) = .ok data ∧
      a = assetOf ref name data ∧ (name = ref ∨ t.isFile (root.child ref) = .ok false ∧
        Glob.hasDoubleStar ref.toList = false ∧ name ∈ fileNames t root ∧ Matches ref name) := by
  obtain ⟨name, data, hfind, hread, rfl⟩ := lookUp_eq_some h
  have hname := isName_of_findName ht hfind
  rw [Path.child_of_isName hname] at hread
  obtain ⟨href, hfound⟩ := findName_eq_some hfind
  exact ⟨href, name, data, hname, hread, rfl, hfound⟩

theorem exists_of_mem_fileNames (h : name ∈ fileNames t root) :
    ∃ place, t.locate root = .ok place ∧ t.get? place = some .directory := by
  unfold fileNames at h
  split at h
  · cases h
  · next place hplace =>
    split at h
    · next hdir => exact ⟨place, hplace, hdir⟩
    · cases h

theorem fileNames_single : fileNames (single name data) ⟨false, []⟩ = [name] := by
  have hlocate : (single name data).locate ⟨false, []⟩ = .ok [] := rfl
  have hinside : (single name data).children [] = [(name, .file data)] := by
    simp [FileTree.children, single]
  simp [fileNames, hlocate, FileTree.get?_nil, hinside]

theorem isFile_single (href : IsName ref) (hne : ref ≠ name) (hshort : ¬ IsTooLongName ref) :
    (single name data).isFile ((⟨false, []⟩ : Path).child ref) = .ok false := by
  have hfind : (single name data).find? ((⟨false, []⟩ : Path).descend [ref]) = .ok none := by
    by_cases hchars : FileTree.IsPathText ref.toList
    · have hlength : isTooLong ref = false := eq_false_of_ne_true fun h => hshort ⟨h, hchars⟩
      have hlocate : (single name data).locate ((⟨false, []⟩ : Path).descend [ref]) = .ok [ref] :=
        FileTree.locate_single href.ne_dots hlength
          ((FileTree.pathFault?_singleton hlength).2 hchars)
      simp only [FileTree.find?, hlocate, FileTree.get?_single, if_neg hne]
    · apply FileTree.find?_of_not_isPathText
      simpa [Path.toString, Path.descend] using hchars
  rw [Path.child_of_isName href, FileTree.isFile, hfind]
  rfl

/-- A file whose name matches is answered if it is the only one. -/
theorem lookUp_single (hshort : ¬ IsTooLongName ref) (href : isForbidden ref = false)
    (hstar : Glob.hasDoubleStar ref.toList = false) (hname : IsFileName name)
    (hmatch : Matches ref name) :
    lookUp (single name data) ⟨false, []⟩ ref = .ok (some (assetOf ref name data)) := by
  have hread : (single name data).read ((⟨false, []⟩ : Path).descend [name]) = .ok data :=
    FileTree.read_single hname
  by_cases heq : ref = name
  · subst heq
    exact lookUp_exact href hread
  · rw [← Path.child_of_isName hname.isName] at hread
    refine lookUp_eq_of_findName ?_ hread
    have hfile : (single name data).isFile ((⟨false, []⟩ : Path).child ref) = .ok false :=
      isFile_single (isName_of_not_isForbidden href) heq hshort
    have hfind : [name].find? (fun n => Glob.admits (Glob.read (ref.toList ++ ['.', '*'])) n.toList) =
        some name := by
      simpa using (show _ = true from hmatch)
    simp only [findName, href, hfile, hstar, fileNames_single, hfind]
    rfl

/-- A reference only ever reaches files that it means, exactly if it is answered by no other file than
that of its name or all file names that match it are its own. -/
theorem reachesOwnFiles_iff (ref : String) :
    ReachesOwnFiles ref ↔ isForbidden ref = true ∨ IsTooLongName ref ∨
      Glob.hasDoubleStar ref.toList = true ∨
      ∀ name, IsFileName name → Matches ref name → IsOwnName ref name := by
  constructor
  · intro h
    by_cases href : isForbidden ref = true
    · exact .inl href
    by_cases hlong : IsTooLongName ref
    · exact .inr (.inl hlong)
    by_cases hstar : Glob.hasDoubleStar ref.toList = true
    · exact .inr (.inr (.inl hstar))
    refine .inr (.inr (.inr fun name hname hmatch => ?_))
    have hanswer : (resolve ⟨⟨false, []⟩, []⟩ (single name .empty) ref).value =
        .ok (some (assetOf ref name .empty)) := by
      rw [resolve_fresh]
      exact lookUp_single hlong (eq_false_of_ne_true href) (eq_false_of_ne_true hstar) hname hmatch
    obtain ⟨name', hname', hown, hread⟩ :=
      h _ _ _ (FileTree.single_proper hname.isName) hanswer
    rwa [← FileTree.eq_of_read_single hname' hread]
  · intro h t root a ht ha
    rw [resolve_fresh] at ha
    obtain ⟨href, name, data, hname, hread, rfl, hmatch⟩ := exists_file_of_lookUp ht ha
    refine ⟨name, hname, ?_, hread⟩
    rcases hmatch with rfl | ⟨hfile, hstar, hmem, hmatch⟩
    · exact .inl rfl
    · rcases h with h | h | h | h
      · rw [h] at href
        cases href
      · obtain ⟨place, hplace, hdir⟩ := exists_of_mem_fileNames hmem
        rw [Path.child_of_isName (isName_of_not_isForbidden href)] at hfile
        exact absurd hfile (FileTree.isFile_ne_false_of_tooLong hplace hdir h)
      · rw [h] at hstar
        cases hstar
      · exact h name (FileTree.isFileName_of_read hname hread) hmatch

/-- A reference without wildcards only ever reaches files that it means. -/
theorem reachesOwnFiles_of_plain (hstar : '*' ∉ ref.toList) (hany : '?' ∉ ref.toList)
    (hclass : '[' ∉ ref.toList) : ReachesOwnFiles ref := by
  have hread : Glob.read ref.toList = ref.toList.map .char :=
    (Glob.reads_read _).of_plain fun c hc =>
      ⟨ne_of_mem_of_not_mem hc hstar, ne_of_mem_of_not_mem hc hany, ne_of_mem_of_not_mem hc hclass⟩
  exact (reachesOwnFiles_iff ref).2 (.inr (.inr (.inr fun name _ hmatch =>
    .inr ((Glob.admits_extension_iff _).2 (.inl hread) _ hmatch))))

/-- What a directory answers without memory of earlier answers. A reference that could lead out of it is
answered by nothing, and one that names a file by this file; any other answer is a file of a name that
matches. All these are files that the reference means, exactly if no name of another file matches or
only files of that very name are ever answered. -/
theorem fresh_answers (ref : String) :
    (∀ t root, isForbidden ref = true → (resolve ⟨root, []⟩ t ref).value = .ok none) ∧
    (∀ t root data, isForbidden ref = false → t.read (root.descend [ref]) = .ok data →
      (resolve ⟨root, []⟩ t ref).value = .ok (some (assetOf ref ref data))) ∧
    (∀ t root a, t.Proper → (resolve ⟨root, []⟩ t ref).value = .ok (some a) →
      ∃ name data, IsName name ∧ t.read (root.descend [name]) = .ok data ∧
        a = assetOf ref name data ∧ (name = ref ∨ Matches ref name)) ∧
    (ReachesOwnFiles ref ↔ isForbidden ref = true ∨ IsTooLongName ref ∨
      Glob.hasDoubleStar ref.toList = true ∨
      ∀ name, IsFileName name → Matches ref name → IsOwnName ref name) ∧
    ('*' ∉ ref.toList → '?' ∉ ref.toList → '[' ∉ ref.toList → ReachesOwnFiles ref) := by
  refine ⟨fun t root href => ?_, fun t root data href hread => ?_, fun t root a ht ha => ?_,
    reachesOwnFiles_iff ref, reachesOwnFiles_of_plain⟩
  · rw [resolve_fresh]
    exact lookUp_eq_none_of_isForbidden href
  · rw [resolve_fresh]
    exact lookUp_exact href hread
  · rw [resolve_fresh] at ha
    obtain ⟨-, name, data, hname, hread, hanswer, hmatch⟩ := exists_file_of_lookUp ht ha
    exact ⟨name, data, hname, hread, hanswer, hmatch.imp_right fun h => h.2.2.2⟩

/-- Examples of each: two dots, a file of exactly the name, and one with an extension. -/
theorem fresh_answers_picture :
    (resolve ⟨⟨false, []⟩, []⟩ (single "pic" "data".toUTF8) "..").value = .ok none ∧
    (resolve ⟨⟨false, []⟩, []⟩ (single "pic" "data".toUTF8) "pic").value =
      .ok (some ⟨"data".toUTF8, none, ""⟩) ∧
    (∃ name data, IsName name ∧
      (single "pic.png" "data".toUTF8).read ((⟨false, []⟩ : Path).descend [name]) = .ok data ∧
      assetOf "pic" "pic.png" "data".toUTF8 = assetOf "pic" name data ∧
      (name = "pic" ∨ Matches "pic" name)) ∧
    ReachesOwnFiles "pic" := by
  have hpng : IsFileName "pic.png" := ⟨by decide, by decide, by decide⟩
  refine ⟨(fresh_answers "..").1 _ _ (by decide), ?_, ?_,
    (fresh_answers "pic").2.2.2.2 (by decide) (by decide) (by decide)⟩
  · exact (fresh_answers "pic").2.1 _ _ _ (by decide)
      (FileTree.read_single ⟨by decide, by decide, by decide⟩)
  · apply (fresh_answers "pic").2.2.1 _ _ _ (FileTree.single_proper hpng.isName)
    rw [resolve_fresh]
    exact lookUp_single (by decide) (by decide) (by decide) hpng (by decide)

/-- A star as a reference reaches any file with a dot in its name. -/
theorem fresh_answers_star :
    (single "a.png" "data".toUTF8).Proper ∧
    (resolve ⟨⟨false, []⟩, []⟩ (single "a.png" "data".toUTF8) "*").value =
      .ok (some ⟨"data".toUTF8, some "a.png", "image/png"⟩) ∧
    ¬ ∃ name, IsName name ∧ IsOwnName "*" name ∧
      (single "a.png" "data".toUTF8).read ((⟨false, []⟩ : Path).descend [name]) =
        .ok "data".toUTF8 := by
  refine ⟨FileTree.single_proper (by decide), ?_, ?_⟩
  · rw [resolve_fresh]
    exact lookUp_single (by decide) (by decide) (by decide) ⟨by decide, by decide, by decide⟩
      (by decide)
  · rintro ⟨name, hname, hown, hread⟩
    obtain rfl := FileTree.eq_of_read_single hname hread
    exact absurd hown (by decide)

end AssetDirectory
end PageExport
