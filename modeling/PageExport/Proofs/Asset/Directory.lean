import Mathlib.Data.List.TakeWhile
import PageExport.Asset.Directory
import PageExport.Proofs.Files.Altered

/-!
What a directory answers. The name of an asset's copy never leads out of the directory of copies, and
an answer stays the same as long as the directory does, whether or not it is remembered.
-/
namespace PageExport

namespace Asset

/-- The copy of the asset is named so that it lies in the directory of copies, or is refused. -/
def StaysInside (a : Asset) (ref : String) : Prop :=
  '/' ∉ (a.fileName ref).toList ∧ a.fileName ref ≠ ".."

theorem not_mem_beforeFirst (c : Char) (t : Text) : c ∉ beforeFirst c t := by
  intro h
  simpa using List.mem_takeWhile_imp h

theorem beforeFirst_subset (c : Char) (t : Text) : beforeFirst c t ⊆ t :=
  (List.takeWhile_sublist _).subset

theorem not_mem_afterLast (c : Char) (t : Text) : c ∉ afterLast c t := by
  intro h
  simpa using List.mem_takeWhile_imp (List.mem_reverse.1 h)

theorem afterLast_subset (c : Char) (t : Text) : afterLast c t ⊆ t := by
  intro d h
  exact List.mem_reverse.1 ((List.takeWhile_sublist _).subset (List.mem_reverse.1 h))

theorem slash_not_mem_extension {a : Asset} (h : ∀ name, a.name = some name → '/' ∉ name.toList) :
    '/' ∉ a.extension := by
  have hcontent : '/' ∉ (if a.contentType.isEmpty then ['b', 'l', 'o', 'b']
      else afterLast '/' a.contentType.toList) := by
    split
    · decide
    · exact not_mem_afterLast '/' _
  unfold extension
  simp only
  split
  · next name hname =>
    split
    · exact fun hmem => h name hname (afterLast_subset '.' _ hmem)
    · exact hcontent
  · exact hcontent

theorem fileName_toList (ref : String) (a : Asset) :
    (a.fileName ref).toList = a.stem ref ++ '.' :: a.extension := by simp [fileName]

theorem dot_or_nil {s t : Text} (h : s ++ '.' :: t = ['.', '.']) :
    s = ['.'] ∨ s = [] ∧ t = ['.'] := by
  match s with
  | [] => exact .inr ⟨rfl, (List.cons.inj h).2⟩
  | [c] => exact .inl (by rw [(List.cons.inj h).1])
  | _ :: _ :: s => simp at h

/-- An asset whose display name is the name of a file stays inside, and so does one without a display
name whose reference is such a name. -/
theorem staysInside {a : Asset} {ref : String} (h : IsName (a.name.getD ref)) :
    a.StaysInside ref := by
  obtain ⟨hempty, hone⟩ := h
  obtain ⟨hslash, hdot, -⟩ := isOneName_iff.1 hone
  have hstem : '/' ∉ a.stem ref := by
    unfold stem
    cases hname : a.name with
    | none => simpa [hname] using hslash
    | some name => exact fun hmem => hslash (by simpa [hname] using beforeFirst_subset '.' _ hmem)
  have hextension : '/' ∉ a.extension :=
    slash_not_mem_extension fun name hname => by simpa [hname] using hslash
  refine ⟨by simp [fileName_toList, hstem, hextension], fun hdots => ?_⟩
  have hlist : a.stem ref ++ '.' :: a.extension = ['.', '.'] := by
    rw [← fileName_toList, hdots]
    rfl
  cases hname : a.name with
  | none =>
    rw [hname, Option.getD_none] at hempty hdot
    have href : a.stem ref = ref.toList := by simp [stem, hname]
    rcases dot_or_nil hlist with hend | ⟨hend, -⟩
    · exact hdot (String.toList_inj.1 (href.symm.trans hend))
    · exact hempty (String.toList_inj.1 (href.symm.trans hend))
  | some name =>
    rw [hname, Option.getD_some] at hempty
    have hfirst : a.stem ref = beforeFirst '.' name.toList := by simp [stem, hname]
    rcases dot_or_nil hlist with hend | ⟨hend, hrest⟩
    · exact not_mem_beforeFirst '.' name.toList (by rw [← hfirst, hend]; simp)
    · by_cases hcontains : name.toList.contains '.'
      · have hlast : a.extension = afterLast '.' name.toList := by
          simp only [extension, hname, hcontains, ↓reduceIte]
        exact not_mem_afterLast '.' name.toList (by rw [← hlast, hrest]; simp)
      · have hall : beforeFirst '.' name.toList = name.toList := by
          refine List.takeWhile_eq_self_iff.2 fun c hc => ?_
          simp only [List.contains_eq_mem, decide_eq_true_eq] at hcontains
          exact decide_eq_true fun h => hcontains (h ▸ hc)
        exact hempty (String.toList_inj.1 (hall.symm.trans (hfirst.symm.trans hend)))

theorem exists_target_eq {a : Asset} {ref : String} (h : a.StaysInside ref) (dest : Path) :
    ∃ names, a.target dest ref = dest.descend ("assets" :: names) ∧ ∀ name ∈ names, name ≠ ".." := by
  obtain ⟨hslash, hdots⟩ := h
  have hhead : (a.fileName ref).toList.head? ≠ some '/' :=
    fun hhead => hslash (List.mem_of_mem_head? hhead)
  refine ⟨parts (a.fileName ref).toList, by rw [target_eq, if_neg hhead]; rfl, fun name hname => ?_⟩
  rw [parts, Text.split_of_not_mem hslash] at hname
  obtain ⟨part, hpart, rfl⟩ := List.mem_map.1 hname
  rw [List.mem_singleton.1 (List.mem_filter.1 hpart).1, String.ofList_toList]
  exact hdots

end Asset

namespace AssetDirectory

open FileTree (Alters Proper)

variable {t t' : FileTree} {root : Path} {ref name : String} {a : Asset}

theorem isName_of_not_isForbidden (h : isForbidden ref = false) : IsName ref := by
  simp only [isForbidden, Bool.or_eq_false_iff, decide_eq_false_iff_not, List.any_eq_false] at h
  obtain ⟨⟨⟨hempty, hdot⟩, hdots⟩, hslash⟩ := h
  refine ⟨fun h => by simp [h] at hempty, Asset.isOneName_iff.2 ⟨fun h => ?_, hdot, hdots⟩⟩
  simpa using hslash _ h

theorem isName_of_mem_fileNames (ht : t.Proper) (h : name ∈ fileNames t root) : IsName name := by
  unfold fileNames at h
  split at h
  · cases h
  · next place _ =>
    split at h
    · obtain ⟨⟨name', e⟩, hmem, he⟩ := List.mem_filterMap.1 h
      have hname : name' = name := by
        cases e with
        | file data => simpa using he
        | directory => simp at he
      subst hname
      obtain ⟨⟨q, e'⟩, hentry, hlast⟩ := List.mem_filterMap.1 (List.mem_mergeSort.1 hmem)
      simp only at hlast
      split at hlast
      · next last hq =>
        split at hlast
        · obtain ⟨rfl, -⟩ := Prod.mk.inj (Option.some.inj hlast)
          exact ht.names q (List.mem_cons_of_mem _ (List.mem_map_of_mem hentry)) _
            (List.mem_of_getLast? hq)
        · cases hlast
      · cases hlast
    · cases h

/-- A name that is found is the reference, or matches it if there is no file of that name. -/
theorem findName_eq_some (h : findName t root ref = .ok (some name)) :
    isForbidden ref = false ∧ (name = ref ∨ t.isFile (root.child ref) = .ok false ∧
      Glob.hasDoubleStar ref.toList = false ∧ name ∈ fileNames t root ∧
      Glob.admits (Glob.read (ref.toList ++ ['.', '*'])) name.toList = true) := by
  unfold findName at h
  split at h
  · cases h
  · next hallowed =>
    refine ⟨eq_false_of_ne_true hallowed, ?_⟩
    split at h
    · cases h
    · cases h
      exact .inl rfl
    · next hfile =>
      split at h
      · cases h
      · next hstar =>
        have hmem := List.mem_of_find?_eq_some (Except.ok.inj h)
        have hmatch := List.find?_some (Except.ok.inj h)
        exact .inr ⟨hfile, eq_false_of_ne_true hstar, hmem, hmatch⟩

theorem isName_of_findName (ht : t.Proper) (h : findName t root ref = .ok (some name)) :
    IsName name := by
  obtain ⟨hallowed, rfl | ⟨-, -, hmem, -⟩⟩ := findName_eq_some h
  · exact isName_of_not_isForbidden hallowed
  · exact isName_of_mem_fileNames ht hmem

theorem lookUp_eq_some (h : lookUp t root ref = .ok (some a)) :
    ∃ name data, findName t root ref = .ok (some name) ∧ t.read (root.child name) = .ok data ∧
      a = assetOf ref name data := by
  unfold lookUp at h
  cases hfind : findName t root ref with
  | error e =>
    rw [hfind] at h
    cases h
  | ok found =>
    cases found with
    | none =>
      rw [hfind] at h
      cases h
    | some name =>
      simp only [hfind, bind, Except.bind] at h
      split at h
      · next data hread => exact ⟨name, data, rfl, hread, (Option.some.inj (Except.ok.inj h)).symm⟩
      · cases h

theorem staysInside_of_lookUp (ht : t.Proper) (h : lookUp t root ref = .ok (some a)) :
    a.StaysInside ref := by
  obtain ⟨name, data, hfind, -, rfl⟩ := lookUp_eq_some h
  apply Asset.staysInside
  have hname := isName_of_findName ht hfind
  unfold assetOf
  simp only
  split
  · next heq => rwa [heq] at hname
  · exact hname

/-- A look-up gives the same answer if neither the directory nor a file in it was altered. -/
theorem lookUp_eq {P : Place → Prop} {q : Place} (h : Alters P t t') (ht : t.Proper)
    (hroot : t.locate root = .ok q) (hq : ¬ P q) (hinner : ∀ name, ¬ P (q ++ [name])) (ref : String) :
    lookUp t' root ref = lookUp t root ref := by
  have hfile {name : String} (hname : IsName name) :
      t'.isFile (root.child name) = t.isFile (root.child name) ∧
        t'.read (root.child name) = t.read (root.child name) := by
    have hdots := hname.ne_dots
    rw [Path.child_of_isName hname]
    exact ⟨by simp only [FileTree.isFile, h.find?_descend_eq hroot hq hdots (hinner name)],
      h.read_descend_eq hroot hq hdots (hinner name)⟩
  have hnames : fileNames t' root = fileNames t root := by
    simp only [fileNames, hroot, h.keeps.locate hroot, h.get? q hq, h.children q hinner]
  have hfind : findName t' root ref = findName t root ref := by
    unfold findName
    split
    · rfl
    · next hallowed =>
      rw [(hfile (isName_of_not_isForbidden (by simpa using hallowed))).1, hnames]
  unfold lookUp
  rw [hfind]
  cases hname : findName t root ref with
  | error e => rfl
  | ok found =>
    cases found with
    | none => rfl
    | some name => simp only [bind, Except.bind, (hfile (isName_of_findName ht hname)).2]

end AssetDirectory
end PageExport
