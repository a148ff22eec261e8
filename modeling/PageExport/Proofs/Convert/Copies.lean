import PageExport.Proofs.Asset.Lookup
import PageExport.Proofs.Convert.Pages

/-!
The copies of assets that a run makes, in order. At the end, a file in the directory of copies is the
last copy of its name, or what it was before if there is none.
-/
namespace PageExport

open FileTree (Alters Proper)

namespace Asset

/-- The references whose assets are copied, each with its asset, up to a fault. -/
def copied {σ : Type} (answer : String → Storing σ (Option Asset)) (dest : Path) :
    List String → StoreState σ → List (String × Asset)
  | [], _ => []
  | ref :: refs, s =>
    match answer ref s, store answer dest ref s with
    | .ok a _, .ok _ s' => (a.map fun a => (ref, a)).toList ++ copied answer dest refs s'
    | _, _ => []

/-- The last of the copies under a name. -/
def latest (copies : List (String × Asset)) (name : String) : Option Asset :=
  (copies.reverse.find? fun x => x.2.fileName x.1 = name).map Prod.snd

theorem latest_append (cs ds : List (String × Asset)) (name : String) :
    latest (cs ++ ds) name = (latest ds name).or (latest cs name) := by
  rw [latest, List.reverse_append, List.find?_append, Option.map_or]
  rfl

theorem exists_of_latest {cs : List (String × Asset)} {name : String} {a : Asset}
    (h : latest cs name = some a) : ∃ ref, (ref, a) ∈ cs ∧ a.fileName ref = name := by
  obtain ⟨⟨ref, b⟩, hfind, rfl⟩ := Option.map_eq_some_iff.1 h
  have hname := List.find?_some hfind
  exact ⟨ref, List.mem_reverse.1 (List.mem_of_find?_eq_some hfind), of_decide_eq_true hname⟩

theorem exists_latest {cs : List (String × Asset)} {ref : String} {a : Asset} (h : (ref, a) ∈ cs) :
    ∃ b, latest cs (a.fileName ref) = some b := by
  have hfind : (cs.reverse.find? fun x => x.2.fileName x.1 = a.fileName ref).isSome := by
    rw [List.find?_isSome]
    exact ⟨(ref, a), List.mem_reverse.2 h, decide_eq_true rfl⟩
  obtain ⟨x, hx⟩ := Option.isSome_iff_exists.1 hfind
  exact ⟨x.2, by rw [latest, hx]; rfl⟩

theorem mem_fileName (ref : String) (a : Asset) : '.' ∈ (a.fileName ref).toList := by
  simp [fileName_toList]

end Asset

namespace AssetDirectory

variable {t : FileTree} {d : AssetDirectory} {ref : String}

/-- Only references that a directory may answer are remembered. -/
def Knows (d : AssetDirectory) : Prop := ∀ ref a, (ref, a) ∈ d.remembered → isForbidden ref = false

theorem isForbidden_of_lookUp {root : Path} {a : Asset} (h : lookUp t root ref = .ok (some a)) :
    isForbidden ref = false := by
  obtain ⟨name, data, hfind, -, -⟩ := lookUp_eq_some h
  exact (findName_eq_some hfind).1

theorem Knows.remember (h : d.Knows) (t : FileTree) (ref : String) : (d.remember t ref).Knows := by
  unfold AssetDirectory.remember
  split
  · exact h
  · split
    · next a ha =>
      intro ref' a' hmem
      rcases List.mem_cons.1 hmem with heq | hmem
      · rw [(Prod.mk.inj heq).1]
        exact isForbidden_of_lookUp ha
      · exact h ref' a' hmem
    · exact h

theorem Knows.isName (h : d.Knows) {a : Asset} (ha : (d.resolve t ref).value = .ok (some a)) :
    IsName ref := by
  apply isName_of_not_isForbidden
  unfold resolve at ha
  split at ha
  · next b hlookup =>
    obtain ⟨before, later, hremembered, -⟩ := List.lookup_eq_some_iff.1 hlookup
    exact h ref b (by simp [hremembered])
  · split at ha
    · cases ha
    · exact isForbidden_of_lookUp ha

theorem answer_eq_ok {s s' : StoreState AssetDirectory} {a : Option Asset}
    (h : AssetDirectory.answer ref s = .ok a s') :
    (s.source.resolve s.files ref).value = .ok a ∧ s'.files = s.files ∧
      s'.source = s.source.remember s.files ref := by
  unfold AssetDirectory.answer at h
  simp only at h
  split at h
  · next hvalue =>
    cases h
    exact ⟨hvalue, rfl, rfl⟩
  · cases h

end AssetDirectory

namespace OutputDirectory

variable {o : OutputDirectory} {x : Stock} {t t' t'' : FileTree} {cs ds : List (String × Asset)}

/-- The place of a copy. -/
def copyPlace (o : OutputDirectory) (name : String) : Place := o.place ++ [Asset.directory, name]

/-- The path of a copy. -/
def copyPath (o : OutputDirectory) (name : String) : Path := o.path.descend [Asset.directory, name]

/-- The files differ by copies, as far as names in the directory of copies go. -/
structure Copies (o : OutputDirectory) (cs : List (String × Asset)) (t t' : FileTree) : Prop where
  keeps : t.Keeps t'
  isName : ∀ ref a, (ref, a) ∈ cs → IsName (a.fileName ref)
  located : ∀ ref a, (ref, a) ∈ cs →
    t'.locate (o.copyPath (a.fileName ref)) = .ok (o.copyPlace (a.fileName ref))
  files : ∀ name, t'.get? (o.copyPlace name) =
    ((Asset.latest cs name).map fun a => Entry.file a.data).or (t.get? (o.copyPlace name))

namespace Copies

theorem of_alters {P : Place → Prop} (h : Alters P t t') (hP : ∀ name, ¬ P (o.copyPlace name)) :
    o.Copies [] t t' where
  keeps := h.keeps
  isName := by simp
  located := by simp
  files name := h.get? _ (hP name)

theorem refl (o : OutputDirectory) (t : FileTree) : o.Copies [] t t :=
  of_alters (.refl (fun _ => False) t) fun _ => id

theorem trans (h : o.Copies cs t t') (h' : o.Copies ds t' t'') : o.Copies (cs ++ ds) t t'' where
  keeps := h.keeps.trans h'.keeps
  isName ref a hmem := (List.mem_append.1 hmem).elim (h.isName ref a) (h'.isName ref a)
  located ref a hmem := (List.mem_append.1 hmem).elim
    (fun hmem => h'.keeps.locate (h.located ref a hmem)) (h'.located ref a)
  files name := by
    rw [h'.files, h.files, Asset.latest_append]
    cases Asset.latest ds name <;> rfl

theorem target_eq (h : o.Copies cs t t') {ref : String} {a : Asset} (hmem : (ref, a) ∈ cs) :
    a.target o.path ref = o.copyPath (a.fileName ref) := by
  rw [Asset.target_of_isOneName (h.isName ref a hmem).2]
  simp [copyPath, Path.descend, Asset.directory]

theorem mem_targets_iff (h : o.Copies cs t t') (name : String) :
    o.copyPath name ∈ cs.map (fun (ref, a) => a.target o.path ref) ↔
      ∃ ref a, (ref, a) ∈ cs ∧ a.fileName ref = name := by
  constructor
  · intro hpath
    obtain ⟨⟨ref, a⟩, hmem, heq⟩ := List.mem_map.1 hpath
    refine ⟨ref, a, hmem, ?_⟩
    simpa [h.target_eq hmem, copyPath, Path.descend] using heq
  · rintro ⟨ref, a, hmem, rfl⟩
    exact List.mem_map.2 ⟨(ref, a), hmem, h.target_eq hmem⟩

/-- A path in the directory of copies leads to a copy with certain data just if the last copy of that
name has them. -/
theorem read_iff (h : o.Copies cs t t') (name : String) (data : ByteArray) :
    o.copyPath name ∈ cs.map (fun (ref, a) => a.target o.path ref) ∧
        t'.read (o.copyPath name) = .ok data ↔
      ∃ b, Asset.latest cs name = some b ∧ b.data = data := by
  have hread (b : Asset) (hb : Asset.latest cs name = some b) :
      t'.read (o.copyPath name) = .ok b.data := by
    obtain ⟨ref, hmem, rfl⟩ := Asset.exists_of_latest hb
    apply FileTree.read_of_locate (h.located ref b hmem)
    rw [h.files, hb]
    rfl
  rw [h.mem_targets_iff]
  constructor
  · rintro ⟨⟨ref, a, hmem, rfl⟩, hdata⟩
    obtain ⟨b, hb⟩ := Asset.exists_latest hmem
    rw [hread b hb] at hdata
    exact ⟨b, hb, Except.ok.inj hdata⟩
  · rintro ⟨b, hb, rfl⟩
    obtain ⟨ref, hmem, hname⟩ := Asset.exists_of_latest hb
    exact ⟨⟨ref, b, hmem, hname⟩, hread b hb⟩

end Copies

/-- The place of a page is not that of a copy. -/
theorem copyPlace_ne (o : OutputDirectory) (name page : String) :
    o.copyPlace name ≠ o.place ++ [page] := by
  intro h
  have hlength := congrArg List.length h
  simp [copyPlace] at hlength

/-- An asset whose name stays inside is copied to its place. -/
theorem Kept.copies_write (hx : o.Kept x) {ref : String} {a : Asset} (ha : a.StaysInside ref)
    (hmake : x.files.makeDirectories (o.path.child Asset.directory) = .ok t)
    (hwrite : t.write (a.target o.path ref) a.data = .ok t') :
    o.Copies [(ref, a)] x.files t' := by
  have hproper : t.Proper := hx.proper.makeDirectories (Path.isRead_child o.isRead _) hmake
  have hmade := FileTree.locate_of_makeDirectories hx.proper hmake
  have hchild : o.path.child Asset.directory = o.path.descend [Asset.directory] := by
    rw [Asset.child_directory]
    rfl
  rw [hchild] at hmake hmade
  have halters := FileTree.makeDirectories_alters (by decide) hx.located hx.isDirectory hmake
  have hlocated := halters.keeps.locate hx.located
  obtain ⟨d, hd, hdir⟩ := hmade
  have hd' := FileTree.locate_descend (by decide) hlocated hd
  obtain ⟨place, hplace, hne, hfile, rfl⟩ := FileTree.write_eq_ok hwrite
  have hname : IsName (a.fileName ref) := by
    refine ⟨fun h => ?_, Asset.isOneName_iff.2 ⟨ha.1, fun h => ?_, ha.2⟩⟩
    · have hdot := Asset.mem_fileName ref a
      rw [h] at hdot
      simp at hdot
    · -- the copy would be the directory of copies itself
      have hslash : (a.fileName ref).toList.head? ≠ some '/' := by
        rw [h]
        decide
      have hparts : Asset.parts (a.fileName ref).toList = [] := by
        rw [h]
        decide
      have htarget : a.target o.path ref = o.path.descend [Asset.directory] := by
        rw [Asset.target_eq, if_neg hslash, hparts]
        rfl
      rw [htarget, hd] at hplace
      cases hplace
      exact hfile hdir
  have htarget : a.target o.path ref = o.copyPath (a.fileName ref) := by
    rw [Asset.target_of_isOneName hname.2]
    simp [copyPath, Path.descend, Asset.directory]
  rw [htarget] at hplace
  have hplaceEq : place = o.copyPlace (a.fileName ref) := by
    apply FileTree.locate_descend _ hlocated hplace
    simpa [Asset.directory] using ha.2
  subst hplaceEq
  have hkeeps := halters.keeps.trans (FileTree.write_keeps_directories hwrite)
  refine ⟨hkeeps, ?_, ?_, fun name => ?_⟩
  · simpa using hname
  · simpa using (FileTree.write_keeps_directories hwrite).locate hplace
  · rw [FileTree.get?_set_of_ne_nil hne]
    by_cases hsame : a.fileName ref = name
    · simp [hsame, Asset.latest]
    · have hother : o.copyPlace name ≠ o.copyPlace (a.fileName ref) := by
        simpa [copyPlace, eq_comm] using hsame
      rw [if_neg hother, halters.get? _ (o.copyPlace_ne name Asset.directory)]
      simp [hsame, Asset.latest]

section Storing

variable {s s' : StoreState AssetDirectory}

/-- Copying the assets of references makes these copies. -/
theorem copies_storeEach (hs : o.Kept s.stock) (hknows : s.source.Knows) {refs : List String}
    {paths : List Path}
    (h : Asset.storeEach AssetDirectory.answer o.path refs s = .ok paths s') :
    paths = (Asset.copied AssetDirectory.answer o.path refs s).map
        (fun (ref, a) => a.target o.path ref) ∧
      o.Copies (Asset.copied AssetDirectory.answer o.path refs s) s.files s'.files ∧
      s'.source.Knows := by
  induction refs generalizing s paths with
  | nil =>
    cases h
    exact ⟨rfl, .refl o _, hknows⟩
  | cons ref refs ih =>
    obtain ⟨path, s₁, paths', hstore, hrest, rfl⟩ := Asset.storeEach_cons_eq_ok h
    obtain ⟨a, s₀, hanswer, rfl, hsource, hfiles⟩ := Asset.store_eq_ok_of_answer hstore
    obtain ⟨hvalue, hfiles₀, hsource₀⟩ := AssetDirectory.answer_eq_ok hanswer
    have hkept : o.Kept s₁.stock := by
      have hmoves := (moves_store (N := fun _ => False) hs ref).kept
      unfold stateAfter at hmoves
      rwa [hstore] at hmoves
    have hknows₁ : s₁.source.Knows := by
      rw [hsource, hsource₀]
      exact hknows.remember s.files ref
    obtain ⟨hpaths, hcopies, hknows'⟩ := ih hkept hknows₁ hrest
    have hfirst : o.Copies (a.map fun a => (ref, a)).toList s.files s₁.files := by
      cases a with
      | none =>
        simp only at hfiles
        rw [hfiles, hfiles₀]
        exact .refl o _
      | some a =>
        obtain ⟨t, hmake, hwrite⟩ := hfiles
        rw [hfiles₀] at hmake
        exact hs.copies_write (hs.staysInside hvalue) hmake hwrite
    rw [Asset.copied, hanswer, hstore]
    refine ⟨?_, hfirst.trans hcopies, hknows'⟩
    rw [hpaths]
    cases a <;> rfl

end Storing

end OutputDirectory

namespace Convert

/-- The copies that the page of a snapshot comes with, up to a fault. -/
def pageCopies (settings : Settings) (dest p : Path) (s : ConvertState) : List (String × Asset) :=
  let found : Option (List (String × Asset)) := do
    let ((stem, page), s₁) ← (outcome (file settings p) s).toOption
    let (_, s₂) ← (outcome (write (target dest s₁.taken stem) page.markdown)
      { s₁ with taken := s₁.taken ++ [Slug.unique s₁.taken stem] }).toOption
    let d ← s₂.assets
    return Asset.copied AssetDirectory.answer dest page.assetIds.eraseDups ⟨s₂.files, d, s₂.log⟩
  found.getD []

/-- The copies of a run, in order, up to a fault. -/
def copies (settings : Settings) (dest : Path) : List Path → ConvertState → List (String × Asset)
  | [], _ => []
  | p :: ps, s =>
    pageCopies settings dest p s ++
      (outcome (one settings dest p) s).toOption.elim [] fun (_, s₁) => copies settings dest ps s₁

/-- The copies of a run over all snapshots. -/
def runCopies (settings : Settings) (path : Path) (s : ConvertState) : List (String × Asset) :=
  match s.files.makeDirectories (output settings) with
  | .error _ => []
  | .ok t =>
    match t.snapshots path with
    | .error _ => []
    | .ok sources => copies settings (output settings) sources { s with files := t }

variable {settings : Settings} {dest p : Path} {s s' : ConvertState}

theorem pageCopies_of_file {stem : Text} {page : Page} {s₁ s₂ : ConvertState} {d : AssetDirectory}
    (hfile : file settings p s = .ok (stem, page) s₁)
    (hwrite : write (target dest s₁.taken stem) page.markdown
      { s₁ with taken := s₁.taken ++ [Slug.unique s₁.taken stem] } = .ok () s₂)
    (hd : s₂.assets = some d) :
    pageCopies settings dest p s =
      Asset.copied AssetDirectory.answer dest page.assetIds.eraseDups ⟨s₂.files, d, s₂.log⟩ := by
  rw [pageCopies, outcome_eq_ok_iff.2 hfile]
  simp only [Except.toOption, bind, Option.bind, outcome_eq_ok_iff.2 hwrite, hd]
  rfl

theorem storeAssets_eq_ok {refs : List String} {n : Nat} {d : AssetDirectory}
    (hd : s.assets = some d) (h : storeAssets refs dest s = .ok n s') :
    ∃ paths t, Asset.storeEach AssetDirectory.answer dest refs.eraseDups ⟨s.files, d, s.log⟩ =
      .ok paths t ∧ n = paths.length ∧ s'.files = t.files ∧ s'.assets = some t.source := by
  unfold storeAssets at h
  rw [hd] at h
  simp only at h
  unfold Asset.storeAll at h
  split at h
  · next paths t ht =>
    cases h
    exact ⟨paths, t, ht, rfl, rfl, rfl⟩
  · cases h

theorem runCopies_of_snapshots {path : Path} {t : FileTree} {sources : List Path}
    (hmake : s.files.makeDirectories (output settings) = .ok t)
    (hsources : t.snapshots path = .ok sources) :
    runCopies settings path s = copies settings (output settings) sources { s with files := t } := by
  unfold runCopies
  simp only [hmake, hsources]

/-- The directory of assets only remembers references that it may answer. -/
def Knows (s : ConvertState) : Prop := ∀ d ∈ s.assets, d.Knows

theorem knows_of_page {b : Block} {page : Page} (h : Convert.page settings b s = .ok page s')
    (hs : Knows s) : Knows s' := by
  unfold Convert.page at h
  cases hprofile : settings.profile with
  | legacy =>
    rw [hprofile] at h
    obtain ⟨r, s₁, hlog, hread⟩ := bind_eq_ok_iff.1 h
    obtain ⟨rfl, rfl⟩ := logged_eq_ok_iff.1 hlog
    obtain ⟨-, rfl⟩ := ofExcept_eq_ok_iff.1 hread
    exact hs
  | tree =>
    rw [hprofile] at h
    obtain ⟨s₁, s₂, hget, hrest⟩ := bind_eq_ok_iff.1 h
    cases hget
    obtain ⟨r, s₃, hlog, hread⟩ := bind_eq_ok_iff.1 hrest
    obtain ⟨rfl, rfl⟩ := logged_eq_ok_iff.1 hlog
    obtain ⟨page', s₄, hpage, hremember⟩ := bind_eq_ok_iff.1 hread
    obtain ⟨-, rfl⟩ := ofExcept_eq_ok_iff.1 hpage
    cases hremember
    intro d hd
    obtain ⟨d₀, hd₀, rfl⟩ := Option.map_eq_some_iff.1 hd
    have hfold (refs : List String) (d : AssetDirectory) (hknows : d.Knows) :
        (refs.foldl (fun d ref => d.remember s.files ref) d).Knows := by
      induction refs generalizing d with
      | nil => exact hknows
      | cons ref refs ih => exact ih _ (hknows.remember s.files ref)
    exact hfold _ d₀ (hs d₀ hd₀)

theorem knows_of_file {r : Text × Page} (h : file settings p s = .ok r s') (hs : Knows s) :
    Knows s' := by
  obtain ⟨b, s₁, hload, hrest⟩ := bind_eq_ok_iff.1 h
  obtain ⟨page', s₂, hpage, hname⟩ := bind_eq_ok_iff.1 hrest
  obtain ⟨title, s₃, hlog, hpure⟩ := bind_eq_ok_iff.1 hname
  obtain ⟨-, rfl⟩ := logged_eq_ok_iff.1 hlog
  obtain ⟨-, rfl⟩ := pure_eq_ok_iff.1 hpure
  obtain ⟨b₀, -, -, rfl⟩ := loadTrimmed_eq_ok_iff.1 hload
  have hafter : Knows s₂ := knows_of_page hpage fun d hd => hs d hd
  exact fun d hd => hafter d hd

end Convert

namespace OutputDirectory

open PageExport.Convert

variable {o : OutputDirectory} {settings : Settings} {p : Path} {s s' : ConvertState}

theorem kept_of_one (hs : o.Kept s.stock) {c : Converted} (h : one settings o.path p s = .ok c s')
    (hpage : c.markdown.IsChildOf o.path) : o.Kept s'.stock := by
  obtain ⟨stem, page, s₁, -, -, assets, hfile, rfl, -⟩ := one_eq_ok h
  obtain ⟨name, hname, htarget⟩ := hpage
  refine (moves_of_eq_ok h (moves_one (N := fun _ => True) hs fun stem' page' s₁' hfile' => ?_)).kept
  rw [hfile] at hfile'
  cases hfile'
  exact ⟨name, hname, trivial, htarget⟩

/-- A page in the output directory comes with its copies and leaves the others alone. -/
theorem copies_one (hs : o.Kept s.stock) (hknows : Knows s) (hsome : s.assets.isSome)
    {c : Converted} (h : one settings o.path p s = .ok c s')
    (hpage : c.markdown.IsChildOf o.path) :
    o.Copies (pageCopies settings o.path p s) s.files s'.files ∧ Knows s' ∧ s'.assets.isSome ∧
      c.assets = (pageCopies settings o.path p s).length := by
  obtain ⟨stem, page, s₁, s₂, s₃, assets, hfile, rfl, hwrite, hassets, hstock, -⟩ := one_eq_ok h
  obtain ⟨name, hname, htarget⟩ := hpage
  simp only at htarget
  obtain ⟨b, -, -, -, -, hs₁files, -⟩ := file_eq_ok hfile
  have hfirst : o.Moves (fun _ => False) s.stock s₁.stock := moves_of_eq_ok hfile (moves_file hs)
  obtain ⟨hfiles, hs₂assets, -⟩ := write_eq_ok hwrite
  simp only [htarget] at hfiles
  obtain ⟨hproper, -, -, halters⟩ := write_page hfirst.kept hname hfiles
  have hkept : o.Kept s₂.stock := by
    have hs₂stock : s₂.stock = ⟨s₂.files, s₁.assets⟩ := by rw [ConvertState.stock, hs₂assets]
    rw [hs₂stock]
    exact (hfirst.kept.moves_files (N := (· = name)) hproper
      (halters.mono fun q hq => .inl ⟨name, rfl, hq⟩)).kept
  have hs₁some : s₁.assets.isSome := by
    have hroots := congrArg Option.isSome hfirst.root
    simp only [Option.isSome_map] at hroots
    exact hroots.trans hsome
  obtain ⟨d, hd⟩ := Option.isSome_iff_exists.1 hs₁some
  have hd₂ : s₂.assets = some d := hs₂assets.trans hd
  have hknows₁ := knows_of_file hfile hknows
  obtain ⟨paths, t, hstore, rfl, hs₃files, hs₃assets⟩ := storeAssets_eq_ok hd₂ hassets
  have hstoreStock : o.Kept (⟨s₂.files, d, s₂.log⟩ : StoreState AssetDirectory).stock := by
    rwa [ConvertState.stock, hd₂] at hkept
  obtain ⟨hpaths, hcopies, hknows'⟩ := copies_storeEach hstoreStock (hknows₁ d hd) hstore
  have hpageCopies := pageCopies_of_file hfile hwrite hd₂
  have hfiles' : s'.files = t.files := (congrArg Stock.files hstock).trans hs₃files
  have hassets' : s'.assets = some t.source := (congrArg Stock.assets hstock).trans hs₃assets
  have hbefore : o.Copies [] s.files s₂.files := by
    rw [← hs₁files]
    exact Copies.of_alters halters fun n => o.copyPlace_ne n name
  rw [hpageCopies, hfiles']
  refine ⟨hbefore.trans hcopies, fun d' hd' => ?_, ?_, ?_⟩
  · rw [hassets'] at hd'
    rw [← Option.some.inj hd']
    exact hknows'
  · rw [hassets']
    rfl
  · rw [hpaths, List.length_map]

/-- A run whose pages are in the output directory makes its copies and changes nothing else in the
directory of copies. -/
theorem copies_each {ps : List Path} {cs : List Converted} (hs : o.Kept s.stock) (hknows : Knows s)
    (hsome : s.assets.isSome) (h : each settings o.path ps s = .ok cs s')
    (hpages : ∀ c ∈ cs, c.markdown.IsChildOf o.path) :
    o.Copies (copies settings o.path ps s) s.files s'.files ∧ Knows s' ∧ s'.assets.isSome ∧
      (cs.map (·.assets)).foldr (· + ·) 0 = (copies settings o.path ps s).length := by
  induction ps generalizing s cs with
  | nil =>
    cases h
    exact ⟨.refl o _, hknows, hsome, rfl⟩
  | cons p ps ih =>
    obtain ⟨c, s₁, cs', hone, heach, rfl⟩ := each_cons_eq_ok h
    obtain ⟨hpage, hpages⟩ := List.forall_mem_cons.1 hpages
    obtain ⟨hfirst, hknows₁, hsome₁, hcount⟩ := copies_one hs hknows hsome hone hpage
    obtain ⟨hrest, hknows', hsome', hcounts⟩ :=
      ih (kept_of_one hs hone hpage) hknows₁ hsome₁ heach hpages
    have hcopies : copies settings o.path (p :: ps) s =
        pageCopies settings o.path p s ++ copies settings o.path ps s₁ := by
      rw [copies, outcome_eq_ok_iff.2 hone]
      rfl
    rw [hcopies]
    refine ⟨hfirst.trans hrest, hknows', hsome', ?_⟩
    simp only [List.map_cons, List.foldr_cons, List.length_append, hcount, hcounts]

end OutputDirectory
end PageExport
