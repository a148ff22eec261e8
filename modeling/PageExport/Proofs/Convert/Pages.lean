import PageExport.Proofs.Convert.Targets

/-!
What is in the pages after a run that returns. Each snapshot has a page of its own, which holds the
Markdown of that snapshot whatever was converted before it or after it.
-/
namespace PageExport

open PageExport.Convert

namespace OutputDirectory

variable {o : OutputDirectory} {N : String → Prop} {settings : Settings} {s s' : ConvertState}
  {p : Path}

/-- Neither copies nor pages of other names are written in the place of a page. -/
theorem not_isWritten {fresh : Text} (h : ¬ N (markdownName fresh)) :
    ¬ o.IsWritten N (o.place ++ [markdownName fresh]) := by
  rintro (⟨name, hN, heq⟩ | hbelow)
  · obtain rfl : markdownName fresh = name := by simpa using heq
    exact h hN
  · have hnames : [Asset.directory] <+: [markdownName fresh] :=
      (List.prefix_append_right_inj o.place).1 hbelow
    have hname : Asset.directory = markdownName fresh := by
      simpa [List.cons_prefix_cons] using hnames
    exact markdownName_ne_directory fresh hname.symm

/-- A snapshot that is apart from the output is loaded as at first. -/
theorem Kept.load_eq (hs : o.Kept s.stock) (hp : o.IsApart p) :
    Block.load s.files p = Block.load o.files p := by
  obtain ⟨q, hq, hplace⟩ := hp
  have hread := hs.altered.read_eq hq (not_covers_of_not_below hplace).1
  change s.files.read p = _ at hread
  simp only [Block.load, FileTree.readText, hread]

theorem moves_of_eq_ok {α : Type} {x : Convert α} {a : α} (h : x s = .ok a s')
    (hx : o.Moves N s.stock (stateAfter x s).stock) : o.Moves N s.stock s'.stock := by
  unfold stateAfter at hx
  rwa [h] at hx

theorem write_eq_ok {target : Path} {text : String} (h : write target text s = .ok () s') :
    s.files.write target text.toUTF8 = .ok s'.files ∧ s'.assets = s.assets ∧ s'.taken = s.taken := by
  unfold write at h
  split at h
  · unfold onFiles at h
    split at h
    · next t ht =>
      cases h
      exact ⟨ht, rfl, rfl⟩
    · cases h
  · obtain ⟨⟨⟩, s₁, -, hfail⟩ := bind_eq_ok_iff.1 h
    obtain ⟨hnever, -⟩ := ofExcept_eq_ok_iff.1 hfail
    cases hnever

theorem taken_of_storeAssets {refs : List String} {dest : Path} {n : Nat}
    (h : storeAssets refs dest s = .ok n s') : s'.taken = s.taken := by
  unfold storeAssets at h
  split at h
  · cases h
    rfl
  · split at h
    · cases h
      rfl
    · cases h

/-- A page whose stem has no slash is in its place once it is written and its assets are copied. -/
theorem one_page (hs : o.Kept s.stock) {c : Converted} (h : one settings o.path p s = .ok c s')
    (hslash : ∀ stem page s₁, file settings p s = .ok (stem, page) s₁ → '/' ∉ stem) :
    ∃ stem page s₁ fresh, file settings p s = .ok (stem, page) s₁ ∧ c.source = p ∧
      c.markdown = o.path.descend [markdownName fresh] ∧ fresh ∉ s.taken ∧
      s'.taken = s.taken ++ [fresh] ∧ o.Moves (· = markdownName fresh) s.stock s'.stock ∧
      s'.files.locate c.markdown = .ok (o.place ++ [markdownName fresh]) ∧
      s'.files.get? (o.place ++ [markdownName fresh]) = some (.file page.markdown.toUTF8) := by
  obtain ⟨stem, page, s₁, s₂, s₃, assets, hfile, rfl, hwrite, hassets, hstock, htaken⟩ := one_eq_ok h
  obtain ⟨b, -, -, -, -, -, hs₁taken⟩ := file_eq_ok hfile
  have hstem := hslash stem page s₁ hfile
  have htarget := target_of_slash_not_mem hstem o.path s₁.taken
  obtain ⟨n, hn⟩ := Slug.exists_unique_eq s₁.taken stem
  have hname : IsName (markdownName (Slug.unique s₁.taken stem)) := by
    apply isName_markdownName
    rwa [hn, Slug.slash_mem_numbered_iff]
  obtain ⟨hfiles, hs₂assets, hs₂taken⟩ := write_eq_ok hwrite
  simp only [htarget] at hfiles
  have hfirst : o.Moves (· = markdownName (Slug.unique s₁.taken stem)) s.stock s₁.stock :=
    moves_of_eq_ok hfile (moves_file hs)
  obtain ⟨hproper, hplace, hpage, halters⟩ := write_page hfirst.kept hname hfiles
  have hsecond : o.Moves (· = markdownName (Slug.unique s₁.taken stem)) s₁.stock s₂.stock := by
    have hs₂stock : s₂.stock = ⟨s₂.files, s₁.assets⟩ := by rw [ConvertState.stock, hs₂assets]
    rw [hs₂stock]
    exact hfirst.kept.moves_files hproper (halters.mono fun q hq => .inl ⟨_, rfl, hq⟩)
  -- copies leave the page alone whatever they are
  have hthird : o.Moves (fun _ => False) s₂.stock s'.stock := by
    rw [hstock]
    exact moves_of_eq_ok hassets (moves_storeAssets hsecond.kept page.assetIds)
  refine ⟨stem, page, s₁, Slug.unique s₁.taken stem, hfile, rfl, htarget, ?_, ?_,
    (hfirst.trans hsecond).trans (hthird.mono fun _ h => h.elim), ?_, ?_⟩
  · rw [← hs₁taken]
    exact Slug.unique_not_mem s₁.taken stem
  · rw [htaken, taken_of_storeAssets hassets, hs₂taken, hs₁taken]
  · simp only [htarget]
    exact hthird.alters.keeps.locate (hsecond.alters.keeps.locate hplace)
  · exact (hthird.alters.get? _ (not_isWritten not_false)).trans hpage

/-- The pages of a run are in places of their own, and each holds at the end what the conversion of its
snapshot gave when it was its turn. -/
theorem pages_of_each {ps : List Path} {cs : List Converted} (hs : o.Kept s.stock)
    (h : each settings o.path ps s = .ok cs s')
    (hslash : ∀ p ∈ ps, ∀ s, o.Kept s.stock → ∀ stem page s₁,
      file settings p s = .ok (stem, page) s₁ → '/' ∉ stem) :
    ∃ freshs : List Text, cs.map (·.markdown) = freshs.map (fun t => o.path.descend [markdownName t]) ∧
      freshs.Nodup ∧ (∀ t ∈ freshs, t ∉ s.taken) ∧
      o.Moves (fun name => ∃ t ∈ freshs, name = markdownName t) s.stock s'.stock ∧
      ∀ before c after, cs = before ++ c :: after → ∃ stem page s₁ s₂,
        each settings o.path (before.map (·.source)) s = .ok before s₁ ∧ o.Kept s₁.stock ∧
        s₁.assets.map (·.root) = s.assets.map (·.root) ∧
        file settings c.source s₁ = .ok (stem, page) s₂ ∧
        s'.files.read c.markdown = .ok page.markdown.toUTF8 := by
  induction ps generalizing s cs with
  | nil =>
    cases h
    exact ⟨[], rfl, List.nodup_nil, by simp, hs.refl _, by simp⟩
  | cons p ps ih =>
    obtain ⟨c, s₁, cs', hone, heach, rfl⟩ := each_cons_eq_ok h
    obtain ⟨stem, page, s₂, fresh, hfile, hsource, hmarkdown, hfresh, htaken, hmoves, hplace, hpage⟩ :=
      one_page hs hone fun stem page s₁ => hslash p List.mem_cons_self s hs stem page s₁
    obtain ⟨freshs, hpaths, hnodup, hnew, hrest, hpages⟩ :=
      ih hmoves.kept heach fun q hq => hslash q (List.mem_cons_of_mem p hq)
    have hlater : fresh ∉ freshs := fun hmem => hnew fresh hmem (by simp [htaken])
    have hmovesAll : o.Moves (fun name => ∃ t ∈ fresh :: freshs, name = markdownName t)
        s.stock s'.stock := by
      refine (hmoves.mono ?_).trans (hrest.mono ?_)
      · rintro _ rfl
        exact ⟨fresh, List.mem_cons_self, rfl⟩
      · rintro _ ⟨t, ht, rfl⟩
        exact ⟨t, List.mem_cons_of_mem fresh ht, rfl⟩
    refine ⟨fresh :: freshs, by simp [hmarkdown, hpaths], List.nodup_cons.2 ⟨hlater, hnodup⟩, ?_,
      hmovesAll, ?_⟩
    · rintro t (_ | ⟨_, ht⟩)
      · exact hfresh
      · intro hmem
        exact hnew t ht (by simp [htaken, hmem])
    · intro before c' after heq
      cases before with
      | nil =>
        obtain ⟨rfl, rfl⟩ := List.cons.inj heq
        refine ⟨stem, page, s, s₂, rfl, hs, rfl, hsource ▸ hfile, ?_⟩
        have hname : ¬ ∃ t ∈ freshs, markdownName fresh = markdownName t := by
          rintro ⟨t, ht, heq⟩
          exact hlater (markdownName_injective heq ▸ ht)
        have hkept := hrest.alters.get? _ (not_isWritten hname)
        exact FileTree.read_of_locate (hrest.alters.keeps.locate hplace) (hkept.trans hpage)
      | cons c₀ before =>
        obtain ⟨rfl, hcs⟩ := List.cons.inj heq
        obtain ⟨stem', page', s₃, s₄, hbefore, hs₃, hroots, hfile', hread⟩ :=
          hpages before c' after hcs
        refine ⟨stem', page', s₃, s₄, ?_, hs₃, hroots.trans hmoves.root, hfile', hread⟩
        rw [List.map_cons, hsource]
        exact bind_eq_ok_iff.2 ⟨_, s₁, hone, bind_eq_ok_iff.2 ⟨_, s₃, hbefore, rfl⟩⟩

theorem remembered_assetDirectory? {d : AssetDirectory} (h : settings.assetDirectory? = some d) :
    d = { root := d.root } := by
  unfold Settings.assetDirectory? at h
  split at h
  · split at h
    · cases h
    · cases h
      rfl
  · cases h

/-- A directory of assets that is apart from the output answers in a run as it did at first. -/
theorem Kept.resolver?_eq (hs : o.Kept s.stock)
    (hroots : s.assets.map (·.root) = settings.assetDirectory?.map (·.root))
    (hapart : ∀ d ∈ settings.assetDirectory?, o.IsApart d.root) :
    s.resolver? = settings.assetDirectory?.map fun d => d.resolve o.files := by
  unfold ConvertState.resolver?
  unfold ConvertState.stock at hs
  cases hassets : s.assets with
  | none =>
    rw [hassets] at hroots
    rw [Option.map_none, eq_comm, Option.map_eq_none_iff] at hroots
    rw [hroots]
    rfl
  | some d =>
    rw [hassets] at hroots hs
    obtain ⟨d₀, hd₀, hroot⟩ := Option.map_eq_some_iff.1 hroots.symm
    replace hroot : d₀.root = d.root := hroot
    have hresolve := hs.resolve_eq (hroot ▸ hapart d₀ hd₀)
    rw [hd₀, Option.map_some, Option.map_some, hresolve, ← hroot, ← remembered_assetDirectory? hd₀]

/-- What a snapshot is converted to in a run is what it is converted to by itself. -/
theorem Kept.exists_file_eq_ok (hs : o.Kept s.stock) (hp : o.IsApart p)
    (hroots : s.assets.map (·.root) = settings.assetDirectory?.map (·.root))
    (hapart : settings.profile = .tree → ∀ d ∈ settings.assetDirectory?, o.IsApart d.root)
    {stem : Text} {page : Page} (h : file settings p s = .ok (stem, page) s') (files : FileTree) :
    ∃ s₀, file settings p { ConvertState.start settings files with files := o.files } =
      .ok (stem, page) s₀ := by
  obtain ⟨b, s₁, hload, hpage, hstem, -, -⟩ := file_eq_ok h
  obtain ⟨b₀, hb₀, hb, -⟩ := loadTrimmed_eq_ok_iff.1 hload
  rw [hs.load_eq hp] at hb₀
  rw [hstem, hb]
  refine Convert.exists_file_eq_ok hb₀ ?_
  rw [← hpage, hb]
  unfold pageOf
  cases hprofile : settings.profile with
  | legacy => rfl
  | tree =>
    rw [hs.resolver?_eq hroots (hapart hprofile)]
    rfl

end OutputDirectory

namespace Convert

variable {settings : Settings} {path : Path} {files t : FileTree} {sources : List Path}

theorem sources_of_each {dest : Path} {ps : List Path} {cs : List Converted} {s s' : ConvertState}
    (h : each settings dest ps s = .ok cs s') : cs.map (·.source) = ps := by
  induction ps generalizing s cs with
  | nil =>
    cases h
    rfl
  | cons p ps ih =>
    obtain ⟨c, s₁, cs', hone, heach, rfl⟩ := each_cons_eq_ok h
    obtain ⟨-, -, -, -, -, -, -, rfl, -⟩ := one_eq_ok hone
    rw [List.map_cons, ih heach]

/-- A run that returns gives each snapshot a page with a path of its own, and at the end the page holds
the Markdown that the snapshot was converted to. If the directory of assets is apart from the output,
this is what the snapshot is converted to by itself. -/
theorem pages_of_run {d : Place} {results : List Converted} {s' : ConvertState}
    (hfiles : files.Proper) (hmake : files.makeDirectories (output settings) = .ok t)
    (hd : t.locate (output settings) = .ok d) (hsources : t.snapshots path = .ok sources)
    (hapart : ∀ p ∈ sources, t.IsApart d p)
    (hstem : ∀ p ∈ sources, ∀ b, Block.load t p = .ok b →
      HasPlainStem p (trimmed settings b).value)
    (hrun : all settings path (.start settings files) = .ok results s') :
    results.map (·.source) = sources ∧ (results.map (·.markdown)).Nodup ∧
    ∀ before r after, results = before ++ r :: after → ∃ stem page s₁ s₂,
      each settings (output settings) (before.map (·.source))
        { ConvertState.start settings files with files := t } = .ok before s₁ ∧
      file settings r.source s₁ = .ok (stem, page) s₂ ∧
      s'.files.read r.markdown = .ok page.markdown.toUTF8 ∧
      ((settings.profile = .tree → ∀ a ∈ settings.assetDirectory?, t.IsApart d a.root) →
        ∃ s₀, file settings r.source { ConvertState.start settings files with files := t } =
          .ok (stem, page) s₀) := by
  obtain ⟨o, rfl, hpath⟩ :=
    OutputDirectory.exists_outputDirectory hfiles (isRead_output settings) hmake
  obtain rfl : o.place = d := by
    have hlocated := o.located
    rw [hpath, hd] at hlocated
    exact (Except.ok.inj hlocated).symm
  rw [all_of_snapshots hmake hsources, ← hpath] at hrun
  have hslash : ∀ p ∈ sources, ∀ s : ConvertState, o.Kept s.stock → ∀ stem page s₁,
      file settings p s = .ok (stem, page) s₁ → '/' ∉ stem := by
    intro p hp s hs stem page s₁ hfile hmem
    obtain ⟨b, s₂, hload, -, hname, -, -⟩ := file_eq_ok hfile
    obtain ⟨b₀, hb₀, hb, -⟩ := loadTrimmed_eq_ok_iff.1 hload
    rw [hs.load_eq (hapart p hp)] at hb₀
    rw [hname, hb] at hmem
    exact slash_not_mem_stem (hstem p hp b₀ hb₀) hmem
  obtain ⟨freshs, hpaths, hnodup, -, -, hpages⟩ :=
    OutputDirectory.pages_of_each (o.kept_start settings) hrun hslash
  have hresults := sources_of_each hrun
  refine ⟨hresults, ?_, fun before r after heq => ?_⟩
  · rw [hpaths]
    refine hnodup.map fun t u h => ?_
    exact markdownName_injective (Path.descend_singleton_inj.1 h).2
  · obtain ⟨stem, page, s₁, s₂, hbefore, hs₁, hroots, hfile, hread⟩ := hpages before r after heq
    have hmem : r.source ∈ sources := by
      rw [← hresults, heq]
      simp
    rw [← hpath]
    exact ⟨stem, page, s₁, s₂, hbefore, hfile, hread, fun hassets =>
      hs₁.exists_file_eq_ok (hapart _ hmem) hroots hassets hfile files⟩

/-- Snapshots of which two have the same name, and one the name that the second of these would get.
One of them has a picture. -/
def sameNames : FileTree where
  entries := [(["blobs"], .directory), (["blobs", "p.png"], .file "data".toUTF8),
    (["in"], .directory),
    (["in", "a-2.json"], .file "\x7b\"id\":\"b\",\"flavour\":\"affine:page\"\x7d".toUTF8),
    (["in", "a.json"], .file ("\x7b\"id\":\"b\",\"flavour\":\"affine:image\"," ++
      "\"props\":\x7b\"sourceId\":\"p\"\x7d\x7d").toUTF8),
    (["in", "x"], .directory),
    (["in", "x", "a.json"], .file "\x7b\"id\":\"b\",\"flavour\":\"affine:page\"\x7d".toUTF8)]

def withBlobs : Settings := { assetsDir := some "blobs" }

/-- The files once the output directory is made. -/
def sameNamesMade : FileTree := sameNames.set ["dist"] .directory

def sameNamesSources : List Path :=
  [⟨false, ["in", "a-2.json"]⟩, ⟨false, ["in", "a.json"]⟩, ⟨false, ["in", "x", "a.json"]⟩]

theorem snapshots_sameNames :
    sameNamesMade.snapshots (Path.ofString "in") = .ok sameNamesSources := by
  have hbelow : sameNamesMade.below ["in"] = [["a-2.json"], ["a.json"], ["x"], ["x", "a.json"]] := by
    unfold FileTree.below
    simp only
    rw [List.mergeSort_of_pairwise (by decide +kernel)]
    decide +kernel
  have hfound : sameNamesMade.find? (Path.ofString "in") = .ok (some .directory) := rfl
  have hplace : sameNamesMade.locate (Path.ofString "in") = .ok ["in"] := rfl
  rw [FileTree.snapshots, hfound, hplace]
  simp only [bind, Except.bind, hbelow]
  rfl

theorem pages_of_run_sameNames : ∃ results s',
    all withBlobs (Path.ofString "in") (.start withBlobs sameNames) = .ok results s' ∧
    results.map (fun r => (r.markdown.toString, r.assets)) =
      [("dist/a-2.md", 0), ("dist/a.md", 1), ("dist/a-3.md", 0)] ∧
    results.map (·.source) = sameNamesSources ∧ (results.map (·.markdown)).Nodup ∧
    ∀ r ∈ results, ∃ stem page s₀,
      file withBlobs r.source { ConvertState.start withBlobs sameNames with files := sameNamesMade } =
        .ok (stem, page) s₀ ∧
      s'.files.read r.markdown = .ok page.markdown.toUTF8 := by
  have hfiles : sameNames.Proper := by
    refine ⟨?_, rfl⟩
    have hnames : ∀ q ∈ [[], ["blobs"], ["blobs", "p.png"], ["in"], ["in", "a-2.json"],
        ["in", "a.json"], ["in", "x"], ["in", "x", "a.json"]], ∀ name ∈ q, IsName name := by decide
    exact hnames
  have hmake : sameNames.makeDirectories (output withBlobs) = .ok sameNamesMade := rfl
  have hd : sameNamesMade.locate (output withBlobs) = .ok ["dist"] := rfl
  have hsource : ∀ p ∈ sameNamesSources,
      sameNamesMade.IsApart ["dist"] p ∧ Slug.ofTitle p.stem ≠ [] := by decide +kernel
  have hassets : sameNamesMade.IsApart ["dist"] (Path.ofString "blobs") := by decide +kernel
  obtain ⟨⟨results, s'⟩, heach, hpaths⟩ := exists_of_passes
    (by decide +kernel : passes
      (outcome (each withBlobs (output withBlobs) sameNamesSources)
        { ConvertState.start withBlobs sameNames with files := sameNamesMade })
      (fun r => r.1.map (fun r => (r.markdown.toString, r.assets)) =
        [("dist/a-2.md", 0), ("dist/a.md", 1), ("dist/a-3.md", 0)]) = true)
  have hrun : all withBlobs (Path.ofString "in") (.start withBlobs sameNames) = .ok results s' := by
    rw [all_of_snapshots hmake snapshots_sameNames]
    exact outcome_eq_ok_iff.1 heach
  obtain ⟨hresults, hnodup, hcontents⟩ := pages_of_run hfiles hmake hd snapshots_sameNames
    (fun p hp => (hsource p hp).1) (fun p hp b _ => .inr (.inl (hsource p hp).2)) hrun
  refine ⟨results, s', hrun, of_decide_eq_true hpaths, hresults, hnodup, fun r hr => ?_⟩
  obtain ⟨before, after, heq⟩ := List.append_of_mem hr
  obtain ⟨stem, page, s₁, s₂, -, -, hread, halone⟩ := hcontents before r after heq
  obtain ⟨s₀, hs₀⟩ := halone fun _ a ha => by
    cases ha
    exact hassets
  exact ⟨stem, page, s₀, hs₀, hread⟩

end Convert
end PageExport
