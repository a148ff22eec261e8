import PageExport.Proofs.Convert.Copies
import PageExport.Proofs.Legacy.Images

/-!
Where the links of legacy pages lead. By the default template an image links to its reference in the
directory of copies, but its copy has a name of its own, so the link leads to a copy only if one of
them happens to have the reference as its name.
-/
namespace PageExport

open PageExport.Convert

namespace Legacy

/-- The page is made of what the blocks of a tree add in pre-order, and each image of it links to its
reference in the directory of copies. -/
def LinksToReferences (o : Markdown.Options) (b : Block) (page : Page) : Prop :=
  (∃ shares, (placements (some []) b).mapM (Placement.share o defaultTemplate.toList) = .ok shares ∧
    page.markdown = String.ofList shares.flatten) ∧
  ∀ p ∈ placements (some []) b, ∀ image, p.image? = some image → ∃ pad,
    p.share o defaultTemplate.toList =
      .ok (pad ++ imageText ("assets/".toList ++ image.sourceId.toList) image)

theorem linksToReferences {o : Markdown.Options} {b : Block} {page : Page}
    (h : (toPage defaultTemplate o b).value = .ok page) : LinksToReferences o b page := by
  obtain ⟨htext, -⟩ := toPage_eq_ok h
  refine ⟨?_, fun p hp image himage => ?_⟩
  · have hshares := sharesText_placements o defaultTemplate.toList (some []) b
    rw [Option.elim_some, htext, sharesText] at hshares
    cases hmap : (placements (some []) b).mapM (Placement.share o defaultTemplate.toList) with
    | error e =>
      rw [hmap] at hshares
      cases hshares
    | ok shares =>
      rw [hmap] at hshares
      have hflatten : shares.flatten = page.markdown.toList := Except.ok.inj hshares
      exact ⟨shares, rfl, by rw [hflatten, String.ofList_toList]⟩
  · obtain ⟨pad, hshare⟩ := Placement.share_of_image himage o defaultTemplate.toList
    rw [fill_defaultTemplate] at hshare
    exact ⟨pad, hshare⟩

end Legacy

/-- An asset without a display name is not copied under its reference. -/
theorem Asset.fileName_ne_of_name_none {a : Asset} (h : a.name = none) (ref : String) :
    a.fileName ref ≠ ref := by
  intro heq
  have hlength := congrArg (fun s : String => s.toList.length) heq
  simp only [Asset.fileName_toList, Asset.stem, h, List.length_append, List.length_cons] at hlength
  omega

/-- The asset that the directory of assets has for a reference, if there is a directory. -/
def ConvertState.answer? (s : ConvertState) (ref : String) : Option Asset :=
  s.assets.bind fun d => Resolver.asset? (d.resolve s.files) ref

theorem ConvertState.exists_of_answer? {s : ConvertState} {ref : String} {a : Asset}
    (h : s.answer? ref = some a) :
    ∃ d, s.assets = some d ∧ (d.resolve s.files ref).value = .ok (some a) := by
  obtain ⟨d, hd, hasset⟩ := Option.bind_eq_some_iff.1 h
  refine ⟨d, hd, ?_⟩
  unfold Resolver.asset? at hasset
  split at hasset
  · next hvalue => rw [hvalue, hasset]
  · cases hasset

namespace Convert

variable {settings : Settings} {dest p path : Path} {s s' : ConvertState} {files : FileTree}

/-- The path that the link to a reference by the default template leads to, seen from a directory. -/
def linkPath (dest : Path) (ref : String) : Path := dest.child ("assets/" ++ ref)

theorem linkPath_of_isName {ref : String} (h : IsName ref) (dest : Path) :
    linkPath dest ref = dest.descend [Asset.directory, ref] := by
  have hslash : ("assets/" ++ ref).toList = "assets".toList ++ '/' :: ref.toList := by simp
  have hdirectory : dest.child (String.ofList ("assets".toList ++ ['/'])) =
      dest.descend [Asset.directory] := by
    have hread : Path.ofString (String.ofList ("assets".toList ++ ['/'])) = ⟨false, ["assets"]⟩ := by
      decide
    rw [Path.child, hread]
    rfl
  rw [linkPath, Path.child_of_slash hslash h, hdirectory]
  simp [Path.descend]

/-- Each snapshot of a run that returns was converted. -/
theorem file_of_each {ps : List Path} {cs : List Converted}
    (h : each settings dest ps s = .ok cs s') {before after : List Converted} {c : Converted}
    (hcs : cs = before ++ c :: after) : ∃ s₁ stem page s₂,
      each settings dest (before.map (·.source)) s = .ok before s₁ ∧
      file settings c.source s₁ = .ok (stem, page) s₂ := by
  induction ps generalizing s cs before with
  | nil =>
    cases h
    simp at hcs
  | cons p ps ih =>
    obtain ⟨first, s₁, cs', hone, heach, rfl⟩ := each_cons_eq_ok h
    have hsource : first.source = p := by
      obtain ⟨-, -, -, -, -, -, -, rfl, -⟩ := one_eq_ok hone
      rfl
    cases before with
    | nil =>
      obtain ⟨rfl, rfl⟩ := List.cons.inj hcs
      obtain ⟨stem, page, s₂, -, -, -, hfile, -⟩ := one_eq_ok hone
      exact ⟨s, stem, page, s₂, rfl, hsource ▸ hfile⟩
    | cons c₀ before =>
      obtain ⟨rfl, hrest⟩ := List.cons.inj hcs
      obtain ⟨s₂, stem, page, s₃, hbefore, hfile⟩ := ih heach hrest
      refine ⟨s₂, stem, page, s₃, ?_, hfile⟩
      rw [List.map_cons, hsource]
      exact bind_eq_ok_iff.2 ⟨_, s₁, hone, bind_eq_ok_iff.2 ⟨_, s₂, hbefore, rfl⟩⟩

theorem linksToReferences_of_file {stem : Text} {page : Page} (hprofile : settings.profile = .legacy)
    (htemplate : settings.template = Legacy.defaultTemplate)
    (h : file settings p s = .ok (stem, page) s') :
    ∃ b, Block.load s.files p = .ok b ∧
      Legacy.LinksToReferences settings.options (trimmed settings b).value page := by
  obtain ⟨b, s₁, hload, hpage, -⟩ := file_eq_ok h
  obtain ⟨b₀, hb₀, rfl, -⟩ := loadTrimmed_eq_ok_iff.1 hload
  unfold pageOf at hpage
  rw [hprofile] at hpage
  have hvalue := mapError_eq_ok_iff.1 hpage
  rw [htemplate] at hvalue
  exact ⟨b₀, hb₀, Legacy.linksToReferences hvalue⟩

/-- In the legacy profile with the default template, the link of an image leads to a copy with the data
of its asset just if the last copy under its reference as a name has these data. No copy is there if
the reference has no dot, and never the copy of an asset that is answered by the file of exactly that
name. -/
theorem legacyLinks_iff {results : List Converted} (hfiles : files.Proper)
    (hprofile : settings.profile = .legacy) (htemplate : settings.template = Legacy.defaultTemplate)
    (hassets : settings.assetDirectory?.isSome)
    (hrun : all settings path (.start settings files) = .ok results s')
    (hpages : ∀ r ∈ results, r.markdown.IsChildOf (output settings)) :
    let copies := runCopies settings path (.start settings files)
    let written := copies.map fun (ref, a) => a.target (output settings) ref
    (results.map (·.assets)).foldr (· + ·) 0 = written.length ∧
    (∃ t, files.makeDirectories (output settings) = .ok t ∧
      ∀ before r after, results = before ++ r :: after → ∃ s₁ stem page s₂ b,
        each settings (output settings) (before.map (·.source))
          { ConvertState.start settings files with files := t } = .ok before s₁ ∧
        file settings r.source s₁ = .ok (stem, page) s₂ ∧ Block.load s₁.files r.source = .ok b ∧
        Legacy.LinksToReferences settings.options (trimmed settings b).value page) ∧
    ∃ d, s'.assets = some d ∧ ∀ id a, (d.resolve s'.files id).value = .ok (some a) →
      (linkPath (output settings) id ∈ written ∧
          s'.files.read (linkPath (output settings) id) = .ok a.data ↔
        ∃ b, Asset.latest copies id = some b ∧ b.data = a.data) ∧
      ('.' ∉ id.toList → linkPath (output settings) id ∉ written) ∧
      (a.name = none → a.fileName id ≠ id) := by
  intro copies written
  obtain ⟨t, sources, hmake, hsources, heach⟩ := all_eq_ok hrun
  obtain ⟨o, rfl, hpath⟩ :=
    OutputDirectory.exists_outputDirectory hfiles (isRead_output settings) hmake
  have hcopiesEq : copies = Convert.copies settings o.path sources
      { ConvertState.start settings files with files := o.files } := by
    rw [hpath]
    exact runCopies_of_snapshots hmake hsources
  rw [← hpath] at heach hpages
  have hknows : Knows { ConvertState.start settings files with files := o.files } := by
    intro d hd ref a hmem
    rw [OutputDirectory.remembered_assetDirectory? hd] at hmem
    cases hmem
  obtain ⟨hcopies, hknows', hsome, hcount⟩ :=
    OutputDirectory.copies_each (o.kept_start settings) hknows hassets heach hpages
  rw [← hcopiesEq] at hcopies hcount
  refine ⟨by rw [hcount, List.length_map], ⟨o.files, hmake, fun before r after hresults => ?_⟩, ?_⟩
  · obtain ⟨s₁, stem, page, s₂, hbefore, hfile⟩ := file_of_each heach hresults
    obtain ⟨b, hb, hlinks⟩ := linksToReferences_of_file hprofile htemplate hfile
    rw [← hpath]
    exact ⟨s₁, stem, page, s₂, b, hbefore, hfile, hb, hlinks⟩
  · obtain ⟨d, hd⟩ := Option.isSome_iff_exists.1 hsome
    refine ⟨d, hd, fun id a ha => ?_⟩
    have hlink : linkPath (output settings) id = o.copyPath id := by
      rw [linkPath_of_isName ((hknows' d hd).isName ha), ← hpath]
      rfl
    have hwritten : written = copies.map fun (ref, a) => a.target o.path ref := by
      rw [hpath]
    rw [hlink, hwritten]
    refine ⟨hcopies.read_iff id a.data, fun hdot hmem => ?_,
      fun hname => Asset.fileName_ne_of_name_none hname id⟩
    obtain ⟨ref, b, -, rfl⟩ := (hcopies.mem_targets_iff id).1 hmem
    exact hdot (Asset.mem_fileName ref b)

/-- A snapshot of one image, and a picture of some name. -/
def onePicture (id name : String) : FileTree where
  entries := [(["blobs"], .directory), (["blobs", name], .file "data".toUTF8), (["in"], .directory),
    (["in", "a.json"], .file ("\x7b\"id\":\"b\",\"flavour\":\"affine:image\"," ++
      "\"props\":\x7b\"sourceId\":\"" ++ id ++ "\"\x7d\x7d").toUTF8)]

theorem onePicture_proper (id : String) {name : String} (h : IsName name) :
    (onePicture id name).Proper where
  names := by
    have hnames : ∀ q ∈ [[], ["blobs"], ["in"], ["in", "a.json"]], ∀ n ∈ q, IsName n := by decide
    have hblob : ∀ n ∈ ["blobs", name], IsName n := by
      simpa using ⟨show IsName "blobs" by decide, h⟩
    intro q hq
    simp only [onePicture, List.map_cons, List.map_nil, List.mem_cons, List.not_mem_nil, or_false] at hq
    rcases hq with rfl | rfl | rfl | rfl | rfl
    · exact hnames [] (by simp)
    · exact hnames ["blobs"] (by simp)
    · exact hblob
    · exact hnames ["in"] (by simp)
    · exact hnames ["in", "a.json"] (by simp)
  home := rfl

def legacyWithBlobs : Settings := { profile := .legacy, assetsDir := some "blobs" }

/-- The link of an image reaches its copy where the file has the extension of the reference twice. -/
theorem legacyLinks_twiceNamed : ∃ results s' d,
    all legacyWithBlobs (Path.ofString "in")
      (.start legacyWithBlobs (onePicture "x.png" "x.png.png")) = .ok results s' ∧
    s'.assets = some d ∧
    ∃ a, (d.resolve s'.files "x.png").value = .ok (some a) ∧ a.data = "data".toUTF8 ∧
      linkPath (output legacyWithBlobs) "x.png" ∈
        (runCopies legacyWithBlobs (Path.ofString "in")
          (.start legacyWithBlobs (onePicture "x.png" "x.png.png"))).map
            (fun (ref, a) => a.target (output legacyWithBlobs) ref) ∧
      s'.files.read (linkPath (output legacyWithBlobs) "x.png") = .ok a.data := by
  obtain ⟨⟨results, s'⟩, hrun, hcheck⟩ := exists_of_passes
    (by decide +kernel : passes
      (outcome (all legacyWithBlobs (Path.ofString "in"))
        (.start legacyWithBlobs (onePicture "x.png" "x.png.png"))) (fun r =>
          r.1.map (·.markdown) = [⟨false, ["dist", "a.md"]⟩] ∧
          (r.2.answer? "x.png").map (·.data) = some "data".toUTF8) = true)
  obtain ⟨hpaths, hanswer⟩ := of_decide_eq_true hcheck
  have hlatest : (Asset.latest (runCopies legacyWithBlobs (Path.ofString "in")
      (.start legacyWithBlobs (onePicture "x.png" "x.png.png"))) "x.png").map (·.data) =
        some "data".toUTF8 := by decide +kernel
  obtain ⟨a, ha, hdata⟩ := Option.map_eq_some_iff.1 hanswer
  obtain ⟨b, hb, hsame⟩ := Option.map_eq_some_iff.1 hlatest
  obtain ⟨d, hd, hvalue⟩ := ConvertState.exists_of_answer? ha
  have hpages : ∀ r ∈ results, r.markdown.IsChildOf (output legacyWithBlobs) := by
    intro r hr
    have hpath : r.markdown ∈ [⟨false, ["dist", "a.md"]⟩] := hpaths ▸ List.mem_map_of_mem hr
    rw [List.mem_singleton.1 hpath]
    exact ⟨"a.md", by decide, by decide⟩
  obtain ⟨-, -, d', hd', hlinks⟩ := legacyLinks_iff (onePicture_proper "x.png" (by decide)) rfl rfl rfl
    (outcome_eq_ok_iff.1 hrun) hpages
  obtain rfl : d = d' := Option.some.inj (hd.symm.trans hd')
  obtain ⟨hwritten, hread⟩ := (hlinks "x.png" a hvalue).1.2 ⟨b, hb, hsame.trans hdata.symm⟩
  exact ⟨results, s', d, outcome_eq_ok_iff.1 hrun, hd, a, hvalue, hdata, hwritten, hread⟩

/-- The copy of a picture has an extension that the link to it does not have. -/
theorem legacyLinks_picture : ∃ results s' d a,
    all legacyWithBlobs (Path.ofString "in") (.start legacyWithBlobs (onePicture "p" "p.png")) =
      .ok results s' ∧
    results.map (fun r => (r.markdown.toString, r.assets)) = [("dist/a.md", 1)] ∧
    s'.files.read (Path.ofString "dist/a.md") = .ok "\n![p](assets/p)\n\n".toUTF8 ∧
    s'.assets = some d ∧ (d.resolve s'.files "p").value = .ok (some a) ∧
    s'.files.read (Path.ofString "dist/assets/p.png") = .ok a.data ∧
    s'.files.read (linkPath (output legacyWithBlobs) "p") =
      .error ⟨.notFound, linkPath (output legacyWithBlobs) "p"⟩ := by
  obtain ⟨⟨results, s'⟩, hrun, hcheck⟩ := exists_of_passes
    (by decide +kernel : passes
      (outcome (all legacyWithBlobs (Path.ofString "in"))
        (.start legacyWithBlobs (onePicture "p" "p.png"))) (fun r =>
          r.1.map (fun r => (r.markdown.toString, r.assets)) = [("dist/a.md", 1)] ∧
          r.2.files.read (Path.ofString "dist/a.md") = .ok "\n![p](assets/p)\n\n".toUTF8 ∧
          (r.2.answer? "p").map (·.data) = some "data".toUTF8 ∧
          r.2.files.read (Path.ofString "dist/assets/p.png") = .ok "data".toUTF8 ∧
          r.2.files.read (linkPath (output legacyWithBlobs) "p") =
            .error ⟨.notFound, linkPath (output legacyWithBlobs) "p"⟩) = true)
  obtain ⟨hpaths, hpage, hanswer, hcopy, hlink⟩ := of_decide_eq_true hcheck
  obtain ⟨a, ha, hdata⟩ := Option.map_eq_some_iff.1 hanswer
  obtain ⟨d, hd, hvalue⟩ := ConvertState.exists_of_answer? ha
  exact ⟨results, s', d, a, outcome_eq_ok_iff.1 hrun, hpaths, hpage, hd, hvalue, by rw [hdata, hcopy], hlink⟩

end Convert
end PageExport
