import PageExport.Proofs.Convert.Output
import PageExport.Proofs.Slug.Fresh

/-!
Where a run writes its pages. The path of a page lies in the output directory as long as what precedes
the last slash of its stem leads nowhere else; only the id of a block can have a slash in it.
-/
namespace PageExport

/-- The path is that of a file in the directory. -/
def Path.IsChildOf (p dir : Path) : Prop := ∃ name, IsName name ∧ p = dir.descend [name]

/-- The resolver of the directory of assets, if there is one. -/
def ConvertState.resolver? (s : ConvertState) : Option Resolver :=
  s.assets.map fun d => d.resolve s.files

/-- The name of the file of a page. -/
def markdownName (fresh : Text) : String := String.ofList fresh ++ ".md"

theorem markdownName_toList (t : Text) : (markdownName t).toList = t ++ ['.', 'm', 'd'] := by
  simp [markdownName]

theorem markdownName_injective {t u : Text} (h : markdownName t = markdownName u) : t = u := by
  have hlist := congrArg String.toList h
  simpa [markdownName_toList] using hlist

theorem markdownName_ne_directory (t : Text) : markdownName t ≠ Asset.directory := by
  intro h
  have hlast := congrArg (fun s : String => s.toList.getLast?) h
  simp [markdownName_toList, Asset.directory] at hlast

theorem isName_markdownName {t : Text} (h : '/' ∉ t) : IsName (markdownName t) := by
  have hne {s : String} (hs : s.toList.length < 3) : markdownName t ≠ s := by
    rintro rfl
    rw [markdownName_toList, List.length_append] at hs
    exact Nat.not_le.2 hs (Nat.le_add_left 3 t.length)
  refine ⟨hne (by decide), Asset.isOneName_iff.2 ⟨?_, hne (by decide), hne (by decide)⟩⟩
  simp [markdownName_toList, h]

namespace Convert

/-- The path that a page gets that asks for a stem. -/
def target (dest : Path) (taken : List Text) (stem : Text) : Path :=
  dest.child (markdownName (Slug.unique taken stem))

/-- A text up to its last slash. -/
def upToSlash (t : Text) : Text := (t.reverse.dropWhile (· ≠ '/')).reverse

theorem upToSlash_of_not_mem {t : Text} (h : '/' ∉ t) : upToSlash t = [] := by
  rw [upToSlash, List.reverse_eq_nil_iff, List.dropWhile_eq_nil_iff]
  exact fun c hc => decide_eq_true fun heq => h (heq ▸ List.mem_reverse.1 hc)

theorem upToSlash_append_cons {u v : Text} (h : '/' ∉ v) : upToSlash (u ++ '/' :: v) = u ++ ['/'] := by
  have hv : ∀ c ∈ v.reverse, decide (c ≠ '/') = true :=
    fun c hc => decide_eq_true fun heq => h (heq ▸ List.mem_reverse.1 hc)
  rw [upToSlash, List.reverse_append, List.reverse_cons, List.append_assoc,
    List.dropWhile_append_of_pos hv]
  simp

theorem target_of_slash_not_mem {stem : Text} (h : '/' ∉ stem) (dest : Path) (taken : List Text) :
    target dest taken stem = dest.descend [markdownName (Slug.unique taken stem)] := by
  obtain ⟨n, hn⟩ := Slug.exists_unique_eq taken stem
  have hfresh : '/' ∉ Slug.unique taken stem := by rwa [hn, Slug.slash_mem_numbered_iff]
  exact Path.child_of_isName (isName_markdownName hfresh) dest

/-- A page is put into the directory that the part of its stem up to the last slash leads to. -/
theorem exists_target_eq (dest : Path) (taken : List Text) (stem : Text) :
    ∃ name, IsName name ∧
      target dest taken stem = (dest.child (String.ofList (upToSlash stem))).descend [name] := by
  obtain ⟨n, hn⟩ := Slug.exists_unique_eq taken stem
  by_cases h : '/' ∈ stem
  · obtain ⟨v, u, hsplit, hv⟩ := List.eq_append_cons_of_mem (List.mem_reverse.2 h)
    obtain rfl : stem = u.reverse ++ '/' :: v.reverse := by
      rw [← List.reverse_reverse stem, hsplit]
      simp
    have hv' : '/' ∉ v.reverse := by simpa using hv
    have hlast : '/' ∉ Slug.numbered v.reverse n := by rwa [Slug.slash_mem_numbered_iff]
    have hfresh : Slug.unique taken (u.reverse ++ '/' :: v.reverse) =
        u.reverse ++ '/' :: Slug.numbered v.reverse n := by
      rw [hn, List.append_cons, Slug.numbered_append, ← List.append_cons]
    refine ⟨_, isName_markdownName hlast, ?_⟩
    rw [upToSlash_append_cons hv', target, hfresh]
    exact Path.child_of_slash (by simp [markdownName_toList]) (isName_markdownName hlast) dest
  · have hfresh : '/' ∉ Slug.unique taken stem := by rwa [hn, Slug.slash_mem_numbered_iff]
    refine ⟨_, isName_markdownName hfresh, ?_⟩
    rw [upToSlash_of_not_mem h, Path.child_nil]
    exact target_of_slash_not_mem h dest taken

/-- A page gets a path in the output directory just if what precedes the last slash of its stem leads
nowhere else. -/
theorem target_isChildOf_iff {dest : Path} {taken : List Text} {stem : Text} :
    (target dest taken stem).IsChildOf dest ↔
      dest.child (String.ofList (upToSlash stem)) = dest := by
  obtain ⟨name, hname, htarget⟩ := exists_target_eq dest taken stem
  rw [htarget]
  constructor
  · rintro ⟨name', -, heq⟩
    exact (Path.descend_singleton_inj.1 heq).1
  · intro hdir
    exact ⟨name, hname, by rw [hdir]⟩

/-- A page that a run comes to write: where from, its block tree, and where to. -/
structure Turn where
  source : Path
  block : Block
  markdown : Path

def Turn.stem (w : Turn) : Text := Convert.stem w.source w.block w.block.title.value

theorem Turn.stem_mk (p : Path) (b : Block) (markdown : Path) :
    Turn.stem ⟨p, b, markdown⟩ = Convert.stem p b b.title.value := rfl

/-- What a conversion gives, and the state in which it returns. -/
def outcome {α : Type} (x : Convert α) (s : ConvertState) : Except ConvertFault (α × ConvertState) :=
  match x s with
  | .ok a s' => .ok (a, s')
  | .error e _ => .error e

theorem outcome_eq_ok_iff {α : Type} {x : Convert α} {s s' : ConvertState} {a : α} :
    outcome x s = .ok (a, s') ↔ x s = .ok a s' := by
  unfold outcome
  cases x s <;> simp

/-- The page that a file is to be written to, if it can be converted. -/
def turn? (settings : Settings) (dest p : Path) (s : ConvertState) : Option Turn := do
  let (b, _) ← (outcome (loadTrimmed settings p) s).toOption
  let ((stem, _), s₁) ← (outcome (file settings p) s).toOption
  return ⟨p, b, target dest s₁.taken stem⟩

/-- What follows a conversion that succeeds. -/
def following {α : Type} (f : ConvertState → List Turn) :
    EStateM.Result ConvertFault ConvertState α → List Turn
  | .ok _ s => f s
  | .error _ _ => []

/-- The pages that a run comes to write, one after the other, until one cannot be converted. -/
def turns (settings : Settings) (dest : Path) : List Path → ConvertState → List Turn
  | [], _ => []
  | p :: ps, s =>
    (turn? settings dest p s).toList ++
      following (fun s₁ => turns settings dest ps s₁) (one settings dest p s)

/-- The output directory of the settings. -/
def output (settings : Settings) : Path := Path.ofString settings.outputDir

/-- The pages that a run over all snapshots comes to write. -/
def runTurns (settings : Settings) (path : Path) (s : ConvertState) : List Turn :=
  match s.files.makeDirectories (output settings) with
  | .error _ => []
  | .ok t =>
    match t.snapshots path with
    | .error _ => []
    | .ok sources => turns settings (output settings) sources { s with files := t }

variable {settings : Settings} {p dest : Path} {s s' : ConvertState}

/-- A block tree without its blank start, if the settings drop it. -/
def trimmed (settings : Settings) (b : Block) : Logged Block :=
  if settings.skipEmpty then b.trim else pure b

theorem pure_eq_ok_iff {α : Type} {a b : α} :
    (pure a : Convert α) s = .ok b s' ↔ a = b ∧ s = s' := by
  simp [pure, EStateM.pure]

theorem ofExcept_eq_ok_iff {ε α : Type} {f : ε → ConvertFault} {x : Except ε α} {a : α} :
    ofExcept f x s = .ok a s' ↔ x = .ok a ∧ s' = s := by
  cases x with
  | ok b => simp [ofExcept, eq_comm]
  | error e => simp [ofExcept]

theorem logged_eq_ok_iff {α : Type} {x : Logged α} {a : α} :
    logged x s = .ok a s' ↔ a = x.value ∧ s' = { s with log := s.log ++ x.log } := by
  simp [logged, eq_comm]

theorem loadTrimmed_eq_ok_iff {b : Block} :
    loadTrimmed settings p s = .ok b s' ↔ ∃ b₀, Block.load s.files p = .ok b₀ ∧
      b = (trimmed settings b₀).value ∧
      s' = { s with log := s.log ++ (trimmed settings b₀).log } := by
  unfold loadTrimmed trimmed
  rw [bind_eq_ok_iff]
  constructor
  · rintro ⟨s₁, s₂, hget, hrest⟩
    cases hget
    obtain ⟨b₀, s₃, hload, htrim⟩ := bind_eq_ok_iff.1 hrest
    obtain ⟨hb₀, rfl⟩ := ofExcept_eq_ok_iff.1 hload
    refine ⟨b₀, hb₀, ?_⟩
    split at htrim
    · next hskip =>
      rw [if_pos hskip]
      exact logged_eq_ok_iff.1 htrim
    · next hskip =>
      rw [if_neg hskip]
      cases htrim
      simp
  · rintro ⟨b₀, hload, rfl, rfl⟩
    refine ⟨s, s, rfl, bind_eq_ok_iff.2 ⟨b₀, s, ofExcept_eq_ok_iff.2 ⟨hload, rfl⟩, ?_⟩⟩
    split
    · rfl
    · simp [pure, EStateM.pure]

/-- The page of a block tree, with a resolver for its assets. -/
def pageOf (settings : Settings) (assets : Option Resolver) (b : Block) : Except ConvertFault Page :=
  match settings.profile with
  | .legacy => (Legacy.toPage settings.template settings.options b).value.mapError .template
  | .tree => (b.toPage assets settings.options).value.mapError .page

theorem mapError_eq_ok_iff {ε δ α : Type} {f : ε → δ} {x : Except ε α} {a : α} :
    x.mapError f = .ok a ↔ x = .ok a := by
  cases x <;> simp [Except.mapError]

theorem page_eq_ok {b : Block} {page : Page} (h : Convert.page settings b s = .ok page s') :
    pageOf settings s.resolver? b = .ok page ∧ s'.files = s.files ∧ s'.taken = s.taken := by
  unfold Convert.page at h
  unfold pageOf
  cases hprofile : settings.profile with
  | legacy =>
    rw [hprofile] at h
    obtain ⟨r, s₁, hlog, hread⟩ := bind_eq_ok_iff.1 h
    obtain ⟨rfl, rfl⟩ := logged_eq_ok_iff.1 hlog
    obtain ⟨hpage, rfl⟩ := ofExcept_eq_ok_iff.1 hread
    exact ⟨mapError_eq_ok_iff.2 hpage, rfl, rfl⟩
  | tree =>
    rw [hprofile] at h
    obtain ⟨s₁, s₂, hget, hrest⟩ := bind_eq_ok_iff.1 h
    cases hget
    obtain ⟨r, s₃, hlog, hread⟩ := bind_eq_ok_iff.1 hrest
    obtain ⟨rfl, rfl⟩ := logged_eq_ok_iff.1 hlog
    obtain ⟨page', s₄, hpage, hremember⟩ := bind_eq_ok_iff.1 hread
    obtain ⟨hvalue, rfl⟩ := ofExcept_eq_ok_iff.1 hpage
    cases hremember
    exact ⟨mapError_eq_ok_iff.2 hvalue, rfl, rfl⟩

theorem exists_page_eq_ok {b : Block} {page : Page} (h : pageOf settings s.resolver? b = .ok page) :
    ∃ s', Convert.page settings b s = .ok page s' := by
  unfold pageOf at h
  unfold Convert.page
  cases hprofile : settings.profile with
  | legacy =>
    rw [hprofile] at h
    exact ⟨_, bind_eq_ok_iff.2 ⟨_, _, rfl, ofExcept_eq_ok_iff.2 ⟨mapError_eq_ok_iff.1 h, rfl⟩⟩⟩
  | tree =>
    rw [hprofile] at h
    have hpage := mapError_eq_ok_iff.1 h
    exact ⟨_, bind_eq_ok_iff.2 ⟨s, s, rfl, bind_eq_ok_iff.2 ⟨_, _, rfl, bind_eq_ok_iff.2
      ⟨page, _, ofExcept_eq_ok_iff.2 ⟨hpage, rfl⟩, rfl⟩⟩⟩⟩

theorem file_eq_ok {stem : Text} {page : Page} (h : file settings p s = .ok (stem, page) s') :
    ∃ b s₁, loadTrimmed settings p s = .ok b s₁ ∧ pageOf settings s.resolver? b = .ok page ∧
      stem = Convert.stem p b b.title.value ∧ s'.files = s.files ∧ s'.taken = s.taken := by
  obtain ⟨b, s₁, hload, hrest⟩ := bind_eq_ok_iff.1 h
  obtain ⟨page', s₂, hpage, hname⟩ := bind_eq_ok_iff.1 hrest
  obtain ⟨title, s₃, hlog, hpure⟩ := bind_eq_ok_iff.1 hname
  obtain ⟨htitle, rfl⟩ := logged_eq_ok_iff.1 hlog
  obtain ⟨heq, rfl⟩ := pure_eq_ok_iff.1 hpure
  obtain ⟨hstem, rfl⟩ := Prod.mk.inj heq
  obtain ⟨hvalue, hfiles, htaken⟩ := page_eq_ok hpage
  refine ⟨b, s₁, hload, ?_⟩
  obtain ⟨b₀, -, -, rfl⟩ := loadTrimmed_eq_ok_iff.1 hload
  exact ⟨hvalue, by rw [← hstem, htitle], hfiles, htaken⟩

/-- What a file becomes depends on the block tree in it and on the answers of the resolver. -/
theorem exists_file_eq_ok {b₀ : Block} {page : Page} (hload : Block.load s.files p = .ok b₀)
    (hpage : pageOf settings s.resolver? (trimmed settings b₀).value = .ok page) :
    ∃ s', file settings p s =
      .ok (stem p (trimmed settings b₀).value (trimmed settings b₀).value.title.value, page) s' := by
  have htrimmed : loadTrimmed settings p s = .ok (trimmed settings b₀).value
      { s with log := s.log ++ (trimmed settings b₀).log } :=
    loadTrimmed_eq_ok_iff.2 ⟨b₀, hload, rfl, rfl⟩
  obtain ⟨s₂, hs₂⟩ :=
    exists_page_eq_ok (s := { s with log := s.log ++ (trimmed settings b₀).log }) hpage
  exact ⟨_, bind_eq_ok_iff.2 ⟨_, _, htrimmed, bind_eq_ok_iff.2 ⟨page, s₂, hs₂,
    bind_eq_ok_iff.2 ⟨_, _, logged_eq_ok_iff.2 ⟨rfl, rfl⟩, pure_eq_ok_iff.2 ⟨rfl, rfl⟩⟩⟩⟩⟩

theorem one_eq_ok {c : Converted} (h : one settings dest p s = .ok c s') :
    ∃ stem page s₁ s₂ s₃ assets, file settings p s = .ok (stem, page) s₁ ∧
      c = ⟨p, target dest s₁.taken stem, assets⟩ ∧
      write c.markdown page.markdown { s₁ with taken := s₁.taken ++ [Slug.unique s₁.taken stem] } =
        .ok () s₂ ∧
      storeAssets page.assetIds dest s₂ = .ok assets s₃ ∧ s'.stock = s₃.stock ∧
      s'.taken = s₃.taken := by
  obtain ⟨⟨stem, page⟩, s₁, hfile, h⟩ := bind_eq_ok_iff.1 h
  obtain ⟨fresh, s₂, hfresh, h⟩ := bind_eq_ok_iff.1 h
  cases hfresh
  obtain ⟨⟨⟩, s₃, hwrite, h⟩ := bind_eq_ok_iff.1 h
  obtain ⟨assets, s₄, hassets, h⟩ := bind_eq_ok_iff.1 h
  cases h
  exact ⟨stem, page, s₁, s₃, s₄, assets, hfile, rfl, hwrite, hassets, rfl, rfl⟩

theorem each_cons_eq_ok {ps : List Path} {cs : List Converted}
    (h : each settings dest (p :: ps) s = .ok cs s') :
    ∃ c s₁ cs', one settings dest p s = .ok c s₁ ∧ each settings dest ps s₁ = .ok cs' s' ∧
      cs = c :: cs' := by
  obtain ⟨c, s₁, hone, hrest⟩ := bind_eq_ok_iff.1 h
  obtain ⟨cs', s₂, heach, hpure⟩ := bind_eq_ok_iff.1 hrest
  obtain ⟨rfl, rfl⟩ := pure_eq_ok_iff.1 hpure
  exact ⟨c, s₁, cs', hone, heach, rfl⟩

theorem turn?_eq_some (dest : Path) {stem : Text} {page : Page} {s₁ : ConvertState}
    (h : file settings p s = .ok (stem, page) s₁) :
    ∃ b, stem = Convert.stem p b b.title.value ∧
      turn? settings dest p s = some ⟨p, b, target dest s₁.taken stem⟩ := by
  obtain ⟨b, s₂, hload, -, hstem, -⟩ := file_eq_ok h
  exact ⟨b, hstem, by simp only [turn?, outcome_eq_ok_iff.2 hload, outcome_eq_ok_iff.2 h]; rfl⟩

theorem turn?_markdown {w : Turn} (h : turn? settings dest p s = some w) :
    w.markdown = target dest s.taken w.stem := by
  cases hfile : outcome (file settings p) s with
  | error e => simp [turn?, hfile, Except.toOption] at h
  | ok r =>
    obtain ⟨⟨stem, page⟩, s₁⟩ := r
    obtain ⟨-, -, -, -, -, -, htaken⟩ := file_eq_ok (outcome_eq_ok_iff.1 hfile)
    obtain ⟨b, hstem, hturn⟩ := turn?_eq_some dest (outcome_eq_ok_iff.1 hfile)
    rw [hturn] at h
    rw [← Option.some.inj h, Turn.stem_mk, ← hstem, htaken]

/-- The pages of a run that returns are those that it comes to write. -/
theorem map_turns_of_each {ps : List Path} {cs : List Converted}
    (h : each settings dest ps s = .ok cs s') :
    (turns settings dest ps s).map (fun w => (w.source, w.markdown)) =
      cs.map fun c => (c.source, c.markdown) := by
  induction ps generalizing s cs with
  | nil =>
    cases h
    rfl
  | cons p ps ih =>
    obtain ⟨c, s₁, cs', hone, heach, rfl⟩ := each_cons_eq_ok h
    obtain ⟨stem, page, s₂, -, -, assets, hfile, rfl, -⟩ := one_eq_ok hone
    obtain ⟨b, -, hturn⟩ := turn?_eq_some dest hfile
    rw [turns, hturn, hone, following]
    simp only [Option.toList_some, List.singleton_append, List.map_cons, ih heach]

theorem mem_turns {ps : List Path} {w : Turn} (h : w ∈ turns settings dest ps s) :
    ∃ taken, w.markdown = target dest taken w.stem := by
  induction ps generalizing s with
  | nil => cases h
  | cons p ps ih =>
    rw [turns] at h
    rcases List.mem_append.1 h with hfirst | hlater
    · exact ⟨s.taken, turn?_markdown (Option.mem_toList.1 hfirst)⟩
    · unfold following at hlater
      split at hlater
      · exact ih hlater
      · cases hlater

end Convert

open PageExport.Convert

namespace OutputDirectory

variable {o : OutputDirectory} {N : String → Prop} {settings : Settings} {s : ConvertState}

theorem moves_one {p : Path} (hs : o.Kept s.stock)
    (h : ∀ stem page s₁, file settings p s = .ok (stem, page) s₁ →
      ∃ name, IsName name ∧ N name ∧ target o.path s₁.taken stem = o.path.descend [name]) :
    o.Moves N s.stock (stateAfter (one settings o.path p) s).stock := by
  refine moves_bind ConvertState.stock (moves_file hs) fun r s₁ hfile hs₁ => ?_
  obtain ⟨stem, page⟩ := r
  obtain ⟨name, hname, hN, htarget⟩ := h stem page s₁ hfile
  refine moves_bind ConvertState.stock (hs₁.refl N) fun fresh s₂ hfresh hs₂ => ?_
  cases hfresh
  change o.Moves N _ (stateAfter (write (target o.path s₁.taken stem) page.markdown >>= _) _).stock
  rw [htarget]
  refine moves_bind ConvertState.stock (moves_write hs₂ hname hN page.markdown) fun _ s₃ _ hs₃ => ?_
  refine moves_bind ConvertState.stock (moves_storeAssets hs₃ page.assetIds) fun assets s₄ _ hs₄ => ?_
  exact moves_bind ConvertState.stock (hs₄.refl N) fun _ s₅ _ hs₅ => hs₅.refl N

theorem moves_each {ps : List Path} (hs : o.Kept s.stock)
    (h : ∀ w ∈ turns settings o.path ps s,
      ∃ name, IsName name ∧ N name ∧ w.markdown = o.path.descend [name]) :
    o.Moves N s.stock (stateAfter (each settings o.path ps) s).stock := by
  induction ps generalizing s with
  | nil => exact hs.refl N
  | cons p ps ih =>
    rw [turns] at h
    have hone : o.Moves N s.stock (stateAfter (one settings o.path p) s).stock := by
      refine moves_one hs fun stem page s₁ hfile => ?_
      obtain ⟨b, -, hturn⟩ := turn?_eq_some o.path hfile
      exact h _ (List.mem_append_left _ (by rw [hturn]; exact List.mem_singleton_self _))
    refine moves_bind ConvertState.stock hone fun c s₁ hc hs₁ => ?_
    refine moves_bind ConvertState.stock (ih hs₁ fun w hw => h w ?_) fun cs s₂ _ hs₂ => hs₂.refl N
    rw [hc, following]
    exact List.mem_append_right _ hw

/-- The output directory once it is made. -/
theorem exists_outputDirectory {files t : FileTree} {dest : Path} (hfiles : files.Proper)
    (hdest : dest.IsRead) (h : files.makeDirectories dest = .ok t) :
    ∃ o : OutputDirectory, o.files = t ∧ o.path = dest := by
  obtain ⟨d, hd, hdir⟩ := FileTree.locate_of_makeDirectories hfiles h
  exact ⟨⟨t, dest, d, hfiles.makeDirectories hdest h, hdest, hd, hdir⟩, rfl, rfl⟩

/-- A run starts without remembered answers. -/
theorem kept_start (o : OutputDirectory) (settings : Settings) :
    o.Kept ⟨o.files, settings.assetDirectory?⟩ := by
  refine ⟨o.proper, .refl _ _, fun d hd ref a hmem => ?_⟩
  unfold Settings.assetDirectory? at hd
  split at hd
  · split at hd
    · cases hd
    · cases hd
      cases hmem
  · cases hd

/-- A file after the conversions was there before, or is one of the pages or a copy of an asset. -/
theorem files_after_each {ps : List Path} (hs : o.Kept s.stock)
    (h : ∀ w ∈ turns settings o.path ps s, w.markdown.IsChildOf o.path) {q : Place} {data : ByteArray}
    (hq : (stateAfter (each settings o.path ps) s).files.get? q = some (.file data)) :
    s.files.get? q = some (.file data) ∨ o.IsWritten (fun name =>
      ∃ w ∈ turns settings o.path ps s, IsName name ∧ w.markdown = o.path.descend [name]) q := by
  have hmoves := moves_each (N := fun name =>
      ∃ w ∈ turns settings o.path ps s, IsName name ∧ w.markdown = o.path.descend [name]) hs
    fun w hw => by
      obtain ⟨name, hname, hpath⟩ := h w hw
      exact ⟨name, hname, ⟨w, hw, hname, hpath⟩, hpath⟩
  by_cases hwritten : o.IsWritten (fun name =>
      ∃ w ∈ turns settings o.path ps s, IsName name ∧ w.markdown = o.path.descend [name]) q
  · exact .inr hwritten
  · exact .inl ((hmoves.alters.get? q hwritten).symm.trans hq)

end OutputDirectory

namespace Convert

variable {settings : Settings} {path : Path} {files : FileTree}

/-- One of the slugs of a page is not empty, or the id of its block has no slash. -/
def HasPlainStem (p : Path) (b : Block) : Prop :=
  Slug.ofTitle b.title.value ≠ [] ∨ Slug.ofTitle p.stem ≠ [] ∨ '/' ∉ b.id.toList

instance (p : Path) (b : Block) : Decidable (HasPlainStem p b) :=
  inferInstanceAs (Decidable
    (Slug.ofTitle b.title.value ≠ [] ∨ Slug.ofTitle p.stem ≠ [] ∨ '/' ∉ b.id.toList))

/-- Slugs have no slash, so only the id of a block brings one into a stem. -/
theorem slash_not_mem_stem {p : Path} {b : Block} (h : HasPlainStem p b) :
    '/' ∉ stem p b b.title.value := by
  unfold stem
  simp only
  split
  · exact Slug.slash_not_mem_ofTitle _
  · next htitle =>
    split
    · exact Slug.slash_not_mem_ofTitle _
    · next hname =>
      refine (h.resolve_left ?_).resolve_left ?_
      · simpa using htitle
      · simpa using hname

/-- A run makes the output directory and then converts the snapshots one by one. -/
theorem all_eq (settings : Settings) (path : Path) (s : ConvertState) :
    all settings path s = match s.files.makeDirectories (output settings) with
      | .error e => .error (.file e) s
      | .ok t =>
        match t.snapshots path with
        | .error e => .error (.file e) { s with files := t }
        | .ok sources => each settings (output settings) sources { s with files := t } := by
  change EStateM.bind (onFiles (·.makeDirectories (output settings))) _ s = _
  unfold EStateM.bind onFiles
  cases hmake : s.files.makeDirectories (output settings) with
  | error e => simp only [hmake]
  | ok t =>
    simp only [hmake]
    change EStateM.bind (ofExcept .file (t.snapshots path)) _ { s with files := t } = _
    unfold EStateM.bind ofExcept
    cases t.snapshots path <;> rfl

section Stages

variable {s s' : ConvertState} {t : FileTree} {sources : List Path}

theorem all_of_snapshots (hmake : s.files.makeDirectories (output settings) = .ok t)
    (hsources : t.snapshots path = .ok sources) :
    all settings path s = each settings (output settings) sources { s with files := t } := by
  rw [all_eq]
  simp only [hmake, hsources]

theorem runTurns_of_snapshots (hmake : s.files.makeDirectories (output settings) = .ok t)
    (hsources : t.snapshots path = .ok sources) :
    runTurns settings path s = turns settings (output settings) sources { s with files := t } := by
  unfold runTurns
  simp only [hmake, hsources]

theorem all_eq_ok {cs : List Converted} (h : all settings path s = .ok cs s') :
    ∃ t sources, s.files.makeDirectories (output settings) = .ok t ∧ t.snapshots path = .ok sources ∧
      each settings (output settings) sources { s with files := t } = .ok cs s' := by
  rw [all_eq] at h
  cases hmake : s.files.makeDirectories (output settings) with
  | error e => simp [hmake] at h
  | ok t =>
    cases hsources : t.snapshots path with
    | error e => simp [hmake, hsources] at h
    | ok sources =>
      simp only [hmake, hsources] at h
      exact ⟨t, sources, rfl, hsources, h⟩

end Stages

theorem isRead_output (settings : Settings) : (output settings).IsRead := Path.isRead_ofString _

theorem mem_runTurns {s : ConvertState} {w : Turn} (h : w ∈ runTurns settings path s) :
    ∃ taken, w.markdown = target (output settings) taken w.stem := by
  unfold runTurns at h
  split at h
  · cases h
  · split at h
    · cases h
    · exact mem_turns h

/-- The only files that a run changes or adds are its pages and copies of assets. -/
theorem files_after_all (hfiles : files.Proper)
    (hpages : ∀ w ∈ runTurns settings path (.start settings files),
      w.markdown.IsChildOf (output settings)) {q : Place} {data : ByteArray}
    (hq : (stateAfter (all settings path) (.start settings files)).files.get? q =
      some (.file data)) :
    files.get? q = some (.file data) ∨
    ∃ d, (stateAfter (all settings path) (.start settings files)).files.locate (output settings) =
        .ok d ∧
      ((∃ w ∈ runTurns settings path (.start settings files), ∃ name, IsName name ∧
        w.markdown = (output settings).descend [name] ∧ q = d ++ [name]) ∨
      d ++ [Asset.directory] <+: q) := by
  cases hmake : files.makeDirectories (output settings) with
  | error e =>
    have hafter : (stateAfter (all settings path) (.start settings files)).files = files := by
      rw [stateAfter, all_eq]
      simp only [ConvertState.start, hmake]
    exact .inl (by rwa [hafter] at hq)
  | ok t =>
    have hold (h : t.get? q = some (.file data)) : files.get? q = some (.file data) :=
      FileTree.makeFrom_files (FileTree.makeDirectories_eq_ok hmake).2 h
    cases hsources : t.snapshots path with
    | error e =>
      have hafter : (stateAfter (all settings path) (.start settings files)).files = t := by
        rw [stateAfter, all_eq]
        simp only [ConvertState.start, hmake, hsources]
      exact .inl (hold (by rwa [hafter] at hq))
    | ok sources =>
      obtain ⟨o, rfl, hpath⟩ :=
        OutputDirectory.exists_outputDirectory hfiles (isRead_output settings) hmake
      have hkept := o.kept_start settings
      unfold stateAfter at hq ⊢
      rw [all_of_snapshots hmake hsources] at hq ⊢
      rw [runTurns_of_snapshots hmake hsources] at hpages ⊢
      rw [← hpath] at hpages hq ⊢
      have hlocated := (OutputDirectory.moves_each (N := fun _ => True) hkept fun w hw =>
        (hpages w hw).imp fun _ h => ⟨h.1, trivial, h.2⟩).kept.located
      rcases OutputDirectory.files_after_each hkept hpages hq with h | h
      · exact .inl (hold h)
      · refine .inr ⟨o.place, hlocated, ?_⟩
        obtain ⟨name, ⟨w, hw, hname, hmarkdown⟩, heq⟩ | h := h
        · exact .inl ⟨w, hw, name, hname, hmarkdown, heq⟩
        · exact .inr h

/-- A page is written in the output directory just if what precedes the last slash of its stem leads
nowhere else, so at least if a slug is not empty or the id of the block has no slash. If that holds for
all pages of a run, then whether or not the run returns, the only files that it changes or adds are
these pages and copies of assets. -/
theorem runTurns_isChildOf_iff (hfiles : files.Proper) :
    let dest := output settings
    let s := ConvertState.start settings files
    (∀ w ∈ runTurns settings path s,
      (w.markdown.IsChildOf dest ↔ dest.child (String.ofList (upToSlash w.stem)) = dest) ∧
      (HasPlainStem w.source w.block → w.markdown.IsChildOf dest)) ∧
    (∀ results s', all settings path s = .ok results s' →
      results.map (·.markdown) = (runTurns settings path s).map (·.markdown)) ∧
    ((∀ w ∈ runTurns settings path s, w.markdown.IsChildOf dest) → ∀ q data,
      (stateAfter (all settings path) s).files.get? q = some (.file data) →
      files.get? q = some (.file data) ∨
      ∃ d, (stateAfter (all settings path) s).files.locate dest = .ok d ∧
        ((∃ w ∈ runTurns settings path s, ∃ name, IsName name ∧ w.markdown = dest.descend [name] ∧
          q = d ++ [name]) ∨ d ++ [Asset.directory] <+: q)) := by
  intro dest s
  refine ⟨fun w hw => ?_, fun results s' h => ?_, fun hpages q data => files_after_all hfiles hpages⟩
  · obtain ⟨taken, htarget⟩ := mem_runTurns hw
    have hiff : (target dest taken w.stem).IsChildOf dest ↔
        dest.child (String.ofList (upToSlash w.stem)) = dest := target_isChildOf_iff
    rw [← htarget] at hiff
    refine ⟨hiff, fun hplain => hiff.2 ?_⟩
    rw [Turn.stem, upToSlash_of_not_mem (slash_not_mem_stem hplain), Path.child_nil]
  · obtain ⟨t, sources, hmake, hsources, heach⟩ := all_eq_ok h
    have hmap := congrArg (List.map Prod.snd) (map_turns_of_each heach)
    rw [runTurns_of_snapshots hmake hsources]
    simpa [Function.comp_def] using hmap.symm

/-- A check of what a computation gives; it fails with the computation. -/
def passes {ε α : Type} (x : Except ε α) (check : α → Bool) : Bool :=
  match x with
  | .ok a => check a
  | .error _ => false

theorem exists_of_passes {ε α : Type} {x : Except ε α} {check : α → Bool}
    (h : passes x check = true) : ∃ a, x = .ok a ∧ check a = true := by
  cases x with
  | ok a => exact ⟨a, rfl, h⟩
  | error e => cases h

/-- A snapshot whose title and file name have no slug. -/
def namedById (id : String) : FileTree where
  entries := [(["in"], .directory), (["in", "_.json"],
    .file ("\x7b\"id\":\"" ++ id ++ "\",\"flavour\":\"affine:page\"\x7d").toUTF8)]

theorem namedById_proper (id : String) : (namedById id).Proper where
  names := by
    have hnames : ∀ q ∈ [[], ["in"], ["in", "_.json"]], ∀ name ∈ q, IsName name := by decide
    exact hnames
  home := rfl

/-- The id of a block with two dots leads out of the output directory. -/
theorem run_namedById_escapes : ∃ results s',
    all {} (Path.ofString "in") (.start {} (namedById "../evil")) = .ok results s' ∧
    results.map (·.markdown) = [⟨false, ["dist", "..", "evil.md"]⟩] ∧
    s'.files.read (Path.ofString "evil.md") = .ok "".toUTF8 ∧
    ¬ ∀ r ∈ results, r.markdown.IsChildOf (output {}) := by
  obtain ⟨⟨results, s'⟩, hrun, hcheck⟩ := exists_of_passes
    (by decide +kernel : passes
      (outcome (all {} (Path.ofString "in")) (.start {} (namedById "../evil"))) (fun r =>
        r.1.map (·.markdown) = [⟨false, ["dist", "..", "evil.md"]⟩] ∧
        r.2.files.read (Path.ofString "evil.md") = .ok "".toUTF8) = true)
  obtain ⟨hpaths, hread⟩ := of_decide_eq_true hcheck
  refine ⟨results, s', outcome_eq_ok_iff.1 hrun, hpaths, hread, fun h => ?_⟩
  obtain ⟨r, hr, hpath⟩ := List.mem_map.1 (hpaths ▸ List.mem_singleton_self _)
  obtain ⟨name, -, hchild⟩ := h r hr
  have hlength := congrArg (fun p : Path => p.names.length) (hpath.symm.trans hchild)
  exact absurd hlength (by simp [Path.descend, show (output {}).names = ["dist"] by decide])

/-- An id without a slash names a page in the output directory, and no other file is written. -/
theorem runTurns_namedById : (namedById "evil").Proper ∧
    (runTurns {} (Path.ofString "in") (.start {} (namedById "evil"))).map (·.markdown) =
      [⟨false, ["dist", "evil.md"]⟩] ∧
    ∀ q data, (stateAfter (all {} (Path.ofString "in")) (.start {} (namedById "evil"))).files.get? q =
        some (.file data) →
      (namedById "evil").get? q = some (.file data) ∨ ∃ d,
        (stateAfter (all {} (Path.ofString "in")) (.start {} (namedById "evil"))).files.locate
          (output {}) = .ok d ∧
        ((∃ w ∈ runTurns {} (Path.ofString "in") (.start {} (namedById "evil")), ∃ name,
          IsName name ∧ w.markdown = (output {}).descend [name] ∧ q = d ++ [name]) ∨
        d ++ [Asset.directory] <+: q) := by
  have hpaths : (runTurns {} (Path.ofString "in") (.start {} (namedById "evil"))).map (·.markdown) =
      [⟨false, ["dist", "evil.md"]⟩] := by decide +kernel
  refine ⟨namedById_proper "evil", hpaths,
    (runTurns_isChildOf_iff (namedById_proper "evil")).2.2 fun w hw => ?_⟩
  have hpath : w.markdown ∈ [⟨false, ["dist", "evil.md"]⟩] :=
    hpaths ▸ List.mem_map_of_mem hw
  rw [List.mem_singleton.1 hpath]
  exact ⟨"evil.md", by decide, by decide⟩

end Convert
end PageExport
