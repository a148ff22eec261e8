import PageExport.Convert
import PageExport.Proofs.Asset.Directory

/-!
What a run does to the files. From the making of the output directory on, and whether or not the run
returns, nothing changes but the pages in that directory and the copies of assets below it, as long as
each page is given a path in that directory.
-/
namespace PageExport

open FileTree (Alters Proper)

/-- The state in which a computation ends, whether or not it fails. -/
def stateAfter {ε σ α : Type} (x : EStateM ε σ α) (s : σ) : σ :=
  match x s with
  | .ok _ t | .error _ t => t

/-- A directory for the output, and the files when it was made. -/
structure OutputDirectory where
  files : FileTree
  path : Path
  place : Place
  proper : files.Proper
  isRead : path.IsRead
  located : files.locate path = .ok place
  isDirectory : files.get? place = some .directory

/-- The files, and the directory of assets with the answers it remembers. -/
structure Stock where
  files : FileTree
  assets : Option AssetDirectory

def ConvertState.stock (s : ConvertState) : Stock := ⟨s.files, s.assets⟩

def StoreState.stock (s : StoreState AssetDirectory) : Stock := ⟨s.files, some s.source⟩

namespace OutputDirectory

def IsApart (o : OutputDirectory) (p : Path) : Prop := o.files.IsApart o.place p

def Covers (o : OutputDirectory) (q : Place) : Prop := o.place <+: q ∧ q ≠ o.place

/-- The place of a page with one of the names, or a place for copies of assets. -/
def IsWritten (o : OutputDirectory) (N : String → Prop) (q : Place) : Prop :=
  (∃ name, N name ∧ q = o.place ++ [name]) ∨ o.place ++ [Asset.directory] <+: q

variable {o : OutputDirectory} {N : String → Prop}

theorem covers_of_isWritten {q : Place} (h : o.IsWritten N q) : o.Covers q := by
  obtain ⟨name, -, rfl⟩ | h := h
  · exact ⟨List.prefix_append _ _, by simp⟩
  · refine ⟨(List.prefix_append _ _).trans h, ?_⟩
    rintro rfl
    have hlength := h.length_le
    simp only [List.length_append, List.length_singleton] at hlength
    omega

theorem not_covers_of_not_below {q : Place} (h : ¬ o.place <+: q) :
    ¬ o.Covers q ∧ ∀ name, ¬ o.Covers (q ++ [name]) := by
  refine ⟨fun hq => h hq.1, fun name hq => ?_⟩
  rcases List.prefix_concat_iff.1 hq.1 with heq | hbelow
  · exact hq.2 heq.symm
  · exact h hbelow

/-- What holds at each step of a run. Remembered answers are those of the directory of assets as it was,
if it is apart from the output. -/
structure Kept (o : OutputDirectory) (x : Stock) : Prop where
  proper : x.files.Proper
  altered : Alters o.Covers o.files x.files
  memory : ∀ d ∈ x.assets, ∀ ref a, (ref, a) ∈ d.remembered → a.StaysInside ref ∧
    (o.IsApart d.root → AssetDirectory.lookUp o.files d.root ref = .ok (some a))

/-- Steps that write pages with certain names and copies of assets only. -/
structure Moves (o : OutputDirectory) (N : String → Prop) (x y : Stock) : Prop where
  kept : o.Kept y
  alters : Alters (o.IsWritten N) x.files y.files
  root : y.assets.map (·.root) = x.assets.map (·.root)

variable {x y z : Stock} {t : FileTree} {d : AssetDirectory}

theorem Kept.refl (h : o.Kept x) (N : String → Prop) : o.Moves N x x := ⟨h, .refl _ _, rfl⟩

theorem Moves.trans (h : o.Moves N x y) (h' : o.Moves N y z) : o.Moves N x z :=
  ⟨h'.kept, h.alters.trans h'.alters, h'.root.trans h.root⟩

theorem Moves.mono {M : String → Prop} (h : o.Moves N x y) (hN : ∀ name, N name → M name) :
    o.Moves M x y :=
  ⟨h.kept, h.alters.mono fun _ hq => hq.imp_left fun ⟨name, hname, heq⟩ => ⟨name, hN name hname, heq⟩,
    h.root⟩

theorem Kept.located (h : o.Kept x) : x.files.locate o.path = .ok o.place :=
  h.altered.keeps.locate o.located

theorem Kept.isDirectory (h : o.Kept x) : x.files.get? o.place = some .directory :=
  h.altered.keeps.directory _ o.isDirectory

theorem Kept.moves_files (h : o.Kept x) (hproper : t.Proper)
    (halters : Alters (o.IsWritten N) x.files t) : o.Moves N x ⟨t, x.assets⟩ :=
  ⟨⟨hproper, h.altered.trans (halters.mono fun _ => covers_of_isWritten), h.memory⟩, halters, rfl⟩

/-- A directory of assets that is apart from the output answers as it did at first. -/
theorem Kept.lookUp_eq (h : o.Kept x) {root : Path} (hroot : o.IsApart root) (ref : String) :
    AssetDirectory.lookUp x.files root ref = AssetDirectory.lookUp o.files root ref := by
  obtain ⟨q, hq, hplace⟩ := hroot
  obtain ⟨hcovers, hinner⟩ := not_covers_of_not_below hplace
  exact AssetDirectory.lookUp_eq h.altered o.proper hq hcovers hinner ref

theorem Kept.moves_remember (h : o.Kept ⟨t, some d⟩) (ref : String) (N : String → Prop) :
    o.Moves N ⟨t, some d⟩ ⟨t, some (d.remember t ref)⟩ := by
  unfold AssetDirectory.remember
  split
  · exact h.refl N
  · split
    · next a ha =>
      refine ⟨⟨h.proper, h.altered, fun d' hd' ref' a' hmem => ?_⟩, .refl _ _, rfl⟩
      obtain rfl := Option.some.inj hd'
      rcases List.mem_cons.1 hmem with heq | hmem
      · obtain ⟨rfl, rfl⟩ := Prod.mk.inj heq
        refine ⟨AssetDirectory.staysInside_of_lookUp h.proper ha, fun hroot => ?_⟩
        rw [← h.lookUp_eq hroot]
        exact ha
      · exact h.memory d rfl ref' a' hmem
    · exact h.refl N

theorem Kept.moves_rememberAll (h : o.Kept x) (refs : List String) (N : String → Prop) :
    o.Moves N x ⟨x.files, x.assets.map fun d =>
      refs.foldl (fun d ref => d.remember x.files ref) d⟩ := by
  obtain ⟨t, assets⟩ := x
  cases assets with
  | none => exact h.refl N
  | some d =>
    induction refs generalizing d with
    | nil => exact h.refl N
    | cons ref refs ih =>
      have hfirst := h.moves_remember ref N
      exact hfirst.trans (ih _ hfirst.kept)

/-- An asset that the directory has for a reference is copied inside the directory of copies. -/
theorem Kept.staysInside (h : o.Kept ⟨t, some d⟩) {ref : String} {a : Asset}
    (ha : (d.resolve t ref).value = .ok (some a)) : a.StaysInside ref := by
  unfold AssetDirectory.resolve at ha
  split at ha
  · next hlookup =>
    obtain rfl := Option.some.inj (Except.ok.inj ha)
    obtain ⟨before, later, hremembered, -⟩ := List.lookup_eq_some_iff.1 hlookup
    exact (h.memory d rfl ref _ (by simp [hremembered])).1
  · split at ha
    · cases ha
    · exact AssetDirectory.staysInside_of_lookUp h.proper ha

/-- What the directory of assets answers does not depend on the run, nor on its memory. -/
theorem Kept.resolve_eq (h : o.Kept ⟨t, some d⟩) (hroot : o.IsApart d.root) :
    d.resolve t = AssetDirectory.resolve { root := d.root } o.files := by
  funext ref
  unfold AssetDirectory.resolve
  rw [h.lookUp_eq hroot]
  simp only [List.lookup_nil]
  split
  · next a hlookup =>
    obtain ⟨before, later, hremembered, -⟩ := List.lookup_eq_some_iff.1 hlookup
    rw [(h.memory d rfl ref a (by simp [hremembered])).2 hroot]
  · rfl

theorem moves_bind {ε σ α β : Type} (view : σ → Stock) {x : EStateM ε σ α} {f : α → EStateM ε σ β}
    {s : σ} (hx : o.Moves N (view s) (view (stateAfter x s)))
    (hf : ∀ a s', x s = .ok a s' → o.Kept (view s') →
      o.Moves N (view s') (view (stateAfter (f a) s'))) :
    o.Moves N (view s) (view (stateAfter (x >>= f) s)) := by
  change o.Moves N (view s) (view (stateAfter (EStateM.bind x f) s))
  unfold stateAfter EStateM.bind at *
  cases hresult : x s with
  | ok a s' =>
    rw [hresult] at hx
    exact hx.trans (hf a s' hresult hx.kept)
  | error e s' =>
    rw [hresult] at hx
    exact hx

section Storing

variable {s : StoreState AssetDirectory}

theorem moves_answer (hs : o.Kept s.stock) (ref : String) :
    o.Moves N s.stock (stateAfter (AssetDirectory.answer ref) s).stock := by
  have hremember := hs.moves_remember ref N
  unfold stateAfter AssetDirectory.answer
  simp only
  cases (s.source.resolve s.files ref).value with
  | ok a => exact hremember
  | error e => exact hremember

theorem moves_onFiles {f : FileTree → Except FileError FileTree} (hs : o.Kept s.stock)
    (hf : ∀ t, f s.files = .ok t → t.Proper ∧ Alters (o.IsWritten N) s.files t) :
    o.Moves N s.stock (stateAfter (Asset.onFiles f) s).stock := by
  unfold stateAfter Asset.onFiles
  cases ht : f s.files with
  | ok t => exact hs.moves_files (hf t ht).1 (hf t ht).2
  | error e => exact hs.refl N

theorem staysInside_of_answer (hs : o.Kept s.stock) {ref : String} {a : Asset}
    {s' : StoreState AssetDirectory} (h : AssetDirectory.answer ref s = .ok (some a) s') :
    a.StaysInside ref := by
  unfold AssetDirectory.answer at h
  simp only at h
  split at h
  · next a' ha =>
    cases h
    exact hs.staysInside ha
  · cases h

/-- The directory of copies is made in the output directory. -/
theorem makeDirectories_copies (hx : o.Kept x)
    (h : x.files.makeDirectories (o.path.child Asset.directory) = .ok t) :
    t.Proper ∧ Alters (o.IsWritten N) x.files t := by
  have hproper := hx.proper.makeDirectories (Path.isRead_child o.isRead _) h
  rw [Asset.child_directory] at h
  refine ⟨hproper, (FileTree.makeDirectories_alters (by decide) hx.located hx.isDirectory h).mono ?_⟩
  rintro q rfl
  exact .inr (List.prefix_refl _)

/-- Copies stay in the directory of copies. -/
theorem write_copy (hx : o.Kept x) {a : Asset} {ref : String} (ha : a.StaysInside ref)
    (h : x.files.write (a.target o.path ref) a.data = .ok t) :
    t.Proper ∧ Alters (o.IsWritten N) x.files t := by
  refine ⟨hx.proper.write (Path.isRead_child (Path.isRead_child o.isRead _) _) h, ?_⟩
  obtain ⟨place, hplace, -, halters⟩ := FileTree.write_alters h
  obtain ⟨names, htarget, hnames⟩ := Asset.exists_target_eq ha o.path
  rw [htarget] at hplace
  have hbelow : ∀ name ∈ "assets" :: names, name ≠ ".." := List.forall_mem_cons.2 ⟨by decide, hnames⟩
  obtain rfl := FileTree.locate_descend hbelow hx.located hplace
  refine halters.mono ?_
  rintro q rfl
  exact .inr ⟨names, by simp [Asset.directory]⟩

theorem moves_store (hs : o.Kept s.stock) (ref : String) :
    o.Moves N s.stock (stateAfter (Asset.store AssetDirectory.answer o.path ref) s).stock := by
  refine moves_bind StoreState.stock (moves_answer hs ref) fun answer s₁ hanswer hs₁ => ?_
  cases answer with
  | none => exact hs₁.refl N
  | some a =>
    have hinside := staysInside_of_answer hs hanswer
    refine moves_bind StoreState.stock
      (moves_onFiles hs₁ fun t ht => makeDirectories_copies hs₁ ht) fun _ s₂ _ hs₂ => ?_
    exact moves_bind StoreState.stock (moves_onFiles hs₂ fun t ht => write_copy hs₂ hinside ht)
      fun _ s₃ _ hs₃ => hs₃.refl N

theorem moves_storeEach (hs : o.Kept s.stock) (refs : List String) :
    o.Moves N s.stock (stateAfter (Asset.storeEach AssetDirectory.answer o.path refs) s).stock := by
  induction refs generalizing s with
  | nil => exact hs.refl N
  | cons ref refs ih =>
    refine moves_bind StoreState.stock (moves_store hs ref) fun path s₁ _ hs₁ => ?_
    exact moves_bind StoreState.stock (ih hs₁) fun paths s₂ _ hs₂ => hs₂.refl N

end Storing

section Converting

variable {settings : Settings} {p : Path} {s : ConvertState}

theorem moves_storeAssets (hs : o.Kept s.stock) (refs : List String) :
    o.Moves N s.stock (stateAfter (Convert.storeAssets refs o.path) s).stock := by
  unfold stateAfter Convert.storeAssets
  cases hd : s.assets with
  | none => exact hs.refl N
  | some d =>
    have hstock : s.stock = (⟨s.files, d, s.log⟩ : StoreState AssetDirectory).stock := by
      rw [ConvertState.stock, StoreState.stock, hd]
    have hstored := moves_storeEach (N := N) (hstock ▸ hs) refs.eraseDups
    rw [← hstock] at hstored
    unfold stateAfter at hstored
    simp only
    unfold Asset.storeAll
    cases hresult : Asset.storeEach AssetDirectory.answer o.path refs.eraseDups ⟨s.files, d, s.log⟩ with
    | ok paths t =>
      rw [hresult] at hstored
      exact hstored
    | error e t =>
      rw [hresult] at hstored
      exact hstored

theorem moves_ofExcept {ε α : Type} (hs : o.Kept s.stock) (f : ε → ConvertFault) (x : Except ε α) :
    o.Moves N s.stock (stateAfter (Convert.ofExcept f x) s).stock := by
  cases x <;> exact hs.refl N

theorem moves_loadTrimmed (hs : o.Kept s.stock) :
    o.Moves N s.stock (stateAfter (Convert.loadTrimmed settings p) s).stock := by
  refine moves_bind ConvertState.stock (hs.refl N) fun s₁ s₂ _ hs₂ => ?_
  refine moves_bind ConvertState.stock (moves_ofExcept hs₂ _ _) fun b s₃ _ hs₃ => ?_
  split
  · exact hs₃.refl N
  · exact hs₃.refl N

theorem moves_page (hs : o.Kept s.stock) (b : Block) :
    o.Moves N s.stock (stateAfter (Convert.page settings b) s).stock := by
  unfold Convert.page
  cases settings.profile with
  | legacy =>
    refine moves_bind ConvertState.stock (hs.refl N) fun r s₁ _ hs₁ => ?_
    exact moves_ofExcept hs₁ _ r
  | tree =>
    refine moves_bind ConvertState.stock (hs.refl N) fun s₁ s₂ _ hs₂ => ?_
    refine moves_bind ConvertState.stock (hs₂.refl N) fun r s₃ _ hs₃ => ?_
    refine moves_bind ConvertState.stock (moves_ofExcept hs₃ _ r) fun page s₄ _ hs₄ => ?_
    exact moves_bind ConvertState.stock (hs₄.moves_rememberAll page.assetIds N)
      fun _ s₅ _ hs₅ => hs₅.refl N

theorem moves_file (hs : o.Kept s.stock) :
    o.Moves N s.stock (stateAfter (Convert.file settings p) s).stock := by
  refine moves_bind ConvertState.stock (moves_loadTrimmed hs) fun b s₁ _ hs₁ => ?_
  refine moves_bind ConvertState.stock (moves_page hs₁ b) fun page s₂ _ hs₂ => ?_
  exact moves_bind ConvertState.stock (hs₂.refl N) fun title s₃ _ hs₃ => hs₃.refl N

theorem moves_onConvertFiles {f : FileTree → Except FileError FileTree} (hs : o.Kept s.stock)
    (hf : ∀ t, f s.files = .ok t → t.Proper ∧ Alters (o.IsWritten N) s.files t) :
    o.Moves N s.stock (stateAfter (Convert.onFiles f) s).stock := by
  unfold stateAfter Convert.onFiles
  cases ht : f s.files with
  | ok t => exact hs.moves_files (hf t ht).1 (hf t ht).2
  | error e => exact hs.refl N

/-- A page is written in the output directory under its name. -/
theorem write_page (hx : o.Kept x) {name : String} (hname : IsName name) {data : ByteArray}
    (h : x.files.write (o.path.descend [name]) data = .ok t) :
    t.Proper ∧ x.files.locate (o.path.descend [name]) = .ok (o.place ++ [name]) ∧
      t.get? (o.place ++ [name]) = some (.file data) ∧ Alters (· = o.place ++ [name]) x.files t := by
  have hread : (o.path.descend [name]).IsRead := by
    intro n hn
    rcases List.mem_append.1 hn with hn | hn
    · exact o.isRead n hn
    · rw [List.mem_singleton.1 hn]
      exact .inl hname
  obtain ⟨place, hplace, hfile, halters⟩ := FileTree.write_alters h
  have hdots : ∀ n ∈ [name], n ≠ ".." := by
    rintro n hn rfl
    rw [List.mem_singleton] at hn
    exact hname.ne_dots hn.symm
  obtain rfl := FileTree.locate_descend hdots hx.located hplace
  exact ⟨hx.proper.write hread h, hplace, hfile, halters⟩

theorem moves_write (hs : o.Kept s.stock) {name : String} (hname : IsName name) (hN : N name)
    (text : String) :
    o.Moves N s.stock (stateAfter (Convert.write (o.path.descend [name]) text) s).stock := by
  have hwrite (data : ByteArray) (t : FileTree)
      (ht : s.files.write (o.path.descend [name]) data = .ok t) :
      t.Proper ∧ Alters (o.IsWritten N) s.files t := by
    obtain ⟨hproper, -, -, halters⟩ := write_page hs hname ht
    exact ⟨hproper, halters.mono fun q hq => .inl ⟨name, hN, hq⟩⟩
  unfold Convert.write
  split
  · exact moves_onConvertFiles hs (hwrite _)
  · refine moves_bind ConvertState.stock (moves_onConvertFiles hs (hwrite _)) fun _ s₁ _ hs₁ => ?_
    exact moves_ofExcept hs₁ _ _

end Converting

end OutputDirectory
end PageExport
