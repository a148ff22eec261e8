import PageExport.CommandLine
import PageExport.Proofs.Convert.Targets
import PageExport.Proofs.Snapshot.Loading

/-!
How a run ends that comes to a snapshot that cannot be loaded. It tells the fault with the path of the
file, except where the bytes are no text in UTF-8 or the text goes beyond a limit of the reader of JSON:
then it ends without telling anything.
-/
namespace PageExport

/-- A run tells the faults of snapshots. -/
theorem ConvertFault.report?_load (f : LoadFault) :
    (ConvertFault.load f).report? = if f.IsOfSnapshot then some f.message else none := by
  cases f with
  | read f => rfl
  | json p text r =>
    have hiff : (LoadFault.json p text r).IsOfSnapshot ↔
        ¬ (r.fault = .integerTooLong ∨ r.fault = .tooDeep) := by
      simp [LoadFault.IsOfSnapshot]
    simp only [ConvertFault.report?, hiff, ite_not, Bool.or_eq_true, decide_eq_true_eq]
  | snapshot p f => rfl

namespace Convert

variable {settings : Settings} {path p dest : Path} {s s₀ s₁ : ConvertState}

/-- A run over a path comes to a snapshot in a state: the snapshots before it were converted. -/
def Reaches (settings : Settings) (path : Path) (s₀ : ConvertState) (p : Path) (s : ConvertState) :
    Prop :=
  ∃ t before after done, s₀.files.makeDirectories (output settings) = .ok t ∧
    t.snapshots path = .ok (before ++ p :: after) ∧
    each settings (output settings) before { s₀ with files := t } = .ok done s

theorem loadTrimmed_of_error {f : LoadFault} (h : Block.load s.files p = .error f) :
    loadTrimmed settings p s = .error (.load f) s := by
  have hload : ofExcept .load (Block.load s.files p) s = .error (.load f) s := by rw [h]; rfl
  have hget : (get : Convert ConvertState) s = .ok s s := rfl
  exact (bind_of_eq_ok hget).trans (bind_of_eq_error hload)

/-- A snapshot that cannot be loaded ends its conversion, and leaves the state as it is. -/
theorem one_of_error (dest : Path) {f : LoadFault} (h : Block.load s.files p = .error f) :
    one settings dest p s = .error (.load f) s :=
  bind_of_eq_error (bind_of_eq_error (loadTrimmed_of_error h))

theorem each_append_of_error {before : List Path} (after : List Path) {done : List Converted}
    {e : ConvertFault} (hbefore : each settings dest before s₀ = .ok done s)
    (hp : one settings dest p s = .error e s₁) :
    each settings dest (before ++ p :: after) s₀ = .error e s₁ := by
  induction before generalizing s₀ done with
  | nil =>
    cases hbefore
    exact bind_of_eq_error hp
  | cons q qs ih =>
    obtain ⟨c, s₂, done', hone, hrest, rfl⟩ := each_cons_eq_ok hbefore
    exact (bind_of_eq_ok hone).trans (bind_of_eq_error (ih hrest))

/-- A run ends with the first snapshot that cannot be loaded. -/
theorem all_of_reaches (h : Reaches settings path s₀ p s) {f : LoadFault}
    (hload : Block.load s.files p = .error f) : all settings path s₀ = .error (.load f) s := by
  obtain ⟨t, before, after, done, hmake, hsources, hbefore⟩ := h
  rw [all_of_snapshots hmake hsources]
  exact each_append_of_error after hbefore (one_of_error _ hload)

theorem exists_each_of_append {before after : List Path} {done : List Converted}
    (h : each settings dest (before ++ p :: after) s₀ = .ok done s₁) :
    ∃ done' s c s', each settings dest before s₀ = .ok done' s ∧
      one settings dest p s = .ok c s' := by
  induction before generalizing s₀ done with
  | nil =>
    obtain ⟨c, s', -, hone, -⟩ := each_cons_eq_ok h
    exact ⟨[], s₀, c, s', rfl, hone⟩
  | cons q qs ih =>
    obtain ⟨d, s₂, cs, hq, hrest, -⟩ := each_cons_eq_ok h
    obtain ⟨done', s, c, s', hbefore, hone⟩ := ih hrest
    exact ⟨d :: done', s, c, s', (bind_of_eq_ok hq).trans (bind_of_eq_ok hbefore), hone⟩

theorem exists_load_of_one {c : Converted} (h : one settings dest p s = .ok c s₁) :
    ∃ b, Block.load s.files p = .ok b := by
  obtain ⟨stem, page, s₂, -, -, -, hfile, -⟩ := one_eq_ok h
  obtain ⟨b₁, s₃, hload, -⟩ := file_eq_ok hfile
  obtain ⟨b, hb, -⟩ := loadTrimmed_eq_ok_iff.1 hload
  exact ⟨b, hb⟩

/-- A run that returns came to each of its snapshots, and loaded it. -/
theorem exists_reaches_of_all {t : FileTree} {sources : List Path} {done : List Converted}
    (h : all settings path s₀ = .ok done s₁)
    (hmake : s₀.files.makeDirectories (output settings) = .ok t)
    (hsources : t.snapshots path = .ok sources) (hp : p ∈ sources) :
    ∃ s b, Reaches settings path s₀ p s ∧ Block.load s.files p = .ok b := by
  obtain ⟨before, after, rfl⟩ := List.append_of_mem hp
  rw [all_of_snapshots hmake hsources] at h
  obtain ⟨done', s, c, s', hbefore, hone⟩ := exists_each_of_append h
  obtain ⟨b, hb⟩ := exists_load_of_one hone
  exact ⟨s, b, ⟨t, before, after, done', hmake, hsources, hbefore⟩, hb⟩

theorem exitCode_endWith (report? : ConvertFault → Option String) (message : String)
    (f : ConvertFault) (s : ConvertState) : (endWith report? message f s).exitCode = 1 := by
  unfold endWith
  split <;> rfl

theorem exists_all_of_exitCode {path : String} {files : FileTree}
    (h : (runConvert settings path files).exitCode = 0) :
    ∃ done s, all settings (.ofString path) (.start settings files) = .ok done s := by
  unfold runConvert at h
  simp only at h
  split at h
  · cases h
  · cases h
  · split at h
    · rw [exitCode_endWith] at h
      cases h
    · next done s hall => exact ⟨done, s, hall⟩

theorem endWith_load (message : String) (f : LoadFault) :
    endWith ConvertFault.report? message (.load f) s = if f.IsOfSnapshot
      then .failure message (some f.message) s.files s.log
      else .escape (.convert (.load f)) s.files s.log := by
  rw [endWith, ConvertFault.report?_load]
  by_cases hf : f.IsOfSnapshot
  · rw [if_pos hf, if_pos hf]
  · rw [if_neg hf, if_neg hf]

/-- A run that comes to a snapshot that cannot be loaded tells it, or escapes from a fault that is not
told. -/
theorem runConvert_of_reaches {path : String} {files : FileTree}
    (hpath : files.exists? (.ofString path) = .ok true)
    (h : Reaches settings (.ofString path) (.start settings files) p s) {f : LoadFault}
    (hload : Block.load s.files p = .error f) :
    runConvert settings path files = if f.IsOfSnapshot
      then .failure "Conversion failed" (some f.message) s.files s.log
      else .escape (.convert (.load f)) s.files s.log := by
  have hall := all_of_reaches h hload
  unfold runConvert
  simp only [hpath]
  rw [hall]
  exact endWith_load _ f

end Convert

namespace Block

open PageExport.Convert (Reaches)

variable {t : FileTree} {p : Path} {data : ByteArray}

theorem printed_conversionFailed :
    printed ("Error: " ++ "Conversion failed") = "Error: Conversion failed\n" := by decide

/-- A file is either loaded or told as a bad snapshot exactly if it is legible, as a text within the limits
of JSON always is. What is told names the path behind bad JSON, and starts with it where the shape is
wrong. A run that comes to a file that cannot be loaded fails; it tells the fault and nothing else if it
is that of a bad snapshot, and otherwise ends without telling it. A run that succeeds came to each of its
snapshots and loaded it. -/
theorem load_isOfSnapshot_iff (hread : t.read p = .ok data) :
    ((∃ b, Block.load t p = .ok b) ∨ (∃ f, Block.load t p = .error f ∧ f.IsOfSnapshot) ↔
      IsLegible data) ∧
    (∀ text, IsTextOf text data → ¬ JsonText.HasLongRun text →
      text.countP JsonText.isOpening ≤ JsonText.maxDepth → IsLegible data) ∧
    (∀ f, Block.load t p = .error f → f.IsOfSnapshot → ∃ text, IsTextOf text data ∧
      ((∃ r, Value.parse text = .error r ∧
        f.message = "Invalid JSON in " ++ p.toString ++ ": " ++ r.message text) ∨
      ∃ v g, Value.parse text = .ok v ∧ Block.parse v = .error g ∧
        f.message = p.toString ++ ": " ++ g.message)) ∧
    (∀ (settings : Settings) (path : String) (files : FileTree) (s : ConvertState),
      files.exists? (.ofString path) = .ok true →
      Reaches settings (.ofString path) (.start settings files) p s → s.files = t →
      ∀ f, Block.load t p = .error f →
        let r := runConvert settings path files
        r.exitCode = 1 ∧ r.output = "" ∧
        (f.IsOfSnapshot → r.fault = none ∧
          r.complaint = "Error: Conversion failed\n" ++ printed ("  " ++ f.message)) ∧
        (¬ f.IsOfSnapshot → r.fault = some (.convert (.load f)) ∧ r.complaint = "")) ∧
    ∀ (settings : Settings) (path : String) (files made : FileTree) (sources : List Path),
      files.makeDirectories (Convert.output settings) = .ok made →
      made.snapshots (.ofString path) = .ok sources →
      (runConvert settings path files).exitCode = 0 → ∀ q ∈ sources, ∃ s b,
        Reaches settings (.ofString path) (.start settings files) q s ∧
        Block.load s.files q = .ok b := by
  refine ⟨?_, fun text => isLegible_of_text, fun f hf hsnapshot => ?_,
    fun settings path files s hpath hreach hs f hf => ?_,
    fun settings path files made sources hmake hsources hcode q hq => ?_⟩
  · rw [isLegible_iff hread]
    cases Block.load t p <;> simp
  · by_cases htext : ∃ text, IsTextOf text data
    · obtain ⟨text, htext⟩ := htext
      obtain ⟨r, hr, -, hmessage⟩ | ⟨v, g, hv, hg, -, hmessage⟩ :=
        message_of_load_of_text hread htext hf
      · exact ⟨text, htext, .inl ⟨r, hr, hmessage⟩⟩
      · exact ⟨text, htext, .inr ⟨v, g, hv, hg, hmessage⟩⟩
    · rw [load_of_not_text hread htext] at hf
      cases hf
      exact hsnapshot.elim
  · subst hs
    dsimp only
    rw [Convert.runConvert_of_reaches hpath hreach hf]
    by_cases hsnapshot : f.IsOfSnapshot
    · rw [if_pos hsnapshot, ← printed_conversionFailed]
      exact ⟨rfl, rfl, fun _ => ⟨rfl, rfl⟩, fun h => absurd hsnapshot h⟩
    · rw [if_neg hsnapshot]
      exact ⟨rfl, rfl, fun h => absurd h hsnapshot, fun _ => ⟨rfl, rfl⟩⟩
  · obtain ⟨done, s, hall⟩ := Convert.exists_all_of_exitCode hcode
    exact Convert.exists_reaches_of_all hall hmake hsources hq

/-- One snapshot file in a directory. -/
def oneFile (data : ByteArray) : FileTree where
  entries := [(["in"], .directory), (["in", "a.json"], .file data)]

/-- The files of a run over the one snapshot when it is loaded. -/
def oneFileMade (data : ByteArray) : FileTree where
  entries := (oneFile data).entries ++ [(["dist"], .directory)]

def oneFilePath : Path := ⟨false, ["in", "a.json"]⟩

theorem read_oneFileMade (data : ByteArray) : (oneFileMade data).read oneFilePath = .ok data := rfl

theorem reaches_oneFile (data : ByteArray) : Reaches {} (.ofString "in/a.json")
    (.start {} (oneFile data)) oneFilePath
    { ConvertState.start {} (oneFile data) with files := oneFileMade data } :=
  ⟨oneFileMade data, [], [], [], rfl, rfl, rfl⟩

/-- An object that is not closed is told as a bad snapshot. -/
theorem load_isOfSnapshot_iff_openObject :
    let data := "\x7b".toUTF8
    let r := runConvert {} "in/a.json" (oneFile data)
    (oneFileMade data).read oneFilePath = .ok data ∧ r.exitCode = 1 ∧ r.fault = none ∧
      r.complaint = "Error: Conversion failed\n  Invalid JSON in in/a.json: Expecting property " ++
        "name enclosed in double quotes: line 1 column 2 (char 1)\n" := by
  intro data r
  have hread := read_oneFileMade data
  have htext : IsTextOf ['\x7b'] data := ⟨"\x7b", rfl, by decide⟩
  have hparse : Value.parse ['\x7b'] = .error ⟨.propertyName, 0⟩ := rfl
  have hload : Block.load (oneFileMade data) oneFilePath =
      .error (.json oneFilePath ['\x7b'] ⟨.propertyName, 0⟩) := load_of_refusal hread htext hparse
  obtain ⟨hcode, -, htold, -⟩ := (load_isOfSnapshot_iff hread).2.2.2.1 {} "in/a.json" (oneFile data) _
    rfl (reaches_oneFile data) rfl _ hload
  obtain ⟨hfault, hcomplaint⟩ := htold (by decide)
  exact ⟨hread, hcode, hfault, hcomplaint.trans (by decide +kernel)⟩

/-- A byte that starts no character is neither loaded nor told as a bad snapshot: the run ends without a
word. -/
theorem load_of_byte255 :
    let data : ByteArray := ⟨#[255]⟩
    let r := runConvert {} "in/a.json" (oneFile data)
    ∃ f, (oneFileMade data).read oneFilePath = .ok data ∧
      Block.load (oneFileMade data) oneFilePath = .error f ∧ ¬ f.IsOfSnapshot ∧
      r.fault = some (.convert (.load f)) ∧ r.complaint = "" := by
  intro data r
  have htext : ¬ ∃ text, IsTextOf text data := fun ⟨_, h⟩ => not_isTextOf (by decide +kernel) h
  have hload := load_of_not_text (read_oneFileMade data) htext
  have hr : r = _ := Convert.runConvert_of_reaches rfl (reaches_oneFile data) hload
  rw [hr]
  exact ⟨_, read_oneFileMade data, hload, not_false, rfl, rfl⟩

end Block
end PageExport
