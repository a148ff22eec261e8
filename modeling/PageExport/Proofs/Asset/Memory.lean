import PageExport.Proofs.Asset.Lookup
import PageExport.Proofs.Walk.Moves

/-!
What a directory of assets answers while its files change. The first asset found for a reference is its
answer for good; until then each answer comes from the files of that moment, and what other references
were answered makes no difference. So the assets that are copied are those that the links name, whatever
happens to the files after the links were made.
-/
namespace PageExport

/-- The images of a walk show the assets that the resolver has for its references, one by one. -/
theorem depicts_of_walk {assets : Option Resolver} {b : Block} {result : WalkResult}
    (h : (b.walk assets (.root [])).value = .ok result) :
    List.Forall₂ (Depicts assets) result.assetIds result.tree.images := by
  let s : WalkState := { context := .start (.root []) 0 }
  have hparents : ∀ o ∈ s.context.stack, o.IsParent := by
    intro o ho
    rw [List.mem_singleton.1 ho]
    rfl
  have hmoved : Walk.Leads (Walk.visit (assets.map .steady) none b) s _ _ :=
    Walk.moves_visit assets none b hparents
  unfold Walk.Leads at hmoved
  unfold Block.walk Block.walkFrom at h
  cases hv : Walk.visit (assets.map .steady) none b s with
  | error e t =>
    rw [hv] at h
    cases h
  | ok u t =>
    rw [hv] at h hmoved
    cases h
    have hids : t.assetIds = (b.pictures assets).map Prod.fst := hmoved.assetIds
    have himages : t.context.tree.images = (b.pictures assets).map Prod.snd := hmoved.images
    change List.Forall₂ (Depicts assets) t.assetIds t.context.tree.images
    rw [hids, himages, List.forall₂_map_left_iff, List.forall₂_map_right_iff, List.forall₂_same]
    exact b.depicts_pictures assets

/-- A reference whose image is shown has an asset. -/
theorem exists_asset_of_depicts {r : Resolver} {refs : List String} {ns : List Markdown.Node}
    (h : List.Forall₂ (Depicts (some r)) refs ns) {ref : String} (hmem : ref ∈ refs) :
    ∃ a, (r ref).value = .ok (some a) := by
  induction h with
  | nil => cases hmem
  | cons hfirst _ ih =>
    rcases List.mem_cons.1 hmem with rfl | hmem
    · obtain ⟨_, hr, a, ha, -⟩ := hfirst
      cases hr
      exact ⟨a, ha⟩
    · exact ih hmem

theorem asset?_of_value {r : Resolver} {ref : String} {a : Asset}
    (h : (r ref).value = .ok (some a)) : r.asset? ref = some a := by
  rw [Resolver.asset?, h]

namespace AssetDirectory

open FileTree (Proper)

/-- The asset that the files have for a reference. -/
def found (t : FileTree) (root : Path) (ref : String) : Option Asset :=
  match lookUp t root ref with
  | .ok a => a
  | .error _ => none

variable {d : AssetDirectory} {t : FileTree} {root : Path} {ref : String} {a : Asset}

theorem found_eq_some_iff : found t root ref = some a ↔ lookUp t root ref = .ok (some a) := by
  unfold found
  cases lookUp t root ref <;> simp

@[simp] theorem root_remember (d : AssetDirectory) (t : FileTree) (ref : String) :
    (d.remember t ref).root = d.root := by
  unfold remember
  split
  · rfl
  · split <;> rfl

/-- What is remembered for a reference stays; nothing else is remembered than what was found for it. -/
theorem lookup_remember (d : AssetDirectory) (t : FileTree) (other ref : String) :
    (d.remember t other).remembered.lookup ref =
      (d.remembered.lookup ref).or (if other = ref then found t d.root ref else none) := by
  unfold remember
  by_cases hother : other = ref
  · subst hother
    cases hknown : d.remembered.lookup other with
    | some a => simp [hknown]
    | none =>
      simp only [Option.isSome_none, Bool.false_eq_true, ↓reduceIte, Option.none_or, found]
      cases hfound : lookUp t d.root other with
      | error e => simpa using hknown
      | ok x => cases x <;> simp [hknown]
  · have hne : (ref == other) = false := by simpa using Ne.symm hother
    rw [if_neg hother, Option.or_none]
    split
    · rfl
    · split
      · simp only [List.lookup_cons, hne]
      · rfl

/-- A reference is answered from memory, or as by a directory that remembers nothing. -/
theorem resolve_eq (d : AssetDirectory) (t : FileTree) (ref : String) :
    d.resolve t ref =
      match d.remembered.lookup ref with
      | some a => pure (.ok (some a))
      | none => resolve ⟨d.root, []⟩ t ref := by
  unfold resolve
  cases d.remembered.lookup ref <;> rfl

theorem resolve_of_lookup (h : d.remembered.lookup ref = some a) (t : FileTree) :
    d.resolve t ref = pure (.ok (some a)) := by
  rw [resolve_eq, h]

/-- An asset that is answered was remembered or is found in the files. -/
theorem lookup_or_found_of_resolve (h : (d.resolve t ref).value = .ok (some a)) :
    (d.remembered.lookup ref).or (found t d.root ref) = some a := by
  rw [resolve_eq] at h
  cases hknown : d.remembered.lookup ref with
  | some b =>
    rw [hknown] at h
    exact Except.ok.inj h
  | none =>
    rw [hknown] at h
    unfold resolve at h
    simp only [List.lookup_nil] at h
    rw [Option.none_or, found_eq_some_iff]
    split at h
    · cases h
    · exact h

/-- What happens to a directory and to the files. -/
inductive Event where
  | change (files : FileTree)
  | resolve (ref : String)

/-- The event matters to the answers for a reference. -/
def Event.concerns (ref : String) : Event → Bool
  | .change _ => true
  | .resolve other => other = ref

/-- A directory among files. -/
structure Moment where
  source : AssetDirectory
  files : FileTree

namespace Moment

/-- Nothing is remembered yet. -/
def start (root : Path) (t : FileTree) : Moment := ⟨⟨root, []⟩, t⟩

def step (m : Moment) : Event → Moment
  | .change t => { m with files := t }
  | .resolve ref => { m with source := m.source.remember m.files ref }

def after (m : Moment) (es : List Event) : Moment := es.foldl step m

/-- The answers at this moment. -/
def resolver (m : Moment) : Resolver := m.source.resolve m.files

theorem after_cons (m : Moment) (e : Event) (es : List Event) :
    m.after (e :: es) = (m.step e).after es := rfl

@[simp] theorem root_step (m : Moment) (e : Event) : (m.step e).source.root = m.source.root := by
  cases e with
  | change t => rfl
  | resolve ref => exact root_remember m.source m.files ref

@[simp] theorem root_after (m : Moment) (es : List Event) :
    (m.after es).source.root = m.source.root := by
  induction es generalizing m with
  | nil => rfl
  | cons e es ih => rw [after_cons, ih, root_step]

end Moment

/-- The first asset that is found for a reference when it is resolved, each time in the files of that
moment. -/
def firstFound (root : Path) (ref : String) (t : FileTree) : List Event → Option Asset
  | [] => none
  | .change t' :: es => firstFound root ref t' es
  | .resolve other :: es =>
    (if other = ref then found t root ref else none).or (firstFound root ref t es)

/-- What is remembered for a reference after some events is what was remembered before, or else the first
asset that was found for it. -/
theorem lookup_after (m : Moment) (es : List Event) (ref : String) :
    (m.after es).source.remembered.lookup ref =
      (m.source.remembered.lookup ref).or (firstFound m.source.root ref m.files es) := by
  induction es generalizing m with
  | nil => simp [Moment.after, firstFound]
  | cons e es ih =>
    rw [Moment.after_cons, ih, Moment.root_step]
    cases e with
    | change t => rfl
    | resolve other =>
      simp only [Moment.step, firstFound]
      rw [lookup_remember, Option.or_assoc]

theorem resolver_after (root : Path) (t : FileTree) (es : List Event) (ref : String) :
    ((Moment.start root t).after es).resolver ref =
      match firstFound root ref t es with
      | some a => pure (.ok (some a))
      | none => resolve ⟨root, []⟩ ((Moment.start root t).after es).files ref := by
  rw [Moment.resolver, resolve_eq, lookup_after, Moment.root_after]
  rfl

/-- An asset that was answered is the answer to the same reference ever after. -/
theorem lookup_after_resolve {m : Moment} (h : (m.resolver ref).value = .ok (some a))
    (later : List Event) :
    (m.after (.resolve ref :: later)).source.remembered.lookup ref = some a := by
  have hknown : (m.step (.resolve ref)).source.remembered.lookup ref = some a := by
    rw [Moment.step, lookup_remember, if_pos rfl]
    exact lookup_or_found_of_resolve h
  rw [Moment.after_cons, lookup_after, hknown]
  rfl

/-- Resolving other references before makes no difference. -/
theorem value_resolver_step {m : Moment} (h : (m.resolver ref).value = .ok (some a)) (other : String) :
    ((m.step (.resolve other)).resolver ref).value = .ok (some a) := by
  by_cases hother : other = ref
  · subst hother
    have hknown : (m.step (.resolve other)).source.remembered.lookup other = some a :=
      lookup_after_resolve h []
    rw [Moment.resolver, resolve_of_lookup hknown]
    rfl
  · have hsame : (m.step (.resolve other)).source.remembered.lookup ref =
        m.source.remembered.lookup ref := by
      rw [Moment.step, lookup_remember, if_neg hother, Option.or_none]
    rw [Moment.resolver, resolve_eq, hsame, Moment.root_step]
    rw [Moment.resolver, resolve_eq] at h
    exact h

theorem lookup_after_resolveAll {m : Moment} {refs : List String} (hmem : ref ∈ refs)
    (h : (m.resolver ref).value = .ok (some a)) (later : List Event) :
    (m.after (refs.map .resolve ++ later)).source.remembered.lookup ref = some a := by
  induction refs generalizing m with
  | nil => cases hmem
  | cons first refs ih =>
    rw [List.map_cons, List.cons_append]
    rcases List.mem_cons.1 hmem with rfl | hmem
    · exact lookup_after_resolve h _
    · exact ih hmem (value_resolver_step h first)

theorem firstFound_filter (root : Path) (ref : String) (t : FileTree) (es : List Event) :
    firstFound root ref t (es.filter (Event.concerns ref)) = firstFound root ref t es := by
  induction es generalizing t with
  | nil => rfl
  | cons e es ih =>
    cases e with
    | change t' => exact ih t'
    | resolve other =>
      by_cases hother : other = ref
      · rw [List.filter_cons_of_pos (by simp [Event.concerns, hother]), firstFound, firstFound, ih]
      · rw [List.filter_cons_of_neg (by simp [Event.concerns, hother]), firstFound, if_neg hother, ih]
        rfl

theorem files_after_filter (m : Moment) (ref : String) (es : List Event) :
    (m.after (es.filter (Event.concerns ref))).files = (m.after es).files := by
  suffices h : ∀ m m' : Moment, m.files = m'.files →
      (m.after (es.filter (Event.concerns ref))).files = (m'.after es).files from h m m rfl
  induction es with
  | nil => exact fun _ _ h => h
  | cons e es ih =>
    intro m m' h
    cases e with
    | change t => exact ih _ _ rfl
    | resolve other =>
      by_cases hother : other = ref
      · rw [List.filter_cons_of_pos (by simp [Event.concerns, hother])]
        exact ih _ _ h
      · rw [List.filter_cons_of_neg (by simp [Event.concerns, hother])]
        exact ih _ _ h

/-- An answer from memory changes nothing. -/
theorem answer_of_lookup {s : StoreState AssetDirectory}
    (h : s.source.remembered.lookup ref = some a) :
    AssetDirectory.answer ref s = .ok (some a) s := by
  have hsame : s.source.remember s.files ref = s.source := by simp [remember, h]
  simp [AssetDirectory.answer, resolve_of_lookup h, hsame]

/-- Copying the assets of remembered references is copying these assets. -/
theorem storeEach_of_remembered {refs : List String} {asset : String → Option Asset} (dest : Path)
    {s : StoreState AssetDirectory}
    (h : ∀ ref ∈ refs, ∃ a, s.source.remembered.lookup ref = some a ∧ asset ref = some a) :
    Asset.storeEach AssetDirectory.answer dest refs s =
      Asset.storeEach (fun ref => pure (asset ref)) dest refs s := by
  induction refs generalizing s with
  | nil => rfl
  | cons ref refs ih =>
    obtain ⟨⟨a, hknown, hasset⟩, hrest⟩ := List.forall_mem_cons.1 h
    have hanswer : AssetDirectory.answer ref s =
        (pure (asset ref) : Storing AssetDirectory (Option Asset)) s := by
      rw [answer_of_lookup hknown, hasset]
      rfl
    refine bind_eq_bind (bind_eq_bind hanswer fun _ _ _ => rfl) fun path s' hstore => ?_
    obtain ⟨_, s₁, hs₁, -, hsource, -⟩ := Asset.store_eq_ok_of_answer hstore
    cases hs₁
    refine bind_eq_bind (ih ?_) fun _ _ _ => rfl
    rwa [hsource]

/-- An asset found for a reference is found in the files of some moment. -/
theorem exists_found_of_firstFound {es : List Event} (h : firstFound root ref t es = some a) :
    ∃ t', (t' = t ∨ .change t' ∈ es) ∧ found t' root ref = some a := by
  induction es generalizing t with
  | nil => cases h
  | cons e es ih =>
    cases e with
    | change t₁ =>
      obtain ⟨t', rfl | hmem, hfound⟩ := ih h
      · exact ⟨t', .inr List.mem_cons_self, hfound⟩
      · exact ⟨t', .inr (List.mem_cons_of_mem _ hmem), hfound⟩
    | resolve other =>
      rw [firstFound, Option.or_eq_some_iff] at h
      rcases h with h | ⟨-, h⟩
      · split at h
        · exact ⟨t, .inl rfl, h⟩
        · cases h
      · obtain ⟨t', htree, hfound⟩ := ih h
        exact ⟨t', htree.imp_right (List.mem_cons_of_mem _), hfound⟩

theorem files_after (m : Moment) (es : List Event) :
    (m.after es).files = m.files ∨ .change (m.after es).files ∈ es := by
  induction es generalizing m with
  | nil => exact .inl rfl
  | cons e es ih =>
    rw [Moment.after_cons]
    cases e with
    | change t =>
      rcases ih (m.step (.change t)) with h | h
      · rw [h]
        exact .inr List.mem_cons_self
      · exact .inr (List.mem_cons_of_mem _ h)
    | resolve other =>
      exact (ih (m.step (.resolve other))).imp_right (List.mem_cons_of_mem _)

/-- Files of proper names are copied to where the links to them lead. -/
theorem child_url_of_resolver {es : List Event} (ht : t.Proper)
    (hes : ∀ t', .change t' ∈ es → t'.Proper)
    (h : (((Moment.start root t).after es).resolver ref).value = .ok (some a)) (dest : Path) :
    dest.child (a.url ref) = a.target dest ref := by
  have hanswer := lookup_or_found_of_resolve h
  rw [lookup_after, Moment.root_after, Option.or_eq_some_iff] at hanswer
  have hfound : ∃ t', t'.Proper ∧ found t' root ref = some a := by
    rcases hanswer with hfirst | ⟨-, hnow⟩
    · obtain ⟨t', rfl | hmem, hfound⟩ := exists_found_of_firstFound hfirst
      · exact ⟨t', ht, hfound⟩
      · exact ⟨t', hes t' hmem, hfound⟩
    · refine ⟨_, ?_, hnow⟩
      rcases files_after (Moment.start root t) es with hfiles | hmem
      · rw [hfiles]
        exact ht
      · exact hes _ hmem
  obtain ⟨t', ht', hfound⟩ := hfound
  have hinside := staysInside_of_lookUp ht' (found_eq_some_iff.1 hfound)
  exact Asset.child_url_eq_iff.2 fun hhead => hinside.1 (List.mem_of_mem_head? hhead)

/-- At any moment of a history of answers and changes of the files:
the answer is the first asset found before, and without one it is looked up in the files of that moment;
it would be the same had no other reference been resolved;
once it is an asset, it is the answer ever after, whatever happens;
so the images of a walk show the assets that are copied for their references later on, whatever happened
and whatever files there are then, and the links lead to where these are copied if all files have proper
names. -/
theorem answers_stay (root : Path) (t : FileTree) (es : List Event) {now : Moment}
    (hnow : now = (Moment.start root t).after es) :
    (∀ ref, now.resolver ref =
      match firstFound root ref t es with
      | some a => pure (.ok (some a))
      | none => resolve ⟨root, []⟩ now.files ref) ∧
    (∀ ref, ((Moment.start root t).after (es.filter (Event.concerns ref))).resolver ref =
      now.resolver ref) ∧
    (∀ ref a, (now.resolver ref).value = .ok (some a) → ∀ later,
      (now.after (.resolve ref :: later)).resolver ref = pure (.ok (some a))) ∧
    (∀ (b : Block) result, (b.walk (some now.resolver) (.root [])).value = .ok result →
      List.Forall₂ (Depicts (some now.resolver)) result.assetIds result.tree.images ∧
      ∀ later dest files log,
        let s : StoreState AssetDirectory :=
          ⟨files, (now.after (result.assetIds.map .resolve ++ later)).source, log⟩
        Asset.storeAll AssetDirectory.answer result.assetIds dest s =
          Asset.storeAll (fun ref => pure (now.resolver.asset? ref)) result.assetIds dest s) ∧
    (t.Proper → (∀ t', .change t' ∈ es → t'.Proper) → ∀ ref a dest,
      (now.resolver ref).value = .ok (some a) → dest.child (a.url ref) = a.target dest ref) := by
  subst hnow
  refine ⟨resolver_after root t es, fun ref => ?_, fun ref a h later => ?_, fun b result h => ?_,
    fun ht hes ref a dest h => child_url_of_resolver ht hes h dest⟩
  · rw [resolver_after, resolver_after, firstFound_filter, files_after_filter]
  · exact resolve_of_lookup (lookup_after_resolve h later) _
  · have hdepicts := depicts_of_walk h
    refine ⟨hdepicts, fun later dest files log => storeEach_of_remembered dest fun ref hmem => ?_⟩
    have hmem' := List.mem_eraseDups.1 hmem
    obtain ⟨a, ha⟩ := exists_asset_of_depicts hdepicts hmem'
    exact ⟨a, lookup_after_resolveAll hmem' ha later, asset?_of_value ha⟩

/-- A picture that was asked for in vain before it was there. -/
def latePicture : List Event :=
  [.resolve "pic", .change (FileTree.single "pic.png" "data".toUTF8), .resolve "other"]

/-- The picture is found late and copied although it is gone by then. -/
theorem answers_stay_latePicture :
    let a : Asset := ⟨"data".toUTF8, some "pic.png", "image/png"⟩
    let now := (Moment.start ⟨false, []⟩ {}).after latePicture
    let b : Block := ⟨"b", "affine:image", [("sourceId", .string "pic")], []⟩
    now.resolver "pic" = resolve ⟨⟨false, []⟩, []⟩ now.files "pic" ∧
    (now.resolver "pic").value = .ok (some a) ∧
    (now.after [.resolve "pic", .change {}]).resolver "pic" = pure (.ok (some a)) ∧
    (∃ result, (b.walk (some now.resolver) (.root [])).value = .ok result ∧
      result.assetIds = ["pic"] ∧
      ∀ dest log,
        let s : StoreState AssetDirectory := ⟨{}, (now.after [.resolve "pic", .change {}]).source, log⟩
        Asset.storeAll AssetDirectory.answer ["pic"] dest s =
          Asset.storeAll (fun ref => pure (now.resolver.asset? ref)) ["pic"] dest s) ∧
    (Path.ofString "out").child (a.url "pic") = a.target (Path.ofString "out") "pic" := by
  intro a now b
  have hname : IsFileName "pic.png" := ⟨by decide, by decide, by decide⟩
  have hstay := answers_stay ⟨false, []⟩ {} latePicture (rfl : now = _)
  have hfirst : now.resolver "pic" = resolve ⟨⟨false, []⟩, []⟩ now.files "pic" := by
    have hnone : firstFound ⟨false, []⟩ "pic" {} latePicture = none := by decide +kernel
    rw [hstay.1 "pic", hnone]
  have hanswer : (now.resolver "pic").value = .ok (some a) := by
    rw [hfirst, resolve_fresh]
    exact lookUp_single (by decide) (by decide) (by decide) hname (by decide)
  refine ⟨hfirst, hanswer, hstay.2.2.1 "pic" a hanswer _, ?_, hstay.2.2.2.2 ?_ ?_ "pic" a _ hanswer⟩
  · have hwalk : (b.walk (some now.resolver) (.root [])).value.toOption.map (·.assetIds) =
        some ["pic"] := by
      decide +kernel
    obtain ⟨result, hresult, hids⟩ := Option.map_eq_some_iff.1 hwalk
    have hresult : (b.walk (some now.resolver) (.root [])).value = .ok result := by
      cases hvalue : (b.walk (some now.resolver) (.root [])).value with
      | ok r =>
        rw [hvalue] at hresult
        rw [Option.some.inj hresult]
      | error e =>
        rw [hvalue] at hresult
        cases hresult
    have hcopies := (hstay.2.2.2.1 b result hresult).2 [.change {}]
    rw [hids] at hcopies
    exact ⟨result, hresult, hids, fun dest log => hcopies dest {} log⟩
  · exact ⟨by decide, rfl⟩
  · intro t' hmem
    have ht' : t' = FileTree.single "pic.png" "data".toUTF8 := by simpa [latePicture] using hmem
    rw [ht']
    exact FileTree.single_proper hname.isName

end AssetDirectory
end PageExport
