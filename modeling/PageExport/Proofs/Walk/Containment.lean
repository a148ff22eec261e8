import PageExport.Proofs.Snapshot.Subtree
import PageExport.Proofs.Walk.Steps

/-!
Blocks that fail. A block whose props or asset cannot be read is walked like a block of an unknown
flavour: but for the log, the walk does not show that it was there.
-/
namespace PageExport

open Markdown (Node)

namespace Walk

variable {α β : Type}

/-- States that differ at most in their logs, and in what the assets were asked for. -/
inductive Similar : WalkState → WalkState → Prop
  | mk (context : WalkContext) (ids : List String) (log log' : Log) (asked asked' : List String) :
    Similar ⟨context, ids, log, asked⟩ ⟨context, ids, log', asked'⟩

/-- Ends of a walk that differ in that at most. -/
inductive Alike : EStateM.Result WalkFault WalkState α → EStateM.Result WalkFault WalkState α → Prop
  | ok (a : α) {s t : WalkState} (h : Similar s t) : Alike (.ok a s) (.ok a t)
  | error (e : WalkFault) {s t : WalkState} (h : Similar s t) : Alike (.error e s) (.error e t)

/-- From states that differ in that at most two walks end alike. -/
def Agree (x y : Walk α) : Prop := ∀ ⦃s t⦄, Similar s t → Alike (x s) (y t)

theorem agree_pure (a : α) : Agree (pure a) (pure a) := fun _ _ h => .ok a h

theorem agree_bind {x y : Walk α} {f g : α → Walk β} (h : Agree x y) (hf : ∀ a, Agree (f a) (g a)) :
    Agree (x >>= f) (y >>= g) := by
  intro s t hst
  have hxy := h hst
  change Alike (EStateM.bind x f s) (EStateM.bind y g t)
  unfold EStateM.bind
  generalize x s = r at hxy ⊢
  generalize y t = r' at hxy ⊢
  cases hxy with
  | ok a huv => exact hf a huv
  | error e huv => exact .error e huv

theorem agree_withLeave {x y leave leave' : Walk Unit} (h : Agree x y) (hl : Agree leave leave') :
    Agree (withLeave x leave) (withLeave y leave') := by
  intro s t hst
  have hxy := h hst
  unfold withLeave
  generalize x s = r at hxy ⊢
  generalize y t = r' at hxy ⊢
  cases hxy with
  | ok _ huv => exact hl huv
  | @error e u v huv =>
    have hleave := hl huv
    simp only
    generalize leave u = r at hleave ⊢
    generalize leave' v = r' at hleave ⊢
    cases hleave with
    | ok _ h => exact .error e h
    | error e h => exact .error e h

theorem agree_logged {x y : Logged α} (h : x.value = y.value) : Agree (logged x) (logged y) := by
  rintro _ _ ⟨context, ids, log, log', asked, asked'⟩
  rw [logged, logged, h]
  exact .ok _ ⟨_, _, _, _, _, _⟩

theorem agree_note (level : Level) (message message' : String) :
    Agree (note level message) (note level message') := agree_logged rfl

theorem agree_onContext (f : WalkContext → Except ContextFault WalkContext) :
    Agree (onContext f) (onContext f) := by
  rintro _ _ ⟨context, ids, log, log', asked, asked'⟩
  unfold onContext
  cases f context with
  | ok c => exact .ok () ⟨_, _, _, _, _, _⟩
  | error e => exact .error _ ⟨_, _, _, _, _, _⟩

theorem agree_appendInside (n child : Node) : Agree (appendInside n child) (appendInside n child) :=
  agree_bind (agree_onContext _) fun _ => agree_withLeave (agree_onContext _) (agree_onContext _)

theorem agree_paragraphDepth : Agree paragraphDepth paragraphDepth := by
  rintro _ _ ⟨context, ids, log, log', asked, asked'⟩
  exact .ok _ ⟨_, _, _, _, _, _⟩

theorem agree_setParagraphDepth (depth : Nat) :
    Agree (setParagraphDepth depth) (setParagraphDepth depth) := by
  rintro _ _ ⟨context, ids, log, log', asked, asked'⟩
  exact .ok () ⟨_, _, _, _, _, _⟩

theorem agree_undo (leave : Leave) : Agree (undo leave) (undo leave) := by
  cases leave with
  | nothing => exact agree_pure ()
  | closeItem => exact agree_onContext _
  | leaveParagraph => exact agree_bind agree_paragraphDepth fun _ => agree_setParagraphDepth _

theorem agree_closeList (parent : Option String) : Agree (closeList parent) (closeList parent) := by
  intro s t hst
  have hclose := agree_onContext Context.closeNode hst
  obtain ⟨context, ids, log, log', asked, asked'⟩ := hst
  unfold closeList
  dsimp only
  split
  · split
    · exact hclose
    · exact .ok () ⟨_, _, _, _, _, _⟩
  · exact .ok () ⟨_, _, _, _, _, _⟩

variable {assets : Option Resolver} {parent : Option String} {b : Block}

theorem agree_withProps (read : Members → Logged (Reading α)) {f g : α → Walk Entry}
    (h : ∀ p, Agree (f p) (g p)) : Agree (withProps read b f) (withProps read b g) := by
  unfold withProps
  refine agree_bind (agree_logged rfl) fun r => ?_
  cases r with
  | ok p => exact h p
  | error m => exact agree_bind (agree_note _ _ _) fun _ => agree_pure _

theorem agree_appendParagraph (p : ParagraphProps) (depth : Nat) :
    Agree (appendParagraph b p depth) (appendParagraph b p depth) := by
  unfold appendParagraph
  split
  · exact agree_onContext _
  · exact agree_onContext _
  · exact agree_appendInside _ _
  · exact agree_note _ _ _

theorem agree_enterParagraph : Agree (enterParagraph b) (enterParagraph b) :=
  agree_withProps _ fun p => agree_bind agree_paragraphDepth fun _ =>
    agree_bind (agree_appendParagraph p _) fun _ =>
      agree_bind (agree_setParagraphDepth _) fun _ => agree_pure _

theorem agree_currentSignature : Agree currentSignature currentSignature := by
  rintro _ _ ⟨context, ids, log, log', asked, asked'⟩
  unfold currentSignature
  dsimp only
  split
  · exact .ok _ ⟨_, _, _, _, _, _⟩
  · exact .error _ ⟨_, _, _, _, _, _⟩

theorem agree_enterList : Agree (enterList b parent) (enterList b parent) := by
  have howner (prior : Option ListSignature) : Agree
      (fun s => .ok (if prior.isSome then s.context.current.scope else none) s)
      (fun s => .ok (if prior.isSome then s.context.current.scope else none) s) := by
    rintro _ _ ⟨context, ids, log, log', asked, asked'⟩
    exact .ok _ ⟨_, _, _, _, _, _⟩
  refine agree_withProps _ fun p => agree_bind agree_currentSignature fun prior =>
    agree_bind (howner prior) fun owner => ?_
  have hitem : Agree (do
      openNode (.listItem p.checkState false [])
      append (.paragraph (Markdown.nodesOfInlines (Delta.content 0 p.text)))
      return ({ leave := .closeItem } : Entry)) _ :=
    agree_bind (agree_onContext _) fun _ => agree_bind (agree_onContext _) fun _ => agree_pure _
  split
  · exact hitem
  · exact agree_bind (agree_closeList parent) fun _ =>
      agree_bind (agree_bind (agree_onContext _) fun _ => agree_onContext _) fun _ => hitem

theorem agree_failWith (fault : ResolveFault) :
    Agree (failWith fault : Walk α) (failWith fault) := fun _ _ h => .error _ h

theorem agree_ask (r : Resolver) (ref : String) : Agree (ask r.steady ref) (ask r.steady ref) := by
  rintro _ _ ⟨context, ids, log, log', asked, asked'⟩
  exact .ok _ ⟨_, _, _, _, _, _⟩

theorem agree_resolve (r : Resolver) (ref : String) :
    Agree (resolve r.steady b ref) (resolve r.steady b ref) := by
  unfold resolve
  refine agree_bind (agree_ask r ref) fun answer => ?_
  split
  · exact agree_pure _
  · exact agree_bind (agree_note _ _ _) fun _ => agree_pure _
  · split
    · exact agree_bind (agree_note _ _ _) fun _ => agree_pure _
    · exact agree_failWith _

theorem agree_addAssetId (ref : String) : Agree (addAssetId ref) (addAssetId ref) := by
  rintro _ _ ⟨context, ids, log, log', asked, asked'⟩
  exact .ok () ⟨_, _, _, _, _, _⟩

theorem agree_enterImage :
    Agree (enterImage (assets.map .steady) b) (enterImage (assets.map .steady) b) := by
  cases assets with
  | none => exact agree_pure _
  | some r =>
    refine agree_withProps _ fun p => agree_bind (agree_resolve r p.sourceId) fun answer => ?_
    cases answer with
    | none => exact agree_pure _
    | some a =>
      exact agree_bind (agree_addAssetId _) fun _ =>
        agree_bind (agree_appendInside _ _) fun _ => agree_pure _

theorem agree_enterPage : Agree (enterPage b) (enterPage b) := by
  refine agree_withProps _ fun p => ?_
  split
  · exact agree_pure _
  · exact agree_bind (agree_onContext _) fun _ => agree_pure _

theorem agree_enterOther : Agree (enterOther b) (enterOther b) := by
  unfold enterOther
  split
  · exact agree_pure _
  · exact agree_bind (agree_note _ _ _) fun _ => agree_pure _

/-- All that a database shows of a row hangs on its id and its props. -/
def rowKey (row : Block) : String × Members := (row.id, row.props)

theorem rowTexts_eq (p : DatabaseProps) (row : Block) :
    p.rowTexts row = p.rowTexts ⟨(rowKey row).1, "", (rowKey row).2, []⟩ := rfl

theorem value_grid_congr (p : DatabaseProps) {b b' : Block}
    (h : b.children.map rowKey = b'.children.map rowKey) : (p.grid b).value = (p.grid b').value := by
  have hrows (b : Block) : (p.grid b).value = p.header ::
      (b.children.map rowKey).map fun key => (p.rowTexts ⟨key.1, "", key.2, []⟩).value := by
    simp only [DatabaseProps.grid, Logged.value_bind, Logged.value_mapM, Logged.value_pure,
      List.map_map, Function.comp_def, ← rowTexts_eq]
  rw [hrows, hrows, h]

/-- Other blocks below a block change how it is entered only as rows of a database. -/
theorem agree_enter {cs : List Block} (h : b.children.map rowKey = cs.map rowKey) :
    Agree (enter (assets.map .steady) b parent)
      (enter (assets.map .steady) { b with children := cs } parent) := by
  unfold enter
  have hflavour : Block.flavour { b with children := cs } = b.flavour := rfl
  rw [hflavour]
  split
  · exact agree_withProps _ fun p => agree_bind (agree_onContext _) fun _ => agree_pure _
  · exact agree_enterParagraph
  · exact agree_enterList
  · exact agree_bind (agree_onContext _) fun _ => agree_pure _
  · exact agree_enterImage
  · exact agree_enterPage
  · refine agree_withProps (b := b) DatabaseProps.read fun p => ?_
    refine agree_bind (agree_logged (value_grid_congr p h)) fun grid => ?_
    exact agree_bind (agree_onContext _) fun _ => agree_pure _
  all_goals exact agree_enterOther

theorem agree_within {source : Option AssetSource} {b' : Block} (hid : b'.id = b.id) (entry : Entry)
    (h : Agree (visitAll source (some b.id) b.children) (visitAll source (some b.id) b'.children)) :
    Agree (within source b entry) (within source b' entry) := by
  unfold within
  rw [hid]
  refine agree_withLeave ?_ (agree_undo _)
  split
  · exact agree_bind h fun _ => agree_closeList _
  · exact agree_pure ()

theorem agree_visit {source : Option AssetSource} {b' : Block} (hid : b'.id = b.id)
    (hlist : b'.flavour = .list ↔ b.flavour = .list)
    (henter : Agree (enter source b parent) (enter source b' parent))
    (h : Agree (visitAll source (some b.id) b.children) (visitAll source (some b.id) b'.children)) :
    Agree (visit source parent b) (visit source parent b') := by
  have hentered := agree_bind henter fun entry => agree_within hid entry h
  rw [visit_eq, visit_eq]
  simp only [hlist]
  split
  · exact hentered
  · exact agree_bind (agree_closeList parent) fun _ => hentered

mutual

theorem agree_visit_self (assets : Option Resolver) (parent : Option String) : (b : Block) →
    Agree (visit (assets.map .steady) parent b) (visit (assets.map .steady) parent b)
  | ⟨id, _, _, children⟩ =>
    agree_visit rfl Iff.rfl (agree_enter rfl) (agree_visitAll_self assets (some id) children)

theorem agree_visitAll_self (assets : Option Resolver) (parent : Option String) : (bs : List Block) →
    Agree (visitAll (assets.map .steady) parent bs) (visitAll (assets.map .steady) parent bs)
  | [] => agree_pure ()
  | b :: bs =>
    agree_bind (agree_visit_self assets parent b) fun _ => agree_visitAll_self assets parent bs

end

theorem agree_visitAll_modify {f : Block → Block} (bs : List Block) (i : Nat)
    (h : ∀ c, bs[i]? = some c → Agree (visit (assets.map .steady) parent c)
      (visit (assets.map .steady) parent (f c))) :
    Agree (visitAll (assets.map .steady) parent bs)
      (visitAll (assets.map .steady) parent (bs.modify i f)) := by
  induction bs generalizing i with
  | nil =>
    rw [List.modify_nil]
    exact agree_pure ()
  | cons b bs ih =>
    cases i with
    | zero => exact agree_bind (h b rfl) fun _ => agree_visitAll_self assets parent bs
    | succ i => exact agree_bind (agree_visit_self assets parent b) fun _ => ih i h

end Walk

/-- The block puts nothing down because its props, or those of its asset, are not to be had. -/
def Block.Fails (assets : Option Resolver) (b : Block) : Prop :=
  match b.flavour with
  | .code => b.props? CodeProps.read = none
  | .paragraph => b.props? ParagraphProps.read = none
  | .page => b.props? PageProps.read = none
  | .database => b.props? DatabaseProps.read = none
  | .image => ∀ r ∈ assets, ∀ p, b.props? ImageProps.read = some p →
      (r p.sourceId).value = .ok none ∨ ∃ m, (r p.sourceId).value = .error (.unreadable m)
  | _ => False

namespace Walk

/-- A block is entered, and nothing comes of it but notes. -/
def Quiet (x : Walk Entry) : Prop :=
  ∀ s, Leads x s (fun entry t => entry = {} ∧ ∃ log asked, t = { s with log := log, asked := asked })
    fun _ _ => False

variable {assets : Option Resolver} {parent : Option String} {b : Block}

theorem agree_of_quiet {x y : Walk Entry} (hx : Quiet x) (hy : Quiet y) : Agree x y := by
  rintro _ _ ⟨context, ids, log, log', asked, asked'⟩
  have hs := hx ⟨context, ids, log, asked⟩
  have ht := hy ⟨context, ids, log', asked'⟩
  unfold Leads at hs ht
  split at hs
  · next hxs =>
    split at ht
    · next hyt =>
      obtain ⟨rfl, u, us, rfl⟩ := hs
      obtain ⟨rfl, v, vs, rfl⟩ := ht
      rw [hxs, hyt]
      exact .ok _ ⟨_, _, _, _, _, _⟩
    · exact ht.elim
  · exact hs.elim

theorem quiet_enterOther (b : Block) : Quiet (enterOther b) := by
  intro s
  unfold enterOther
  split
  · exact leads_bind (leads_pure _ (leads_pure _ ⟨rfl, s.log, s.asked, rfl⟩))
  · exact leads_bind (leads_logged (leads_pure _ ⟨rfl, _, s.asked, rfl⟩))

theorem quiet_withProps {α : Type} {read : Members → Logged (Reading α)} (h : b.props? read = none)
    (f : α → Walk Entry) : Quiet (withProps read b f) := by
  refine fun s => leads_withProps (fun p hp => ?_) fun _ log => ⟨rfl, log, s.asked, rfl⟩
  rw [h] at hp
  cases hp

theorem quiet_enterImage (h : ∀ r ∈ assets, ∀ p, b.props? ImageProps.read = some p →
    (r p.sourceId).value = .ok none ∨ ∃ m, (r p.sourceId).value = .error (.unreadable m)) :
    Quiet (enterImage (assets.map .steady) b) := by
  intro s
  cases assets with
  | none => exact leads_pure _ ⟨rfl, s.log, s.asked, rfl⟩
  | some r =>
    refine leads_withProps (fun p hp log => ?_) fun _ log => ⟨rfl, log, s.asked, rfl⟩
    have hanswer := h r rfl p hp
    have hasset : r.asset? p.sourceId = none := by
      rcases hanswer with hv | ⟨m, hv⟩ <;> rw [Resolver.asset?, hv]
    refine leads_bind (leads_resolve (fun log => ?_) fun fault hfault hcaught log => ?_)
    · rw [Resolver.steady, hasset]
      exact leads_pure _ ⟨rfl, log, _, rfl⟩
    · rw [Resolver.steady] at hfault
      rcases hanswer with hv | ⟨m, hv⟩
      · rw [hv] at hfault
        cases hfault
      · rw [hv] at hfault
        cases hfault
        exact hcaught ⟨m, .inl rfl⟩

theorem quiet_enter_of_fails (h : b.Fails assets) :
    Quiet (enter (assets.map .steady) b parent) := by
  unfold enter
  unfold Block.Fails at h
  cases hf : b.flavour <;> rw [hf] at h
  case code => exact quiet_withProps h _
  case paragraph => exact quiet_withProps h _
  case page => exact quiet_withProps h _
  case database => exact quiet_withProps h _
  case image => exact quiet_enterImage h
  all_goals exact h.elim

end Walk

open Walk

theorem rowKey_replaceAt {path : List Nat} {t b : Block} (hat : t.at? path = some b) {tag : String} :
    rowKey (t.replaceAt path { b with tag := tag }) = rowKey t := by
  cases path with
  | nil =>
    cases hat
    rfl
  | cons i path => rfl

theorem map_rowKey_modify {f : Block → Block} {bs : List Block} {i : Nat}
    (h : ∀ c, bs[i]? = some c → rowKey (f c) = rowKey c) :
    (bs.modify i f).map rowKey = bs.map rowKey := by
  refine List.ext_getElem? fun j => ?_
  rw [List.getElem?_map, List.getElem?_map, List.getElem?_modify]
  by_cases hij : i = j
  · subst hij
    cases hc : bs[i]? with
    | none => rfl
    | some c => simp [h c hc]
  · simp [hij]

theorem agree_visit_replaceAt {assets : Option Resolver} {tag : String}
    (htag : Flavour.ofTag tag = .unknown) {b : Block} (hfails : b.Fails assets) {path : List Nat}
    {t : Block} (hat : t.at? path = some b) (parent : Option String) :
    Agree (visit (assets.map .steady) parent t)
      (visit (assets.map .steady) parent (t.replaceAt path { b with tag := tag })) := by
  induction path generalizing t parent with
  | nil =>
    obtain rfl : b = t := (Option.some.inj hat).symm
    have hunknown : Block.flavour { b with tag := tag } = .unknown := htag
    have hlist : b.flavour ≠ .list := by
      intro hl
      simp [Block.Fails, hl] at hfails
    refine agree_visit rfl (by simp [Block.replaceAt, hunknown, hlist]) ?_
      (agree_visitAll_self assets _ _)
    refine agree_of_quiet (quiet_enter_of_fails hfails) ?_
    rw [Block.replaceAt, enter, hunknown]
    exact quiet_enterOther _
  | cons i path ih =>
    obtain ⟨c, hc, hat⟩ := Block.at?_cons_eq_some_iff.1 hat
    have hrows : t.children.map rowKey =
        (t.children.modify i fun c => c.replaceAt path { b with tag := tag }).map rowKey := by
      refine (map_rowKey_modify fun d hd => ?_).symm
      rw [hc] at hd
      cases hd
      exact rowKey_replaceAt hat
    refine agree_visit rfl Iff.rfl (agree_enter hrows) (agree_visitAll_modify _ _ fun d hd => ?_)
    rw [hc] at hd
    cases hd
    exact ih hat _

/-- In the place of a block that fails, a block of an unknown flavour with the same id, props and
children gives the same tree with the same assets, or the same fault. -/
theorem walk_replaceAt {assets : Option Resolver} {t b : Block} {path : List Nat}
    (hat : t.at? path = some b) (hfails : b.Fails assets) {tag : String}
    (htag : Flavour.ofTag tag = .unknown) (root : Node) :
    ((t.replaceAt path { b with tag := tag }).walk assets root).value = (t.walk assets root).value := by
  have h := agree_visit_replaceAt htag hfails hat none
    (.mk (.start root 0) [] [] [] [] [] : Similar ⟨.start root 0, [], [], []⟩ _)
  unfold Block.walk Block.walkFrom
  revert h
  generalize visit (assets.map .steady) none t _ = r
  generalize visit (assets.map .steady) none (t.replaceAt path _) _ = r'
  intro h
  cases h with
  | ok a h => cases h; rfl
  | error e h => cases h; rfl

def lostImage : Block :=
  ⟨"i", "affine:image", [("sourceId", .string "gone")], [
    ⟨"p", "affine:paragraph", [("text", .string "below")], []⟩]⟩

/-- An image without its asset below the first of two items. -/
def itemsAround (b : Block) : Block :=
  ⟨"n", "affine:note", [], [
    ⟨"a", "affine:list", [("text", .string "first")], [b]⟩,
    ⟨"b", "affine:list", [("text", .string "second")], []⟩]⟩

def unreadableAssets : Resolver := fun _ => pure (.error (.unreadable "gone"))

theorem walk_replaceAt_lostImage :
    (itemsAround lostImage).at? [0, 0] = some lostImage ∧
    lostImage.Fails (some unreadableAssets) ∧ Flavour.ofTag "affine:bookmark" = .unknown ∧
    ((itemsAround { lostImage with tag := "affine:bookmark" }).walk (some unreadableAssets)
      (.root [])).value = ((itemsAround lostImage).walk (some unreadableAssets) (.root [])).value := by
  have hat : (itemsAround lostImage).at? [0, 0] = some lostImage := rfl
  have hfails : lostImage.Fails (some unreadableAssets) := by
    rintro r ⟨⟩ p -
    exact .inr ⟨"gone", rfl⟩
  have htag : Flavour.ofTag "affine:bookmark" = .unknown := by decide
  exact ⟨hat, hfails, htag, walk_replaceAt hat hfails htag (.root [])⟩

end PageExport
