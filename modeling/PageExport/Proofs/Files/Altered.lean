import Mathlib.Data.List.Infix
import PageExport.Proofs.Asset.Store

/-!
Trees that differ in some of their places only, such as those below a directory. What a path leads to
is the same in both of them if it lies elsewhere.
-/
namespace PageExport

/-- The path with further names behind its own. -/
def Path.descend (p : Path) (names : List String) : Path := ⟨p.rooted, p.names ++ names⟩

theorem Path.descend_singleton_inj {p q : Path} {name name' : String} :
    p.descend [name] = q.descend [name'] ↔ p = q ∧ name = name' := by
  obtain ⟨r, ns⟩ := p
  obtain ⟨r', ns'⟩ := q
  simp [descend, and_assoc]

/-- A name that an entry of a directory can have. -/
def IsName (name : String) : Prop := name ≠ "" ∧ Asset.isOneName name = true

instance : DecidablePred IsName := fun name => inferInstanceAs (Decidable (name ≠ "" ∧ _))

theorem IsName.ne_dots {name : String} (h : IsName name) : name ≠ ".." := (Asset.isOneName_iff.1 h.2).2.2

/-- The names of a path are names of entries, or two dots. -/
def Path.IsRead (p : Path) : Prop := ∀ name ∈ p.names, IsName name ∨ name = ".."

namespace FileTree

variable {t t' t'' : FileTree}

/-- The second tree has the directories of the first, and differs from it at most in the entries of
some places. -/
structure Alters (P : Place → Prop) (t t' : FileTree) : Prop where
  keeps : t.Keeps t'
  get? : ∀ q, ¬ P q → t'.get? q = t.get? q
  children : ∀ q, (∀ name, ¬ P (q ++ [name])) → t'.children q = t.children q

namespace Alters

variable {P Q : Place → Prop}

theorem refl (P : Place → Prop) (t : FileTree) : Alters P t t :=
  ⟨.refl t, fun _ _ => rfl, fun _ _ => rfl⟩

theorem trans (h : Alters P t t') (h' : Alters P t' t'') : Alters P t t'' where
  keeps := h.keeps.trans h'.keeps
  get? q hq := (h'.get? q hq).trans (h.get? q hq)
  children q hq := (h'.children q hq).trans (h.children q hq)

theorem mono (h : Alters P t t') (hPQ : ∀ q, P q → Q q) : Alters Q t t' where
  keeps := h.keeps
  get? q hq := h.get? q (mt (hPQ q) hq)
  children q hq := h.children q fun name => mt (hPQ _) (hq name)

end Alters

theorem filterMap_setEntry {β : Type} {f : Place × Entry → Option β} {p : Place}
    (h : ∀ e, f (p, e) = none) (e : Entry) (es : List (Place × Entry)) :
    (setEntry p e es).filterMap f = es.filterMap f := by
  induction es with
  | nil => simp [setEntry, h]
  | cons x es ih =>
    obtain ⟨q, e'⟩ := x
    rw [setEntry]
    split
    · next hq =>
      subst hq
      rw [List.filterMap_cons_none (h e), List.filterMap_cons_none (h e')]
    · rw [List.filterMap_cons, List.filterMap_cons, ih]

theorem children_set {p q : Place} (h : ∀ name, q ++ [name] ≠ p) (t : FileTree) (e : Entry) :
    (t.set p e).children q = t.children q := by
  unfold children set
  simp only
  rw [filterMap_setEntry]
  intro e
  rcases List.eq_nil_or_concat p with rfl | ⟨above, name, rfl⟩
  · rfl
  · have habove : above ≠ q := fun heq => h name (by rw [heq, List.concat_eq_append])
    simp [habove]

theorem set_alters {p : Place} {e : Entry} (hp : p ≠ []) (hdir : t.get? p ≠ some .directory) :
    Alters (· = p) t (t.set p e) where
  keeps := by
    refine ⟨rfl, fun q hq => ?_⟩
    rw [get?_set_of_ne_nil hp, if_neg, hq]
    rintro rfl
    exact hdir hq
  get? q hq := by rw [get?_set_of_ne_nil hp, if_neg hq]
  children q hq := children_set hq t e

theorem write_alters {p : Path} {data : ByteArray} (h : t.write p data = .ok t') :
    ∃ place, t.locate p = .ok place ∧ t'.get? place = some (.file data) ∧
      Alters (· = place) t t' := by
  obtain ⟨place, hplace, hne, hdir, rfl⟩ := write_eq_ok h
  exact ⟨place, hplace, by rw [get?_set_of_ne_nil hne, if_pos rfl], set_alters hne hdir⟩

theorem follow_append {place m : Place} {ms : List String} (h : t.follow place ms = .ok m)
    (ns : List String) : t.follow place (ms ++ ns) = t.follow m ns := by
  induction ms generalizing place with
  | nil =>
    cases h
    rfl
  | cons name ms ih =>
    rw [follow] at h
    rw [List.cons_append, follow]
    cases hplace : t.get? place with
    | none => simp [hplace] at h
    | some e =>
      cases e with
      | file data => simp [hplace] at h
      | directory =>
        simp only [hplace] at h ⊢
        split at h
        · cases h
        · next hlength =>
          rw [if_neg hlength]
          exact ih h

/-- Without two dots on the way, the names of the way are added to the place. -/
theorem follow_eq_ok {place q : Place} {names : List String} (hnames : ∀ name ∈ names, name ≠ "..")
    (h : t.follow place names = .ok q) : q = place ++ names := by
  induction names generalizing place with
  | nil => simpa [follow, eq_comm] using h
  | cons name names ih =>
    obtain ⟨hname, hnames⟩ := List.forall_mem_cons.1 hnames
    change t.follow place ([name] ++ names) = .ok q at h
    obtain ⟨m, hm, hq⟩ := follow_append_eq_ok h
    rw [ih hnames hq, follow_singleton_eq_ok hname hm, List.append_assoc, List.singleton_append]

/-- A path below a directory leads to a place below it. -/
theorem locate_descend {p : Path} {d q : Place} {names : List String}
    (hnames : ∀ name ∈ names, name ≠ "..") (hd : t.locate p = .ok d)
    (hq : t.locate (p.descend names) = .ok q) : q = d ++ names := by
  have hfollow := follow_of_locate hq
  change t.follow (t.start p) (p.names ++ names) = .ok q at hfollow
  rw [follow_append (follow_of_locate hd)] at hfollow
  exact follow_eq_ok hnames hfollow

/-- The path leads to a place that is not in the directory. -/
def IsApart (t : FileTree) (d : Place) (p : Path) : Prop := ∃ q, t.locate p = .ok q ∧ ¬ d <+: q

instance (t : FileTree) (d : Place) (p : Path) : Decidable (t.IsApart d p) :=
  match h : t.locate p with
  | .ok q => decidable_of_iff (¬ d <+: q) (by simp [IsApart, h])
  | .error _ => .isFalse (by simp [IsApart, h])

namespace Alters

variable {P : Place → Prop} {p : Path} {q : Place}

theorem read_eq (h : Alters P t t') (hp : t.locate p = .ok q) (hq : ¬ P q) : t'.read p = t.read p := by
  simp [read, hp, h.keeps.locate hp, h.get? q hq]

/-- A name in a directory that is not altered is sought with the same outcome. -/
theorem locate_descend_eq (h : Alters P t t') (hp : t.locate p = .ok q) (hq : ¬ P q) (name : String) :
    t'.locate (p.descend [name]) = t.locate (p.descend [name]) := by
  have hlast : t'.follow q [name] = t.follow q [name] := by
    simp only [follow, h.get? q hq]
  unfold locate
  cases pathFault? (p.descend [name]) with
  | some f => rfl
  | none =>
    change t'.follow (t'.start p) (p.names ++ [name]) = t.follow (t.start p) (p.names ++ [name])
    rw [follow_append (follow_of_locate hp), follow_append (follow_of_locate (h.keeps.locate hp)),
      hlast]

theorem find?_descend_eq (h : Alters P t t') (hp : t.locate p = .ok q) (hq : ¬ P q) {name : String}
    (hname : name ≠ "..") (hinner : ¬ P (q ++ [name])) :
    t'.find? (p.descend [name]) = t.find? (p.descend [name]) := by
  unfold find?
  rw [h.locate_descend_eq hp hq]
  cases hplace : t.locate (p.descend [name]) with
  | error f => cases f <;> rfl
  | ok place =>
    obtain rfl := locate_descend (by simpa using hname) hp hplace
    simp only [h.get? _ hinner]

theorem read_descend_eq (h : Alters P t t') (hp : t.locate p = .ok q) (hq : ¬ P q) {name : String}
    (hname : name ≠ "..") (hinner : ¬ P (q ++ [name])) :
    t'.read (p.descend [name]) = t.read (p.descend [name]) := by
  unfold read
  rw [h.locate_descend_eq hp hq]
  cases hplace : t.locate (p.descend [name]) with
  | error f => rfl
  | ok place =>
    obtain rfl := locate_descend (by simpa using hname) hp hplace
    simp only [h.get? _ hinner]

end Alters

/-- The entries of the tree have names that entries can have, and the working directory is there. -/
structure Proper (t : FileTree) : Prop where
  names : ∀ q ∈ t.home :: t.entries.map Prod.fst, ∀ name ∈ q, IsName name
  home : t.get? t.home = some .directory

theorem mem_setEntry {p q : Place} {e : Entry} {es : List (Place × Entry)}
    (h : q ∈ (setEntry p e es).map Prod.fst) : q = p ∨ q ∈ es.map Prod.fst := by
  induction es with
  | nil => simpa [setEntry] using h
  | cons x es ih =>
    obtain ⟨r, e'⟩ := x
    rw [setEntry] at h
    split at h
    · exact .inr h
    · rcases List.mem_cons.1 h with rfl | h
      · exact .inr List.mem_cons_self
      · exact (ih h).imp_right (List.mem_cons_of_mem r)

namespace Proper

variable {p q : Place}

theorem names_home (h : t.Proper) : ∀ name ∈ t.home, IsName name := h.names _ List.mem_cons_self

theorem names_start (h : t.Proper) (p : Path) : ∀ name ∈ t.start p, IsName name := by
  unfold start
  split
  · simp
  · exact h.names_home

theorem get?_start (h : t.Proper) (p : Path) : t.get? (t.start p) = some .directory := by
  unfold start
  split
  · exact get?_nil t
  · exact h.home

theorem set (h : t.Proper) {e : Entry} (hp : ∀ name ∈ p, IsName name) (hne : p ≠ [])
    (hdir : t.get? p ≠ some .directory) : (t.set p e).Proper where
  names q hq := by
    rcases List.mem_cons.1 hq with rfl | hq
    · exact h.names_home
    · rcases mem_setEntry hq with rfl | hq
      · exact hp
      · exact h.names q (List.mem_cons_of_mem _ hq)
  home := (set_alters hne hdir).keeps.directory _ h.home

end Proper

theorem names_step {place : Place} {name : String} (hplace : ∀ name ∈ place, IsName name)
    (hname : IsName name ∨ name = "..") :
    ∀ n ∈ (if name = ".." then place.dropLast else place ++ [name]), IsName n := by
  intro n hn
  split at hn
  · exact hplace n (List.mem_of_mem_dropLast hn)
  · next hdots =>
    rcases List.mem_append.1 hn with hn | hn
    · exact hplace n hn
    · rw [List.mem_singleton.1 hn]
      exact hname.resolve_right hdots

theorem names_follow {place q : Place} {names : List String} (hplace : ∀ name ∈ place, IsName name)
    (hnames : ∀ name ∈ names, IsName name ∨ name = "..") (h : t.follow place names = .ok q) :
    ∀ name ∈ q, IsName name := by
  induction names generalizing place with
  | nil =>
    cases h
    exact hplace
  | cons name names ih =>
    obtain ⟨hname, hnames⟩ := List.forall_mem_cons.1 hnames
    rw [follow] at h
    split at h
    · cases h
    · cases h
    · split at h
      · cases h
      · exact ih (names_step hplace hname) hnames h

theorem Proper.write (h : t.Proper) {p : Path} (hp : p.IsRead) {data : ByteArray}
    (hwrite : t.write p data = .ok t') : t'.Proper := by
  obtain ⟨place, hplace, hne, hdir, rfl⟩ := write_eq_ok hwrite
  exact h.set (names_follow (h.names_start p) hp (follow_of_locate hplace)) hne hdir

theorem Proper.makeFrom (h : t.Proper) {place : Place} {names : List String}
    (hplace : ∀ name ∈ place, IsName name) (hnames : ∀ name ∈ names, IsName name ∨ name = "..")
    (hmake : t.makeFrom place names = .ok t') : t'.Proper := by
  induction names generalizing t place with
  | nil =>
    cases hmake
    exact h
  | cons name names ih =>
    obtain ⟨hname, hnames⟩ := List.forall_mem_cons.1 hnames
    have hinner := names_step hplace hname
    unfold FileTree.makeFrom at hmake
    simp only at hmake
    generalize (if name = ".." then place.dropLast else place ++ [name]) = inner at hmake hinner
    split at hmake
    · cases hmake
    · split at hmake
      · next hnone =>
        have hne : inner ≠ [] := by
          rintro rfl
          rw [get?_nil] at hnone
          cases hnone
        exact ih (h.set hinner hne (by simp [hnone])) hinner hnames hmake
      · exact ih h hinner hnames hmake
      · cases hmake

theorem makeDirectories_eq_ok {p : Path} (h : t.makeDirectories p = .ok t') :
    pathFault? p = none ∧ t.makeFrom (t.start p) p.names = .ok t' := by
  unfold makeDirectories at h
  split at h
  · cases h
  · next hfault hmake =>
    cases h
    exact ⟨hfault, hmake⟩
  · cases h

theorem Proper.makeDirectories (h : t.Proper) {p : Path} (hp : p.IsRead)
    (hmake : t.makeDirectories p = .ok t') : t'.Proper :=
  h.makeFrom (h.names_start p) hp (makeDirectories_eq_ok hmake).2

theorem follow_of_makeFrom {place : Place} {names : List String}
    (hplace : t.get? place = some .directory) (h : t.makeFrom place names = .ok t') :
    ∃ q, t'.follow place names = .ok q ∧ t'.get? q = some .directory := by
  induction names generalizing t place with
  | nil =>
    cases h
    exact ⟨place, rfl, hplace⟩
  | cons name names ih =>
    have hkept := (makeFrom_keeps h).2 place _ hplace
    unfold makeFrom at h
    simp only at h
    rw [follow, hkept]
    simp only
    generalize (if name = ".." then place.dropLast else place ++ [name]) = inner at h ⊢
    split at h
    · cases h
    · next hlength =>
      rw [if_neg hlength]
      split at h
      · next hnone =>
        refine ih ?_ h
        rw [get?_set_of_ne_nil, if_pos rfl]
        rintro rfl
        rw [get?_nil] at hnone
        cases hnone
      · next hinner => exact ih hinner h
      · cases h

/-- No file comes in when directories are made. -/
theorem makeFrom_files {place q : Place} {names : List String} {data : ByteArray}
    (h : t.makeFrom place names = .ok t') (hq : t'.get? q = some (.file data)) :
    t.get? q = some (.file data) := by
  induction names generalizing t place with
  | nil =>
    cases h
    exact hq
  | cons name names ih =>
    unfold makeFrom at h
    simp only at h
    generalize (if name = ".." then place.dropLast else place ++ [name]) = inner at h
    split at h
    · cases h
    · split at h
      · next hnone =>
        have hset := ih h
        rw [get?_set_of_ne_nil] at hset
        · split at hset
          · cases hset
          · exact hset
        · rintro rfl
          rw [get?_nil] at hnone
          cases hnone
      · exact ih h
      · cases h

/-- A path leads to a directory once that is made. -/
theorem locate_of_makeDirectories (h : t.Proper) {p : Path} (hmake : t.makeDirectories p = .ok t') :
    ∃ d, t'.locate p = .ok d ∧ t'.get? d = some .directory := by
  obtain ⟨hfault, hfrom⟩ := makeDirectories_eq_ok hmake
  obtain ⟨d, hd, hdir⟩ := follow_of_makeFrom (h.get?_start p) hfrom
  refine ⟨d, ?_, hdir⟩
  have hstart : t'.start p = t.start p := by simp [start, (makeDirectories_keeps hmake).1]
  rw [locate, hfault]
  simp only
  rw [hstart]
  exact hd

/-- Directories that are there are not made again. -/
theorem makeFrom_append {place d : Place} {ms : List String} (h : t.follow place ms = .ok d)
    (hd : t.get? d = some .directory) (ns : List String) :
    t.makeFrom place (ms ++ ns) = t.makeFrom d ns := by
  induction ms generalizing place with
  | nil =>
    cases h
    rfl
  | cons name ms ih =>
    rw [follow] at h
    split at h
    · cases h
    · cases h
    · split at h
      · cases h
      · next hlength =>
        have hinner : t.get? (if name = ".." then place.dropLast else place ++ [name]) =
            some .directory := by
          cases ms with
          | nil =>
            cases h
            exact hd
          | cons next ms =>
            rw [follow] at h
            split at h
            · cases h
            · cases h
            · next hnext => exact hnext
        rw [List.cons_append, makeFrom]
        simp only [if_neg hlength, hinner]
        exact ih h

theorem makeDirectories_alters {p : Path} {d : Place} {name : String} (hname : name ≠ "..")
    (hp : t.locate p = .ok d) (hd : t.get? d = some .directory)
    (h : t.makeDirectories (p.descend [name]) = .ok t') : Alters (· = d ++ [name]) t t' := by
  have hmake : t.makeFrom d [name] = .ok t' := by
    rw [← makeFrom_append (follow_of_locate hp) hd]
    exact (makeDirectories_eq_ok h).2
  unfold makeFrom at hmake
  simp only [if_neg hname] at hmake
  split at hmake
  · cases hmake
  · split at hmake
    · next hnone =>
      cases hmake
      exact set_alters (by simp) (by simp [hnone])
    · cases hmake
      exact .refl _ t
    · cases hmake

end FileTree

namespace Path

theorem isName_of_mem_parts {t : Text} {name : String} (h : name ∈ Asset.parts t) :
    IsName name ∨ name = ".." := by
  unfold Asset.parts at h
  obtain ⟨part, hpart, rfl⟩ := List.mem_map.1 h
  obtain ⟨hsplit, hproper⟩ := List.mem_filter.1 hpart
  simp only [ne_eq, decide_not, Bool.and_eq_true, Bool.not_eq_true', decide_eq_false_iff_not] at hproper
  by_cases hdots : String.ofList part = ".."
  · exact .inr hdots
  · refine .inl ⟨fun h => hproper.1 ?_, Asset.isOneName_iff.2 ⟨?_, fun h => hproper.2 ?_, hdots⟩⟩
    · simpa using congrArg String.toList h
    · rw [String.toList_ofList]
      exact Text.not_mem_of_mem_split hsplit
    · simpa using congrArg String.toList h

theorem child_nil (p : Path) : p.child (String.ofList []) = p := by
  simp [child, append, ofString, Text.split]

theorem parts_of_isName {name : String} (h : IsName name) : Asset.parts name.toList = [name] := by
  obtain ⟨hslash, hdot, -⟩ := Asset.isOneName_iff.1 h.2
  have hempty : name.toList ≠ [] := fun heq => h.1 (String.toList_inj.1 heq)
  have hdot' : name.toList ≠ ['.'] := fun heq => hdot (String.toList_inj.1 heq)
  rw [Asset.parts, Text.split_of_not_mem hslash]
  simp [hempty, hdot', String.ofList_toList]

theorem child_of_isName {name : String} (h : IsName name) (p : Path) :
    p.child name = p.descend [name] := by
  have hhead := Asset.head?_of_isOneName h.2
  rw [child, Asset.ofString_eq, append, if_neg (by simpa using hhead), parts_of_isName h]
  rfl

/-- A written path leads to the last name in it by way of what precedes the slash before that. -/
theorem child_of_slash {s name : String} {t : Text} (hs : s.toList = t ++ '/' :: name.toList)
    (h : IsName name) (p : Path) :
    p.child s = (p.child (String.ofList (t ++ ['/']))).descend [name] := by
  have hnil : Asset.parts [] = [] := by decide
  have hhead : s.toList.head? = (t ++ ['/']).head? := by
    rw [hs]
    cases t <;> rfl
  rw [child, child, Asset.ofString_eq, Asset.ofString_eq, String.toList_ofList, hhead, hs,
    Asset.parts_append_cons, Asset.parts_append_cons, parts_of_isName h, hnil, List.append_nil]
  unfold append descend
  split <;> simp

theorem isRead_ofString (s : String) : (ofString s).IsRead := by
  intro name h
  rw [Asset.ofString_eq] at h
  exact isName_of_mem_parts h

theorem isRead_child {p : Path} (h : p.IsRead) (s : String) : (p.child s).IsRead := by
  intro name hname
  unfold child append at hname
  split at hname
  · exact isRead_ofString s name hname
  · exact (List.mem_append.1 hname).elim (h name) (isRead_ofString s name)

end Path
end PageExport
