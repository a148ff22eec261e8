import PageExport.Proofs.Convert.Pages
import PageExport.Proofs.Slug.Search

/-!
The stems of the files that pages go to. A page that asks for a stem gets the first that is free when it
is its turn, so no two pages of a run have the same one.
-/
namespace PageExport.Convert

open StateTransition (eval)
open Slug (Search IsFirstFree AreFirstFree)

variable {settings : Settings} {dest p : Path} {s s' : ConvertState}

theorem mapM_freshStem (stems : List Text) (s : ConvertState) :
    stems.mapM freshStem s = .ok (Slug.uniques s.taken stems)
      { s with taken := s.taken ++ Slug.uniques s.taken stems } := by
  induction stems generalizing s with
  | nil => simp [Slug.uniques, pure, EStateM.pure]
  | cons stem stems ih =>
    rw [List.mapM_cons]
    refine bind_eq_ok_iff.2 ⟨_, _, rfl, bind_eq_ok_iff.2 ⟨_, _, ih _, ?_⟩⟩
    simp [Slug.uniques, pure, EStateM.pure]

/-- Of the stems for a page that is converted, the first that was free is taken from then on. -/
theorem exists_turn?_of_one {c : Converted} (h : one settings dest p s = .ok c s') :
    ∃ w, turn? settings dest p s = some w ∧ s'.taken = s.taken ++ [Slug.unique s.taken w.stem] := by
  obtain ⟨stem, page, s₁, s₂, s₃, assets, hfile, -, hwrite, hassets, -, htaken⟩ := one_eq_ok h
  obtain ⟨-, -, -, -, -, -, hs₁taken⟩ := file_eq_ok hfile
  obtain ⟨b, hstem, hturn⟩ := turn?_eq_some dest hfile
  obtain ⟨-, -, hs₂taken⟩ := OutputDirectory.write_eq_ok hwrite
  refine ⟨_, hturn, ?_⟩
  rw [htaken, OutputDirectory.taken_of_storeAssets hassets, hs₂taken, hs₁taken, Turn.stem_mk, ← hstem]

/-- The pages that a run comes to write are named by the stems that they get one after the other, whether
or not the run fails. -/
theorem map_markdown_turns (settings : Settings) (dest : Path) (ps : List Path) (s : ConvertState) :
    (turns settings dest ps s).map (·.markdown) =
      (Slug.uniques s.taken ((turns settings dest ps s).map (·.stem))).map
        fun name => dest.child (markdownName name) := by
  induction ps generalizing s with
  | nil => rfl
  | cons p ps ih =>
    rw [turns]
    cases hone : one settings dest p s with
    | ok c s₁ =>
      obtain ⟨w, hw, htaken⟩ := exists_turn?_of_one hone
      rw [hw, following]
      simp only [Option.toList_some, List.singleton_append, List.map_cons, Slug.uniques, ih s₁,
        htaken, turn?_markdown hw, target]
    | error e s₁ =>
      rw [following, List.append_nil]
      -- a page that then cannot be written has got its stem all the same
      cases hw : turn? settings dest p s with
      | none => rfl
      | some w =>
        simp only [Option.toList_some, List.map_cons, List.map_nil, Slug.uniques, turn?_markdown hw,
          target]

theorem taken_of_each {ps : List Path} {cs : List Converted}
    (h : each settings dest ps s = .ok cs s') :
    s'.taken = s.taken ++ Slug.uniques s.taken ((turns settings dest ps s).map (·.stem)) := by
  induction ps generalizing s cs with
  | nil =>
    cases h
    exact (List.append_nil _).symm
  | cons p ps ih =>
    obtain ⟨c, s₁, cs', hone, heach, rfl⟩ := each_cons_eq_ok h
    obtain ⟨w, hw, htaken⟩ := exists_turn?_of_one hone
    rw [ih heach, turns, hw, hone, following, htaken]
    simp [Slug.uniques]

/-- The search for a stem ends, after at most as many turns as there are texts that are taken, with a
stem that was not taken: the one that is asked for, or else that with the least free number from two
on. Nothing but this stem is added to those that are taken. So stems that are asked for one after the
other are answered by different stems, and so are those of the pages of a run. -/
theorem fresh_stems_of_run (s : ConvertState) :
    (∀ stem, ∃ fresh, ∃ n ≤ s.taken.toFinset.card + 1,
      ⟨fresh, n⟩ ∈ eval (Search.next? s.taken stem) (.start stem) ∧
      freshStem stem s = .ok fresh { s with taken := s.taken ++ [fresh] } ∧
      fresh ∉ s.taken ∧ IsFirstFree s.taken stem fresh) ∧
    (∀ stems, ∃ freshs, stems.mapM freshStem s = .ok freshs { s with taken := s.taken ++ freshs } ∧
      AreFirstFree s.taken stems freshs ∧ freshs.Nodup ∧ ∀ fresh ∈ freshs, fresh ∉ s.taken) ∧
    ∀ settings dest ps, ∃ freshs,
      (turns settings dest ps s).map (·.markdown) =
        freshs.map (fun fresh => dest.child (markdownName fresh)) ∧
      AreFirstFree s.taken ((turns settings dest ps s).map (·.stem)) freshs ∧ freshs.Nodup ∧
      ∀ results s', each settings dest ps s = .ok results s' →
        results.map (·.markdown) = (turns settings dest ps s).map (·.markdown) ∧
        s'.taken = s.taken ++ freshs := by
  refine ⟨fun stem => ?_, fun stems => ?_, fun settings dest ps => ?_⟩
  · obtain ⟨n, hn, heval⟩ := Search.exists_mem_eval s.taken stem
    exact ⟨_, n, hn, heval, rfl, Slug.unique_not_mem s.taken stem, Slug.isFirstFree_unique s.taken stem⟩
  · have hfirst := Slug.areFirstFree_uniques s.taken stems
    exact ⟨_, mapM_freshStem stems s, hfirst, hfirst.nodup⟩
  · have hfirst := Slug.areFirstFree_uniques s.taken ((turns settings dest ps s).map (·.stem))
    refine ⟨_, map_markdown_turns settings dest ps s, hfirst, hfirst.nodup.1, fun results s' h => ?_⟩
    have hmap := congrArg (List.map Prod.snd) (map_turns_of_each h)
    exact ⟨by simpa [Function.comp_def] using hmap.symm, taken_of_each h⟩

/-- Two snapshots ask for the same stem, and a third for the one that the second of them would get. -/
theorem fresh_stems_of_run_sameNames : ∃ results s',
    each withBlobs (output withBlobs) sameNamesSources
      { ConvertState.start withBlobs sameNames with files := sameNamesMade } = .ok results s' ∧
    s'.taken = ["a-2".toList, "a".toList, "a-3".toList] ∧
    results.map (·.markdown) =
      s'.taken.map (fun fresh => (output withBlobs).child (markdownName fresh)) ∧
    s'.taken.Nodup := by
  obtain ⟨⟨results, s'⟩, heach, htexts⟩ := exists_of_passes
    (by decide +kernel : passes
      (outcome (each withBlobs (output withBlobs) sameNamesSources)
        { ConvertState.start withBlobs sameNames with files := sameNamesMade })
      (fun r => r.2.taken = ["a-2".toList, "a".toList, "a-3".toList]) = true)
  have hrun := outcome_eq_ok_iff.1 heach
  obtain ⟨freshs, hpaths, -, hnodup, hreturns⟩ := (fresh_stems_of_run
    { ConvertState.start withBlobs sameNames with files := sameNamesMade }).2.2 withBlobs
      (output withBlobs) sameNamesSources
  obtain ⟨hresults, htaken⟩ := hreturns results s' hrun
  obtain rfl : s'.taken = freshs := htaken
  exact ⟨results, s', hrun, of_decide_eq_true htexts, hresults.trans hpaths, hnodup⟩

end PageExport.Convert
