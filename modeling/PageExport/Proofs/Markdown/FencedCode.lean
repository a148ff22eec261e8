import Mathlib.Data.List.DropRight
import PageExport.Markdown.Document
import PageExport.Proofs.Markdown.BlockStarts

/-!
Code blocks between fences. The fence of a block is longer than any run of backticks in its value, so
that the first line to close it is its last one. A reader gets language and value back unless the
language cannot stand behind a fence or a line ends in a space that is softened.
-/
namespace PageExport.Markdown

/-- A line that closes a fence of `size` backticks has as many or more behind at most three spaces,
and nothing else but spaces and tabs. -/
def closesFence (size : Nat) : Text → Bool :=
  indented fun t =>
    size ≤ (t.takeWhile (· = '`')).length && (t.dropWhile (· = '`')).all isSpaceOrTab

theorem closesFence_replicate {size : Nat} (h : 0 < size) :
    closesFence size (List.replicate size '`') = true := by
  obtain ⟨n, rfl⟩ := Nat.exists_eq_succ_of_ne_zero h.ne'
  rw [closesFence, List.replicate_succ, indented_cons (by decide), ← List.replicate_succ]
  simp

theorem infix_of_closesFence {size : Nat} {line : Text} (h : closesFence size line = true) :
    List.replicate size '`' <:+: line := by
  unfold closesFence indented at h
  split at h
  · next indent rest hsplit =>
    obtain ⟨hline, -⟩ := splitIndent_eq_some hsplit
    simp only [Bool.and_eq_true, decide_eq_true_eq] at h
    have hrun : List.replicate size '`' <+: rest.takeWhile (· = '`') := by
      rw [takeWhile_eq_replicate]
      exact ⟨List.replicate _ '`', by rw [List.replicate_append_replicate, Nat.add_sub_cancel' h.1]⟩
    rw [hline]
    exact (hrun.trans (List.takeWhile_prefix _)).isInfix.trans (List.suffix_append indent rest).isInfix
  · cases h

theorem length_fence (least : Nat) (t : Text) :
    (fence least t).length = max least (longestRun '`' t + 1) := List.length_replicate

theorem fence_eq_replicate (least : Nat) (t : Text) :
    fence least t = List.replicate (fence least t).length '`' := by rw [length_fence, fence]

theorem not_infix_fence (least : Nat) (t : Text) :
    ¬ List.replicate (fence least t).length '`' <:+: t := by
  rintro ⟨u, v, huv⟩
  have hrun := length_le_longestRun '`' u v (fence least t).length
  rw [huv, length_fence] at hrun
  omega

theorem infix_unlines {ls : List Text} {l : Text} (h : l ∈ ls) : l <:+: Text.unlines ls := by
  induction ls with
  | nil => cases h
  | cons m ls ih =>
    cases ls with
    | nil => rw [List.mem_singleton.1 h]; exact List.infix_rfl
    | cons k ls =>
      rw [Text.unlines, Text.join_cons_cons]
      rcases List.mem_cons.1 h with rfl | h
      · exact ⟨[], ['\n'] ++ Text.unlines (k :: ls), by simp [Text.unlines]⟩
      · exact (ih h).trans (List.suffix_append _ _).isInfix

theorem infix_of_mem_lines {t l : Text} (h : l ∈ t.lines) : l <:+: t := by
  have := infix_unlines h
  rwa [Text.unlines_lines] at this

/-- No line of a text closes the fence around it. -/
theorem not_closesFence (least : Nat) {t line : Text} (h : line ∈ t.lines) :
    closesFence (fence least t).length line = false := by
  rw [← Bool.not_eq_true]
  exact fun hc => not_infix_fence least t ((infix_of_closesFence hc).trans (infix_of_mem_lines h))

/-- The lines between the fences; an empty value has none. -/
def valueLines (value : Text) : List Text := if value.isEmpty then [] else value.lines

theorem mem_lines_of_mem_valueLines {value line : Text} (h : line ∈ valueLines value) :
    line ∈ value.lines := by
  unfold valueLines at h
  split at h
  · cases h
  · exact h

/-- What stands behind the opening line of a code block. -/
def codeBody (value : Text) : Text :=
  (if value.isEmpty then [] else value ++ ['\n']) ++ fence 3 value

theorem codeBlock_eq (language info : Option String) (value : Text) :
    codeBlock language info value =
      fence 3 value ++ infoText language info ++ '\n' :: codeBody value := by
  simp [codeBlock, codeBody]

theorem not_mem_fence (least : Nat) (t : Text) : '\n' ∉ fence least t := by
  simp [fence, List.mem_replicate]

theorem lines_codeBody (value : Text) :
    (codeBody value).lines = valueLines value ++ [fence 3 value] := by
  have hfence : (fence 3 value).lines = [fence 3 value] :=
    Text.split_of_not_mem (not_mem_fence 3 value)
  unfold codeBody valueLines
  split
  · exact hfence
  · rw [List.append_assoc, List.singleton_append, Text.lines, Text.split_append_cons]
    congr 1

/-- The lines of a value, none of which closes the fence, and the last line, which does. -/
theorem split_codeBody (value : Text) :
    (codeBody value).lines.takeWhile (fun line => !closesFence (fence 3 value).length line) =
        valueLines value ∧
      (codeBody value).lines.dropWhile (fun line => !closesFence (fence 3 value).length line) =
        [fence 3 value] := by
  have hclose : closesFence (fence 3 value).length (fence 3 value) = true := by
    rw [fence_eq_replicate 3 value, List.length_replicate]
    exact closesFence_replicate (by rw [length_fence]; omega)
  have hopen : ∀ line ∈ valueLines value, (!closesFence (fence 3 value).length line) = true :=
    fun line hline => by rw [not_closesFence 3 (mem_lines_of_mem_valueLines hline)]; rfl
  rw [lines_codeBody, List.takeWhile_append_of_pos hopen, List.dropWhile_append_of_pos hopen,
    List.takeWhile_cons_of_neg (by simp [hclose]), List.dropWhile_cons_of_neg (by simp [hclose])]
  exact ⟨List.append_nil _, rfl⟩

/-- The line ends in the reference for a space or in a non-breaking space. -/
def endsSoft (line : Text) : Bool :=
  encodedSpace.isSuffixOf line || line.getLast? = some '\u00a0'

theorem softenEnd_append_encodedSpace (t : Text) : softenEnd (t ++ encodedSpace) = t ++ [' '] := by
  have hsuffix : encodedSpace.isSuffixOf (t ++ encodedSpace) = true :=
    List.isSuffixOf_iff_suffix.2 (List.suffix_append _ _)
  rw [softenEnd, if_pos hsuffix, List.length_append, Nat.add_sub_cancel, List.take_left]

theorem softenEnd_append_nbsp (t : Text) : softenEnd (t ++ ['\u00a0']) = t ++ [' '] := by
  have hsuffix : ¬ encodedSpace.isSuffixOf (t ++ ['\u00a0']) = true := by
    rw [List.isSuffixOf_iff_suffix, List.suffix_concat_iff]
    rintro (h | ⟨u, hu, -⟩)
    · cases h
    · have := congrArg List.getLast? hu
      simp [encodedSpace] at this
  rw [softenEnd, if_neg hsuffix, if_pos (by simp), List.dropLast_concat]

theorem softenEnd_of_not_endsSoft {line : Text} (h : endsSoft line = false) :
    softenEnd line = line := by
  simp only [endsSoft, Bool.or_eq_false_iff, decide_eq_false_iff_not] at h
  simp [softenEnd, h.1, h.2]

theorem endsSoft_iff {line : Text} :
    endsSoft line = true ↔ encodedSpace <:+ line ∨ ['\u00a0'] <:+ line := by
  rw [endsSoft, Bool.or_eq_true, List.isSuffixOf_iff_suffix, decide_eq_true_eq,
    List.singleton_suffix_iff_getLast?_eq_some]

theorem exists_of_endsSoft {line : Text} (h : endsSoft line = true) :
    ∃ t e, (e = encodedSpace ∨ e = ['\u00a0']) ∧ line = t ++ e ∧ softenEnd line = t ++ [' '] := by
  rcases endsSoft_iff.1 h with ⟨t, rfl⟩ | ⟨t, rfl⟩
  · exact ⟨t, encodedSpace, .inl rfl, rfl, softenEnd_append_encodedSpace t⟩
  · exact ⟨t, ['\u00a0'], .inr rfl, rfl, softenEnd_append_nbsp t⟩

theorem softenEnd_eq_self_iff {line : Text} : softenEnd line = line ↔ endsSoft line = false := by
  refine ⟨fun h => ?_, softenEnd_of_not_endsSoft⟩
  rw [← Bool.not_eq_true]
  intro hsoft
  obtain ⟨t, e, he, rfl, hsoften⟩ := exists_of_endsSoft hsoft
  rw [hsoften, List.append_cancel_left_eq] at h
  rcases he with rfl | rfl <;> simp [encodedSpace] at h

theorem not_mem_softenEnd {c : Char} (hc : c ≠ ' ') {line : Text} (h : c ∉ line) :
    c ∉ softenEnd line := by
  cases hsoft : endsSoft line with
  | false => rwa [softenEnd_of_not_endsSoft hsoft]
  | true =>
    obtain ⟨t, e, -, rfl, hsoften⟩ := exists_of_endsSoft hsoft
    rw [hsoften]
    simp only [List.mem_append, List.mem_singleton, not_or] at h ⊢
    exact ⟨h.1, hc⟩

/-- A softened line closes no fence that the line did not. -/
theorem not_closesFence_softenEnd (least : Nat) {t line : Text} (h : line ∈ t.lines) :
    closesFence (fence least t).length (softenEnd line) = false := by
  cases hsoft : endsSoft line with
  | false => rw [softenEnd_of_not_endsSoft hsoft, not_closesFence least h]
  | true =>
    obtain ⟨u, e, -, rfl, hsoften⟩ := exists_of_endsSoft hsoft
    rw [hsoften, ← Bool.not_eq_true]
    intro hc
    have hu : u <:+: t := (List.prefix_append u e).isInfix.trans (infix_of_mem_lines h)
    rcases List.infix_concat_iff.1 (infix_of_closesFence hc) with hsuffix | hbefore
    · -- the run would end in the space
      have hsize : 0 < (fence least t).length := by rw [length_fence]; omega
      obtain hnil | ⟨v, hv, -⟩ := List.suffix_concat_iff.1 hsuffix
      · simp [hsize.ne'] at hnil
      · have hspace : ' ' ∈ List.replicate (fence least t).length '`' := by rw [hv]; simp
        simp [List.mem_replicate] at hspace
    · exact not_infix_fence least t (hbefore.trans hu)

theorem softenLines_append_singleton (ls : List Text) (last : Text) :
    softenLines (ls ++ [last]) = ls.map softenEnd ++ [last] := by
  induction ls with
  | nil => rfl
  | cons l ls ih =>
    obtain ⟨m, ms, hm⟩ := List.exists_cons_of_ne_nil (List.append_ne_nil_of_right_ne_nil ls
      (List.cons_ne_nil last []))
    rw [List.cons_append, hm, softenLines, ← hm, ih, List.map_cons, List.cons_append]
    exact List.cons_ne_nil m ms

/-- An end that shares no character with the front is an end of the back. -/
theorem suffix_of_suffix_append {e u t : Text} (h : e <:+ u ++ t) (he : ∀ c ∈ e, c ∉ u) :
    e <:+ t := by
  rcases List.suffix_or_suffix_of_suffix h (List.suffix_append u t) with h' | ⟨v, rfl⟩
  · exact h'
  · cases v with
    | nil => exact List.suffix_rfl
    | cons c v =>
      rw [List.suffix_append_self_iff] at h
      exact absurd (h.subset List.mem_cons_self) (he c List.mem_cons_self)

theorem endsSoft_fence_append (size : Nat) (t : Text) :
    endsSoft (List.replicate size '`' ++ t) = endsSoft t := by
  have hback {e : Text} (he : '`' ∉ e) : e <:+ List.replicate size '`' ++ t ↔ e <:+ t := by
    refine ⟨fun h => suffix_of_suffix_append h fun c hc hmem => ?_,
      fun h => h.trans (List.suffix_append _ t)⟩
    rw [(List.mem_replicate.1 hmem).2] at hc
    exact he hc
  rw [Bool.eq_iff_iff, endsSoft_iff, endsSoft_iff, hback (by decide), hback (by decide)]

/-- A fence before a text leaves its end as it is. -/
theorem softenEnd_fence_append (size : Nat) (t : Text) :
    softenEnd (List.replicate size '`' ++ t) = List.replicate size '`' ++ softenEnd t := by
  cases hsoft : endsSoft t with
  | true =>
    obtain ⟨u, e, he, rfl, hsoften⟩ := exists_of_endsSoft hsoft
    rw [hsoften, ← List.append_assoc, ← List.append_assoc]
    rcases he with rfl | rfl
    · exact softenEnd_append_encodedSpace _
    · exact softenEnd_append_nbsp _
  | false =>
    rw [softenEnd_of_not_endsSoft hsoft, softenEnd_of_not_endsSoft]
    rw [endsSoft_fence_append, hsoft]

/-- Spaces and tabs are taken off both ends. -/
def trimBlanks (t : Text) : Text := (t.dropWhile isSpaceOrTab).rdropWhile isSpaceOrTab

/-- Takes off at most `width` spaces at the start. -/
def outdent : Nat → Text → Text
  | width + 1, ' ' :: t => outdent width t
  | _, t => t

/-- An opening line: how far it is indented, how many backticks it has, and what stands behind them. -/
structure Opening where
  indent : Nat
  size : Nat
  info : Text

/-- Three backticks or more behind at most three spaces open a fence if no other follows in the line. -/
def readOpening (line : Text) : Option Opening :=
  match splitIndent line with
  | some (indent, t) =>
    if 3 ≤ (t.takeWhile (· = '`')).length && !(t.dropWhile (· = '`')).contains '`' then
      some ⟨indent.length, (t.takeWhile (· = '`')).length, trimBlanks (t.dropWhile (· = '`'))⟩
    else none
  | none => none

/-- Reads a text that is one code block between fences, as its info string, in which escapes and
references stay as they are, and its content. The content goes on to the first line that closes the
fence and loses the indentation of the opening line; only blank lines follow. -/
def readFenced (t : Text) : Option (Text × Text) :=
  match t.lines with
  | [] => none
  | line :: rest =>
    match readOpening line with
    | some opening =>
      let content := rest.takeWhile fun l => !closesFence opening.size l
      let behind := (rest.dropWhile fun l => !closesFence opening.size l).tail
      if behind.all (·.all isSpaceOrTab) then
        some (opening.info, Text.unlines (content.map (outdent opening.indent)))
      else none
    | none => none

theorem outdent_zero : outdent 0 = id := by
  funext t
  simp [outdent]

theorem trimBlanks_sublist (t : Text) : (trimBlanks t).Sublist t :=
  (List.rdropWhile_prefix _ _).sublist.trans (List.dropWhile_sublist _)

theorem length_trimBlanks_space (t : Text) : (trimBlanks (t ++ [' '])).length ≤ t.length := by
  unfold trimBlanks
  rw [List.dropWhile_append]
  split
  · simp [isSpaceOrTab]
  · rw [List.rdropWhile_concat_pos _ _ _ (by rfl)]
    exact (trimBlanks_sublist t).length_le

theorem of_readOpening {line : Text} {opening : Opening} (h : readOpening line = some opening) :
    '`' ∉ opening.info ∧ opening.info ⊆ line := by
  unfold readOpening at h
  split at h
  · next indent t hsplit =>
    split at h
    · next hopens =>
      cases h
      simp only [Bool.and_eq_true, Bool.not_eq_true', ← Bool.not_eq_true, List.contains_iff_mem]
        at hopens
      have hinfo := (trimBlanks_sublist (t.dropWhile (· = '`'))).subset
      refine ⟨fun hm => hopens.2 (hinfo hm), fun c hc => ?_⟩
      rw [(splitIndent_eq_some hsplit).1]
      exact List.mem_append_right _ (List.dropWhile_subset _ (hinfo hc))
    · cases h
  · cases h

/-- An info string that is read has no backtick and no line break. -/
theorem not_mem_of_readFenced {t info content : Text} (h : readFenced t = some (info, content)) :
    '`' ∉ info ∧ '\n' ∉ info := by
  unfold readFenced at h
  split at h
  · cases h
  · next line rest hlines =>
    have hline : line ∈ Text.split '\n' t := by
      rw [← Text.lines, hlines]
      exact List.mem_cons_self
    split at h
    · next opening hopening =>
      obtain ⟨hticks, hinfo⟩ := of_readOpening hopening
      simp only at h
      split at h
      · cases h
        exact ⟨hticks, fun hm => Text.not_mem_of_mem_split hline (hinfo hm)⟩
      · cases h
    · cases h

theorem readOpening_fence {size : Nat} (hsize : 3 ≤ size) {info : Text} (hinfo : '`' ∉ info) :
    readOpening (List.replicate size '`' ++ info) = some ⟨0, size, trimBlanks info⟩ := by
  have hall : ∀ c ∈ List.replicate size '`', decide (c = '`') = true := by simp
  have hhead : ∀ c ∈ info.head?, decide (c = '`') = false := by
    intro c hc
    apply decide_eq_false
    rintro rfl
    exact hinfo (List.mem_of_mem_head? hc)
  obtain ⟨htake, hdrop⟩ := takeWhile_append_run hall hhead
  have hindent : splitIndent (List.replicate size '`' ++ info) =
      some ([], List.replicate size '`' ++ info) := by
    obtain ⟨n, rfl⟩ := Nat.exists_eq_add_of_le' hsize
    exact splitIndent_cons (by decide) _
  simp [readOpening, hindent, htake, hdrop, hsize, hinfo]

/-- What stands between two fences is read back. -/
theorem readFenced_unlines {size : Nat} (hsize : 3 ≤ size) {info : Text} (hticks : '`' ∉ info)
    (hbreak : '\n' ∉ info) {content : List Text}
    (hcontent : ∀ line ∈ content, '\n' ∉ line ∧ closesFence size line = false) :
    readFenced (Text.unlines ((List.replicate size '`' ++ info) :: content ++
        [List.replicate size '`', []])) = some (trimBlanks info, Text.unlines content) := by
  have hlines : (Text.unlines ((List.replicate size '`' ++ info) :: content ++
      [List.replicate size '`', []])).lines = (List.replicate size '`' ++ info) :: (content ++
        [List.replicate size '`', []]) := by
    refine Text.lines_unlines (by simp) fun line hline => ?_
    simp only [List.cons_append, List.mem_cons, List.mem_append, List.not_mem_nil, or_false]
      at hline
    rcases hline with rfl | hline | rfl | rfl
    · simp [hbreak, List.mem_replicate]
    · exact (hcontent line hline).1
    · simp [List.mem_replicate]
    · simp
  have hopen : ∀ line ∈ content, (!closesFence size line) = true :=
    fun line hline => by rw [(hcontent line hline).2]; rfl
  have hclose : closesFence size (List.replicate size '`') = true :=
    closesFence_replicate (by omega)
  rw [readFenced, hlines]
  simp only [readOpening_fence hsize hticks]
  rw [List.takeWhile_append_of_pos hopen, List.dropWhile_append_of_pos hopen]
  simp [hclose, outdent_zero]

theorem rawText_code (o : Options) (language info : Option String) (value : String) :
    (Document.mk [.code language info value]).rawText o =
      codeBlock language info value.toList ++ ['\n'] := by
  have hne : codeBlock language info value.toList ≠ [] := by simp [codeBlock_eq]
  simp [Document.rawText, flowText, renderSiblings, Flow.render, stack, hne]

/-- The text of a document that is one code block, in a language without line breaks. -/
theorem text_code (o : Options) {language : String} (hbreak : '\n' ∉ language.toList)
    (value : String) : (Document.mk [.code (some language) none value]).text o =
      Text.unlines ((fence 3 value.toList ++ softenEnd language.toList) ::
        (valueLines value.toList).map softenEnd ++ [fence 3 value.toList, []]) := by
  have hopening : '\n' ∉ fence 3 value.toList ++ language.toList := by
    simp [not_mem_fence, hbreak]
  have hlines : (codeBlock (some language) none value.toList ++ ['\n']).lines =
      ((fence 3 value.toList ++ language.toList) :: (valueLines value.toList ++
        [fence 3 value.toList])) ++ [[]] := by
    have hinfo : infoText (some language) none = language.toList := by simp [infoText]
    rw [codeBlock_eq, hinfo, Text.lines, Text.split_append_cons, Text.split_append_cons,
      Text.split_of_not_mem hopening]
    have hbody := lines_codeBody value.toList
    rw [Text.lines] at hbody
    rw [hbody]
    rfl
  have hopeningSoft : softenEnd (fence 3 value.toList ++ language.toList) =
      fence 3 value.toList ++ softenEnd language.toList := by
    rw [fence_eq_replicate, softenEnd_fence_append]
  have hclosing : softenEnd (fence 3 value.toList) = fence 3 value.toList := by
    have := softenEnd_fence_append (fence 3 value.toList).length []
    rwa [← fence_eq_replicate, List.append_nil, show softenEnd [] = [] from rfl,
      List.append_nil] at this
  rw [Document.text, rawText_code, softenEnds, hlines, softenLines_append_singleton, List.map_cons,
    List.map_append, List.map_singleton, hclosing, hopeningSoft, List.cons_append, List.append_assoc]
  rfl

theorem trimBlanks_softenEnd_eq_iff {t : Text} :
    trimBlanks (softenEnd t) = t ↔ trimBlanks t = t ∧ endsSoft t = false := by
  cases hsoft : endsSoft t with
  | false => simp [softenEnd_of_not_endsSoft hsoft]
  | true =>
    obtain ⟨u, e, he, rfl, hsoften⟩ := exists_of_endsSoft hsoft
    have hlt : u.length < (u ++ e).length := by
      rcases he with rfl | rfl <;> simp [encodedSpace]
    refine ⟨fun h => ?_, fun h => absurd h.2 (by decide)⟩
    have hle := length_trimBlanks_space u
    rw [← hsoften, h] at hle
    omega

theorem unlines_softened_eq_iff {value : Text} :
    Text.unlines ((valueLines value).map softenEnd) = value ↔
      ∀ line ∈ value.lines, endsSoft line = false := by
  unfold valueLines
  split
  · next h =>
    rw [List.isEmpty_iff.1 h]
    simp [Text.lines, Text.split, Text.unlines, endsSoft, encodedSpace]
  · have hmap : Text.unlines (value.lines.map softenEnd) = value ↔
        value.lines.map softenEnd = value.lines := by
      constructor
      · intro h
        have hlines := congrArg Text.lines h
        rwa [Text.lines_unlines (by simp [Text.lines, Text.split_ne_nil])] at hlines
        rw [List.forall_mem_map]
        exact fun line hline => not_mem_softenEnd (by decide) (Text.not_mem_of_mem_split hline)
      · intro h
        rw [h, Text.unlines_lines]
    have hfixed : value.lines.map softenEnd = value.lines.map id ↔
        ∀ line ∈ value.lines, softenEnd line = id line := List.map_inj_left
    rw [List.map_id] at hfixed
    rw [hmap, hfixed]
    exact forall₂_congr fun line _ => softenEnd_eq_self_iff

theorem readFenced_text_code (o : Options) {language : String} (hticks : '`' ∉ language.toList)
    (hbreak : '\n' ∉ language.toList) (value : String) :
    readFenced ((Document.mk [.code (some language) none value]).text o) =
      some (trimBlanks (softenEnd language.toList),
        Text.unlines ((valueLines value.toList).map softenEnd)) := by
  have hcontent : ∀ line ∈ (valueLines value.toList).map softenEnd,
      '\n' ∉ line ∧ closesFence (fence 3 value.toList).length line = false := by
    rw [List.forall_mem_map]
    intro line hline
    have hmem := mem_lines_of_mem_valueLines hline
    exact ⟨not_mem_softenEnd (by decide) (Text.not_mem_of_mem_split hmem),
      not_closesFence_softenEnd 3 hmem⟩
  rw [text_code o hbreak, fence_eq_replicate]
  exact readFenced_unlines (by rw [length_fence]; omega) (not_mem_softenEnd (by decide) hticks)
    (not_mem_softenEnd (by decide) hbreak) hcontent

/-- A code block is read back from the text of a document just if its language has no backtick, no line
break and no space or tab at its ends, and neither the language nor a line of the value ends in a space
that is softened. -/
theorem readFenced_markdown_iff (o : Options) (language value : String) :
    (∃ t, markdown o (.root [.code (some language) none value]) = .ok t ∧
      readFenced t.toList = some (language.toList, value.toList)) ↔
    ('`' ∉ language.toList ∧ '\n' ∉ language.toList ∧ trimBlanks language.toList = language.toList ∧
      endsSoft language.toList = false) ∧
    ∀ line ∈ Text.lines value.toList, endsSoft line = false := by
  have hmarkdown : (∃ t, markdown o (.root [.code (some language) none value]) = .ok t ∧
      readFenced t.toList = some (language.toList, value.toList)) ↔
      readFenced ((Document.mk [.code (some language) none value]).text o) =
        some (language.toList, value.toList) := by
    have hdocument : markdown o (.root [.code (some language) none value]) =
        .ok (String.ofList ((Document.mk [.code (some language) none value]).text o)) := rfl
    simp [hdocument]
  rw [hmarkdown]
  constructor
  · intro h
    obtain ⟨hticks, hbreak⟩ := not_mem_of_readFenced h
    rw [readFenced_text_code o hticks hbreak, Option.some_inj, Prod.mk.injEq,
      trimBlanks_softenEnd_eq_iff, unlines_softened_eq_iff] at h
    exact ⟨⟨hticks, hbreak, h.1⟩, h.2⟩
  · rintro ⟨⟨hticks, hbreak, hlanguage⟩, hvalue⟩
    rw [readFenced_text_code o hticks hbreak, trimBlanks_softenEnd_eq_iff.2 hlanguage,
      unlines_softened_eq_iff.2 hvalue]

/-- The reference for a space at the end of a line of code is lost. -/
theorem readFenced_markdown_reference :
    markdown {} (.root [.code (some "py") none "x&#x20;"]) = .ok "```py\nx \n```\n" ∧
    readFenced "```py\nx \n```\n".toList = some ("py".toList, "x ".toList) := by
  constructor
  · rfl
  · decide +kernel

end PageExport.Markdown
