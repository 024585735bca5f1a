import WorkStack.Streams.DeletionChecks

/-!
# Segments and their targets

The events of a valid directory lie in the files that their months name. The targets of a rewrite
replace or delete exactly the files whose events change, expect the digests of the files that were
read, and lead to the directory of the events that are left.
-/

open WorkStack.Python WorkStack.Effect

namespace WorkStack.Streams

/-! ## Lists -/

/-- The part of a concatenation that carries the mark of one of its pieces is that piece. -/
theorem filter_flatMap_eq {ι α κ : Type} [DecidableEq κ] {place : ι → κ} {key : α → κ} {piece : ι → List α}
    {items : List ι} (hplaces : (items.map place).Nodup) (hkey : ∀ item ∈ items, ∀ a ∈ piece item, key a = place item)
    {item : ι} (hitem : item ∈ items) : (items.flatMap piece).filter (fun a ↦ key a = place item) = piece item := by
  induction items with
  | nil => cases hitem
  | cons first items ih =>
      obtain ⟨hfirst, hnodup⟩ := List.nodup_cons.mp hplaces
      have hrest := fun other hother ↦ hkey other (List.mem_cons_of_mem first hother)
      rw [List.flatMap_cons, List.filter_append]
      rcases List.mem_cons.mp hitem with rfl | hmem
      · have hown : (piece item).filter (fun a ↦ key a = place item) = piece item :=
          List.filter_eq_self.mpr fun a ha ↦ decide_eq_true (hkey item (List.mem_cons_self ..) a ha)
        have hnone : (items.flatMap piece).filter (fun a ↦ key a = place item) = [] := by
          rw [List.filter_eq_nil_iff]
          intro a ha hplace
          obtain ⟨other, hother, haOther⟩ := List.mem_flatMap.mp ha
          apply hfirst
          rw [← of_decide_eq_true hplace, hrest other hother a haOther]
          exact List.mem_map_of_mem hother
        rw [hown, hnone, List.append_nil]
      · have hnone : (piece first).filter (fun a ↦ key a = place item) = [] := by
          rw [List.filter_eq_nil_iff]
          intro a ha hplace
          apply hfirst
          rw [← hkey first (List.mem_cons_self ..) a ha, of_decide_eq_true hplace]
          exact List.mem_map_of_mem hmem
        rw [hnone, List.nil_append, ih hnodup hrest hmem]

/-- The marks of what a partial function yields, when they tell where it came from. -/
theorem map_filterMap_eq {α β : Type} {f : α → Option β} {key : β → α} (h : ∀ a b, f a = some b → key b = a)
    (items : List α) : (items.filterMap f).map key = items.filter fun a ↦ (f a).isSome := by
  induction items with
  | nil => rfl
  | cons a items ih =>
      cases hf : f a with
      | none => rw [List.filterMap_cons_none hf, List.filter_cons_of_neg (by simp [hf]), ih]
      | some b => rw [List.filterMap_cons_some hf, List.filter_cons_of_pos (by simp [hf]), List.map_cons, ih, h a b hf]

/-! ## The segment of an event -/

/-- The month of an event, as `_segment_artifact` cuts it out. -/
def monthOf (value : Event) : String := String.ofList (((value.text? "created_at").getD "").toList.take 7)

/-- The path of the segment of an entry. -/
def pathOf (entry : Entry) : String := segmentPath entry.1 (monthOf entry.2)

/-- The events of a segment. -/
def segmentEvents (entries : List Entry) (artifact : String) : List Event :=
  (entries.filter fun entry ↦ pathOf entry = artifact).map Prod.snd

/-- The path of a file. -/
def filePath (file : (StreamKind × String) × List Event) : String := segmentPath file.1.1 file.1.2

theorem nodup_filePath (files : StreamFiles) : (files.items.map filePath).Nodup := by
  have hkeys : (files.items.map Prod.fst).Nodup := files.nodup
  have hpaths : ((files.items.map Prod.fst).map fun key ↦ segmentPath key.1 key.2).Nodup :=
    hkeys.map fun _ _ h ↦ segmentPath_injective h
  rw [List.map_map] at hpaths
  exact hpaths

section Months

variable {R : StreamRules} {kind : StreamKind} {month : String}

theorem isSegmentMonth_chars (h : isSegmentMonth month) : ∃ a b c d e f : Char,
    month.toList = [a, b, c, d, '-', e, f] ∧ ∀ char ∈ [a, b, c, d, e, f], char.isDigit := by
  unfold isSegmentMonth at h
  split at h
  · rename_i a b c d e f heq
    rw [Bool.and_eq_true, List.all_eq_true] at h
    refine ⟨a, b, c, d, e, f, heq, ?_⟩
    have hdigit : ∀ {low high char : Char}, '0' ≤ low → high ≤ '9' → low ≤ char → char ≤ high → char.isDigit := by
      intro low high char hlow hhigh hge hle
      rw [Char.isDigit, Bool.and_eq_true, decide_eq_true_eq, decide_eq_true_eq]
      exact ⟨le_trans hlow hge, le_trans hle hhigh⟩
    have hmonth := h.2
    simp only [Bool.or_eq_true, Bool.and_eq_true, beq_iff_eq, decide_eq_true_eq] at hmonth
    have hlast : e.isDigit ∧ f.isDigit := by
      rcases hmonth with ⟨⟨rfl, hge⟩, hle⟩ | ⟨⟨rfl, hge⟩, hle⟩
      · exact ⟨rfl, hdigit (by decide) le_rfl hge hle⟩
      · exact ⟨rfl, hdigit le_rfl (by decide) hge hle⟩
    intro char hchar
    simp only [List.mem_cons, List.not_mem_nil, or_false] at hchar
    rcases hchar with rfl | rfl | rfl | rfl | rfl | rfl
    · exact h.1 _ (by simp)
    · exact h.1 _ (by simp)
    · exact h.1 _ (by simp)
    · exact h.1 _ (by simp)
    · exact hlast.1
    · exact hlast.2
  · cases h

/-- The path of a segment can be the artifact of a target. -/
theorem isTargetArtifact_segmentPath (h : isSegmentMonth month) : isTargetArtifact (segmentPath kind month) := by
  obtain ⟨a, b, c, d, e, f, hmonth, hdigits⟩ := isSegmentMonth_chars h
  have hslash : ∀ char ∈ [a, b, c, d, e, f], char ≠ '/' := by
    rintro char hchar rfl
    exact absurd (hdigits _ hchar) (by decide)
  have hback : ∀ char ∈ [a, b, c, d, e, f], char ≠ '\\' := by
    rintro char hchar rfl
    exact absurd (hdigits _ hchar) (by decide)
  have hchars : (segmentPath kind month).toList =
      "streams/".toList ++ kind.text.toList ++ "/".toList ++ [a, b, c, d, '-', e, f] ++ ".ndjson".toList := by
    simp only [segmentPath, String.toList_append, hmonth]
  simp only [List.forall_mem_cons, List.not_mem_nil, false_implies, implies_true, and_true] at hslash hback
  obtain ⟨ha, hb, hc, hd, he, hf⟩ := hslash
  have hsplit : ".." ∉ split '/' (segmentPath kind month) := by
    unfold split
    rw [hchars]
    cases kind <;>
    · simp [StreamKind.text, splitChars, ha, hb, hc, hd, he, hf]
      intro heq
      have hlength := congrArg String.toList heq
      simp at hlength
  have hne : segmentPath kind month ≠ "" := by
    intro hempty
    rw [hempty] at hchars
    cases kind <;> simp [StreamKind.text] at hchars
  have hlength : (segmentPath kind month).length ≤ 512 := by
    rw [← String.length_toList, hchars]
    cases kind <;> simp [StreamKind.text]
  have hbackslash : '\\' ∉ (segmentPath kind month).toList := by
    rw [hchars]
    obtain ⟨ha', hb', hc', hd', he', hf'⟩ := hback
    cases kind <;> simp [StreamKind.text, ha'.symm, hb'.symm, hc'.symm, hd'.symm, he'.symm, hf'.symm]
  have hhead : (segmentPath kind month).toList.head? ≠ some '/' := by
    rw [hchars]
    cases kind <;> simp [StreamKind.text]
  unfold isTargetArtifact
  simp only [Bool.and_eq_true, bne_iff_ne, decide_eq_true_eq, Bool.not_eq_true', List.contains_eq_mem,
    decide_eq_false_iff_not, ne_eq]
  exact ⟨⟨⟨⟨hne, hlength⟩, hbackslash⟩, hhead⟩, hsplit⟩

end Months

/-! ## Entries in their files -/

section Placed

variable {R : StreamRules} {kind : StreamKind} {month : String} {values : List Event}

theorem exists_createdAt {value : Event} (h : meetsContract R kind value) :
    ∃ text, value.text? "created_at" = some text := by
  obtain ⟨found, hget, hadmits⟩ := Event.admits_of_meets (envelope_of_meetsContract h
    (show required "created_at" (isDateOrTimestamp R) ∈ envelope R kind by simp [envelope]))
  cases found with
  | str text => exact ⟨text, Event.text?_eq_some_iff.mpr (Event.find_eq_of_get hget)⟩
  | _ => cases hadmits

/-- The events of a valid file belong to its segment. -/
theorem FileValid.segment_eq (h : FileValid R kind month values) {value : Event} (hvalue : value ∈ values) :
    monthOf value = month ∧ segmentArtifact kind value = .ok (segmentPath kind (monthOf value)) := by
  obtain ⟨text, htext⟩ := exists_createdAt (h.contract value hvalue).1
  obtain ⟨a, b, c, d, e, f, hmonth, _⟩ := isSegmentMonth_chars h.isMonth
  have hstart := h.created value hvalue text htext
  have hlength : month.toList.length = 7 := by rw [hmonth]; rfl
  have htake : text.toList.take 7 = month.toList := by
    rw [← hlength]
    exact (List.prefix_iff_eq_take.mp hstart).symm
  have hown : monthOf value = month := by
    rw [monthOf, htext, Option.getD_some, htake, String.ofList_toList]
  refine ⟨hown, ?_⟩
  have hdash : text.toList[4]? = some '-' := by
    have hget : (text.toList.take 7)[4]? = some '-' := by
      rw [htake, hmonth]
      rfl
    rwa [List.getElem?_take_of_lt (by decide)] at hget
  have hlong : 7 ≤ text.length := by
    rw [← String.length_toList, ← hlength]
    exact hstart.length_le
  unfold segmentArtifact
  rw [htext]
  dsimp only
  rw [if_pos ⟨hlong, hdash⟩, monthOf, htext, Option.getD_some]

theorem segmentArtifact_congr {value value' : Event} (h : value.get "created_at" = value'.get "created_at") :
    segmentArtifact kind value = segmentArtifact kind value' := by
  unfold segmentArtifact
  rw [Event.text?_congr h]

theorem monthOf_congr {value value' : Event} (h : value.get "created_at" = value'.get "created_at") :
    monthOf value = monthOf value' := by
  unfold monthOf
  rw [Event.text?_congr h]

/-- An entry says which segment it belongs to. -/
def Placed (entry : Entry) : Prop := segmentArtifact entry.1 entry.2 = .ok (pathOf entry)

variable {files : StreamFiles} {entries : List Entry}

/-- Every event of the directory belongs to the file it is in. -/
theorem placed_of_mem (h : ∀ file ∈ files.items, FileValid R file.1.1 file.1.2 file.2) {entry : Entry}
    (hentry : entry ∈ entriesOf files) : Placed entry ∧ ∃ file ∈ files.items, pathOf entry = filePath file := by
  obtain ⟨file, hfile, hmem⟩ := List.mem_flatMap.mp hentry
  obtain ⟨value, hvalue, rfl⟩ := List.mem_map.mp hmem
  obtain ⟨hmonth, hplaced⟩ := (h file hfile).segment_eq hvalue
  exact ⟨hplaced, file, hfile, by rw [pathOf, filePath, hmonth]⟩

/-- The events of a segment, in the global order, are those of its file. -/
theorem segmentEvents_eq (h : ∀ file ∈ files.items, FileValid R file.1.1 file.1.2 file.2)
    (hperm : (entriesOf files).Perm entries) (horder : ValidOrder R entries)
    {file : (StreamKind × String) × List Event} (hfile : file ∈ files.items) :
    segmentEvents entries (filePath file) = file.2 := by
  have hpiece : (entriesOf files).filter (fun entry ↦ pathOf entry = filePath file) =
      file.2.map fun value ↦ (file.1.1, value) := by
    refine filter_flatMap_eq (nodup_filePath files) (fun other hother entry hentry ↦ ?_) hfile
    obtain ⟨value, hvalue, rfl⟩ := List.mem_map.mp hentry
    rw [pathOf, filePath, ((h other hother).segment_eq hvalue).1]
  have hpiecePerm := hperm.filter fun entry ↦ pathOf entry = filePath file
  rw [hpiece] at hpiecePerm
  have hincreasing := (increasing_of_validOrder horder).filter fun entry ↦ pathOf entry = filePath file
  have hown : (file.2.map fun value ↦ (file.1.1, value)).Pairwise fun a b ↦ positionOf a < positionOf b := by
    have hpositions : (file.2.filterMap fun value ↦ value.exactInt? "sequence") =
        file.2.map fun value ↦ positionOf (file.1.1, value) := by
      rw [List.filterMap_congr (g := fun value ↦ some (positionOf (file.1.1, value)))]
      · exact congrFun (List.filterMap_eq_map (f := fun value ↦ positionOf (file.1.1, value))) file.2
      · intro value hvalue
        obtain ⟨n, hget, _⟩ := sequence_of_meetsContract ((h file hfile).contract value hvalue).1
        rw [positionOf, Event.find_eq_of_get hget, Event.exactInt?_eq_some_iff.mpr (Event.find_eq_of_get hget)]
        rfl
    have hfileOrder := (h file hfile).order
    rw [hpositions, List.pairwise_map] at hfileOrder
    rw [List.pairwise_map]
    exact hfileOrder
  have hsame : entries.filter (fun entry ↦ pathOf entry = filePath file) = file.2.map fun value ↦ (file.1.1, value) :=
    (insertionSort_eq_of_perm _ hpiecePerm hincreasing).symm.trans (insertionSort_eq_of_perm _ (List.Perm.refl _) hown)
  rw [segmentEvents, hsame, List.map_map]
  exact List.map_id _

end Placed

/-! ## Groups -/

section Groups

variable {entries : List Entry}

/-- Grouping finds the events of every segment. -/
theorem groupSegments_ok (grouped : Dict String (List Event)) (h : ∀ entry ∈ entries, Placed entry) :
    ∃ segments, groupSegments grouped entries = .ok segments ∧
      (∀ artifact, (segments.get artifact).getD [] = (grouped.get artifact).getD [] ++ segmentEvents entries artifact) ∧
      ∀ artifact, artifact ∈ Dict.keys segments ↔
        artifact ∈ Dict.keys grouped ∨ ∃ entry ∈ entries, pathOf entry = artifact := by
  induction entries generalizing grouped with
  | nil => exact ⟨grouped, rfl, by simp [segmentEvents], by simp⟩
  | cons entry entries ih =>
      obtain ⟨segments, hsegments, hget, hkeys⟩ := ih (addToSegment grouped (pathOf entry) entry.2)
        fun other hother ↦ h other (List.mem_cons_of_mem _ hother)
      refine ⟨segments, ?_, fun artifact ↦ ?_, fun artifact ↦ ?_⟩
      · have hentry : segmentArtifact entry.1 entry.2 = .ok (pathOf entry) := h entry (List.mem_cons_self ..)
        rw [groupSegments, hentry]
        exact hsegments
      · rw [hget, addToSegment, Dict.get_set]
        by_cases hpath : pathOf entry = artifact
        · simp [hpath, segmentEvents]
        · simp [hpath, segmentEvents]
      · rw [hkeys, Dict.mem_keys, addToSegment, Dict.get_set, Dict.mem_keys, List.exists_mem_cons_iff]
        by_cases hpath : pathOf entry = artifact
        · simp [hpath]
        · simp [hpath]

end Groups

/-! ## Targets -/

/-- The target of a segment, if its bytes change. -/
def segmentTarget (R : StreamRules) (artifact : String) (original rewritten : List Event) :
    Option WriteSession.JournalTarget :=
  if segmentBody original = segmentBody rewritten then none
  else if rewritten.isEmpty then
    some ⟨.delete, .authority, artifact, some (R.sha256 (segmentBody original)), none, none⟩
  else some ⟨.replace, .authority, artifact, some (R.sha256 (segmentBody original)),
    some (R.sha256 (segmentBody rewritten)), some (segmentBody rewritten)⟩

/-- The bytes of the files of a directory. -/
def fileBytes (files : StreamFiles) (artifact : String) : Option Bytes :=
  (files.items.find? fun file ↦ filePath file = artifact).map fun file ↦ segmentBody file.2

/-- What the targets make of the files. -/
def applyTargets (targets : List WriteSession.JournalTarget) (disk : String → Option Bytes) (artifact : String) :
    Option Bytes :=
  match targets.find? fun target ↦ target.artifact = artifact with
  | some target => target.proposedBytes
  | none => disk artifact

section Targets

variable {R : StreamRules} {files : StreamFiles} {entries done : List Entry}

theorem segmentTarget_artifact {artifact : String} {original rewritten : List Event}
    {target : WriteSession.JournalTarget} (h : segmentTarget R artifact original rewritten = some target) :
    target.artifact = artifact := by
  unfold segmentTarget at h
  split at h
  · cases h
  · split at h
    · rw [← Option.some.inj h]
    · rw [← Option.some.inj h]

theorem segmentTarget_expected {artifact : String} {original rewritten : List Event}
    {target : WriteSession.JournalTarget} (h : segmentTarget R artifact original rewritten = some target) :
    target.expectedDigest = some (R.sha256 (segmentBody original)) := by
  unfold segmentTarget at h
  split at h
  · cases h
  · split at h
    · rw [← Option.some.inj h]
    · rw [← Option.some.inj h]

theorem get_fileDigests {file : (StreamKind × String) × List Event} (h : file ∈ files.items) :
    (fileDigests R.sha256 files).get (filePath file) = some (R.sha256 (segmentBody file.2)) := by
  refine (Dict.get_eq_some_iff_mem (fileDigests R.sha256 files).nodup).mpr ?_
  exact List.mem_map.mpr ⟨file, h, rfl⟩

theorem segmentBody_eq_nil {events : List Event} : segmentBody events = [] ↔ events = [] := by
  unfold segmentBody
  rw [List.flatMap_eq_nil_iff]
  constructor
  · intro h
    rw [List.eq_nil_iff_forall_not_mem]
    exact fun event hevent ↦ absurd (h event hevent) (by simp)
  · rintro rfl event hevent
    cases hevent

/-- The segment of a valid file is emitted when what is left of it is not longer. -/
theorem emitSegment_eq {file : (StreamKind × String) × List Event} (hfile : file ∈ files.items)
    (hvalid : FileValid R file.1.1 file.1.2 file.2) {rewritten : List Event} (hempty : file.2 = [] → rewritten = [])
    (hsize : (segmentBody rewritten).length ≤ (segmentBody file.2).length) :
    emitSegment R (filePath file) file.2 rewritten ((fileDigests R.sha256 files).get (filePath file)) =
      .ok (segmentTarget R (filePath file) file.2 rewritten) := by
  unfold emitSegment segmentTarget
  by_cases hsame : segmentBody file.2 = segmentBody rewritten
  · rw [if_pos hsame, if_pos hsame]
  · have hne : file.2 ≠ [] := by
      intro hnil
      exact hsame (by rw [hnil, hempty hnil])
    have hbytes : ¬WriteSession.maxTargetBytes < (segmentBody rewritten).length := by
      have hfileSize := hvalid.size
      unfold maxStreamSegmentBytes at hfileSize
      unfold WriteSession.maxTargetBytes
      omega
    have hartifact := @isTargetArtifact_segmentPath file.1.1 _ hvalid.isMonth
    rw [if_neg hsame, if_neg hsame, get_fileDigests hfile]
    unfold emitChanged
    rw [require_ok (by simpa using hne)]
    change Except.map some (require _ >>= _) = _
    rw [require_ok (beq_self_eq_true _)]
    change Except.map some (if rewritten.isEmpty then _ else _) = _
    by_cases hleft : rewritten.isEmpty
    · rw [if_pos hleft, if_pos hleft, deleteTarget, filePath, hartifact]
      rfl
    · rw [if_neg hleft, if_neg hleft, replaceTarget, filePath, hartifact, if_neg (by simp), if_neg hbytes]
      rfl

/-- What is left of the events of a directory stays in its files and does not make them longer. -/
structure Fits (files : StreamFiles) (done : List Entry) : Prop where
  placed : ∀ entry ∈ done, Placed entry ∧ ∃ file ∈ files.items, pathOf entry = filePath file
  empty : ∀ file ∈ files.items, file.2 = [] → segmentEvents done (filePath file) = []
  size : ∀ file ∈ files.items,
    (segmentBody (segmentEvents done (filePath file))).length ≤ (segmentBody file.2).length

theorem segmentEvents_ne_nil {artifact : String} :
    segmentEvents entries artifact ≠ [] ↔ ∃ entry ∈ entries, pathOf entry = artifact := by
  unfold segmentEvents
  rw [ne_eq, List.map_eq_nil_iff, List.filter_eq_nil_iff]
  simp

/-- The targets are those of the files. -/
theorem segmentTargets_ok (hfiles : ∀ file ∈ files.items, FileValid R file.1.1 file.1.2 file.2)
    (hperm : (entriesOf files).Perm entries) (horder : ValidOrder R entries) (hfits : Fits files done) :
    ∃ targets, segmentTargets R entries done (fileDigests R.sha256 files) = .ok targets ∧
      (targets.map WriteSession.JournalTarget.artifact).Nodup ∧
      ∀ target, target ∈ targets ↔ ∃ file ∈ files.items,
        segmentTarget R (filePath file) file.2 (segmentEvents done (filePath file)) = some target := by
  have hplaced : ∀ entry ∈ entries, Placed entry ∧ ∃ file ∈ files.items, pathOf entry = filePath file :=
    fun entry hentry ↦ placed_of_mem hfiles (hperm.mem_iff.mpr hentry)
  obtain ⟨originals, horiginals, hgetOriginal, hkeysOriginal⟩ :=
    groupSegments_ok [] fun entry hentry ↦ (hplaced entry hentry).1
  obtain ⟨rewritten, hrewritten, hgetRewritten, hkeysRewritten⟩ :=
    groupSegments_ok [] fun entry hentry ↦ (hfits.placed entry hentry).1
  have hartifacts : ∀ artifact, artifact ∈ sortedSet (Dict.keys originals ++ Dict.keys rewritten) ↔
      ∃ entry ∈ entries ++ done, pathOf entry = artifact := by
    intro artifact
    rw [mem_sortedSet, List.mem_append, hkeysOriginal, hkeysRewritten]
    simp only [Dict.keys, List.map_nil, List.not_mem_nil, false_or, List.mem_append, or_and_right, exists_or]
  have hfile : ∀ artifact ∈ sortedSet (Dict.keys originals ++ Dict.keys rewritten),
      ∃ file ∈ files.items, artifact = filePath file := by
    intro artifact hmem
    obtain ⟨entry, hentry, rfl⟩ := (hartifacts artifact).mp hmem
    rcases List.mem_append.mp hentry with hentry | hentry
    · exact (hplaced entry hentry).2
    · exact (hfits.placed entry hentry).2
  have hemitted : emitSegments R originals rewritten (fileDigests R.sha256 files)
      (sortedSet (Dict.keys originals ++ Dict.keys rewritten)) =
      .ok ((sortedSet (Dict.keys originals ++ Dict.keys rewritten)).filterMap fun artifact ↦
        segmentTarget R artifact (segmentEvents entries artifact) (segmentEvents done artifact)) := by
    have hall : (sortedSet (Dict.keys originals ++ Dict.keys rewritten)).mapM (fun artifact ↦
        emitSegment R artifact ((originals.get artifact).getD []) ((rewritten.get artifact).getD [])
          ((fileDigests R.sha256 files).get artifact)) =
        .ok ((sortedSet (Dict.keys originals ++ Dict.keys rewritten)).map fun artifact ↦
          segmentTarget R artifact (segmentEvents entries artifact) (segmentEvents done artifact)) :=
      mapM_ok fun artifact hmem ↦ by
        obtain ⟨file, hmemFile, rfl⟩ := hfile artifact hmem
        rw [hgetOriginal, hgetRewritten]
        change emitSegment R _ (segmentEvents entries _) (segmentEvents done _) _ = _
        rw [segmentEvents_eq hfiles hperm horder hmemFile]
        exact emitSegment_eq hmemFile (hfiles file hmemFile) (hfits.empty file hmemFile) (hfits.size file hmemFile)
    unfold emitSegments
    rw [hall]
    change Except.ok _ = _
    rw [List.reduceOption, List.filterMap_map]
    rfl
  have hkeys := map_filterMap_eq (f := fun artifact ↦ segmentTarget R artifact (segmentEvents entries artifact)
    (segmentEvents done artifact)) (fun _ _ ↦ segmentTarget_artifact)
    (sortedSet (Dict.keys originals ++ Dict.keys rewritten))
  have hnodup := (nodup_sortedSet (Dict.keys originals ++ Dict.keys rewritten)).filter fun artifact ↦
    (segmentTarget R artifact (segmentEvents entries artifact) (segmentEvents done artifact)).isSome
  rw [← hkeys] at hnodup
  refine ⟨WriteSession.sortedTargets ((sortedSet (Dict.keys originals ++ Dict.keys rewritten)).filterMap fun artifact ↦
    segmentTarget R artifact (segmentEvents entries artifact) (segmentEvents done artifact)), ?_, ?_, fun target ↦ ?_⟩
  · unfold segmentTargets
    rw [horiginals]
    change (groupSegments [] done >>= _) = _
    rw [hrewritten]
    change (emitSegments R originals rewritten _ _ >>= _) = _
    rw [hemitted]
    change (require _ >>= _) = _
    rw [require_ok (decide_eq_true hnodup)]
    rfl
  · exact ((List.perm_insertionSort _ _).map _).nodup_iff.mpr hnodup
  · unfold WriteSession.sortedTargets
    rw [List.mem_insertionSort, List.mem_filterMap]
    constructor
    · rintro ⟨artifact, hmem, htarget⟩
      obtain ⟨file, hmemFile, rfl⟩ := hfile artifact hmem
      rw [segmentEvents_eq hfiles hperm horder hmemFile] at htarget
      exact ⟨file, hmemFile, htarget⟩
    · rintro ⟨file, hmemFile, htarget⟩
      refine ⟨filePath file, ?_, ?_⟩
      · rw [hartifacts]
        by_contra hnone
        have hleft : file.2 = [] := by
          rw [← segmentEvents_eq hfiles hperm horder hmemFile]
          by_contra hne
          obtain ⟨entry, hentry, hpath⟩ := segmentEvents_ne_nil.mp hne
          exact hnone ⟨entry, List.mem_append_left _ hentry, hpath⟩
        rw [hfits.empty file hmemFile hleft, hleft] at htarget
        simp [segmentTarget] at htarget
      · rw [segmentEvents_eq hfiles hperm horder hmemFile]
        exact htarget

end Targets

/-! ## The directory afterwards -/

/-- The directory of the events that are left. A file that loses its last event is gone. -/
def filesAfter (files : StreamFiles) (done : List Entry) : StreamFiles :=
  ⟨(files.items.filter fun file ↦ file.2.isEmpty || !(segmentEvents done (filePath file)).isEmpty).map
      fun file ↦ (file.1, segmentEvents done (filePath file)), by
    have hkeys : (files.items.map Prod.fst).Nodup := files.nodup
    rw [Dict.keys, List.map_map]
    exact hkeys.sublist (List.filter_sublist.map _)⟩

section After

variable {R : StreamRules} {files : StreamFiles} {entries done : List Entry}

theorem fileBytes_of_mem {file : (StreamKind × String) × List Event} (h : file ∈ files.items) :
    fileBytes files (filePath file) = some (segmentBody file.2) := by
  have hfound : (files.items.find? fun other ↦ filePath other = filePath file) = some file := by
    cases hfind : files.items.find? fun other ↦ filePath other = filePath file with
    | none => exact absurd (List.find?_eq_none.mp hfind file h) (by simp)
    | some other =>
        have hpath : filePath other = filePath file := by simpa using List.find?_some hfind
        rw [List.inj_on_of_nodup_map (nodup_filePath files) (List.mem_of_find?_eq_some hfind) h hpath]
  rw [fileBytes, hfound, Option.map_some]

theorem fileBytes_of_notMem {artifact : String} (h : ∀ file ∈ files.items, filePath file ≠ artifact) :
    fileBytes files artifact = none := by
  rw [fileBytes, List.find?_eq_none.mpr (by simpa using h), Option.map_none]

theorem mem_filesAfter {file : (StreamKind × String) × List Event} :
    file ∈ (filesAfter files done).items ↔ ∃ original ∈ files.items,
      (original.2 = [] ∨ segmentEvents done (filePath original) ≠ []) ∧
      file = (original.1, segmentEvents done (filePath original)) := by
  unfold filesAfter
  rw [List.mem_map]
  constructor
  · rintro ⟨original, hmem, rfl⟩
    obtain ⟨hmem, hkept⟩ := List.mem_filter.mp hmem
    exact ⟨original, hmem, by simpa using hkept, rfl⟩
  · rintro ⟨original, hmem, hkept, rfl⟩
    exact ⟨original, List.mem_filter.mpr ⟨hmem, by simpa using hkept⟩, rfl⟩

/-- The targets lead to the directory of the events that are left. -/
theorem applyTargets_eq {targets : List WriteSession.JournalTarget}
    (hnodup : (targets.map WriteSession.JournalTarget.artifact).Nodup)
    (htargets : ∀ target, target ∈ targets ↔ ∃ file ∈ files.items,
      segmentTarget R (filePath file) file.2 (segmentEvents done (filePath file)) = some target) :
    applyTargets targets (fileBytes files) = fileBytes (filesAfter files done) := by
  funext artifact
  have hafter : ∀ file ∈ (filesAfter files done).items, ∃ original ∈ files.items, filePath file = filePath original := by
    intro file hfile
    obtain ⟨original, horiginal, _, rfl⟩ := mem_filesAfter.mp hfile
    exact ⟨original, horiginal, rfl⟩
  by_cases hexists : ∃ file ∈ files.items, filePath file = artifact
  · obtain ⟨file, hfile, rfl⟩ := hexists
    have hsame : ∀ other ∈ files.items, filePath other = filePath file → other = file :=
      fun other hother ↦ List.inj_on_of_nodup_map (nodup_filePath files) hother hfile
    have hkept : file.2 = [] ∨ segmentEvents done (filePath file) ≠ [] →
        fileBytes (filesAfter files done) (filePath file) =
          some (segmentBody (segmentEvents done (filePath file))) := fun h ↦
      @fileBytes_of_mem _ (file.1, segmentEvents done (filePath file))
        (mem_filesAfter.mpr ⟨file, hfile, h, rfl⟩)
    unfold applyTargets
    cases htarget : segmentTarget R (filePath file) file.2 (segmentEvents done (filePath file)) with
    | none =>
        have hnone : (targets.find? fun target ↦ target.artifact = filePath file) = none := by
          rw [List.find?_eq_none]
          intro target hmem hartifact
          obtain ⟨other, hother, hother'⟩ := (htargets target).mp hmem
          have hpath := (segmentTarget_artifact hother').symm.trans (of_decide_eq_true hartifact)
          rw [hsame other hother hpath, htarget] at hother'
          cases hother'
        have hbytes : segmentBody file.2 = segmentBody (segmentEvents done (filePath file)) := by
          unfold segmentTarget at htarget
          split at htarget
          · assumption
          · split at htarget <;> cases htarget
        rw [hnone, hkept, fileBytes_of_mem hfile, hbytes]
        by_cases hempty : file.2 = []
        · exact Or.inl hempty
        · right
          rw [ne_eq, ← segmentBody_eq_nil, ← hbytes, segmentBody_eq_nil]
          exact hempty
    | some target =>
        have hmem : target ∈ targets := (htargets target).mpr ⟨file, hfile, htarget⟩
        have hfound : (targets.find? fun target ↦ target.artifact = filePath file) = some target := by
          cases hfind : targets.find? fun target ↦ target.artifact = filePath file with
          | none => exact absurd (List.find?_eq_none.mp hfind target hmem) (by simp [segmentTarget_artifact htarget])
          | some other =>
              have hartifact : other.artifact = filePath file := by simpa using List.find?_some hfind
              rw [List.inj_on_of_nodup_map hnodup (List.mem_of_find?_eq_some hfind) hmem
                (hartifact.trans (segmentTarget_artifact htarget).symm)]
        rw [hfound]
        unfold segmentTarget at htarget
        split at htarget
        · cases htarget
        · rename_i hbytes
          split at htarget
          · rename_i hleft
            rw [← Option.some.inj htarget]
            refine (fileBytes_of_notMem fun other hother hpath ↦ ?_).symm
            obtain ⟨original, horiginal, hkeep, rfl⟩ := mem_filesAfter.mp hother
            rw [hsame original horiginal hpath] at hkeep
            have hnil : segmentEvents done (filePath file) = [] := List.isEmpty_iff.mp hleft
            rcases hkeep with hempty | hne
            · exact hbytes (by rw [hempty, hnil])
            · exact hne hnil
          · rename_i hleft
            rw [← Option.some.inj htarget]
            exact (hkept (Or.inr fun hnil ↦ hleft (List.isEmpty_iff.mpr hnil))).symm
  · push Not at hexists
    have hnone : (targets.find? fun target ↦ target.artifact = artifact) = none := by
      rw [List.find?_eq_none]
      intro target hmem hartifact
      obtain ⟨file, hfile, htarget⟩ := (htargets target).mp hmem
      exact hexists file hfile ((segmentTarget_artifact htarget).symm.trans (of_decide_eq_true hartifact))
    unfold applyTargets
    rw [hnone, fileBytes_of_notMem hexists, fileBytes_of_notMem]
    intro file hfile hpath
    obtain ⟨original, horiginal, heq⟩ := hafter file hfile
    exact hexists original horiginal (heq.symm.trans hpath)

/-- The events of the directory afterwards are those that are left. -/
theorem entriesOf_filesAfter (hfits : Fits files done) : (entriesOf (filesAfter files done)).Perm done := by
  have hpieces : entriesOf (filesAfter files done) =
      (files.items.map filePath).flatMap fun artifact ↦ done.filter fun entry ↦ pathOf entry = artifact := by
    have hpiece : ∀ file, (segmentEvents done (filePath file)).map (fun value ↦ (file.1.1, value)) =
        done.filter fun entry ↦ pathOf entry = filePath file := by
      intro file
      unfold segmentEvents
      rw [List.map_map]
      refine (List.map_congr_left fun entry hentry ↦ ?_).trans (List.map_id _)
      have hpath : pathOf entry = filePath file := by simpa using (List.mem_filter.mp hentry).2
      have hkey := congrArg Prod.fst (segmentPath_injective hpath)
      exact Prod.ext hkey.symm rfl
    unfold entriesOf filesAfter
    dsimp only
    rw [List.flatMap_map, List.flatMap_map]
    induction files.items with
    | nil => rfl
    | cons file items ih =>
        rw [List.flatMap_cons, ← hpiece file]
        by_cases hkept : file.2.isEmpty || !(segmentEvents done (filePath file)).isEmpty
        · rw [List.filter_cons, if_pos hkept, List.flatMap_cons, ih]
        · rw [List.filter_cons, if_neg hkept, ih]
          rw [Bool.not_eq_true, Bool.or_eq_false_iff, Bool.not_eq_false', List.isEmpty_iff] at hkept
          rw [hkept.2, List.map_nil, List.nil_append]
  rw [hpieces]
  refine flatMap_filter_perm pathOf (nodup_filePath files) done fun entry hentry ↦ ?_
  obtain ⟨file, hfile, hpath⟩ := (hfits.placed entry hentry).2
  exact hpath ▸ List.mem_map_of_mem hfile

/-- The files afterwards are valid. -/
theorem fileValid_filesAfter (hfiles : ∀ file ∈ files.items, FileValid R file.1.1 file.1.2 file.2)
    (hfits : Fits files done) (horder : ValidOrder R done) :
    ∀ file ∈ (filesAfter files done).items, FileValid R file.1.1 file.1.2 file.2 := by
  intro file hfile
  obtain ⟨original, horiginal, _, rfl⟩ := mem_filesAfter.mp hfile
  have hvalid := hfiles original horiginal
  have hmem : ∀ value ∈ segmentEvents done (filePath original), ∃ entry ∈ done, entry = (original.1.1, value) ∧
      monthOf value = original.1.2 := by
    intro value hvalue
    obtain ⟨entry, hentry, rfl⟩ := List.mem_map.mp hvalue
    obtain ⟨hdone, hpath⟩ := List.mem_filter.mp hentry
    obtain ⟨hkind, hmonth⟩ := Prod.mk.inj (segmentPath_injective (of_decide_eq_true hpath))
    exact ⟨entry, hdone, Prod.ext hkind rfl, hmonth⟩
  refine ⟨hvalid.isMonth, (hfits.size original horiginal).trans hvalid.size, fun value hvalue ↦ ?_, ?_, ?_⟩
  · obtain ⟨entry, hentry, rfl, _⟩ := hmem value hvalue
    exact horder.contract _ hentry
  · have hpositions : ((segmentEvents done (filePath original)).filterMap fun value ↦ value.exactInt? "sequence") =
        (done.filter fun entry ↦ pathOf entry = filePath original).map positionOf := by
      unfold segmentEvents
      rw [List.filterMap_map, List.filterMap_congr (g := fun entry ↦ some (positionOf entry))]
      · exact congrFun (List.filterMap_eq_map (f := positionOf)) _
      · intro entry hentry
        obtain ⟨n, hn, _⟩ := find_sequence horder (List.mem_of_mem_filter hentry)
        change Event.exactInt? entry.2 "sequence" = _
        rw [Event.exactInt?_eq_some_iff.mpr hn, positionOf, hn]
        rfl
    rw [hpositions, List.pairwise_map]
    exact (increasing_of_validOrder horder).filter _
  · intro value hvalue text htext
    obtain ⟨_, _, _, hmonth⟩ := hmem value hvalue
    rw [← hmonth, monthOf, htext, Option.getD_some, String.toList_ofList]
    exact List.take_prefix ..

end After

end WorkStack.Streams
