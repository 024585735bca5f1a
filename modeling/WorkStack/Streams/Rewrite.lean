import WorkStack.Python.Sorting
import WorkStack.Streams.Validation
import WorkStack.WriteSession.Layout

/-!
# Rewriting streams without the events of a task

The pure rewrite that a permanent deletion commits: the events of the three streams are put into
their global order and checked, those the deletion names are left out, the planning facts are
renumbered and linked again, every event is sealed again after its new predecessor, and the segments
whose bytes changed become compare-and-set targets.
-/

open WorkStack.Python

namespace WorkStack.Streams

/-- `V4StreamDeletion` -/
structure StreamDeletion where
  activityIds : List String
  planningIds : List String
  worklogEntries : List (String × String)
  worklogSessions : List (String × String × String)

inductive RewriteError where
  /-- `V4StreamRewriteError("invalid_stream")` -/
  | invalidStream
  /-- `JournalV2Error` -/
  | journal (code : String)
  /-- An operation on a value of another type. -/
  | fault
  deriving DecidableEq, Repr

abbrev Rewritten := Except RewriteError

/-! ## What the reader hands over -/

/-- The events of one kind, file by file. -/
def kindValues (files : StreamFiles) (kind : StreamKind) : List Event :=
  (files.items.filter fun file ↦ file.1.1 = kind).flatMap Prod.snd

/-- The streams of `read_v4`. -/
def readStreams (files : StreamFiles) : Mapping String (List Event) :=
  ⟨streamKinds.map fun kind ↦ (kind.text, kindValues files kind), by
    rw [Dict.keys, List.map_map]
    exact (by decide : (streamKinds.map StreamKind.text).Nodup)⟩

theorem segmentPath_injective {kind kind' : StreamKind} {month month' : String}
    (h : segmentPath kind month = segmentPath kind' month') : (kind, month) = (kind', month') := by
  have hchars := congrArg String.toList h
  simp only [segmentPath, String.toList_append] at hchars
  have hkind : kind = kind' := by
    cases kind <;> cases kind' <;> simp [StreamKind.text] at hchars ⊢
  subst hkind
  have hmonth : month.toList = month'.toList := by simpa using hchars
  rw [String.toList_injective hmonth]

/-- The digests of the files of the streams, under their paths. -/
def fileDigests (sha256 : Bytes → Store.Digest) (files : StreamFiles) : Mapping String Store.Digest :=
  ⟨files.items.map fun file ↦ (segmentPath file.1.1 file.1.2, sha256 (segmentBody file.2)), by
    rw [Dict.keys, List.map_map]
    have hkeys : (files.items.map Prod.fst).Nodup := files.nodup
    have hpaths : ((files.items.map Prod.fst).map fun key ↦ segmentPath key.1 key.2).Nodup :=
      hkeys.map fun _ _ h ↦ segmentPath_injective h
    rw [List.map_map] at hpaths
    exact hpaths⟩

/-- `_require` -/
def require (condition : Bool) : Rewritten Unit := if condition then .ok () else .error .invalidStream

/-- `_text` -/
def requireText : Json → Rewritten String
  | .str text => if text = "" then .error .invalidStream else .ok text
  | _ => .error .invalidStream

/-- `_sequence_of` -/
def sequenceOf (event : Event) : Rewritten ℤ :=
  match event.exactInt? "sequence" with
  | some value => if 1 ≤ value then .ok value else .error .invalidStream
  | none => .error .invalidStream

/-- `_segment_artifact` -/
def segmentArtifact (kind : StreamKind) (event : Event) : Rewritten String :=
  match event.text? "created_at" with
  | some text =>
      if 7 ≤ text.length ∧ text.toList[4]? = some '-' then
        .ok (segmentPath kind (String.ofList (text.toList.take 7)))
      else .error .invalidStream
  | none => .error .invalidStream

section Existing

variable (R : StreamRules)

/-! ## The streams as they are -/

/-- `_unknown_kinds` -/
def unknownKinds (streams : Mapping String (List Event)) : Rewritten Unit :=
  require (streams.keys.all fun name ↦ streamKinds.any fun kind ↦ kind.text == name)

/-- `_kind_events` of every kind, each event with its kind -/
def kindEntries (streams : Mapping String (List Event)) : List Entry :=
  streamKinds.flatMap fun kind ↦ ((streams.get kind.text).getD []).map fun event ↦ (kind, event)

/-- The order of `entries.sort(key=lambda item: _sequence_of(item[1]))`. -/
def sortEntries (entries : List (ℤ × Entry)) : List Entry :=
  (entries.insertionSort fun a b ↦ a.1 ≤ b.1).map Prod.snd

/-- An entry beside its sequence number. -/
def numberedEntry (entry : Entry) : Rewritten (ℤ × Entry) := (sequenceOf entry.2).map fun sequence ↦ (sequence, entry)

/-- `_collect_entries` -/
def collectEntries (streams : Mapping String (List Event)) : Rewritten (List Entry) := do
  unknownKinds streams
  require ((kindEntries streams).all fun entry ↦ validEventContract R entry.1 entry.2)
  let numbered ← (kindEntries streams).mapM numberedEntry
  return sortEntries numbered

/-- `_require_contiguous` -/
def requireContiguous (entries : List Entry) : Rewritten Unit :=
  require (entries.map (fun entry ↦ entry.2.exactInt? "sequence") == (sequenceRun entries.length).map some)

/-- `_SHA256.fullmatch` -/
def isDigestText (text : String) : Bool :=
  text.toList.take 7 == "sha256:".toList && fits (isHexRun 64) (text.toList.drop 7)

/-- `_claimed_digest` -/
def claimedDigest (event : Event) : Rewritten String :=
  match event.text? "event_digest" with
  | some text => if isDigestText text then .ok text else .error .invalidStream
  | none => .error .invalidStream

/-- One turn of `_require_digest_chain`: what the event claims, when it may stand here. -/
def requireDigest (seen : List String) (previous : Option String) (event : Event) : Rewritten (String × String) := do
  let uid ← requireText (event.find "event_uid")
  require (!seen.contains uid)
  let claimed ← claimedDigest event
  require ((event.find "previous_event_digest").same (textOrNull previous))
  require (payloadDigest R event == some claimed)
  return (uid, claimed)

/-- `_require_digest_chain` -/
def requireDigestChain : List String → Option String → List Entry → Rewritten Unit
  | _, _, [] => .ok ()
  | seen, previous, entry :: entries => do
      let step ← requireDigest R seen previous entry.2
      requireDigestChain (step.1 :: seen) (some step.2) entries

/-- `_require_bootstrap` -/
def requireBootstrap (event : Event) : Rewritten Unit :=
  require (bootstrapFields.all fun key ↦ Value.isNull (event.find key))

/-- Whether the revisions of a transition, all of them integers, follow those of the fact before it. -/
def exactRevisionsFollow (event previous : Event) : Bool :=
  match event.exactInt? "prior_revision", event.exactInt? "new_revision", previous.exactInt? "new_revision" with
  | some priorRevision, some newRevision, some previousRevision =>
      newRevision == priorRevision + 1 && previousRevision ≤ priorRevision
  | _, _, _ => false

/-- `_require_transition` -/
def requireTransition (event previous : Event) : Rewritten Unit :=
  require (transitionFields.all (fun field ↦ (event.find field.1).same (previous.find field.2)) &&
    exactRevisionsFollow event previous && !(event.find "status").same (previous.find "status"))

/-- A fact of a task bootstraps it or follows its last one. -/
def requireLink (heads : Dict String Event) (uid : String) (event : Event) : Rewritten Unit :=
  match heads.get uid with
  | none => requireBootstrap event
  | some previous => requireTransition event previous

/-- One turn of `_require_input_planning_chain`. -/
def requirePlanning (index : ℕ) (heads : Dict String Event) (seenLegacy : List String) (event : Event) :
    Rewritten (String × String) := do
  let legacy ← requireText (event.find "legacy_fact_id")
  require (!seenLegacy.contains legacy)
  require (legacy == planningFactId index)
  let uid ← requireText (event.find "task_uid")
  requireLink heads uid event
  return (legacy, uid)

/-- `_require_input_planning_chain` -/
def requirePlanningChain : ℕ → Dict String Event → List String → List Event → Rewritten Unit
  | _, _, _, [] => .ok ()
  | index, heads, seenLegacy, event :: events => do
      let step ← requirePlanning index heads seenLegacy event
      requirePlanningChain (index + 1) (heads.set step.2 event) (step.1 :: seenLegacy) events

/-- `_planning_events` -/
def planningEvents (entries : List Entry) : List Event :=
  (entries.filter fun entry ↦ entry.1 = .planningStatus).map Prod.snd

/-- `_ordered_existing` -/
def orderedExisting (streams : Mapping String (List Event)) : Rewritten (List Entry) := do
  let entries ← collectEntries R streams
  requireContiguous entries
  requireDigestChain R [] none entries
  requirePlanningChain 1 [] [] (planningEvents entries)
  return entries

end Existing

/-! ## The events a deletion names -/

/-- `_unique_texts`, `_unique_pairs`, `_unique_triples` -/
def requireUnique {α : Type} [DecidableEq α] (texts : α → List String) (values : List α) : Rewritten Unit :=
  require (values.all (fun value ↦ (texts value).all (· != "")) && decide values.Nodup)

/-- `_normalized_deletion`, which changes nothing it accepts -/
def normalizedDeletion (deletion : StreamDeletion) : Rewritten Unit := do
  requireUnique (fun text ↦ [text]) deletion.activityIds
  requireUnique (fun text ↦ [text]) deletion.planningIds
  requireUnique (fun pair ↦ [pair.1, pair.2]) deletion.worklogEntries
  requireUnique (fun triple ↦ [triple.1, triple.2.1, triple.2.2]) deletion.worklogSessions

/-- `_activity_identity`, `_planning_identity`: the identities an event answers to. -/
def legacyIdentity (key : String) (event : Event) : Rewritten (List String) := do
  let uid ← requireText (event.find "event_uid")
  return ((event.text? key).toList.filter (· ≠ "") ++ [uid]).dedup

/-- The key of `_mark_worklog_entries`. -/
def entryIdentity (event : Event) : Rewritten (List (String × String)) := do
  let uid ← requireText (event.find "event_uid")
  let date ← requireText (event.find "work_date")
  return [(uid, date)]

/-- The key of `_mark_worklog_sessions`. -/
def sessionIdentity (event : Event) : Rewritten (List (String × String × String)) := do
  let uid ← requireText (event.find "event_uid")
  let date ← requireText (event.find "work_date")
  let session ← requireText (event.find "session_id")
  return [(uid, date, session)]

section Marking

variable {κ : Type} [DecidableEq κ]

/-- The loop of the marking functions: which of the entries that count answer to an identity that no
entry before them answered to, and which identities are left over. -/
def markLoop (counts : Entry → Bool) (identities : Event → Rewritten (List κ)) :
    ℕ → List κ → List Entry → Rewritten (List ℕ × List κ)
  | _, remaining, [] => .ok ([], remaining)
  | index, remaining, entry :: entries =>
      if counts entry then do
        let names ← identities entry.2
        let matched := remaining.filter fun identity ↦ names.contains identity
        if matched = [] then markLoop counts identities (index + 1) remaining entries
        else do
          require (matched.length == 1)
          let rest ← markLoop counts identities (index + 1)
            (remaining.filter fun identity ↦ !matched.contains identity) entries
          return (index :: rest.1, rest.2)
      else markLoop counts identities (index + 1) remaining entries

/-- Every identity is found. -/
def markAll (counts : Entry → Bool) (identities : Event → Rewritten (List κ)) (wanted : List κ)
    (entries : List Entry) : Rewritten (List ℕ) := do
  let marked ← markLoop counts identities 0 wanted entries
  require marked.2.isEmpty
  return marked.1

end Marking

/-- `_mark_kind` -/
def markKind (entries : List Entry) (kind : StreamKind) (wanted : List String) (key : String) :
    Rewritten (List ℕ) :=
  markAll (fun entry ↦ decide (entry.1 = kind)) (legacyIdentity key) wanted entries

/-- Whether an entry is a worklog event of one sort. -/
def isWork (sort : String) (entry : Entry) : Bool :=
  decide (entry.1 = .worklog) && (entry.2.find "kind").same (.str sort)

/-- `_mark_worklog_entries` -/
def markWorklogEntries (entries : List Entry) (wanted : List (String × String)) : Rewritten (List ℕ) :=
  markAll (isWork "entry") entryIdentity wanted entries

/-- `_mark_worklog_sessions` -/
def markWorklogSessions (entries : List Entry) (wanted : List (String × String × String)) : Rewritten (List ℕ) :=
  markAll (isWork "session") sessionIdentity wanted entries

def disjoint (selected others : List ℕ) : Bool := others.all fun index ↦ !selected.contains index

/-- `_selected_indexes` -/
def selectedIndexes (entries : List Entry) (deletion : StreamDeletion) : Rewritten (List ℕ) := do
  let activity ← markKind entries .activity deletion.activityIds "legacy_event_id"
  let planning ← markKind entries .planningStatus deletion.planningIds "legacy_fact_id"
  require (disjoint activity planning)
  let work ← markWorklogEntries entries deletion.worklogEntries
  require (disjoint (activity ++ planning) work)
  let sessions ← markWorklogSessions entries deletion.worklogSessions
  require (disjoint (activity ++ planning ++ work) sessions)
  return activity ++ planning ++ work ++ sessions

/-- `_remaining_entries` -/
def remainingEntries (selected : List ℕ) : ℕ → List Entry → List Entry
  | _, [] => []
  | index, entry :: entries =>
      if selected.contains index then remainingEntries selected (index + 1) entries
      else entry :: remainingEntries selected (index + 1) entries

/-! ## Linking again -/

/-- `_apply_bootstrap` -/
def applyBootstrap (event : Event) : Event := bootstrapFields.foldl (fun event key ↦ event.set key .null) event

/-- The status part of `_apply_transition`. -/
def repairStatus (previous event : Event) : Event :=
  if (event.find "prior_status").same (previous.find "status") then event
  else event.set "prior_status" (previous.find "status")

/-- The revision part of `_apply_transition`. -/
def repairRevision (previous event : Event) : Rewritten Event :=
  if (event.find "prior_revision").same (previous.find "new_revision") then .ok event
  else
    match (previous.find "new_revision").int? with
    | some revision =>
        if (event.find "new_revision").same (.int (revision + 1)) then
          .ok (event.set "prior_revision" (previous.find "new_revision"))
        else .ok event
    | none => .error .fault

/-- `_apply_transition` -/
def applyTransition (event previous : Event) : Rewritten Event := do
  let linked := (event.set "previous_event_uid" (previous.find "event_uid")).set
    "previous_legacy_fact_id" (previous.find "legacy_fact_id")
  let repaired ← repairRevision previous (repairStatus previous linked)
  requireTransition repaired previous
  return repaired

/-- One turn of `_repair_planning`. -/
def repairEvent (index : ℕ) (heads : Dict String Event) (event : Event) : Rewritten (String × Event) := do
  let numbered := event.set "legacy_fact_id" (.str (planningFactId index))
  let uid ← requireText (Event.find numbered "task_uid")
  match heads.get uid with
  | none => return (uid, applyBootstrap numbered)
  | some previous =>
      let repaired ← applyTransition numbered previous
      return (uid, repaired)

/-- `_repair_planning` -/
def repairPlanning : ℕ → Dict String Event → List Entry → Rewritten (List Entry)
  | _, _, [] => .ok []
  | index, heads, entry :: entries =>
      if entry.1 = .planningStatus then do
        let repaired ← repairEvent index heads entry.2
        let rest ← repairPlanning (index + 1) (heads.set repaired.1 repaired.2) entries
        return (entry.1, repaired.2) :: rest
      else do
        let rest ← repairPlanning index heads entries
        return entry :: rest

/-- The event of `_rechain` before its digest. -/
def unsealed (sequence : ℕ) (previous : Option String) (event : Event) : Event :=
  let numbered := ((event.erase "event_digest").erase "previous_event_digest").set "sequence" (.int sequence)
  match previous with
  | some digest => numbered.set "previous_event_digest" (.str digest)
  | none => numbered

section Rewrite

variable (R : StreamRules)

/-- One turn of `_rechain`: the event with its digest. -/
def sealEvent (sequence : ℕ) (previous : Option String) (entry : Entry) : Rewritten Event :=
  let event := unsealed sequence previous entry.2
  match canonicalJsonBytes event with
  | some body =>
      let chained := event.set "event_digest" (.str (R.sha256 body).text)
      if validEventContract R entry.1 chained then .ok chained else .error .invalidStream
  | none => .error .invalidStream

/-- `_rechain` -/
def rechain : ℕ → Option String → List Entry → Rewritten (List Entry)
  | _, _, [] => .ok []
  | sequence, previous, entry :: entries => do
      let event ← sealEvent R sequence previous entry
      let rest ← rechain (sequence + 1) (event.text? "event_digest") entries
      return (entry.1, event) :: rest

/-! ## Targets -/

/-- One turn of `_group_segments`. -/
def addToSegment (grouped : Dict String (List Event)) (artifact : String) (event : Event) : Dict String (List Event) :=
  grouped.set artifact ((grouped.get artifact).getD [] ++ [event])

/-- `_group_segments` -/
def groupSegments : Dict String (List Event) → List Entry → Rewritten (Dict String (List Event))
  | grouped, [] => .ok grouped
  | grouped, entry :: entries => do
      let artifact ← segmentArtifact entry.1 entry.2
      groupSegments (addToSegment grouped artifact entry.2) entries

/-- `_validate_artifact` of the journal -/
def isTargetArtifact (artifact : String) : Bool :=
  artifact != "" && artifact.length ≤ 512 && !artifact.toList.contains '\\' &&
    artifact.toList.head? != some '/' && !(split '/' artifact).contains ".."

/-- `JournalTarget.replace` -/
def replaceTarget (artifact : String) (body : Bytes) (expected : Store.Digest) :
    Rewritten WriteSession.JournalTarget :=
  if !isTargetArtifact artifact then .error (.journal "ARTIFACT_INVALID")
  else if WriteSession.maxTargetBytes < body.length then .error (.journal "TARGET_BYTE_LIMIT_EXCEEDED")
  else .ok ⟨.replace, .authority, artifact, some expected, some (R.sha256 body), some body⟩

/-- `JournalTarget.delete` -/
def deleteTarget (artifact : String) (expected : Store.Digest) : Rewritten WriteSession.JournalTarget :=
  if !isTargetArtifact artifact then .error (.journal "ARTIFACT_INVALID")
  else .ok ⟨.delete, .authority, artifact, some expected, none, none⟩

/-- `_emit_segment` of a segment whose bytes changed -/
def emitChanged (artifact : String) (original rewritten : List Event) (supplied : Option Store.Digest) :
    Rewritten WriteSession.JournalTarget := do
  require !original.isEmpty
  match supplied with
  | none => .error .invalidStream
  | some expected =>
      require (expected == R.sha256 (segmentBody original))
      if rewritten.isEmpty then deleteTarget artifact expected
      else replaceTarget R artifact (segmentBody rewritten) expected

/-- `_emit_segment` -/
def emitSegment (artifact : String) (original rewritten : List Event) (supplied : Option Store.Digest) :
    Rewritten (Option WriteSession.JournalTarget) :=
  if segmentBody original = segmentBody rewritten then .ok none
  else (emitChanged R artifact original rewritten supplied).map some

/-- The targets of the segments of `rewrite_v4_deletion_streams`. -/
def emitSegments (original rewritten : Dict String (List Event)) (digests : Mapping String Store.Digest)
    (artifacts : List String) : Rewritten (List WriteSession.JournalTarget) := do
  let emitted ← artifacts.mapM fun artifact ↦
    emitSegment R artifact ((original.get artifact).getD []) ((rewritten.get artifact).getD []) (digests.get artifact)
  return emitted.reduceOption

/-- `_sorted_targets` -/
def sortStreamTargets (targets : List WriteSession.JournalTarget) : Rewritten (List WriteSession.JournalTarget) := do
  require (decide (targets.map WriteSession.JournalTarget.artifact).Nodup)
  return WriteSession.sortedTargets targets

/-- What is left of the entries, linked and sealed again. -/
def rewriteEntries (original : List Entry) (deletion : StreamDeletion) : Rewritten (List Entry) := do
  normalizedDeletion deletion
  let selected ← selectedIndexes original deletion
  let remaining := remainingEntries selected 0 original
  let repaired ← repairPlanning 1 [] remaining
  rechain R 1 none repaired

/-- The targets that lead from one list of entries to another. -/
def segmentTargets (original rewritten : List Entry) (digests : Mapping String Store.Digest) :
    Rewritten (List WriteSession.JournalTarget) := do
  let originalSegments ← groupSegments [] original
  let rewrittenSegments ← groupSegments [] rewritten
  let emitted ← emitSegments R originalSegments rewrittenSegments digests
    (sortedSet (Dict.keys originalSegments ++ Dict.keys rewrittenSegments))
  sortStreamTargets emitted

/-- `rewrite_v4_deletion_streams` -/
def rewriteV4DeletionStreams (streams : Mapping String (List Event)) (deletion : StreamDeletion)
    (segmentDigests : Mapping String Store.Digest) : Rewritten (List WriteSession.JournalTarget) := do
  let original ← orderedExisting R streams
  let rewritten ← rewriteEntries R original deletion
  segmentTargets R original rewritten segmentDigests

end Rewrite

end WorkStack.Streams
