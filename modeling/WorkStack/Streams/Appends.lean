import WorkStack.Streams.DeletionRewrite

/-!
# Appending to streams

The pure staging of new events. The events there are come into their global order and are checked, the
new ones are numbered and sealed after them, and every segment that gains events is staged as the whole
file that it is to be. What `datetime.fromisoformat` reads from the date or the timestamp of an event is
left open.
-/

open WorkStack.Python WorkStack.Effect

namespace WorkStack.Streams.Append

/-- `V4StreamStagingError` -/
structure StagingError where
  code : String
  artifact : String
  deriving DecidableEq, Repr

abbrev Staged := Except StagingError

def refuse {α : Type} (code : String) : Staged α := .error ⟨code, ""⟩

def check (condition : Bool) (code : String) : Staged Unit := if condition then .ok () else refuse code

/-- `StagedStreamWrite` -/
structure StagedStreamWrite where
  artifact : String
  kind : String
  segment : String
  expectedDigest : Option String
  intendedDigest : String
  body : Bytes
  firstSequence : ℤ
  lastSequence : ℤ
  headEventUid : String
  headDigest : String
  appendedEvents : List Event

/-- The streams of a store: the events of every kind, under its name. -/
abbrev StreamMap := Mapping String (List Event)

/-- `_body` -/
def bodyOf (events : List Event) : Bytes := List.intercalate [10] (events.map Event.bytes) ++ [10]

/-- `str(event[key])` of a field that the contract makes a text. -/
def textOf (event : Event) (key : String) : String := (event.text? key).getD ""

/-- The kind of this name among `STREAM_KINDS`. -/
def kindNamed (name : String) : Option StreamKind := streamKinds.find? fun kind ↦ kind.text = name

section Existing

variable (R : StreamRules) (instant : String → Option ℤ)

/-- `_time_key` -/
def timeKey (text : String) : Staged ℤ :=
  match instant text with
  | some time => .ok time
  | none => refuse "EVENT_TIMESTAMP_INVALID"

/-- `_validate_event`, with the kind that the name stands for. -/
def validateEvent (name : String) (event : Event) : Staged StreamKind :=
  match kindNamed name with
  | none => refuse "UNKNOWN_STREAM_KIND"
  | some kind => do
      check ((event.find "format").same (.str kind.format)) "STREAM_KIND_MISMATCH"
      check (meetsContract R kind event && event.isCanonical) "EVENT_CONTRACT_INVALID"
      return kind

/-! ## The events there are -/

def readEntry (name : String) (event : Event) : Staged Entry := do
  let kind ← validateEvent R name event
  return (kind, event)

/-- The events of one kind, each checked. -/
def readKind (item : String × List Event) : Staged (List Entry) :=
  match kindNamed item.1 with
  | none => refuse "UNKNOWN_STREAM_KIND"
  | some _ => item.2.mapM (readEntry R item.1)

/-- The order of `entries.sort(key=lambda item: int(item[1]["sequence"]))`. -/
def sortBySequence (entries : List Entry) : List Entry :=
  entries.insertionSort fun a b ↦ positionOf a ≤ positionOf b

/-- The digest that an event claims. -/
def claimedDigest (event : Event) : Staged String :=
  match event.text? "event_digest" with
  | some text => if isDigestText text then .ok text else refuse "STREAM_DIGEST_CHAIN_REQUIRED"
  | none => refuse "STREAM_DIGEST_CHAIN_REQUIRED"

/-- One turn of the loop over the ordered events. -/
def checkLink (seen : List String) (previous : Option String) (event : Event) : Staged String := do
  check (!seen.contains (textOf event "event_uid")) "DUPLICATE_EVENT_UID"
  let claimed ← claimedDigest event
  check ((event.find "previous_event_digest").same (textOrNull previous)) "STREAM_DIGEST_CHAIN_INVALID"
  check (payloadDigest R event == some claimed) "STREAM_DIGEST_CHAIN_INVALID"
  return claimed

def checkLinks : List String → Option String → List Entry → Staged Unit
  | _, _, [] => .ok ()
  | seen, previous, entry :: entries => do
      let claimed ← checkLink R seen previous entry.2
      checkLinks (textOf entry.2 "event_uid" :: seen) (some claimed) entries

/-- `_ordered_existing` -/
def orderedExisting (streams : StreamMap) : Staged (List Entry) := do
  let kinds ← streams.items.mapM (readKind R)
  let entries := sortBySequence kinds.flatten
  check (entries.map (fun entry ↦ entry.2.exactInt? "sequence") == (sequenceRun entries.length).map some)
    "STREAM_SEQUENCE_INVALID"
  checkLinks R [] none entries
  return entries

/-- `_segment_events` -/
def groupByArtifact (entries : List Entry) : Dict String (List Event) :=
  entries.foldl (fun grouped entry ↦ addToSegment grouped (pathOf entry) entry.2) []

/-! ## The events to come -/

/-- What the next addition comes after. -/
structure Tail where
  lastTime : Option ℤ
  previousDigest : Option String
  seenUids : List String
  nextSequence : ℕ

/-- What `_prepare_additions` takes from the existing events, `_last_event_time` among it. -/
def tailOf (existing : List Entry) : Staged Tail := do
  let times ← existing.mapM fun entry ↦ timeKey instant (textOf entry.2 "created_at")
  return {
    lastTime := times.max?
    previousDigest := existing.getLast?.map fun entry ↦ textOf entry.2 "event_digest"
    seenUids := existing.map fun entry ↦ textOf entry.2 "event_uid"
    nextSequence := existing.length + 1 }

/-- An addition with its number and the digest before it. -/
def numberEvent (sequence : ℕ) (previous : Option String) (source : Event) : Event :=
  let numbered := source.set "sequence" (.int sequence)
  match previous with
  | some digest => numbered.set "previous_event_digest" (.str digest)
  | none => numbered

/-- A numbered event with its own digest. -/
def digestEvent (event : Event) : Event := event.set "event_digest" (.str (R.sha256 event.bytes).text)

/-- One turn of the loop of `_prepare_additions`. -/
def prepareEvent (tail : Tail) (addition : String × Event) : Staged (Entry × ℤ) := do
  check (!sealKeys.any fun field ↦ addition.2.has field) "CHAIN_FIELD_OWNED_BY_WRITER"
  let event := numberEvent tail.nextSequence tail.previousDigest addition.2
  let _ ← validateEvent R addition.1 event
  check (!tail.seenUids.contains (textOf event "event_uid")) "DUPLICATE_EVENT_UID"
  let time ← timeKey instant (textOf event "created_at")
  check (!tail.lastTime.any fun last ↦ time < last) "LATE_EVENT_REJECTED"
  let kind ← validateEvent R addition.1 (digestEvent R event)
  return ((kind, digestEvent R event), time)

/-- What the loop carries on after a prepared event. -/
def Tail.after (tail : Tail) (prepared : Entry × ℤ) : Tail where
  lastTime := some prepared.2
  previousDigest := some (textOf prepared.1.2 "event_digest")
  seenUids := textOf prepared.1.2 "event_uid" :: tail.seenUids
  nextSequence := tail.nextSequence + 1

/-- `_prepare_additions` -/
def prepareAdditions : Tail → List (String × Event) → Staged (List Entry)
  | _, [] => .ok []
  | tail, addition :: additions => do
      let prepared ← prepareEvent R instant tail addition
      let rest ← prepareAdditions (tail.after prepared) additions
      return prepared.1 :: rest

/-! ## The segments to write -/

/-- `_expected_segment_digest` -/
def expectedSegmentDigest (artifact : String) (prior : List Event) (supplied : Option String) :
    Staged (Option String) :=
  if prior.isEmpty then
    if supplied.isSome then .error ⟨"NEW_SEGMENT_EXPECTATION_INVALID", artifact⟩ else .ok none
  else match supplied with
    | none => .error ⟨"EXPECTED_DIGEST_REQUIRED", artifact⟩
    | some digest =>
        if !isDigestText digest then .error ⟨"EXPECTED_DIGEST_REQUIRED", artifact⟩
        else if digest ≠ (R.sha256 (bodyOf prior)).text then .error ⟨"STALE_STREAM_DIGEST", artifact⟩
        else .ok (some digest)

/-- `name[:-7]`: a file name without `.ndjson` -/
def withoutSuffix (name : String) : String := String.ofList (name.toList.take (name.length - 7))

/-- `_staged_segment_write` -/
def stagedSegmentWrite (artifact : String) (prior appended : List Event) (supplied : Option String) :
    Staged StagedStreamWrite := do
  let expected ← expectedSegmentDigest R artifact prior supplied
  let intended := prior ++ appended
  let first := intended.head?.getD Mapping.empty
  let head := intended.getLast?.getD Mapping.empty
  return {
    artifact := artifact
    kind := (split '/' artifact).getD 1 ""
    segment := withoutSuffix ((split '/' artifact).getLast?.getD "")
    expectedDigest := expected
    intendedDigest := (R.sha256 (bodyOf intended)).text
    body := bodyOf intended
    firstSequence := (first.exactInt? "sequence").getD 0
    lastSequence := (head.exactInt? "sequence").getD 0
    headEventUid := textOf head "event_uid"
    headDigest := textOf head "event_digest"
    appendedEvents := appended }

/-- The writes of the segments that gain events. -/
def stagedWrites (existing staged : List Entry) (digests : Mapping String String) : Staged (List StagedStreamWrite) :=
  (sortedSet (Dict.keys (groupByArtifact staged))).mapM fun artifact ↦
    stagedSegmentWrite R artifact ((Dict.get (groupByArtifact existing) artifact).getD [])
      ((Dict.get (groupByArtifact staged) artifact).getD []) (digests.get artifact)

/-- `stage_stream_appends` -/
def stageStreamAppends (streams : StreamMap) (additions : List (String × Event)) (digests : Mapping String String) :
    Staged (List StagedStreamWrite) :=
  if additions.isEmpty then .ok []
  else do
    let existing ← orderedExisting R streams
    let tail ← tailOf instant existing
    let staged ← prepareAdditions R instant tail additions
    stagedWrites R existing staged digests

end Existing

end WorkStack.Streams.Append
