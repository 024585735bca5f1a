import WorkStack.Python.Decimal
import WorkStack.Python.Equality
import WorkStack.Streams.EventContract

/-!
# The stream validator

A stream directory is held decoded: for each file the events of its lines. The validator checks each
line against its contract and each file against its name, and then what only the whole stream can
answer: envelope identity, the run of sequence numbers, the digest chain, references to records and
the chain of planning facts.
-/

open WorkStack.Python

namespace WorkStack.Streams

/-- `StorageValidationIssue` -/
structure Issue where
  code : String
  artifact : String
  instancePath : String
  deriving DecidableEq, Repr

/-- The files of a stream directory, in the order its listing has them: for each kind and month the
events of one file. -/
abbrev StreamFiles := Mapping (StreamKind × String) (List Event)

/-- `streams/<kind>/<YYYY-MM>.ndjson` -/
def segmentPath (kind : StreamKind) (month : String) : String := "streams/" ++ kind.text ++ "/" ++ month ++ ".ndjson"

/-- `_segment_body`, and no bytes for a file without lines -/
def segmentBody (events : List Event) : Bytes := events.flatMap fun event ↦ event.bytes ++ [10]

/-- An event with the kind of the stream it is in. -/
abbrev Entry := StreamKind × Event

structure StreamEvent where
  kind : StreamKind
  artifact : String
  value : Event

def StreamEvent.entry (event : StreamEvent) : Entry := (event.kind, event.value)

namespace Event

/-- `value.get(key)` -/
def find (event : Event) (key : String) : Json := (event.get key).getD .null

/-- The integer under a key, when its type is exactly `int`. -/
def exactInt? (event : Event) (key : String) : Option ℤ :=
  match event.find key with
  | .int value => some value
  | _ => none

/-- The text under a key. -/
def text? (event : Event) (key : String) : Option String :=
  match event.find key with
  | .str text => some text
  | _ => none

end Event

/-- A text that may be missing. -/
def textOrNull : Option String → Json
  | some text => .str text
  | none => .null

/-! ## One file -/

def maxStreamSegmentBytes : ℕ := 16777216

/-- The pattern of a segment's month, which the file name carries before `.ndjson`. -/
def isSegmentMonth (month : String) : Bool :=
  match month.toList with
  | [a, b, c, d, '-', e, f] => [a, b, c, d].all Char.isDigit &&
      (e == '0' && '1' ≤ f && f ≤ '9' || e == '1' && '0' ≤ f && f ≤ '2')
  | _ => false

section Validator

variable (R : StreamRules)

/-- `_parse_stream_line` after the line is decoded. -/
def lineIssues (kind : StreamKind) (artifact : String) (value : Event) : List Issue :=
  (if meetsContract R kind value then [] else [⟨"SCHEMA_VIOLATION", artifact, ""⟩]) ++
    (if value.isCanonical then [] else [⟨"CANONICAL_JSON_VIOLATION", artifact, ""⟩]) ++
    (if (value.find "format").same (.str kind.format) then [] else [⟨"STREAM_KIND_MISMATCH", artifact, ""⟩])

def streamLines (kind : StreamKind) (month : String) : ℕ → List Event → List StreamEvent
  | _, [] => []
  | number, value :: values =>
      ⟨kind, segmentPath kind month ++ ":" ++ String.ofList (zeroPadded 1 number), value⟩ ::
        streamLines kind month (number + 1) values

/-- The part of `_segment_order_issues` about one event. -/
def segmentMonthIssues (month : String) (event : StreamEvent) : List Issue :=
  match event.value.text? "created_at" with
  | some text => if month.toList.isPrefixOf text.toList then [] else
      [⟨"STREAM_SEGMENT_MONTH_MISMATCH", event.artifact, "/created_at"⟩]
  | none => []

/-- `_segment_order_issues` -/
def segmentOrderIssues (month : String) (events : List StreamEvent) : List Issue :=
  let sequences := events.filterMap fun event ↦ event.value.exactInt? "sequence"
  (if sequences.Pairwise (· < ·) then [] else
    [⟨"STREAM_SEGMENT_ORDER_INVALID", (events.head?.map StreamEvent.artifact).getD (month ++ ".ndjson"), ""⟩]) ++
  events.flatMap (segmentMonthIssues month)

/-- `_read_stream_file` -/
def readStreamFile (kind : StreamKind) (month : String) (values : List Event) : List StreamEvent × List Issue :=
  if maxStreamSegmentBytes < (segmentBody values).length then
    ([], [⟨"STREAM_SEGMENT_TOO_LARGE", segmentPath kind month, ""⟩])
  else
    let events := streamLines kind month 1 values
    (events, events.flatMap (fun event ↦ lineIssues R kind event.artifact event.value) ++
      segmentOrderIssues month events)

/-- `load_v4_streams` -/
def loadV4Streams (files : StreamFiles) : List StreamEvent × List Issue :=
  let read := files.items.map fun file ↦
    if isSegmentMonth file.1.2 then readStreamFile R file.1.1 file.1.2 file.2
    else ([], [⟨"STREAM_SEGMENT_INVALID", segmentPath file.1.1 file.1.2, ""⟩])
  (read.flatMap Prod.fst, read.flatMap Prod.snd)

/-! ## The whole stream -/

/-- `value.get("sequence", 0)`, by which events are sorted -/
def StreamEvent.position (event : StreamEvent) : ℤ := (event.value.find "sequence").int?.getD 0

def sortedEvents (events : List StreamEvent) : List StreamEvent :=
  events.insertionSort fun a b ↦ a.position ≤ b.position

def envelopeEventIssues (workspaceUid : Option String) (authorityUids seenUids : List String) (sequences : List ℤ)
    (event : StreamEvent) : List Issue :=
  (match workspaceUid with
    | some uid => if (event.value.find "workspace_uid").same (.str uid) then [] else
        [⟨"WORKSPACE_UID_MISMATCH", event.artifact, ""⟩]
    | none => []) ++
  (match event.value.text? "event_uid" with
    | some uid =>
        (if authorityUids.contains uid then [⟨"DUPLICATE_UID", event.artifact, "/event_uid"⟩] else []) ++
        (if seenUids.contains uid then [⟨"DUPLICATE_EVENT_UID", event.artifact, "/event_uid"⟩] else [])
    | none => []) ++
  (match event.value.exactInt? "sequence" with
    | some sequence => if sequences.contains sequence then
        [⟨"DUPLICATE_STREAM_SEQUENCE", event.artifact, "/sequence"⟩] else []
    | none => [])

def envelopeLoop (workspaceUid : Option String) (authorityUids : List String) :
    List String → List ℤ → List StreamEvent → List Issue
  | _, _, [] => []
  | seenUids, sequences, event :: events =>
      envelopeEventIssues workspaceUid authorityUids seenUids sequences event ++
        envelopeLoop workspaceUid authorityUids ((event.value.text? "event_uid").toList ++ seenUids)
          ((event.value.exactInt? "sequence").toList ++ sequences) events

/-- The numbers `1, …, n`. -/
def sequenceRun (n : ℕ) : List ℤ := (List.range n).map fun index : ℕ ↦ (index : ℤ) + 1

/-- `_event_envelope_issues` -/
def eventEnvelopeIssues (events : List StreamEvent) (workspaceUid : Option String) (authorityUids : List String) :
    List Issue :=
  envelopeLoop workspaceUid authorityUids [] [] events ++
    if ((events.filterMap fun event ↦ event.value.exactInt? "sequence").dedup.insertionSort (· ≤ ·)) =
        sequenceRun events.length then []
    else [⟨"STREAM_SEQUENCE_GAP", "streams", ""⟩]

/-- `canonical_sha256` of an event without the digest it claims, if it can be written canonically -/
def payloadDigest (event : Event) : Option String :=
  (canonicalJsonBytes (event.erase "event_digest")).map fun body ↦ (R.sha256 body).text

def digestEventIssues (index : ℕ) (previous : Option String) (event : StreamEvent) : List Issue :=
  (if (event.value.find "previous_event_digest").same (textOrNull previous) then [] else
    [⟨"STREAM_CHAIN_BROKEN", event.artifact, "/previous_event_digest"⟩]) ++
  (if (event.value.find "event_digest").same (textOrNull (payloadDigest R event.value)) then [] else
    [⟨"EVENT_DIGEST_MISMATCH", event.artifact, "/event_digest"⟩]) ++
  (if index ≠ 0 ∧ event.value.text? "event_digest" = none then
    [⟨"STREAM_CHAIN_INCOMPLETE", event.artifact, ""⟩] else [])

def digestLoop : ℕ → Option String → List StreamEvent → List Issue
  | _, _, [] => []
  | index, previous, event :: events =>
      digestEventIssues R index previous event ++ digestLoop (index + 1) (event.value.text? "event_digest") events

/-- Whether an event takes part in a digest chain. -/
def isChained (value : Event) : Bool := value.has "event_digest" || value.has "previous_event_digest"

/-- `_digest_chain_issues` -/
def digestChainIssues (events : List StreamEvent) : List Issue :=
  if events.any fun event ↦ isChained event.value then digestLoop R 0 none (sortedEvents events) else []

end Validator

/-! ## References to records -/

inductive RecordKind where
  | captures
  | notes
  | objectives
  | replies
  | tasks
  deriving DecidableEq, Repr

/-- The records of an authority under their identities. -/
abbrev Records := RecordKind → Mapping String Event

def recordKinds : List RecordKind := [.captures, .notes, .objectives, .replies, .tasks]

def isRecord (records : Records) (uid : String) : Bool := recordKinds.any fun kind ↦ (records kind).has uid

/-- `reference_issue` -/
def referenceIssue (event : StreamEvent) (key : String) (targets : Mapping String Event) : List Issue :=
  match event.value.text? key with
  | some uid => if targets.has uid then [] else [⟨"DANGLING_REFERENCE", event.artifact, "/" ++ key⟩]
  | none => []

/-- Whether a worklog event is about a task. -/
def isTaskWork (value : Event) : Bool := ["entry", "session"].any fun kind ↦ value.text? "kind" == some kind

/-- The fields of an event that name records, with the records they name. -/
def expectedReferences (kind : StreamKind) (value : Event) : List (String × RecordKind) :=
  match kind with
  | .planningStatus => [("task_uid", .tasks)]
  | .activity => [("task_uid", .tasks), ("capture_uid", .captures), ("reply_uid", .replies)]
  | .worklog => if isTaskWork value then [("task_uid", .tasks)] else []

/-- What the record of an event has to be, if its kind settles that. -/
def expectedRecord (kind : StreamKind) (value : Event) : Option Json :=
  match kind with
  | .planningStatus => some (value.find "task_uid")
  | .worklog => some (if isTaskWork value then value.find "task_uid" else .null)
  | .activity =>
      match ["task_uid", "capture_uid", "reply_uid"].filterMap value.text? with
      | [uid] => some (.str uid)
      | _ => none

/-- `_event_record_uid_issues` -/
def eventRecordUidIssues (event : StreamEvent) : List Issue :=
  match expectedRecord event.kind event.value with
  | some expected => if (event.value.find "record_uid").same expected then [] else
      [⟨"EVENT_RECORD_UID_MISMATCH", event.artifact, "/record_uid"⟩]
  | none => []

/-- `_event_record_reference_issues` -/
def eventRecordReferenceIssues (records : Records) (event : StreamEvent) : List Issue :=
  (match event.value.text? "record_uid" with
    | some uid => if isRecord records uid then [] else [⟨"DANGLING_REFERENCE", event.artifact, "/record_uid"⟩]
    | none => []) ++
  ((expectedReferences event.kind event.value).flatMap fun reference ↦
    referenceIssue event reference.1 (records reference.2)) ++
  eventRecordUidIssues event

/-! ## Planning facts -/

/-- `f"PS-{index:06d}"` -/
def planningFactId (index : ℕ) : String := String.ofList ("PS-".toList ++ zeroPadded 6 index)

def bootstrapFields : List String := ["previous_event_uid", "previous_legacy_fact_id", "prior_revision", "prior_status"]

/-- `_planning_bootstrap_issues` -/
def planningBootstrapIssues (event : StreamEvent) : List Issue :=
  if bootstrapFields.any fun key ↦ !(Value.isNull (event.value.find key)) then
    [⟨"PLANNING_BOOTSTRAP_INVALID", event.artifact, ""⟩] else []

/-- Which field of a transition has to repeat which field of the fact before it. -/
def transitionFields : List (String × String) :=
  [("previous_event_uid", "event_uid"), ("previous_legacy_fact_id", "legacy_fact_id"), ("prior_status", "status")]

/-- Whether the revisions of a transition follow those of the fact before it. -/
def revisionsFollow (value prior : Event) : Bool :=
  match (value.find "prior_revision").int?, (value.find "new_revision").int?, (prior.find "new_revision").int? with
  | some priorRevision, some newRevision, some previousRevision =>
      newRevision == priorRevision + 1 && previousRevision ≤ priorRevision
  | _, _, _ => false

/-- `_planning_transition_issues` -/
def planningTransitionIssues (event : StreamEvent) (prior : Event) : List Issue :=
  (transitionFields.flatMap fun field ↦
    if (event.value.find field.1).same (prior.find field.2) then [] else
      [⟨"PLANNING_CHAIN_INVALID", event.artifact, "/" ++ field.1⟩]) ++
  (if revisionsFollow event.value prior then [] else
    [⟨"PLANNING_REVISION_INVALID", event.artifact, "/new_revision"⟩]) ++
  (if (event.value.find "status").same (prior.find "status") then
    [⟨"PLANNING_STATUS_UNCHANGED", event.artifact, "/status"⟩] else [])

/-- `_planning_task_issues` -/
def planningTaskIssues (event : StreamEvent) (task : Event) : List Issue :=
  (if (event.value.find "task_display_id").same (task.find "display_id") then [] else
    [⟨"PLANNING_TASK_ID_MISMATCH", event.artifact, "/task_display_id"⟩]) ++
  (match (event.value.find "new_revision").int? with
    | some newRevision => if ((task.get "revision").bind Json.int?).getD (-1) < newRevision then
        [⟨"PLANNING_REVISION_EXCEEDS_TASK", event.artifact, "/new_revision"⟩] else []
    | none => [])

/-- The fact that was the last of a task, under the identity an event gives. -/
def headOf (heads : Dict String Event) (value : Event) : Option Event :=
  (value.text? "task_uid").bind heads.get

/-- The heads once an event is read. -/
def withHead (heads : Dict String Event) (value : Event) : Dict String Event :=
  match value.text? "task_uid" with
  | some uid => heads.set uid value
  | none => heads

def planningLegacyIssues (index : ℕ) (seenLegacy : List String) (event : StreamEvent) : List Issue :=
  (match event.value.text? "legacy_fact_id" with
    | some legacy => if seenLegacy.contains legacy then
        [⟨"DUPLICATE_PLANNING_FACT_ID", event.artifact, "/legacy_fact_id"⟩] else []
    | none => []) ++
  (if (event.value.find "legacy_fact_id").same (.str (planningFactId index)) then [] else
    [⟨"PLANNING_FACT_ORDER_INVALID", event.artifact, "/legacy_fact_id"⟩])

def planningRecordIssues (tasks : Mapping String Event) (event : StreamEvent) : List Issue :=
  match (event.value.text? "task_uid").bind tasks.get with
  | some task => planningTaskIssues event task
  | none => []

def planningLinkIssues (heads : Dict String Event) (event : StreamEvent) : List Issue :=
  match headOf heads event.value with
  | some prior => planningTransitionIssues event prior
  | none => planningBootstrapIssues event

/-- One turn of `_planning_status_issues`. -/
def planningEventIssues (tasks : Mapping String Event) (index : ℕ) (heads : Dict String Event)
    (seenLegacy : List String) (event : StreamEvent) : List Issue :=
  planningLegacyIssues index seenLegacy event ++ planningRecordIssues tasks event ++ planningLinkIssues heads event

def planningLoop (tasks : Mapping String Event) :
    ℕ → Dict String Event → List String → List StreamEvent → List Issue
  | _, _, _, [] => []
  | index, heads, seenLegacy, event :: events =>
      planningEventIssues tasks index heads seenLegacy event ++
        planningLoop tasks (index + 1) (withHead heads event.value)
          ((event.value.text? "legacy_fact_id").toList ++ seenLegacy) events

/-- `_planning_status_issues` -/
def planningStatusIssues (tasks : Mapping String Event) (events : List StreamEvent) : List Issue :=
  planningLoop tasks 1 [] [] (sortedEvents (events.filter fun event ↦ event.kind = .planningStatus))

/-! ## All of it -/

section Validator

variable (R : StreamRules)

/-- `stream_semantic_issues` -/
def streamSemanticIssues (events : List StreamEvent) (records : Records) (workspaceUid : Option String)
    (authorityUids : List String) : List Issue :=
  eventEnvelopeIssues events workspaceUid authorityUids ++ digestChainIssues R events ++
    events.flatMap (eventRecordReferenceIssues records) ++ planningStatusIssues (records .tasks) events

/-- What the validator finds in the streams of an authority. -/
def streamIssues (files : StreamFiles) (records : Records) (workspaceUid : Option String)
    (authorityUids : List String) : List Issue :=
  (loadV4Streams R files).2 ++ streamSemanticIssues R (loadV4Streams R files).1 records workspaceUid authorityUids

end Validator

end WorkStack.Streams
