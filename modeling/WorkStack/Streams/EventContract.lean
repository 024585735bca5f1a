import WorkStack.Streams.Canonical

/-!
# The contracts of stream events

The three event schemas, property by property. A property is required or not and admits some values;
an event meets its contract when it meets the envelope and exactly one of the variants of its kind,
and has no key that neither of them names. What the schema library's format checker says of a date
or a timestamp is left open. An integer is written without a fraction: the canonical form, which
every reader of events asks for as well, has no floating-point numbers.
-/

open WorkStack.Python

namespace WorkStack.Streams

/-! ## The kinds of streams -/

inductive StreamKind where
  | activity
  | planningStatus
  | worklog
  deriving DecidableEq, Repr

namespace StreamKind

/-- The name of the directory of a kind. -/
def text : StreamKind → String
  | activity => "activity"
  | planningStatus => "planning-status"
  | worklog => "worklog"

/-- `_FORMAT_BY_KIND` -/
def format : StreamKind → String
  | activity => "workstack.activity-event"
  | planningStatus => "workstack.planning-status-event"
  | worklog => "workstack.worklog-event"

end StreamKind

/-- `STREAM_KINDS` -/
def streamKinds : List StreamKind := [.activity, .planningStatus, .worklog]

/-- What the streams take from the libraries: the digest and the checker of the formats `date-time`
and `date`. -/
structure StreamRules where
  sha256 : Bytes → Store.Digest
  isDateTime : String → Bool
  isDate : String → Bool

/-! ## Values -/

/-- Whether a text has one character for each test, which the test accepts. -/
def fits : List (Char → Bool) → List Char → Bool
  | [], [] => true
  | test :: tests, c :: text => test c && fits tests text
  | _, _ => false

/-- `re.search` of a pattern between `^` and `$`: the end may be before a last line feed. -/
def matchesLine (accepts : List Char → Bool) (text : String) : Bool :=
  accepts text.toList || text.toList.getLast? == some '\n' && accepts text.toList.dropLast

def isHexRun (width : ℕ) : List (Char → Bool) := List.replicate width Store.isLowerHex

def isDash (c : Char) : Bool := c == '-'

def uuidShape : List (Char → Bool) :=
  isHexRun 8 ++ isDash :: isHexRun 4 ++ isDash :: isHexRun 4 ++ isDash :: isHexRun 4 ++ isDash :: isHexRun 12

def dateShape : List (Char → Bool) :=
  List.replicate 4 Char.isDigit ++ isDash :: List.replicate 2 Char.isDigit ++ isDash :: List.replicate 2 Char.isDigit

/-- The pattern of a timestamp, with a fraction of the second or without one. -/
def isTimestampText (text : List Char) : Bool :=
  fits (dateShape ++ (· == 'T') :: List.replicate 2 Char.isDigit ++ (· == ':') :: List.replicate 2 Char.isDigit ++
    (· == ':') :: List.replicate 2 Char.isDigit) (text.take 19) &&
  (match text.drop 19 with
    | ['Z'] => true
    | '.' :: rest => rest.getLast? == some 'Z' && rest.dropLast != [] && rest.dropLast.all Char.isDigit
    | _ => false)

/-- The pattern of a numbered identifier: a name and a run of at least so many digits. -/
def isNumberedText (name : List Char) (width : ℕ) (text : List Char) : Bool :=
  text.take name.length == name && width ≤ (text.drop name.length).length && (text.drop name.length).all Char.isDigit

/-- The pattern of a time of day. -/
def isTimeOfDayText (text : List Char) : Bool :=
  match text with
  | [a, b, ':', c, d] =>
      ((a == '0' || a == '1') && b.isDigit || a == '2' && '0' ≤ b && b ≤ '3') && '0' ≤ c && c ≤ '5' && d.isDigit
  | _ => false

namespace Value

def isText (accepts : String → Bool) : Json → Bool
  | .str text => accepts text
  | _ => false

def isNull : Json → Bool
  | .null => true
  | _ => false

def isConst (expected : String) : Json → Bool := isText (· == expected)

def isEnum (texts : List String) : Json → Bool := isText fun text ↦ texts.contains text

def isIntegerWithin (minimum : ℤ) (maximum : Option ℤ) : Json → Bool
  | .int value => minimum ≤ value && maximum.all fun bound ↦ value ≤ bound
  | _ => false

def isTextWithin (minLength maxLength : ℕ) : Json → Bool :=
  isText fun text ↦ minLength ≤ text.length && text.length ≤ maxLength

/-- `oneOf` with the type `null` -/
def orNull (admits : Json → Bool) (value : Json) : Bool := admits value != isNull value

def isUuid : Json → Bool := isText (matchesLine (fits uuidShape))

def isSha256 : Json → Bool :=
  isText (matchesLine fun text ↦ text.take 7 == "sha256:".toList && fits (isHexRun 64) (text.drop 7))

def isNumbered (name : String) (width : ℕ) : Json → Bool :=
  isText (matchesLine (isNumberedText name.toList width))

def isCanonicalObject : Json → Bool
  | .obj fields => Json.fieldsCanonical fields
  | _ => false

def isTextList : Json → Bool
  | .arr items => items.length ≤ 256 && items.all (isText fun _ ↦ true)
  | _ => false

end Value

section Contract

variable (R : StreamRules)

def isTimestamp : Json → Bool := Value.isText fun text ↦ R.isDateTime text && matchesLine isTimestampText text

def isDateValue : Json → Bool := Value.isText fun text ↦ R.isDate text && matchesLine (fits dateShape) text

def isDateOrTimestamp (value : Json) : Bool := isDateValue R value != isTimestamp R value

/-- The schema of one segment of a work session. -/
def isSegment : Json → Bool
  | .obj fields => fields.all (fun field ↦ ["started_at", "ended_at"].contains field.1) &&
      (fields.lookup "started_at").any (isTimestamp R) && (fields.lookup "ended_at").any (Value.orNull (isTimestamp R))
  | _ => false

def isSegmentList : Json → Bool
  | .arr items => 1 ≤ items.length && items.all (isSegment R)
  | _ => false

/-! ## Properties -/

structure Property where
  name : String
  required : Bool
  admits : Json → Bool

def required (name : String) (admits : Json → Bool) : Property := ⟨name, true, admits⟩

def optional (name : String) (admits : Json → Bool) : Property := ⟨name, false, admits⟩

def Event.meets (event : Event) (p : Property) : Bool :=
  match event.get p.name with
  | some value => p.admits value
  | none => !p.required

/-- `common.schema.json#/$defs/eventEnvelope` with the format and version of a kind. -/
def envelope (kind : StreamKind) : List Property := [
  required "format" (Value.isConst kind.format),
  required "schema_version" (Value.isIntegerWithin 1 (some 1)),
  required "workspace_uid" Value.isUuid,
  required "event_uid" Value.isUuid,
  required "sequence" (Value.isIntegerWithin 1 (some Json.maxCanonicalInteger)),
  required "record_uid" (Value.orNull Value.isUuid),
  required "created_at" (isDateOrTimestamp R),
  required "actor" (Value.orNull (Value.isTextWithin 1 128)),
  required "provenance" (Value.isTextWithin 1 128),
  optional "previous_event_digest" Value.isSha256,
  optional "event_digest" Value.isSha256]

def activityEvent : List Property := [
  optional "created_at" (isTimestamp R),
  required "legacy_event_id" (Value.isNumbered "E-" 6),
  required "event_type" (Value.isTextWithin 1 160),
  required "details" Value.isCanonicalObject,
  required "capture_uid" (Value.orNull Value.isUuid),
  required "task_uid" (Value.orNull Value.isUuid),
  required "reply_uid" (Value.orNull Value.isUuid)]

def planningStatuses : List String := ["open", "started", "done", "dropped"]

def planningStatusEvent : List Property := [
  optional "created_at" (isTimestamp R),
  optional "actor" (Value.isTextWithin 1 128),
  required "legacy_fact_id" (Value.isNumbered "PS-" 6),
  required "task_uid" Value.isUuid,
  required "task_display_id" (Value.isNumbered "T-" 4),
  required "previous_event_uid" (Value.orNull Value.isUuid),
  required "previous_legacy_fact_id" (Value.orNull (Value.isNumbered "PS-" 6)),
  required "prior_revision" (Value.orNull (Value.isIntegerWithin 0 (some Json.maxCanonicalInteger))),
  required "new_revision" (Value.isIntegerWithin 0 (some Json.maxCanonicalInteger)),
  required "prior_status" (Value.orNull (Value.isEnum planningStatuses)),
  required "status" (Value.isEnum planningStatuses)]

def taskIdentity : List Property := [
  required "task_uid" Value.isUuid,
  required "task_display_id" (Value.isNumbered "T-" 4),
  required "task_title" (Value.isTextWithin 1 240)]

def checkIn : List Property := [
  required "kind" (Value.isConst "check-in"),
  required "work_date" (isDateValue R),
  required "start_time" (Value.isText (matchesLine isTimeOfDayText))]

def worklogEntry : List Property := taskIdentity ++ [
  required "kind" (Value.isConst "entry"),
  required "work_date" (isDateValue R),
  required "done" Value.isTextList,
  required "next" Value.isTextList,
  required "blockers" Value.isTextList,
  optional "session_id" (Value.orNull (Value.isNumbered "WS-" 6)),
  optional "duration_seconds" (Value.orNull (Value.isIntegerWithin 0 none))]

def workSession : List Property := taskIdentity ++ [
  required "kind" (Value.isConst "session"),
  required "session_id" (Value.isNumbered "WS-" 6),
  required "work_date" (isDateValue R),
  required "state" (Value.isEnum ["running", "paused", "stopped"]),
  required "started_at" (isTimestamp R),
  required "updated_at" (isTimestamp R),
  required "segments" (isSegmentList R),
  required "worklog_state" (Value.isEnum ["not_ready", "pending", "recorded"])]

/-- What an event may be besides its envelope. -/
def variants : StreamKind → List (List Property)
  | .activity => [activityEvent R]
  | .planningStatus => [planningStatusEvent R]
  | .worklog => [checkIn R, worklogEntry R, workSession R]

/-- The variants of its kind that an event meets. -/
def variantsMet (kind : StreamKind) (event : Event) : List (List Property) :=
  (variants R kind).filter fun variant ↦ variant.all event.meets

/-- `validate_by_format` finds no violation in an event of a kind. -/
def meetsContract (kind : StreamKind) (event : Event) : Bool :=
  (envelope R kind).all event.meets && (variantsMet R kind event).length == 1 &&
    event.keys.all fun key ↦ ((envelope R kind ++ (variantsMet R kind event).flatten).map Property.name).contains key

/-- `_validate_event_contract` -/
def validEventContract (kind : StreamKind) (event : Event) : Bool :=
  (event.get "format").any (Value.isConst kind.format) && meetsContract R kind event && event.isCanonical

end Contract

end WorkStack.Streams
