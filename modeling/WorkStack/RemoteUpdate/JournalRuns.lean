import WorkStack.RemoteUpdate.Journal
import WorkStack.Effect.Requests
import WorkStack.Python.Mapping

/-!
# No record is lost between writers

Any number of instances over one state root load and record, one call after the other, and any of them
may end at any time. The sequence of the file only goes up, so an instance whose mark is the one on disk
has seen that very file, and the next load of a binding reads what its last record was given.
-/

open WorkStack.Python WorkStack.Python.Decoding WorkStack.Effect WorkStack.Effect.Refusing

namespace WorkStack.RemoteUpdate.Journal

/-! ## What was written is read back -/

theorem admitBindingValue_val (name : String) (value : BindingValue) :
    admitBindingValue name (.str value.val) = .ok value := by
  rw [admitBindingValue, dif_pos value.property.1, dif_pos value.property.2]

theorem readBinding_document (binding : JournalBinding) :
    readBinding binding.document (.str binding.digest) = .ok binding := by
  have hkeys : hasKeys bindingKeys [("workspace_id", Json.str binding.workspaceId.val),
      ("profile_id", .str binding.profileId.val), ("update_attempt_id", .str binding.updateAttemptId.val)] = true := by
    simp [hasKeys, bindingKeys, Dict.keys]
  simp only [readBinding, JournalBinding.document, bind_eq_ok, asObject_eq_ok, check_eq_ok, pure_eq_ok]
  exact ⟨_, rfl, (), hkeys, _, admitBindingValue_val .., _, admitBindingValue_val .., _, admitBindingValue_val .., (),
    by simp [isText], rfl⟩

theorem readDocument_document (binding : JournalBinding) {sequence : ℤ} (hsequence : 1 ≤ sequence) (writer : Writer)
    (records : List PendingOperation) :
    readDocument (document binding sequence writer records) =
      .ok ⟨binding, sequence, writer.val, records.map PendingOperation.json⟩ := by
  simp only [readDocument, document, bind_eq_ok, asObject_eq_ok, check_eq_ok, pure_eq_ok]
  refine ⟨_, rfl, (), ?_, (), ?_, sequence, ?_, writer.val, ?_, _, rfl, binding, ?_, rfl⟩
  · simp [hasKeys, documentKeys, Dict.keys]
  · simp [item, Dict.get, isSchemaVersion]
  · simp [item, Dict.get, List.lookup, admitSequence, hsequence]
  · simp [item, Dict.get, List.lookup, admitWriter, writer.property]
  · exact readBinding_document binding

/-- What is admitted was handed in as it is, from memory and from the document alike. -/
theorem admitRecord_identity {given : Identity} {record : PendingOperation}
    (h : admitRecord (.identity given) = .ok record) :
    record.identity = given ∧ admitRecord (.value record.json) = .ok record := by
  simp only [admitRecord, admitIdentity, bind_eq_ok, check_eq_ok, pure_eq_ok] at h
  obtain ⟨kind, hkind, -, hstage, operationId, hoperation, retained, hretained, rfl⟩ := h
  have htext : kind.text = given.kind := by
    cases hfind : kinds.find? fun other ↦ other.text == given.kind with
    | none => simp [admitKind, hfind] at hkind
    | some found =>
        simp only [admitKind, hfind, Except.ok.injEq] at hkind
        have hfound := List.find?_some hfind
        rw [← hkind]
        simpa using hfound
  have hid : isOpaqueId given.operationId = true ∧ given.operationId = operationId := by
    simpa only [admitOperationId, ite_ok_eq_ok, Except.ok.injEq] using hoperation
  have hanswer : retained.text = given.previousAppRetained := by
    cases hfind : observations.find? fun other ↦ other.text == given.previousAppRetained with
    | none => simp [admitRetained, hfind] at hretained
    | some found =>
        simp only [admitRetained, hfind, Except.ok.injEq] at hretained
        have hfound := List.find?_some hfind
        rw [← hretained]
        simpa using hfound
  obtain ⟨hopaqueId, rfl⟩ := hid
  constructor
  · have hplace : given.stage = kind.spec.stage.text := by simpa [isText] using hstage
    rw [PendingOperation.identity, htext, hanswer, ← hplace]
  · simp only [admitRecord, PendingOperation.json, admitRecordFields, admitIdentity, bind_eq_ok, check_eq_ok, pure_eq_ok]
    refine ⟨_, ⟨(), ?_, rfl⟩, kind, ?_, (), ?_, given.operationId, ?_, retained, ?_, rfl⟩
    · simp [recordRequired, recordKeys, Dict.keys]
    · simp [item, Dict.get, List.lookup, admitKind, kind.find_text]
    · simp [item, Dict.get, isText]
    · simp [item, Dict.get, List.lookup, admitOperationId, hopaqueId]
    · simp [Dict.get, List.lookup, admitRetained, retained.find_text]

variable {records : List PendingOperation}

theorem admitRecord_json {given : List Identity}
    (h : List.Forall₂ (fun identity record ↦ admitRecord (.identity identity) = .ok record) given records) :
    List.Forall₂ (fun record other ↦ admitRecord (.value record.json) = .ok other) records records := by
  induction h with
  | nil => exact .nil
  | cons hfirst _ ih => exact .cons (admitRecord_identity hfirst).2 ih

theorem admitRecords_identity {given : List Identity} (h : admitRecords (given.map .identity) = .ok records) :
    records.map PendingOperation.identity = given ∧
      admitRecords ((records.map PendingOperation.json).map .value) = .ok records := by
  simp only [admitRecords, bind_eq_ok, check_eq_ok, pure_eq_ok, mapM_eq_ok, List.length_map] at h
  obtain ⟨-, hlength, records', hmap, _, hslots, rfl⟩ := h
  rw [List.forall₂_map_left_iff] at hmap
  constructor
  · rw [← List.forall₂_eq_eq_eq, List.forall₂_map_left_iff]
    apply hmap.flip.imp
    intro record identity hrecord
    exact (admitRecord_identity hrecord).1
  · simp only [admitRecords, bind_eq_ok, check_eq_ok, pure_eq_ok, mapM_eq_ok, List.length_map]
    refine ⟨(), ?_, records', ?_, (), hslots, rfl⟩
    · rwa [← hmap.length_eq]
    · rw [List.map_map, List.forall₂_map_left_iff]
      exact admitRecord_json hmap

/-! ## The file -/

/-- The document of a file, whoever reads it. -/
def documentOf (file : File) : Option Document :=
  file.bind fun content ↦ (content.decoded >>= readDocument).toOption

/-- The sequence on disk; before there is a file it is zero. -/
def sequenceOf (file : File) : ℤ := ((documentOf file).map Document.sequence).getD 0

variable {own : JournalBinding} {readable : Bool} {file : File}

theorem readFile_eq_none :
    readFile own readable file = .ok none ↔ file = none := by
  constructor
  · intro h
    cases file with
    | none => rfl
    | some content =>
        simp only [readFile, bind_eq_ok, pure_eq_ok, reduceCtorEq, and_false, exists_false] at h
  · rintro rfl
    rfl

theorem readFile_eq_some {document : Document} (h : readFile own readable file = .ok (some document)) :
    documentOf file = some document ∧ (document.binding = own ∨ document.records = []) := by
  cases file with
  | none => simp [readFile] at h
  | some content =>
      simp only [readFile, admitDocument, admitOwner, bind_eq_ok, check_eq_ok, pure_eq_ok, Option.some.injEq] at h
      obtain ⟨-, -, raw, hraw, _, ⟨document, hdocument, _, howner, rfl⟩, rfl⟩ := h
      constructor
      · rw [documentOf, Option.bind_some, toOption_eq_some, bind_eq_ok]
        exact ⟨raw, hraw, hdocument⟩
      · simpa using howner

variable {current : Option Document}

theorem readFile_current (h : readFile own readable file = .ok current) : current = documentOf file := by
  cases current with
  | none =>
      rw [readFile_eq_none.mp h]
      rfl
  | some document => exact (readFile_eq_some h).1.symm

theorem readFile_sequence (h : readFile own readable file = .ok current) :
    nextSequence current = sequenceOf file + 1 := by
  rw [nextSequence, sequenceOf, readFile_current h]

theorem readDocument_sequence {raw : Json} {document : Document} (h : readDocument raw = .ok document) :
    1 ≤ document.sequence := by
  simp only [readDocument, bind_eq_ok, pure_eq_ok] at h
  obtain ⟨fields, -, -, -, -, -, sequence, hsequence, writer, -, records, -, binding, -, rfl⟩ := h
  unfold admitSequence at hsequence
  split at hsequence
  · rw [ite_ok_eq_ok, Except.ok.injEq] at hsequence
    obtain ⟨hpositive, rfl⟩ := hsequence
    exact hpositive
  · cases hsequence

theorem documentOf_sequence {document : Document} (h : documentOf file = some document) :
    1 ≤ document.sequence := by
  rw [documentOf, Option.bind_eq_some_iff] at h
  obtain ⟨content, -, hdocument⟩ := h
  rw [toOption_eq_some, bind_eq_ok] at hdocument
  obtain ⟨raw, -, hraw⟩ := hdocument
  exact readDocument_sequence hraw

theorem sequenceOf_nonneg (file : File) : 0 ≤ sequenceOf file := by
  unfold sequenceOf
  cases hdocument : documentOf file with
  | none => simp
  | some document =>
      have hpositive := documentOf_sequence hdocument
      simp only [Option.map_some, Option.getD_some]
      omega

/-- A document that was written, and what it says of its sequence. -/
def writtenFile (binding : JournalBinding) (sequence : ℤ) (writer : Writer) (records : List PendingOperation) : Content :=
  .document (document binding sequence writer records) (payloadSize (document binding sequence writer records))

/-- A document that fits is read back. -/
theorem documentOf_written {binding : JournalBinding} {sequence : ℤ} {writer : Writer} (hsequence : 1 ≤ sequence)
    (hsize : payloadSize (document binding sequence writer records) ≤ maxJournalBytes) :
    documentOf (some (writtenFile binding sequence writer records)) =
      some ⟨binding, sequence, writer.val, records.map PendingOperation.json⟩ := by
  rw [documentOf, Option.bind_some, toOption_eq_some, bind_eq_ok]
  refine ⟨_, ?_, readDocument_document binding hsequence writer records⟩
  rw [writtenFile, Content.decoded, if_pos hsize]

theorem sequenceOf_written {binding : JournalBinding} {sequence : ℤ} {writer : Writer} (hsequence : 1 ≤ sequence)
    (hsize : payloadSize (document binding sequence writer records) ≤ maxJournalBytes) :
    sequenceOf (some (writtenFile binding sequence writer records)) = sequence := by
  rw [sequenceOf, documentOf_written hsequence hsize, Option.map_some, Option.getD_some]

/-! ## What one call does -/

/-- What a call of `record` that replaces the file has found and done. -/
structure Replaces (journal : JournalInstance) (entries : List Identity) (fate : Fate) (file : File)
    (records : List PendingOperation) (current : Option Document) (after : Recorded) : Prop where
  admits : admitRecords (entries.map .identity) = .ok records
  reads : readFile journal.binding true file = .ok current
  observed : current.map Document.mark = journal.observed
  written : after.written = some (writtenFile journal.binding (nextSequence current) journal.writer records)
  fits : payloadSize (document journal.binding (nextSequence current) journal.writer records) ≤ maxJournalBytes
  binding : ∀ next ∈ after.journal, next.binding = journal.binding
  mark : ∀ next ∈ after.journal, next.observed =
    if after.answer = some (.ok ()) then some (nextSequence current, journal.writer.val) else journal.observed

/-- A call of `record` that leaves the file alone does not succeed. -/
structure Declines (journal : JournalInstance) (after : Recorded) : Prop where
  unwritten : after.written = none
  unanswered : after.answer ≠ some (.ok ())
  binding : ∀ next ∈ after.journal, next.binding = journal.binding
  mark : ∀ next ∈ after.journal, next.observed = journal.observed

variable {journal : JournalInstance} {entries : List Identity}

theorem Replaces.sequence {fate : Fate} {after : Recorded}
    (h : Replaces journal entries fate file records current after) :
    1 ≤ nextSequence current ∧ sequenceOf after.written = sequenceOf file + 1 := by
  have hnext := readFile_sequence h.reads
  have hnonneg := sequenceOf_nonneg file
  have hpositive : 1 ≤ nextSequence current := by omega
  refine ⟨hpositive, ?_⟩
  rw [h.written, sequenceOf_written hpositive h.fits, hnext]

theorem Declines.refused (journal : JournalInstance) (superseded : Option JournalBinding) (refusal : Refusal) :
    Declines journal (.refused { journal with superseded } refusal) := by
  constructor <;> simp [Recorded.refused]

theorem replaceFile_cases {superseded : Option JournalBinding} {fate : Fate}
    (hadmits : admitRecords (entries.map .identity) = .ok records)
    (hreads : readFile journal.binding (fate ≠ .unreadable) file = .ok current)
    (hobserved : current.map Document.mark = journal.observed) :
    Declines journal (replaceFile { journal with superseded } (nextSequence current) records fate) ∨
      Replaces journal entries fate file records current
        (replaceFile { journal with superseded } (nextSequence current) records fate) := by
  unfold replaceFile
  by_cases hsize : maxJournalBytes < payloadSize (document journal.binding (nextSequence current) journal.writer records)
  · rw [if_pos hsize]
    exact .inl (.refused ..)
  · rw [if_neg hsize]
    have hfits := not_lt.mp hsize
    cases fate with
    | contended => exact .inl (.refused ..)
    | unreadable => exact .inl (.refused ..)
    | unstaged => exact .inl (.refused ..)
    | crashed replaced =>
        cases replaced with
        | false => left; constructor <;> simp [Fate.replaces]
        | true => right; constructor <;> simp_all [Fate.replaces, writtenFile]
    | replaceRaised replaced =>
        cases replaced with
        | false => left; constructor <;> simp [Fate.replaces]
        | true => right; constructor <;> simp_all [Fate.replaces, writtenFile]
    | completed => right; constructor <;> simp_all [Fate.replaces, writtenFile]

theorem record_cases (journal : JournalInstance) (entries : List Identity) (fate : Fate) (file : File) :
    Declines journal (record journal entries fate file) ∨
      ∃ records current, Replaces journal entries fate file records current (record journal entries fate file) := by
  unfold record
  cases hadmits : admitRecords (entries.map .identity) with
  | error refusal => exact .inl (.refused journal journal.superseded refusal)
  | ok records =>
      by_cases huncertain : journal.uncertain
      · simp only [huncertain, if_true]
        exact .inl (.refused journal journal.superseded _)
      · by_cases hcontended : fate = .contended
        · simp only [huncertain, hcontended, if_true, Bool.false_eq_true, if_false]
          exact .inl (.refused journal journal.superseded _)
        · simp only [huncertain, hcontended, Bool.false_eq_true, if_false]
          unfold recordLocked
          cases hreads : readFile journal.binding (fate ≠ .unreadable) file with
          | error refusal => exact .inl (.refused ..)
          | ok current =>
              by_cases hobserved : current.map Document.mark = journal.observed
              · simp only [if_pos hobserved]
                exact (replaceFile_cases hadmits hreads hobserved).imp_right fun h ↦ ⟨records, current, h⟩
              · simp only [if_neg hobserved]
                exact .inl (.refused ..)

/-! ## Runs -/

/-- The file of a state root and the instances that are open over it. -/
structure World (ι : Type) where
  file : File
  instances : ι → Option JournalInstance

/-- A call, or the end of a process; what the world does to a call is part of it. -/
inductive Event (ι : Type) where
  | construct (i : ι) (binding : JournalBinding) (writer : Writer)
  | load (i : ι) (readable : Bool)
  | record (i : ι) (entries : List Identity) (fate : Fate)
  | exit (i : ι)

inductive Answer where
  | silent
  | loaded (records : Checked (List PendingOperation))
  | recorded (outcome : Checked Unit)

section Runs

variable {ι : Type} [DecidableEq ι]

/-- What a call has left: the world, what it put in place of the file, and its answer. -/
structure Served (ι : Type) where
  world : World ι
  written : Option Content
  answer : Answer

namespace World

variable (world : World ι)

def put (i : ι) (journal : Option JournalInstance) : World ι :=
  { world with instances := Function.update world.instances i journal }

def call : Event ι → Served ι
  | .construct i binding writer => ⟨world.put i (some (.fresh binding writer)), none, .silent⟩
  | .load i readable =>
      match world.instances i with
      | none => ⟨world, none, .silent⟩
      | some journal =>
          let loaded := load journal readable world.file
          ⟨world.put i (some loaded.1), none, .loaded loaded.2⟩
  | .record i entries fate =>
      match world.instances i with
      | none => ⟨world, none, .silent⟩
      | some journal =>
          let recorded := record journal entries fate world.file
          ⟨{ world.put i recorded.journal with file := recorded.written.or world.file }, recorded.written,
            (recorded.answer.map Answer.recorded).getD .silent⟩
  | .exit i => ⟨world.put i none, none, .silent⟩

end World

/-- A world with what is remembered of its run: the file each instance has last loaded or written, what the
last call that replaced the file was given, and how many did. -/
structure History (ι : Type) where
  world : World ι
  seen : ι → File
  given : Option (JournalBinding × List Identity)
  replaced : ℕ

namespace History

/-- A run starts over any file, with no instance open. -/
def start (file : File) : History ι := ⟨⟨file, fun _ ↦ none⟩, fun _ ↦ none, none, 0⟩

variable (history : History ι)

/-- The file each instance has last loaded or written; a constructed one has established that there is none. -/
def seenAfter (event : Event ι) (served : Served ι) : ι → File :=
  match event, served.answer with
  | .construct i _ _, _ => Function.update history.seen i none
  | .load i _, .loaded (.ok _) => Function.update history.seen i history.world.file
  | .record i _ _, .recorded (.ok ()) => Function.update history.seen i served.world.file
  | _, _ => history.seen

/-- What the last call that replaced the file was given, and under which binding. -/
def givenAfter (event : Event ι) (served : Served ι) : Option (JournalBinding × List Identity) :=
  match event, served.written with
  | .record i entries _, some _ => (history.world.instances i).map fun journal ↦ (journal.binding, entries)
  | _, _ => history.given

def step (event : Event ι) : History ι :=
  let served := history.world.call event
  ⟨served.world, history.seenAfter event served, history.givenAfter event served,
    history.replaced + (if served.written.isSome then 1 else 0)⟩

/-- The history after a run. -/
def after (file : File) (events : List (Event ι)) : History ι := events.foldl step (start file)

end History

/-! ## The invariant -/

/-- What an open instance holds for the state of the file: the mark of a document it has seen. -/
structure Established (file : File) (journal : JournalInstance) (seen : File) : Prop where
  mark : journal.observed = (documentOf seen).map Document.mark
  blank : documentOf seen = none → seen = none
  behind : ∀ own readable current, readFile own readable file = .ok current →
    seen = file ∨ sequenceOf seen < sequenceOf file

structure Consistent (history : History ι) : Prop where
  established : ∀ i journal, history.world.instances i = some journal →
    Established history.world.file journal (history.seen i)
  recorded : ∀ binding entries, history.given = some (binding, entries) →
    ∃ sequence writer records, history.world.file = some (writtenFile binding sequence writer records) ∧
      1 ≤ sequence ∧ payloadSize (document binding sequence writer records) ≤ maxJournalBytes ∧
      admitRecords (entries.map .identity) = .ok records

/-- An instance whose mark is the one on disk has seen that very file. -/
theorem Established.seen_eq {file seen : File} (h : Established file journal seen)
    (hreads : readFile own readable file = .ok current) (hobserved : current.map Document.mark = journal.observed) :
    seen = file := by
  rcases h.behind own readable current hreads with hseen | hbehind
  · exact hseen
  · exfalso
    have hmarks : (documentOf seen).map Document.mark = (documentOf file).map Document.mark := by
      rw [← h.mark, ← hobserved, readFile_current hreads]
    have hsequences := congrArg (Option.map Prod.fst) hmarks
    simp only [Option.map_map, Function.comp_def, Document.mark] at hsequences
    unfold sequenceOf at hbehind
    change Option.map Document.sequence (documentOf seen) = Option.map Document.sequence (documentOf file) at hsequences
    rw [hsequences] at hbehind
    exact lt_irrefl _ hbehind

theorem Established.fresh (file : File) (binding : JournalBinding) (writer : Writer) :
    Established file (.fresh binding writer) none := by
  refine ⟨rfl, fun _ ↦ rfl, ?_⟩
  intro own readable current hreads
  cases current with
  | none => exact .inl (readFile_eq_none.mp hreads).symm
  | some document =>
      right
      have hpositive := documentOf_sequence (readFile_eq_some hreads).1
      rw [sequenceOf, sequenceOf, (readFile_eq_some hreads).1]
      change 0 < document.sequence
      omega

/-- What is remembered of an instance depends on its mark alone. -/
theorem Established.congr {file seen : File} {journal next : JournalInstance} (h : Established file journal seen)
    (hmark : next.observed = journal.observed) : Established file next seen :=
  ⟨hmark.trans h.mark, h.blank, h.behind⟩

theorem Established.seen (hreads : readFile own readable file = .ok current)
    (hmark : journal.observed = current.map Document.mark) : Established file journal file := by
  refine ⟨?_, ?_, fun _ _ _ _ ↦ .inl rfl⟩
  · rw [hmark, readFile_current hreads]
  · intro hblank
    rw [readFile_current hreads, hblank] at hreads
    exact readFile_eq_none.mp hreads

theorem Established.load {file seen : File} (h : Established file journal seen) (readable : Bool) :
    (∀ records, (load journal readable file).2 = .ok records → Established file (load journal readable file).1 file) ∧
      (∀ refusal, (load journal readable file).2 = .error refusal →
        Established file (load journal readable file).1 seen) := by
  cases hreads : readFile journal.binding readable file with
  | error refusal =>
      simp only [Journal.load, hreads, loadRead, reduceCtorEq, false_implies, implies_true, true_and]
      intro refusal' _
      exact h.congr rfl
  | ok current =>
      cases current with
      | none =>
          simp only [Journal.load, hreads, loadRead, reduceCtorEq, false_implies, implies_true, and_true]
          intro records _
          exact .seen hreads rfl
      | some document =>
          cases hadmits : admitRecords (document.records.map .value) with
          | error refusal =>
              simp only [Journal.load, hreads, loadRead, hadmits, reduceCtorEq, false_implies, implies_true, true_and]
              intro refusal' _
              exact h.congr rfl
          | ok records =>
              simp only [Journal.load, hreads, loadRead, hadmits, reduceCtorEq, false_implies, implies_true, and_true]
              intro records' _
              exact .seen hreads rfl

/-- A replaced file leaves every instance behind that has not written it. -/
theorem Established.replaced {file file' seen : File} (h : Established file journal seen)
    (hreads : readFile own readable file = .ok current) (hsequence : sequenceOf file' = sequenceOf file + 1) :
    Established file' journal seen := by
  refine ⟨h.mark, h.blank, ?_⟩
  intro _ _ _ _
  right
  rcases h.behind own readable current hreads with rfl | hbehind
  · omega
  · omega

theorem established_update {instances : ι → Option JournalInstance} {seen : ι → File}
    (h : ∀ k journal, instances k = some journal → Established file journal (seen k)) (i : ι)
    {next : Option JournalInstance} {seen' : File} (hnext : ∀ journal ∈ next, Established file journal seen') :
    ∀ k journal, Function.update instances i next k = some journal →
      Established file journal (Function.update seen i seen' k) := by
  intro k journal hk
  by_cases hki : k = i
  · subst hki
    rw [Function.update_self] at hk ⊢
    exact hnext journal hk
  · rw [Function.update_of_ne hki] at hk ⊢
    exact h k journal hk

omit [DecidableEq ι] in
theorem Consistent.start (file : File) : Consistent (History.start (ι := ι) file) := by
  constructor
  · intro i journal h
    cases h
  · intro binding entries h
    cases h

omit [DecidableEq ι] in
/-- An instance that was refused has seen nothing new. -/
theorem seenAfter_record [DecidableEq ι] {history : History ι} {i : ι} {fate : Fate} {answer : Option (Checked Unit)}
    {world : World ι} {written : Option Content} (h : answer ≠ some (.ok ())) :
    history.seenAfter (.record i entries fate) ⟨world, written, (answer.map Answer.recorded).getD .silent⟩ =
      history.seen := by
  rcases answer with _ | _ | _
  · rfl
  · rfl
  · exact absurd rfl h

theorem Replaces.established {history : History ι} {i : ι} {fate : Fate} {file' : Content} {after : Recorded}
    (h : Replaces journal entries fate history.world.file records current after)
    (hwritten : after.written = some file')
    (hothers : ∀ k other, history.world.instances k = some other → Established (some file') other (history.seen k))
    (hinstance : history.world.instances i = some journal) (world : World ι) (hfile : world.file = some file') :
    ∀ k other, Function.update history.world.instances i after.journal k = some other →
      Established (some file') other
        (history.seenAfter (.record i entries fate)
          ⟨world, after.written, (after.answer.map Answer.recorded).getD .silent⟩ k) := by
  have hself := hothers i journal hinstance
  by_cases hanswer : after.answer = some (.ok ())
  · have hseen : history.seenAfter (.record i entries fate)
        ⟨world, after.written, (after.answer.map Answer.recorded).getD .silent⟩ =
          Function.update history.seen i (some file') := by
      rw [hanswer, ← hfile]
      rfl
    rw [hseen]
    apply established_update hothers i
    intro next hnext
    have hmark := h.mark next hnext
    rw [if_pos hanswer] at hmark
    have hdocument := documentOf_written h.sequence.1 h.fits
    rw [← h.written, hwritten] at hdocument
    refine ⟨?_, ?_, fun _ _ _ _ ↦ .inl rfl⟩
    · rw [hmark, hdocument]
      rfl
    · rw [hdocument]
      exact nofun
  · rw [seenAfter_record hanswer]
    have hnext : ∀ next ∈ after.journal, Established (some file') next (history.seen i) := by
      intro next hnext
      exact hself.congr (by rw [h.mark next hnext, if_neg hanswer])
    have hupdate := established_update hothers i hnext
    rwa [Function.update_eq_self] at hupdate

theorem Consistent.step {history : History ι} (h : Consistent history) (event : Event ι) :
    Consistent (history.step event) := by
  have hkept : ∀ i next, (∀ journal ∈ next, Established history.world.file journal (history.seen i)) →
      ∀ k journal, Function.update history.world.instances i next k = some journal →
        Established history.world.file journal (history.seen k) := by
    intro i next hnext
    have hupdate := established_update h.established i hnext
    rwa [Function.update_eq_self] at hupdate
  cases event with
  | construct i binding writer =>
      refine ⟨established_update h.established i ?_, h.recorded⟩
      intro journal hjournal
      cases hjournal
      exact Established.fresh ..
  | exit i =>
      refine ⟨hkept i none ?_, h.recorded⟩
      intro journal hjournal
      cases hjournal
  | load i readable =>
      cases hinstance : history.world.instances i with
      | none =>
          simp only [History.step, World.call, hinstance]
          exact ⟨h.established, h.recorded⟩
      | some journal =>
          have hload := (h.established i journal hinstance).load readable
          cases hanswer : (load journal readable history.world.file).2 with
          | error refusal =>
              simp only [History.step, World.call, hinstance, History.seenAfter, hanswer]
              refine ⟨hkept i _ ?_, h.recorded⟩
              intro next hnext
              cases hnext
              exact hload.2 refusal hanswer
          | ok records =>
              simp only [History.step, World.call, hinstance, History.seenAfter, hanswer]
              refine ⟨established_update h.established i ?_, h.recorded⟩
              intro next hnext
              cases hnext
              exact hload.1 records hanswer
  | record i entries fate =>
      cases hinstance : history.world.instances i with
      | none =>
          simp only [History.step, World.call, hinstance]
          exact ⟨h.established, h.recorded⟩
      | some journal =>
          have hestablished := h.established i journal hinstance
          rcases record_cases journal entries fate history.world.file with hdeclines | ⟨records, current, hreplaces⟩
          · have hnext : ∀ next ∈ (record journal entries fate history.world.file).journal,
                Established history.world.file next (history.seen i) := by
              intro next hnext
              exact hestablished.congr (hdeclines.mark next hnext)
            simp only [History.step, World.call, hinstance, seenAfter_record hdeclines.unanswered,
              hdeclines.unwritten, Option.none_or]
            exact ⟨hkept i _ hnext, h.recorded⟩
          · have hsequence := hreplaces.sequence
            have hothers : ∀ k other, history.world.instances k = some other →
                Established (record journal entries fate history.world.file).written other (history.seen k) := by
              intro k other hk
              exact (h.established k other hk).replaced hreplaces.reads hsequence.2
            simp only [History.step, World.call, hinstance, hreplaces.written, Option.some_or, History.givenAfter]
            rw [hreplaces.written] at hothers
            constructor
            · have hall := hreplaces.established hreplaces.written hothers hinstance
                ⟨some (writtenFile journal.binding (nextSequence current) journal.writer records),
                  Function.update history.world.instances i (record journal entries fate history.world.file).journal⟩ rfl
              rwa [hreplaces.written] at hall
            · rintro binding given ⟨⟩
              exact ⟨_, _, _, rfl, hsequence.1, hreplaces.fits, hreplaces.admits⟩

theorem Consistent.after (file : File) (events : List (Event ι)) : Consistent (History.after file events) := by
  have hrun : ∀ history : History ι, Consistent history → Consistent (events.foldl History.step history) := by
    induction events with
    | nil => exact fun _ h ↦ h
    | cons event events ih => exact fun history h ↦ ih _ (h.step event)
  exact hrun _ (Consistent.start file)

/-! ## What a call finds -/

/-- A call that replaces the file is one of `record`, of an open instance. -/
theorem call_written {world : World ι} {event : Event ι} {content : Content}
    (h : (world.call event).written = some content) :
    ∃ i entries fate journal records current, event = .record i entries fate ∧ world.instances i = some journal ∧
      Replaces journal entries fate world.file records current (record journal entries fate world.file) ∧
      (world.call event).world.file = some content := by
  cases event with
  | construct i binding writer => cases h
  | exit i => cases h
  | load i readable =>
      cases hinstance : world.instances i with
      | none => simp [World.call, hinstance] at h
      | some journal => simp [World.call, hinstance] at h
  | record i entries fate =>
      cases hinstance : world.instances i with
      | none => simp [World.call, hinstance] at h
      | some journal =>
          have hwritten : (record journal entries fate world.file).written = some content := by
            simpa [World.call, hinstance] using h
          rcases record_cases journal entries fate world.file with hdeclines | ⟨records, current, hreplaces⟩
          · rw [hdeclines.unwritten] at hwritten
            cases hwritten
          · refine ⟨i, entries, fate, journal, records, current, rfl, hinstance, hreplaces, ?_⟩
            simp [World.call, hinstance, hwritten]

theorem call_file_of_none {world : World ι} {event : Event ι} (h : (world.call event).written = none) :
    (world.call event).world.file = world.file := by
  cases event with
  | construct i binding writer => rfl
  | exit i => rfl
  | load i readable => cases hinstance : world.instances i <;> simp [World.call, hinstance, World.put]
  | record i entries fate =>
      cases hinstance : world.instances i with
      | none => simp [World.call, hinstance]
      | some journal =>
          have hwritten : (record journal entries fate world.file).written = none := by
            simpa [World.call, hinstance] using h
          simp [World.call, hinstance, hwritten]

theorem call_sequence {world : World ι} {event : Event ι} {content : Content}
    (h : (world.call event).written = some content) :
    sequenceOf (world.call event).world.file = sequenceOf world.file + 1 := by
  obtain ⟨i, entries, fate, journal, records, current, rfl, hinstance, hreplaces, hfile⟩ := call_written h
  rw [hfile, ← hreplaces.sequence.2]
  congr 1
  simpa [World.call, hinstance] using h.symm

/-- The sequence counts the calls that have replaced the file. -/
theorem sequenceOf_after (file : File) (events : List (Event ι)) :
    sequenceOf (History.after file events).world.file = sequenceOf file + (History.after file events).replaced := by
  have hrun : ∀ history : History ι,
      sequenceOf (events.foldl History.step history).world.file + history.replaced =
        sequenceOf history.world.file + (events.foldl History.step history).replaced := by
    induction events with
    | nil => exact fun _ ↦ rfl
    | cons event events ih =>
        intro history
        have hrest := ih (history.step event)
        have hfirst : sequenceOf (history.step event).world.file + history.replaced =
            sequenceOf history.world.file + (history.step event).replaced := by
          cases hwritten : (history.world.call event).written with
          | none => simp [History.step, hwritten, call_file_of_none hwritten]
          | some content =>
              have hsequence := call_sequence hwritten
              simp only [History.step, hwritten, Option.isSome_some, if_true, hsequence]
              omega
        rw [List.foldl_cons]
        omega
  have hstart := hrun (History.start file)
  simpa [History.start, History.after] using hstart

theorem record_answer {world : World ι} {i : ι} {fate : Fate}
    (h : (world.call (.record i entries fate)).answer = .recorded (.ok ())) :
    ∃ journal records current, world.instances i = some journal ∧
      Replaces journal entries fate world.file records current (record journal entries fate world.file) := by
  cases hinstance : world.instances i with
  | none => simp [World.call, hinstance] at h
  | some journal =>
      rcases record_cases journal entries fate world.file with hdeclines | ⟨records, current, hreplaces⟩
      · exfalso
        apply hdeclines.unanswered
        cases hanswer : (record journal entries fate world.file).answer with
        | none => simp [World.call, hinstance, hanswer] at h
        | some outcome => simpa [World.call, hinstance, hanswer] using h
      · exact ⟨journal, records, current, rfl, hreplaces⟩

/-- A load returns only what its own binding speaks for, or nothing. -/
theorem load_eq_ok (h : (load journal readable file).2 = .ok records) :
    (file = none ∧ records = []) ∨ ∃ document, documentOf file = some document ∧
      (document.binding = journal.binding ∨ document.records = []) ∧
      admitRecords (document.records.map .value) = .ok records := by
  cases hreads : readFile journal.binding readable file with
  | error refusal => simp [Journal.load, hreads, loadRead] at h
  | ok current =>
      cases current with
      | none =>
          left
          simp only [Journal.load, hreads, loadRead, Except.ok.injEq] at h
          exact ⟨readFile_eq_none.mp hreads, h.symm⟩
      | some document =>
          right
          obtain ⟨hdocument, howner⟩ := readFile_eq_some hreads
          refine ⟨document, hdocument, howner, ?_⟩
          cases hadmits : admitRecords (document.records.map .value) with
          | error refusal => simp [Journal.load, hreads, loadRead, hadmits] at h
          | ok records' => simpa [Journal.load, hreads, loadRead, hadmits] using h

theorem load_written {sequence : ℤ} {writer : Writer} (hsequence : 1 ≤ sequence)
    (hsize : payloadSize (document journal.binding sequence writer records) ≤ maxJournalBytes)
    (hadmits : admitRecords ((records.map PendingOperation.json).map .value) = .ok records) :
    (load journal true (some (writtenFile journal.binding sequence writer records))).2 = .ok records := by
  have hreads : readFile journal.binding true (some (writtenFile journal.binding sequence writer records)) =
      .ok (some ⟨journal.binding, sequence, writer.val, records.map PendingOperation.json⟩) := by
    simp only [readFile, admitDocument, bind_eq_ok, check_eq_ok, pure_eq_ok]
    refine ⟨(), trivial, _, ?_, _, ⟨_, readDocument_document journal.binding hsequence writer records, (), ?_, rfl⟩, rfl⟩
    · rw [writtenFile, Content.decoded, if_pos hsize]
    · simp [admitOwner, check]
  simp only [Journal.load, hreads, loadRead, hadmits]

/-! ## The law of the journal -/

/-- The instance that an event is about. -/
def Event.subject : Event ι → ι
  | .construct i _ _ => i
  | .load i _ => i
  | .record i _ _ => i
  | .exit i => i

/-- After any run, whatever call comes next: a record that succeeds was over the very file that its instance
last loaded or wrote; a replaced file carries the next number, and no other call touches it, so that the
number counts the records that took place; what another binding still has on record is neither replaced nor
handed out; and a load returns what the last record was given, to every instance of its binding. A record
takes place with its replace, also where the process ends right behind it. -/
theorem no_record_is_lost (file : File) (events : List (Event ι)) (event : Event ι) :
    let history := History.after file events
    let served := history.world.call event
    (∀ i entries fate, event = .record i entries fate → served.answer = .recorded (.ok ()) →
      history.world.file = history.seen i ∧ served.written.isSome) ∧
    (∀ content, served.written = some content → served.world.file = some content ∧
      sequenceOf served.world.file = sequenceOf history.world.file + 1) ∧
    (served.written = none → served.world.file = history.world.file) ∧
    sequenceOf history.world.file = sequenceOf file + history.replaced ∧
    (∀ journal document, history.world.instances event.subject = some journal →
      documentOf history.world.file = some document → document.binding ≠ journal.binding → document.records ≠ [] →
      served.written = none ∧ ∀ records, served.answer ≠ .loaded (.ok records)) ∧
    (∀ i readable journal binding entries, event = .load i readable → history.world.instances i = some journal →
      history.given = some (binding, entries) →
      (∀ records, served.answer = .loaded (.ok records) → records.map PendingOperation.identity = entries) ∧
      (journal.binding = binding → readable = true → ∃ records, served.answer = .loaded (.ok records))) := by
  intro history served
  have hconsistent : Consistent history := Consistent.after file events
  refine ⟨?_, ?_, call_file_of_none, sequenceOf_after file events, ?_, ?_⟩
  · rintro i entries fate rfl hanswer
    obtain ⟨journal, records, current, hinstance, hreplaces⟩ := record_answer hanswer
    constructor
    · exact ((hconsistent.established i journal hinstance).seen_eq hreplaces.reads hreplaces.observed).symm
    · simp [served, World.call, hinstance, hreplaces.written]
  · intro content hwritten
    obtain ⟨-, -, -, -, -, -, -, -, -, hfile⟩ := call_written hwritten
    exact ⟨hfile, call_sequence hwritten⟩
  · intro journal document hinstance hdocument hbinding hrecords
    constructor
    · rw [Option.eq_none_iff_forall_ne_some]
      intro content hwritten
      obtain ⟨i, entries, fate, journal', records, current, hevent, hinstance', hreplaces, -⟩ := call_written hwritten
      rw [hevent] at hinstance
      cases hinstance.symm.trans hinstance'
      have hcurrent := readFile_current hreplaces.reads
      have hreads := hreplaces.reads
      rw [hcurrent, hdocument] at hreads
      exact (readFile_eq_some hreads).2.elim hbinding hrecords
    · intro records hanswer
      cases event with
      | load i readable =>
          have hload : (load journal readable history.world.file).2 = .ok records := by
            simpa [served, World.call, show history.world.instances i = some journal from hinstance] using hanswer
          rcases load_eq_ok hload with ⟨hnone, -⟩ | ⟨document', hdocument', howner, -⟩
          · rw [hnone] at hdocument
            cases hdocument
          · cases hdocument.symm.trans hdocument'
            exact howner.elim hbinding hrecords
      | construct i binding writer => cases hanswer
      | exit i => cases hanswer
      | record i entries fate =>
          simp only [served, World.call, show history.world.instances i = some journal from hinstance] at hanswer
          cases hoption : (record journal entries fate history.world.file).answer <;> simp [hoption] at hanswer
  · rintro i readable journal binding entries rfl hinstance hgiven
    obtain ⟨sequence, writer, records, hfile, hsequence, hsize, hadmits⟩ := hconsistent.recorded binding entries hgiven
    obtain ⟨hidentities, hread⟩ := admitRecords_identity hadmits
    have hanswer : served.answer = .loaded (load journal readable history.world.file).2 := by
      simp [served, World.call, hinstance]
    rw [hanswer]
    constructor
    · intro records' hloaded
      have hload : (load journal readable history.world.file).2 = .ok records' := by simpa using hloaded
      rcases load_eq_ok hload with ⟨hnone, -⟩ | ⟨document, hdocument, -, hadmitted⟩
      · rw [hfile] at hnone
        cases hnone
      · rw [hfile, documentOf_written hsequence hsize] at hdocument
        cases hdocument
        rw [hread] at hadmitted
        cases hadmitted
        exact hidentities
    · rintro rfl rfl
      refine ⟨records, ?_⟩
      rw [hfile, load_written hsequence hsize hread]

end Runs

end WorkStack.RemoteUpdate.Journal
