import WorkStack.Effect.Receipts
import WorkStack.Effect.Requests
import WorkStack.Knowledge.Planners

/-!
# Runs on the ledger

The owner revises the policy, issues requests and completes them in any order and at any time. The
document stays one that the validator accepts, no record loses what it was issued for, and a request is
completed once: whoever completes it again is told what is on record.
-/

open WorkStack.Python WorkStack.Effect WorkStack.Effect.Refusing WorkStack.Effect.Requests

namespace WorkStack.Knowledge

/-- One call of a planner. -/
inductive Call where
  | revise (connections : List ConnectionPolicy)
  | issue (request : Json) (connectionAlias now : String) (activeTask : Option ActiveTask)
  | complete (requestId completionDigest : String) (captureIds : List String) (now : String)
      (activeTask : Option ActiveTask)

section Runs

variable (L : Library) (workspaceUid : String)

/-- The document that a call returns, if it is accepted. -/
def serve (document : Json) : Call → Option Json
  | .revise connections => (planPolicyRevision L workspaceUid document connections).toOption
  | .issue request connectionAlias now activeTask =>
      (planRequestIssue L workspaceUid document request connectionAlias now activeTask).toOption.map
        IssuedRequest.document
  | .complete requestId completionDigest captureIds now activeTask =>
      (planLedgerStageCompletion L workspaceUid document requestId completionDigest captureIds now
        activeTask).toOption.map StageCompletion.document

/-- `validate_knowledge_document` accepts the document. -/
def Accepted (document : Json) : Prop := ∃ ledger, readLedger L.toPlatform workspaceUid document = .ok ledger

/-- Every record is there, issued for what it was issued for, and completed as it was completed. -/
def Keeps (ledger later : Ledger) : Prop :=
  ∀ record ∈ ledger.requests, ∃ record' ∈ later.requests, record'.issued = record.issued ∧
    ∀ completion, record.completion = some completion → record'.completion = some completion

/-- A later document is of a later policy and keeps the records. -/
def Continues (document later : Json) : Prop :=
  ∀ ledger, readLedger L.toPlatform workspaceUid document = .ok ledger → ∃ ledger',
    readLedger L.toPlatform workspaceUid later = .ok ledger' ∧ ledger.policyRevision ≤ ledger'.policyRevision ∧
      Keeps ledger ledger'

variable {L workspaceUid}

theorem Keeps.refl (ledger : Ledger) : Keeps ledger ledger :=
  fun record hrecord ↦ ⟨record, hrecord, rfl, fun _ h ↦ h⟩

theorem Keeps.trans {a b c : Ledger} (hab : Keeps a b) (hbc : Keeps b c) : Keeps a c := by
  intro record hrecord
  obtain ⟨middle, hmiddle, hissued, hcompleted⟩ := hab record hrecord
  obtain ⟨last, hlast, hissued', hcompleted'⟩ := hbc middle hmiddle
  exact ⟨last, hlast, hissued'.trans hissued, fun completion h ↦ hcompleted' _ (hcompleted _ h)⟩

theorem Continues.refl (document : Json) : Continues L workspaceUid document document :=
  fun ledger hledger ↦ ⟨ledger, hledger, le_rfl, Keeps.refl ledger⟩

theorem Continues.trans {a b c : Json} (hab : Continues L workspaceUid a b) (hbc : Continues L workspaceUid b c) :
    Continues L workspaceUid a c := by
  intro ledger hledger
  obtain ⟨middle, hmiddle, hle, hkeeps⟩ := hab ledger hledger
  obtain ⟨last, hlast, hle', hkeeps'⟩ := hbc middle hmiddle
  exact ⟨last, hlast, hle.trans hle', hkeeps.trans hkeeps'⟩

theorem keeps_issue (ledger : Ledger) (issued : Authorization) : Keeps ledger (ledger.issue issued) :=
  fun record hrecord ↦ ⟨record, List.mem_append_left _ hrecord, rfl, fun _ h ↦ h⟩

/-- The record that an id leads to is the one that has it. -/
theorem record_of_mem {ledger : Ledger} (hnodup : (ledger.requests.map fun record ↦ record.issued.requestId).Nodup)
    {record : RequestRecord} (h : record ∈ ledger.requests) : ledger.record record.issued.requestId = some record :=
  Receipts.find_of_mem hnodup h

/-- Completing a pending request keeps the completions that are on record. -/
theorem keeps_complete {ledger : Ledger} (hnodup : (ledger.requests.map fun record ↦ record.issued.requestId).Nodup)
    {requestId : String} {record : RequestRecord} (hrecord : ledger.record requestId = some record)
    (hpending : record.completion = none) (completion : Completion) :
    Keeps ledger (ledger.complete requestId completion) := by
  intro other hother
  refine ⟨Ledger.completeRecord requestId completion other, List.mem_map_of_mem hother, ?_, ?_⟩
  · unfold Ledger.completeRecord
    split <;> rfl
  · intro done hdone
    unfold Ledger.completeRecord
    split
    · rename_i hid
      have hsame := record_of_mem hnodup hother
      rw [hid, hrecord, Option.some.injEq] at hsame
      rw [hsame, hdone] at hpending
      cases hpending
    · exact hdone

/-! ## One call -/

theorem accepted_of_completion {document : Json} {requestId completionDigest : String} {captureIds : List String}
    {now : String} {activeTask : Option ActiveTask} {answer : StageCompletion}
    (h : planLedgerStageCompletion L workspaceUid document requestId completionDigest captureIds now activeTask =
      .ok answer) :
    Accepted L workspaceUid answer.document ∧ Continues L workspaceUid document answer.document := by
  obtain ⟨ledger, record, hledger, -, hrecord, ⟨-, -, hsame⟩ | ⟨-, hcompletes, -, hnext⟩⟩ :=
    planLedgerStageCompletion_eq_ok h
  · rw [hsame]
    exact ⟨⟨ledger, hledger⟩, Continues.refl document⟩
  · refine ⟨⟨_, hnext⟩, ?_⟩
    intro ledger' hledger'
    rw [hledger, Except.ok.injEq] at hledger'
    subst hledger'
    exact ⟨_, hnext, le_rfl, keeps_complete (nodup_of_readLedger hledger) hrecord hcompletes.pending _⟩

/-- Every accepted call returns an accepted document that continues the one before it. -/
theorem serve_continues {document document' : Json} {call : Call}
    (h : serve L workspaceUid document call = some document') :
    Accepted L workspaceUid document' ∧ Continues L workspaceUid document document' := by
  cases call with
  | revise connections =>
      simp only [serve, toOption_eq_some] at h
      obtain ⟨ledger, hledger, hnext⟩ := planPolicyRevision_eq_ok h
      refine ⟨⟨_, hnext⟩, ?_⟩
      intro ledger' hledger'
      rw [hledger, Except.ok.injEq] at hledger'
      subst hledger'
      refine ⟨_, hnext, ?_, fun record hrecord ↦ ⟨record, hrecord, rfl, fun _ hdone ↦ hdone⟩⟩
      change ledger.policyRevision ≤ ledger.policyRevision + 1
      omega
  | issue request connectionAlias now activeTask =>
      simp only [serve, Option.map_eq_some_iff, toOption_eq_some] at h
      obtain ⟨answer, hanswer, rfl⟩ := h
      obtain ⟨ledger, hledger, hsame | ⟨issued, -, -, hnext⟩⟩ := planRequestIssue_eq_ok hanswer
      · rw [hsame]
        exact ⟨⟨ledger, hledger⟩, Continues.refl document⟩
      · refine ⟨⟨_, hnext⟩, ?_⟩
        intro ledger' hledger'
        rw [hledger, Except.ok.injEq] at hledger'
        subst hledger'
        exact ⟨_, hnext, le_rfl, keeps_issue ledger issued⟩
  | complete requestId completionDigest captureIds now activeTask =>
      simp only [serve, Option.map_eq_some_iff, toOption_eq_some] at h
      obtain ⟨answer, hanswer, rfl⟩ := h
      exact accepted_of_completion hanswer

theorem accepted_after {document : Json} (haccepted : Accepted L workspaceUid document) (run : List Call) :
    Accepted L workspaceUid (after (serve L workspaceUid) document run) :=
  invariant_after haccepted fun _ _ _ _ hserve ↦ (serve_continues hserve).1

theorem continues_after {document : Json} (haccepted : Accepted L workspaceUid document) (run : List Call) :
    Continues L workspaceUid document (after (serve L workspaceUid) document run) :=
  relates_after (P := Accepted L workspaceUid) Continues.refl (fun _ _ _ ↦ Continues.trans) haccepted
    fun _ _ _ _ hserve ↦ serve_continues hserve

/-- An accepted completion is on record from then on. -/
theorem recorded_after {document : Json} {requestId completionDigest : String} {captureIds : List String} {now : String}
    {activeTask : Option ActiveTask} {answer : StageCompletion}
    (h : planLedgerStageCompletion L workspaceUid document requestId completionDigest captureIds now activeTask =
      .ok answer) (rest : List Call) :
    ∃ ledger record, readLedger L.toPlatform workspaceUid (after (serve L workspaceUid) answer.document rest) =
      .ok ledger ∧ ledger.record requestId = some record ∧ isDigest completionDigest = true ∧
      record.completion = some ⟨captureIds, completionDigest, answer.completedAt⟩ := by
  have hdone : ∃ ledger, ∃ record ∈ ledger.requests, readLedger L.toPlatform workspaceUid answer.document = .ok ledger ∧
      record.issued.requestId = requestId ∧
      record.completion = some ⟨captureIds, completionDigest, answer.completedAt⟩ := by
    obtain ⟨ledger, record, hledger, -, hrecord, ⟨-, hcompletion, hsame⟩ | ⟨-, -, htime, hnext⟩⟩ :=
      planLedgerStageCompletion_eq_ok h
    · obtain ⟨hmem, hid⟩ := record_eq_some hrecord
      exact ⟨ledger, record, hmem, by rw [hsame, hledger], hid, hcompletion⟩
    · obtain ⟨hmem, hid⟩ := record_eq_some hrecord
      refine ⟨_, _, List.mem_map_of_mem hmem, hnext, ?_, ?_⟩
      · rw [Ledger.completeRecord, if_pos hid]
        exact hid
      · rw [Ledger.completeRecord, if_pos hid, htime]
  obtain ⟨-, -, -, hdigest, -⟩ := planLedgerStageCompletion_eq_ok h
  obtain ⟨ledger, record, hmem, hledger, hid, hcompletion⟩ := hdone
  obtain ⟨later, hlater, -, hkeeps⟩ := continues_after (accepted_of_completion h).1 rest ledger hledger
  obtain ⟨record', hmem', hissued, hcompletions⟩ := hkeeps record hmem
  refine ⟨later, record', hlater, ?_, hdigest, hcompletions _ hcompletion⟩
  rw [← hid, ← hissued]
  exact record_of_mem (nodup_of_readLedger hlater) hmem'

/-! ## Whole runs -/

variable (L workspaceUid)

/-- What holds of a document of the owner, and of everything that is done from it on. -/
structure Sound (document : Json) (ledger : Ledger) : Prop where
  accepted : readLedger L.toPlatform workspaceUid document = .ok ledger
  distinct : (ledger.requests.map fun record ↦ record.issued.requestId).Nodup
  revised : ∀ connections document', planPolicyRevision L workspaceUid document connections = .ok document' →
    ∃ ledger', readLedger L.toPlatform workspaceUid document' = .ok ledger' ∧
      ledger.policyRevision < ledger'.policyRevision
  kept : ∀ rest, ∃ ledger', readLedger L.toPlatform workspaceUid (after (serve L workspaceUid) document rest) =
    .ok ledger' ∧ ledger.policyRevision ≤ ledger'.policyRevision ∧ Keeps ledger ledger'
  completed : ∀ requestId completionDigest captureIds now activeTask answer,
    planLedgerStageCompletion L workspaceUid document requestId completionDigest captureIds now activeTask =
      .ok answer → answer.replayed = false → ∃ record, ledger.record requestId = some record ∧
        Completes L workspaceUid ledger record captureIds now activeTask
  once : ∀ requestId completionDigest captureIds now activeTask answer,
    planLedgerStageCompletion L workspaceUid document requestId completionDigest captureIds now activeTask =
      .ok answer → ∀ rest digest' captureIds' now' activeTask' answer',
        planLedgerStageCompletion L workspaceUid (after (serve L workspaceUid) answer.document rest) requestId digest'
          captureIds' now' activeTask' = .ok answer' → answer'.replayed = true
  repeated : ∀ requestId completionDigest captureIds now activeTask answer,
    planLedgerStageCompletion L workspaceUid document requestId completionDigest captureIds now activeTask =
      .ok answer → ∀ rest now' activeTask',
        planLedgerStageCompletion L workspaceUid (after (serve L workspaceUid) answer.document rest) requestId
            completionDigest captureIds now' activeTask' =
          .ok ⟨after (serve L workspaceUid) answer.document rest, true, requestId, captureIds, completionDigest,
            answer.completedAt⟩

variable {L workspaceUid}

/-- Whatever the owner does with an accepted ledger, it stays sound. -/
theorem ledger_sound_over_runs {start : Json} (haccepted : Accepted L workspaceUid start) (run : List Call) :
    ∃ ledger, Sound L workspaceUid (after (serve L workspaceUid) start run) ledger := by
  obtain ⟨ledger, hledger⟩ := accepted_after haccepted run
  refine ⟨ledger, hledger, nodup_of_readLedger hledger, ?_, ?_, ?_, ?_, ?_⟩
  · intro connections document' hrevise
    obtain ⟨ledger', hledger', hnext⟩ := planPolicyRevision_eq_ok hrevise
    rw [hledger, Except.ok.injEq] at hledger'
    subst hledger'
    refine ⟨_, hnext, ?_⟩
    change ledger.policyRevision < ledger.policyRevision + 1
    omega
  · intro rest
    exact continues_after ⟨ledger, hledger⟩ rest ledger hledger
  · intro requestId completionDigest captureIds now activeTask answer h hnew
    obtain ⟨ledger', record, hledger', -, hrecord, ⟨hreplayed, -⟩ | ⟨-, hcompletes, -⟩⟩ :=
      planLedgerStageCompletion_eq_ok h
    · rw [hnew] at hreplayed
      cases hreplayed
    · rw [hledger, Except.ok.injEq] at hledger'
      subst hledger'
      exact ⟨record, hrecord, hcompletes⟩
  · intro requestId completionDigest captureIds now activeTask answer h rest digest' captureIds' now' activeTask' answer' h'
    obtain ⟨later, record, hlater, hrecord, -, hcompletion⟩ := recorded_after h rest
    obtain ⟨later', record', hlater', -, hrecord', ⟨hreplayed, -⟩ | ⟨-, hcompletes, -⟩⟩ :=
      planLedgerStageCompletion_eq_ok h'
    · exact hreplayed
    · rw [hlater, Except.ok.injEq] at hlater'
      subst hlater'
      rw [hrecord, Option.some.injEq] at hrecord'
      have hpending := hcompletes.pending
      rw [← hrecord', hcompletion] at hpending
      cases hpending
  · intro requestId completionDigest captureIds now activeTask answer h rest now' activeTask'
    obtain ⟨later, record, hlater, hrecord, hdigest, hcompletion⟩ := recorded_after h rest
    exact planLedgerStageCompletion_of_completed hlater hdigest hrecord hcompletion now' activeTask'

end Runs

/-! ## A run -/

def sampleLibrary : Library where
  toPlatform := asciiPlatform [] []
  unquote text := text

def sampleOwner : String := "6f1c2b7e-9a54-4d3e-8f10-2b7c5a9d4e61"

/-- `KNOWLEDGE_DEFAULT` -/
def knowledgeDefault : Ledger := ⟨.int 1, 0, [], []⟩

def sampleRequest : Json := .obj [
  ("schema", .str requestSchema),
  ("request_id", .str "1b9d6bcd-bbfd-4b2d-9b5d-ab8dfbbd4bed"),
  ("binding", .obj [("workspace_uid", .str sampleOwner)]),
  ("purpose", .str "find_context"),
  ("query", .str "release notes"),
  ("corpus_refs", .arr [.str "team-notes"]),
  ("result_limit", .int 3),
  ("requested_at", .str "2026-09-01T08:30:00Z"),
  ("expires_at", .str "2026-09-01T08:35:00Z")]

def sampleCompletionDigest : String :=
  "sha256:9f86d081884c7d659a2feaa0c55ad015a3bf4f1b2b0b822cd15d6c15b0f00a08"

/-- The owner approves a connection, issues a request under it, completes it, and revises the policy. -/
def sampleCalls : List Call := [
  .revise [⟨"team", "9b2fd3a4-6c7e-4a1b-8d5f-0e1a2b3c4d5e", ["team-notes"], connectionScope⟩],
  .issue sampleRequest "team" "2026-09-01T08:31:00Z" none,
  .complete "1b9d6bcd-bbfd-4b2d-9b5d-ab8dfbbd4bed" sampleCompletionDigest ["C-0001"] "2026-09-01T08:32:00Z" none,
  .revise []]

theorem ledger_sound_over_sample_calls :
    ∃ ledger, Sound sampleLibrary sampleOwner (after (serve sampleLibrary sampleOwner) knowledgeDefault.json sampleCalls)
      ledger := by
  apply ledger_sound_over_runs
  have hdefault : (readLedger sampleLibrary.toPlatform sampleOwner knowledgeDefault.json).toOption.isSome = true := by
    decide +kernel
  obtain ⟨ledger, hledger⟩ := Option.isSome_iff_exists.mp hdefault
  exact ⟨ledger, toOption_eq_some.mp hledger⟩

/-- The first call of the run is accepted. -/
example : (serve sampleLibrary sampleOwner knowledgeDefault.json sampleCalls[0]).isSome = true := by decide +kernel

end WorkStack.Knowledge
