import Mathlib
import WorkStack.RemoteUpdate.BackedStart
import WorkStack.RemoteUpdate.Offers

/-!
# The backup behind a restart

A flow offers to restore its backup only once the backup has verified, and a restart reads that off the place its record
implies. Every identity that the flow issues behind the backup implies such a place but one: a restore is recorded under
the stage of the backup itself, so a restart that finds a restore alone forgets the backup that the restore came from.
-/

namespace WorkStack.RemoteUpdate

open WorkStack.Effect

/-- The mutations that are issued only behind a verified backup, in one of the two orders. -/
def Kind.behindBackup (prepareBeforeStop : Bool) : Kind → Bool
  | .ownerStop => false
  | .backupCreate => false
  | .prepareApply => !prepareBeforeStop
  | .backupRestore | .activationIssue | .activationPending | .activationConfirmed | .activationConfirm
  | .activationRollback => true

/-- While no identity is recorded and the update goes on, the backup can be restored. -/
def Flow.KeepsBackup (flow : Flow) : Prop :=
  flow.pending = none → flow.stage ≠ .ready → flow.stage ≠ .cancelled →
    ∀ operationId answer, flow.Accepts operationId answer .restore

/-- A restore is recorded, and nothing else. -/
def LoneRestore (journal : List PendingOperation) : Prop := ∃ entry, journal = [entry] ∧ entry.kind = .backupRestore

/-! ## What leaves the backup alone -/

namespace Flow

variable {flow : Flow}

theorem backup_decideOutcome {classify : Classifier} {answer : Answer} {decided : Flow} {decision : Decision}
    (hclassify : classify ≠ .backupCreate) (h : flow.decideOutcome classify answer = some (decided, decision)) :
    decided.backup = flow.backup := by
  unfold decideOutcome at h
  split at h
  · cases h
    rfl
  · exact absurd rfl hclassify
  · cases h
    rfl
  · cases h
    split <;> rfl
  · cases h
    split <;> rfl
  · cases h
    split <;> rfl
  · cases h
    split <;> rfl
  · cases h

theorem backup_settle (decision : Decision) (operationId : String) :
    (flow.settle decision operationId).backup = flow.backup := by
  unfold settle settleRecord
  dsimp only
  split_ifs <;> split <;> (try split_ifs) <;> rfl

theorem backup_reconciled : flow.reconciled.2.backup = flow.backup := by
  unfold reconciled settleCancelled
  split
  · split <;> rfl
  · rfl

theorem backup_issueAnswered {kind : Kind} (hkind : kind ≠ .backupCreate) (operationId : String) (answer : Answer) :
    (flow.issueAnswered kind operationId answer).2.backup = flow.backup := by
  have hclassify : kind.spec.classify ≠ .backupCreate := by
    cases kind <;> first | decide | contradiction
  have hdecision : (flow.issueDecision kind answer).1.backup = flow.backup := by
    unfold issueDecision
    split
    · rfl
    · rfl
    · cases hdecided : flow.decideOutcome kind.spec.classify answer with
      | none => rfl
      | some decided => exact backup_decideOutcome hclassify hdecided
  unfold issueAnswered
  split
  · rfl
  · exact (backup_settle _ _).trans hdecision

theorem backup_observeAnswered {kind : Kind} (hkind : kind ≠ .backupCreate) (operationId : String) (answer : Answer) :
    (flow.observeAnswered kind operationId answer).2.backup = flow.backup := by
  have hclassify : kind.spec.classify ≠ .backupCreate := by
    cases kind <;> first | decide | contradiction
  unfold observeAnswered
  split
  · rfl
  · rfl
  · rfl
  · cases hdecided : flow.decideOutcome kind.spec.classify answer with
    | none => rfl
    | some decided =>
        refine backup_reconciled.trans ((backup_settle _ _).trans ?_)
        exact backup_decideOutcome hclassify hdecided

/-- Only an answer about a backup changes what is known of the backup. -/
theorem backup_answered {question : Question} (h : ∀ identity ∈ question.identity, identity.1 ≠ .backupCreate)
    (answer : Answer) : (flow.answered question answer).2.backup = flow.backup := by
  cases question with
  | describe => cases answer <;> rfl
  | probe operationId =>
      cases answer with
      | probe outcome =>
          change (flow.probeAnswered (.probe outcome)).2.backup = _
          unfold probeAnswered
          dsimp only
          split <;> rfl
      | _ => rfl
  | verify operationId =>
      cases answer with
      | verify outcome =>
          change (flow.verifyAnswered (.verify outcome)).2.backup = _
          unfold verifyAnswered
          dsimp only
          split <;> rfl
      | _ => rfl
  | issue kind operationId codeOnly => exact backup_issueAnswered (h _ rfl) operationId answer
  | observe kind operationId => exact backup_observeAnswered (h _ rfl) operationId answer

end Flow

/-! ## While the flow runs on -/

/-- The flow keeps its place behind a verified backup. -/
structure Remembering (s : System) : Prop where
  inPlace : InPlace s
  backed : s.flow.slots.backed = true

theorem Asks.backed_eq {slots slots' : Slots} {call : Call} {operationId : String} {question : Question}
    (h : Asks slots call operationId question slots') : slots'.backed = slots.backed := by
  cases h <;> rfl

theorem Remembering.step {s s' : System} {move : Move} (h : Remembering s) (hmove : move ≠ .restart)
    (hstep : s.step move = some s') : Remembering s' := by
  have hsteps := steps_of_step hstep
  have hplace := h.inPlace.step hsteps
  cases hsteps with
  | quiet hphase hslots =>
      refine ⟨hplace, ?_⟩
      rw [hslots]
      exact h.backed
  | asks hphase hnew hasks =>
      refine ⟨hplace, ?_⟩
      rw [hasks.backed_eq]
      exact h.backed
  | port hphase => exact ⟨hplace, h.backed⟩
  | answer hphase =>
      rename_i question answer
      refine ⟨hplace, ?_⟩
      have hkept : (s.flow.answered question answer).2.backup = s.flow.backup := by
        apply Flow.backup_answered
        intro identity hidentity hkind
        have hasked := h.inPlace.asked hphase
        unfold Asked at hasked
        rw [Option.mem_def.mp hidentity] at hasked
        obtain ⟨pending, hpending, rfl⟩ := hasked
        dsimp only at hkind
        -- A backup is created only at its own place, where none has verified yet.
        have hindex := h.inPlace.placed.staged pending hpending (by rw [hkind]; decide)
        have hbackup := h.inPlace.placed.ordered.backup
        have hbehind := h.inPlace.placed.backed h.backed
        rw [hkind] at hindex
        change s.flow.slots.index = s.flow.slots.order.index .backup at hindex
        omega
      change decide ((s.flow.answered question answer).2.backup.status = .verified) = true
      rw [hkept]
      exact h.backed
  | restart => exact absurd rfl hmove

theorem Remembering.keepsBackup {s : System} (h : Remembering s) : s.flow.KeepsBackup := by
  intro hpending _ _ operationId answer
  exact Flow.accepts_restore hpending (of_decide_eq_true h.backed)

/-! ## A restart -/

/-- The system that a restart builds. -/
def System.rebuilt (s : System) : System :=
  { s with
    flow := Flow.build s.flow.order s.flow.journal
    phase := .idle
    history := .rebuilt s.flow.journal :: s.history }

theorem System.step_restart (s : System) : s.step .restart = some s.rebuilt := by
  unfold System.step
  split <;> first | contradiction | rfl

theorem System.after_restart (prepareBeforeStop : Bool) (moves later : List Move) :
    System.after prepareBeforeStop (moves ++ .restart :: later) =
      Requests.after System.step (System.after prepareBeforeStop moves).rebuilt later := by
  unfold System.after
  rw [Requests.after_append, Requests.after, System.step_restart, Option.getD_some]

/-- A restart knows of the backup exactly where its record implies a place behind it. -/
theorem backed_build {flow : Flow} (hrecorded : Recorded flow.slots) :
    (Flow.build flow.order flow.journal).slots.backed = true ↔ flow.order.backup < flow.slots.recordedIndex := by
  have hresumes := resumes hrecorded
  constructor
  · intro hbacked
    rw [← hresumes.index]
    exact hresumes.backed hbacked
  · intro hbehind
    obtain ⟨retention, hslots⟩ := slots_adopted flow.order flow.journal hrecorded.pending hrecorded.activation
    rw [← hrecorded.journal] at hslots
    change (flow.journal.foldl Flow.adoptEntry _).slots = _ at hslots
    unfold Flow.build
    generalize flow.journal.foldl Flow.adoptEntry (Flow.blank flow.order flow.journal) = folded at hslots ⊢
    have horder : folded.order = flow.order := congrArg Slots.order hslots
    have hpending : folded.pending = flow.pending := congrArg Slots.pending hslots
    have hactivation : folded.activation = flow.activation := congrArg Slots.activation hslots
    have hindex : folded.resumedIndex = flow.slots.recordedIndex := by
      rw [resumedIndex_eq, hslots]
      rfl
    have hsome : folded.pending ≠ none ∨ folded.activation ≠ none := by
      rw [hpending, hactivation]
      by_contra hnone
      rw [not_or, not_not, not_not] at hnone
      have hpending : flow.slots.pending = none := hnone.1
      have hactivation : flow.slots.activation = none := hnone.2
      have hzero : flow.slots.recordedIndex = 0 := by simp only [Slots.recordedIndex, hpending, hactivation]
      rw [hzero] at hbehind
      exact absurd hbehind (Nat.not_lt_zero _)
    rw [resume_of_recorded hsome, hindex, horder]
    exact if_pos hbehind

/-- What is recorded behind the backup implies a place behind it, unless it is a restore alone. -/
theorem behind_recordedIndex {slots : Slots} {prepareBeforeStop : Bool} (hplaced : Placed slots)
    (horder : slots.order = runOrder prepareBeforeStop) (hrecorded : Recorded slots) {entry : PendingOperation}
    (hentry : entry ∈ slots.journal) (hkind : entry.kind.behindBackup prepareBeforeStop = true)
    (hlone : ¬LoneRestore slots.journal) : slots.order.backup < slots.recordedIndex := by
  have hbackup := hplaced.ordered.backup_lt
  have hactivate := hplaced.ordered.probe_lt
  have hanchored (anchor : PendingOperation) (h : slots.activation = some anchor) :
      slots.order.backup < slots.recordedIndex := by
    have hle := Placed.anchor_le_recordedIndex h
    omega
  rw [hrecorded.journal, List.mem_append, Option.mem_toList, Option.mem_toList] at hentry
  rcases hentry with hactivation | hpending
  · exact hanchored entry hactivation
  · have hle := Placed.le_recordedIndex hpending
    have hport := hplaced.ordered.activate
    cases hentry : entry.kind with
    | ownerStop =>
        rw [hentry] at hkind
        cases hkind
    | backupCreate =>
        rw [hentry] at hkind
        cases hkind
    | prepareApply =>
        rw [hentry] at hkind hle
        cases prepareBeforeStop with
        | true => cases hkind
        | false =>
            have hprepare : slots.order.backup < slots.order.index .prepare := by
              rw [horder]
              decide
            exact lt_of_lt_of_le hprepare hle
    | backupRestore =>
        cases hactivation : slots.activation with
        | some anchor => exact hanchored anchor hactivation
        | none =>
            apply absurd _ hlone
            refine ⟨entry, ?_, hentry⟩
            rw [hrecorded.journal, hactivation, Option.mem_def.mp hpending]
            rfl
    | _ =>
        rw [hentry] at hle
        change slots.order.index .activate ≤ _ at hle
        omega

/-! ## A restore alone -/

theorem cancelRequested_build (order : RunOrder) (journal : List PendingOperation) :
    (Flow.build order journal).cancelRequested = false := by
  have hfold (flow : Flow) : (journal.foldl Flow.adoptEntry flow).cancelRequested = flow.cancelRequested := by
    induction journal generalizing flow with
    | nil => rfl
    | cons entry rest ih =>
        rw [List.foldl_cons, ih]
        unfold Flow.adoptEntry
        split_ifs <;> rfl
  have hresume (flow : Flow) : flow.resume.cancelRequested = flow.cancelRequested := by
    unfold Flow.resume
    dsimp only
    split_ifs <;> rfl
  unfold Flow.build
  rw [hresume, hfold]
  rfl

/-- A restore that turns out to have failed. -/
def failedRestore : Answer := .restore ⟨.str "failed", .null⟩

theorem observeAnswered_failedRestore {flow : Flow} (operationId : String) (hcancel : flow.cancelRequested = false) :
    flow.observeAnswered .backupRestore operationId failedRestore =
      (.returned, (flow.record none flow.activation).publish .failed .restoreFailed) := by
  have hsettled : flow.observeAnswered .backupRestore operationId failedRestore =
      ((flow.record none flow.activation).publish .failed .restoreFailed).reconciled := rfl
  rw [hsettled]
  unfold Flow.reconciled
  rw [if_neg]
  rintro ⟨h, -⟩
  change flow.cancelRequested = true at h
  rw [hcancel] at h
  cases h

/-- Without its backup a flow refuses to restore. -/
theorem KeepsBackup.backed {flow : Flow} (h : flow.KeepsBackup) (hpending : flow.pending = none)
    (hready : flow.stage ≠ .ready) (hcancelled : flow.stage ≠ .cancelled) : flow.slots.backed = true := by
  by_contra hbacked
  apply h hpending hready hcancelled "" .otherError .restoreRefusedBackupNotVerified
  have hstatus : flow.backup.status ≠ .verified := fun hverified ↦ hbacked (decide_eq_true hverified)
  unfold Call.finish Call.begin Flow.restore
  rw [if_neg (by simp [hpending]), if_pos hstatus]
  rfl

/-- The moves that find a recorded identity settled. -/
def reconcileMoves (operationId : String) (answer : Answer) : List Move :=
  [.call .reconcile operationId, .port, .answer answer]

theorem after_reconcile {s : System} {pending : PendingOperation} {operationId : String} (hphase : s.phase = .idle)
    (hpending : s.flow.pending = some pending) (hfresh : operationId ∉ s.drawn) (answer : Answer) :
    (Requests.after System.step s (reconcileMoves operationId answer)).flow =
      (s.flow.observeAnswered pending.kind pending.operationId answer).2 := by
  have hcall : s.step (.call .reconcile operationId) = some { s with
      phase := .asking (.observe pending.kind pending.operationId), drawn := operationId :: s.drawn } := by
    have hbegin : Call.reconcile.begin operationId s.flow =
        .asks (.observe pending.kind pending.operationId) s.flow := by
      unfold Call.begin Flow.reconcile
      rw [hpending]
      rfl
    unfold System.step
    rw [hphase]
    dsimp only
    rw [if_neg hfresh, hbegin]
    rfl
  unfold reconcileMoves
  rw [Requests.after, hcall, Option.getD_some]
  rfl

theorem pending_of_loneRestore {slots : Slots} (hrecorded : Recorded slots) (h : LoneRestore slots.journal) :
    ∃ pending, slots.pending = some pending ∧ pending.kind = .backupRestore ∧ slots.activation = none := by
  obtain ⟨entry, hjournal, hkind⟩ := h
  rw [hrecorded.journal] at hjournal
  cases hactivation : slots.activation with
  | none =>
      cases hpending : slots.pending with
      | none =>
          rw [hactivation, hpending] at hjournal
          cases hjournal
      | some pending =>
          rw [hactivation, hpending] at hjournal
          cases hjournal
          exact ⟨entry, rfl, hkind, rfl⟩
  | some anchor =>
      have hanchor := (hrecorded.activation anchor hactivation).1
      rw [hactivation] at hjournal
      have hsame : anchor = entry := (List.cons.inj hjournal).1
      rw [hsame, hkind] at hanchor
      cases hanchor

/-- A restart that finds a restore alone forgets the backup: once the restore is known to have failed, it is refused. -/
theorem forgets_backup {s : System} (hplaced : Placed s.flow.slots) (hrecorded : Recorded s.flow.slots)
    (hlone : LoneRestore s.flow.journal) : ∃ later, Move.restart ∉ later ∧
      ¬(Requests.after System.step s.rebuilt later).flow.KeepsBackup := by
  obtain ⟨pending, hpending, hkind, hactivation⟩ := pending_of_loneRestore hrecorded hlone
  have hresumes := resumes hrecorded
  obtain ⟨operationId, hfresh⟩ := Infinite.exists_notMem_finset s.drawn.toFinset
  rw [List.mem_toFinset] at hfresh
  refine ⟨reconcileMoves operationId failedRestore, by simp [reconcileMoves], fun hkeeps ↦ ?_⟩
  have hafter := after_reconcile (s := s.rebuilt) rfl (hresumes.pending.trans hpending) hfresh failedRestore
  have hcancel : s.rebuilt.flow.cancelRequested = false := cancelRequested_build _ _
  rw [hkind, observeAnswered_failedRestore _ hcancel] at hafter
  rw [hafter] at hkeeps
  have hbacked : (Flow.build s.flow.order s.flow.journal).slots.backed = true :=
    @KeepsBackup.backed ((s.rebuilt.flow.record none s.rebuilt.flow.activation).publish .failed .restoreFailed)
      hkeeps rfl (by simp [Flow.publish]) (by simp [Flow.publish])
  rw [backed_build hrecorded] at hbacked
  have hindex : s.flow.slots.recordedIndex = s.flow.slots.order.index .backup := by
    unfold Slots.recordedIndex
    rw [hpending, hactivation]
    dsimp only
    rw [hkind, Nat.zero_max]
    rfl
  rw [hindex, hplaced.ordered.backup] at hbacked
  exact lt_irrefl _ hbacked

/-- In every run and at every restart that finds an identity recorded behind the backup: the backup can be restored in
every later state of the rebuilt flow, exactly when the record is not a restore alone. -/
theorem restart_keeps_backup_iff (prepareBeforeStop : Bool) (moves : List Move)
    (hentry : ∃ entry ∈ (System.after prepareBeforeStop moves).flow.journal,
      entry.kind.behindBackup prepareBeforeStop = true) :
    (∀ later, Move.restart ∉ later →
      (System.after prepareBeforeStop (moves ++ .restart :: later)).flow.KeepsBackup) ↔
        ¬LoneRestore (System.after prepareBeforeStop moves).flow.journal := by
  have hrun : GatedRun prepareBeforeStop (System.after prepareBeforeStop moves) :=
    System.invariant (GatedRun.start prepareBeforeStop) (fun _ _ _ ↦ GatedRun.step) moves
  have hplaced := hrun.inPlace.placed
  have hrecorded := hrun.inPlace.standing.recorded
  have hplace : InPlace (System.after prepareBeforeStop moves).rebuilt :=
    hrun.inPlace.step (steps_of_step (System.step_restart _))
  simp only [System.after_restart]
  constructor
  · intro hkeeps hlone
    obtain ⟨later, hlater, hforgets⟩ := forgets_backup hplaced hrecorded hlone
    exact hforgets (hkeeps later hlater)
  · intro hlone later hlater
    obtain ⟨entry, hmem, hkind⟩ := hentry
    have hbehind := behind_recordedIndex hplaced hrun.order hrecorded hmem hkind hlone
    have hstart : Remembering (System.after prepareBeforeStop moves).rebuilt :=
      ⟨hplace, (backed_build hrecorded).mpr hbehind⟩
    apply Remembering.keepsBackup
    apply Requests.invariant_after_of_mem hstart fun _ _ _ h hmove hstep ↦ h.step hmove hstep
    intro move hmove hrestart
    exact hlater (hrestart ▸ hmove)

/-- An activation whose answer is lost, and then known to have failed: the backup can be restored. -/
theorem restart_keeps_backup_activation :
    (System.after false (verifiedMoves true ++ [.call .advance "activation", .port] ++
      .restart :: reconcileMoves "reconcile"
        (.activation ⟨.str "failed", .null, .null, .null, .null, .null⟩))).flow.KeepsBackup := by
  have hjournal : (System.after false (verifiedMoves true ++ [.call .advance "activation", .port])).flow.journal =
      [⟨.activate, "activation", .activationIssue, .verified⟩] := by decide
  apply (restart_keeps_backup_iff false _ _).mpr
  · rw [hjournal]
    rintro ⟨entry, hsame, hkind⟩
    cases hsame
    cases hkind
  · simp [reconcileMoves]
  · rw [hjournal]
    exact ⟨_, List.mem_singleton_self _, rfl⟩

/-- A restore behind a stopped store and its backup, whose answer is lost. -/
def lostRestoreMoves : List Move :=
  (verifiedMoves true).take 9 ++ [.call .restore "restore", .port, .answer .lostResponse]

/-- A restart over the lost restore, and the restore then known to have failed: it cannot be tried again. -/
theorem restart_forgets_backup :
    ¬∀ (prepareBeforeStop : Bool) (moves later : List Move),
      (∃ entry ∈ (System.after prepareBeforeStop moves).flow.journal,
        entry.kind.behindBackup prepareBeforeStop = true) → Move.restart ∉ later →
      (System.after prepareBeforeStop (moves ++ .restart :: later)).flow.KeepsBackup := by
  intro h
  have hkeeps := h false lostRestoreMoves (reconcileMoves "reconcile" failedRestore) (by decide)
    (by simp [reconcileMoves])
  have hbacked := KeepsBackup.backed hkeeps (by decide) (by decide) (by decide)
  exact absurd hbacked (by decide)

end WorkStack.RemoteUpdate
