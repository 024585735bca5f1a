import WorkStack.RemoteUpdate.Placed

/-!
# No start of the new server without a backup

Nothing that could start the new server goes out before the owner has verifiably stopped and, after
that, a backup has been verified, both within the same attempt. A flow that comes back from a restart
reads the backup off its place in the order, and its place is never further than it had come.
-/

namespace WorkStack.RemoteUpdate

/-- The owner has verifiably stopped in this attempt. -/
def Stopped (history : List Event) : Prop :=
  ∃ event ∈ attempt history, event.establishes .ownerStop [.stopVerified, .stopVerifiedWithoutPidfd]

/-- In this attempt a backup has been verified after the owner had stopped. -/
def Backed (history : List Event) : Prop :=
  ∃ later event earlier, attempt history = later ++ event :: earlier ∧
    event.establishes .backupCreate [.backupVerified] ∧
    ∃ stop ∈ earlier, stop.establishes .ownerStop [.stopVerified, .stopVerifiedWithoutPidfd]

section Histories

variable {event : Event} {history : List Event}

theorem Stopped.cons (h : Stopped history) (hevent : event.continues) : Stopped (event :: history) := by
  obtain ⟨stop, hstop, hestablishes⟩ := h
  unfold Stopped
  rw [attempt_cons hevent]
  exact ⟨stop, List.mem_cons_of_mem _ hstop, hestablishes⟩

theorem stopped_of_event (hevent : event.continues)
    (h : event.establishes .ownerStop [.stopVerified, .stopVerifiedWithoutPidfd]) : Stopped (event :: history) := by
  unfold Stopped
  rw [attempt_cons hevent]
  exact ⟨event, List.mem_cons_self .., h⟩

theorem Backed.cons (h : Backed history) (hevent : event.continues) : Backed (event :: history) := by
  obtain ⟨later, backup, earlier, hattempt, hbackup, hstop⟩ := h
  refine ⟨event :: later, backup, earlier, ?_, hbackup, hstop⟩
  rw [attempt_cons hevent, hattempt, List.cons_append]

theorem backed_of_event (hstopped : Stopped history) (hevent : event.continues)
    (h : event.establishes .backupCreate [.backupVerified]) : Backed (event :: history) :=
  ⟨[], event, attempt history, attempt_cons hevent history, h, hstopped⟩

end Histories

/-- What lies behind the flow has happened in its attempt. -/
structure Gated (slots : Slots) (history : List Event) : Prop where
  stop : slots.order.index .stop < slots.index → Stopped history
  backup : slots.order.backup < slots.index → Backed history

variable {question : Question}

section Steps

variable {slots slots' : Slots} {history : List Event}

theorem Gated.cons (h : Gated slots history) {event : Event} (hevent : event.continues) :
    Gated slots (event :: history) where
  stop := fun hlt ↦ (h.stop hlt).cons hevent
  backup := fun hlt ↦ (h.backup hlt).cons hevent

/-- The gates depend on the place alone. -/
theorem Gated.congr (h : Gated slots history) (horder : slots'.order = slots.order)
    (hindex : slots'.index = slots.index) : Gated slots' history where
  stop := by rw [horder, hindex]; exact h.stop
  backup := by rw [horder, hindex]; exact h.backup

theorem Gated.asks (h : Gated slots history) {call : Call} {operationId : String}
    (hasks : Asks slots call operationId question slots') : Gated slots' history := by
  cases hasks with
  | observe => exact h
  | read => exact h
  | _ => exact h.congr rfl rfl

/-- A stage that is done leaves its gate behind. -/
theorem Gated.progressed (h : Gated slots history) (hplaced : Placed slots) {pending : PendingOperation}
    {answer : Answer} {decision : Decision} (hpending : slots.pending = some pending)
    (hkind : pending.kind ∈ stageKinds) (hidentity : question.identity = some (pending.kind, pending.operationId))
    (hcode : question.answerCode answer = some decision.2) (hdecision : decision ∈ pending.kind.decisions)
    (hprogress : decision.2 ∈ progressCodes) (hslots : slots'.order = slots.order)
    (hindex : slots'.index = slots.order.index pending.kind.spec.stage + 1) :
    Gated slots' (.answered question answer :: history) := by
  have hplace := hplaced.staged pending hpending hkind
  have hordered := hplaced.ordered
  have hstop := hordered.stop
  have hbackup := hordered.backup
  simp only [stageKinds, List.mem_cons, List.not_mem_nil, or_false] at hkind
  rcases hkind with hkind | hkind | hkind
  · have hcodes : ∀ decision ∈ Kind.ownerStop.decisions, decision.2 ∈ progressCodes →
        [Code.stopVerified, .stopVerifiedWithoutPidfd].contains decision.2 := by decide
    have hestablishes : (Event.answered question answer).establishes .ownerStop
        [.stopVerified, .stopVerifiedWithoutPidfd] := by
      have hcontains := hcodes decision (hkind ▸ hdecision) hprogress
      simp only [Event.establishes, hidentity, hcode, hkind, Option.any_some, decide_true, Bool.true_and]
      exact hcontains
    rw [hkind] at hindex
    change slots'.index = slots.order.index .stop + 1 at hindex
    constructor
    · exact fun _ ↦ stopped_of_event rfl hestablishes
    · intro hlt
      rw [hslots] at hlt
      omega
  · have hcodes : ∀ decision ∈ Kind.backupCreate.decisions, decision.2 ∈ progressCodes →
        [Code.backupVerified].contains decision.2 := by decide
    have hestablishes : (Event.answered question answer).establishes .backupCreate [.backupVerified] := by
      have hcontains := hcodes decision (hkind ▸ hdecision) hprogress
      simp only [Event.establishes, hidentity, hcode, hkind, Option.any_some, decide_true, Bool.true_and]
      exact hcontains
    rw [hkind] at hplace
    change slots.index = slots.order.index .backup at hplace
    have hstopped := h.stop (by omega)
    constructor
    · exact fun _ ↦ hstopped.cons rfl
    · exact fun _ ↦ backed_of_event hstopped rfl hestablishes
  · have hprepareStop := hordered.prepare_ne_stop
    have hprepareBackup := hordered.prepare_ne_backup
    rw [hkind] at hplace hindex
    change slots.index = slots.order.index .prepare at hplace
    change slots'.index = slots.order.index .prepare + 1 at hindex
    constructor
    · intro hlt
      rw [hslots] at hlt
      exact (h.stop (by omega)).cons rfl
    · intro hlt
      rw [hslots] at hlt
      exact (h.backup (by omega)).cons rfl

theorem Gated.settled (h : Gated slots history) (hplaced : Placed slots) {pending : PendingOperation} {answer : Answer}
    {decision : Decision} {decided : Slots} (hpending : slots.pending = some pending)
    (hanchor : pending.kind.isAnchor = false)
    (hidentity : question.identity = some (pending.kind, pending.operationId))
    (hcode : question.answerCode answer = some decision.2) (hdecision : decision ∈ pending.kind.decisions)
    (hdecided : Decides pending.kind answer decision.2 slots decided) :
    Gated (decided.settled pending.kind pending.operationId decision.2) (.answered question answer :: history) := by
  have hsettles := @settles decided _ _ pending.operationId hanchor hdecision
  have hcons : Gated slots (.answered question answer :: history) := h.cons rfl
  generalize decided.settled pending.kind pending.operationId decision.2 = after at hsettles
  cases hsettles with
  | kept => exact hcons.congr hdecided.order hdecided.index
  | written => exact hcons.congr hdecided.order hdecided.index
  | rolledBack => exact hcons.congr hdecided.order hdecided.index
  | closed => exact hcons.congr hdecided.order hdecided.index
  | progressed hkind hprogress =>
      apply h.progressed hplaced hpending hkind hidentity hcode hdecision hprogress
      · exact hdecided.order
      · change decided.order.index pending.kind.spec.stage + 1 = _
        rw [hdecided.order]
  | committed hkind =>
      obtain ⟨anchor, hactivation, hpendingAnchor⟩ := hplaced.confirming pending hpending hkind
      have hindex := hplaced.pendingAnchor anchor hactivation hpendingAnchor
      have hstop := hplaced.ordered.stop
      have hbackup := hplaced.ordered.backup_lt
      have hprobe := hplaced.ordered.probe_lt
      exact ⟨fun _ ↦ hcons.stop (by omega), fun _ ↦ hcons.backup (by omega)⟩

theorem Gated.answers (h : Gated slots history) (hplaced : Placed slots) (hrecorded : Recorded slots) {answer : Answer}
    (hasked : Asked slots question) (hanswers : Answers slots question answer slots') :
    Gated slots' (.answered question answer :: history) := by
  have hcons : Gated slots (.answered question answer :: history) := h.cons rfl
  have hordered := hplaced.ordered
  have hpreview := hordered.preview
  have hpos := hordered.stop_pos
  have hstop := hordered.stop
  have hbackup := hordered.backup_lt
  have hprobe := hordered.probe
  have hactivate := hordered.probe_lt
  have hverify := hordered.verify
  cases hanswers with
  | quiet => exact hcons
  | previewed =>
      constructor
      · intro hlt
        change slots.order.index .stop < slots.order.index .preview + 1 at hlt
        omega
      · intro hlt
        change slots.order.backup < slots.order.index .preview + 1 at hlt
        omega
  | probed hreads =>
      cases question with
      | issue => cases hreads
      | observe => cases hreads
      | _ =>
          obtain ⟨_, stage, hstage, hat⟩ := hasked
          rw [hreads, Option.some.injEq] at hstage
          subst hstage
          have hindex := hordered.index_eq hat
          exact ⟨fun _ ↦ hcons.stop (by omega), fun _ ↦ hcons.backup (by omega)⟩
  | finished hreads =>
      cases question with
      | issue => cases hreads
      | observe => cases hreads
      | _ =>
          obtain ⟨_, stage, hstage, hat⟩ := hasked
          rw [hreads, Option.some.injEq] at hstage
          subst hstage
          have hindex := hordered.index_eq hat
          exact ⟨fun _ ↦ hcons.stop (by omega), fun _ ↦ hcons.backup (by omega)⟩
  | settled hidentity hdecision hcode hdecided =>
      unfold Asked at hasked
      rw [hidentity] at hasked
      obtain ⟨pending, hpending, hsame⟩ := hasked
      cases hsame
      exact h.settled hplaced hpending (hrecorded.pending pending hpending).1 hidentity hcode hdecision hdecided

theorem recordedIndex_of_empty (hrecorded : Recorded slots) (h : slots.journal = []) : slots.recordedIndex = 0 := by
  rw [hrecorded.journal, List.append_eq_nil_iff, Option.toList_eq_nil_iff, Option.toList_eq_nil_iff] at h
  unfold Slots.recordedIndex
  rw [h.1, h.2]

theorem Gated.resumes (h : Gated slots history) (hplaced : Placed slots) (hrecorded : Recorded slots)
    (hresumes : Resumes slots slots') : Gated slots' (.rebuilt slots.journal :: history) := by
  have hle := hplaced.recordedIndex_le hrecorded
  have horder := hresumes.order
  have hindex := hresumes.index
  cases hjournal : slots.journal with
  | nil =>
      have hzero := recordedIndex_of_empty hrecorded hjournal
      constructor
      · intro hlt
        omega
      · intro hlt
        omega
  | cons entry rest =>
      constructor
      · intro hlt
        rw [horder] at hlt
        exact (h.stop (by omega)).cons rfl
      · intro hlt
        rw [horder] at hlt
        exact (h.backup (by omega)).cons rfl

end Steps

/-! ## Runs -/

/-- The questions that can start the new server. -/
def Question.starts : Question → Bool
  | .probe _ => true
  | .issue kind _ _ => kind = .activationIssue || kind = .activationConfirm
  | _ => false

/-- What may go out where, in one of the two orders. -/
structure MayAsk (prepareBeforeStop : Bool) (history : List Event) (question : Question) : Prop where
  starts : question.starts → Backed history
  prepares : ∀ operationId codeOnly, question = .issue .prepareApply operationId codeOnly →
    codeOnly = prepareBeforeStop ∧ (codeOnly = false → Backed history)

/-- A question that neither starts nor prepares anything may always go out. -/
theorem MayAsk.of_not_starts {prepareBeforeStop : Bool} {history : List Event} (hstarts : question.starts = false)
    (hprepares : ∀ operationId codeOnly, question ≠ .issue .prepareApply operationId codeOnly) :
    MayAsk prepareBeforeStop history question where
  starts := by
    intro h
    rw [hstarts] at h
    cases h
  prepares := by
    intro operationId codeOnly hquestion
    exact absurd hquestion (hprepares operationId codeOnly)

/-- Behind the backup only a preparation is bound to its order. -/
theorem MayAsk.of_backed {prepareBeforeStop : Bool} {history : List Event} (h : Backed history)
    (hprepares : ∀ operationId codeOnly, question ≠ .issue .prepareApply operationId codeOnly) :
    MayAsk prepareBeforeStop history question where
  starts := fun _ ↦ h
  prepares := by
    intro operationId codeOnly hquestion
    exact absurd hquestion (hprepares operationId codeOnly)

theorem MayAsk.of_asks {prepareBeforeStop : Bool} {slots slots' : Slots} {history : List Event}
    (hplaced : Placed slots) (horder : slots.order = runOrder prepareBeforeStop) (h : Gated slots history)
    {call : Call} {operationId : String} (hasks : Asks slots call operationId question slots') :
    MayAsk prepareBeforeStop history question := by
  have hbackup := hplaced.ordered.backup_lt
  have hprobe := hplaced.ordered.probe_lt
  cases hasks with
  | observe => exact of_not_starts rfl fun _ _ ↦ by simp
  | read hreads hpending hstage hbacked =>
      constructor
      · intro hstarts
        cases question with
        | probe =>
            cases hreads
            exact h.backup (hplaced.backed (hbacked rfl))
        | issue => cases hreads
        | _ => cases hstarts
      · intro operationId codeOnly hquestion
        subst hquestion
        cases hreads
  | mutate kind codeOnly hkind hpending hstage hcodeOnly hbacked =>
      obtain ⟨hissue, hconfirm, _⟩ := ne_of_stageKind hkind
      constructor
      · intro hstarts
        simp [Question.starts, hissue, hconfirm] at hstarts
      · intro operationId' codeOnly' hquestion
        cases hquestion
        constructor
        · rw [hcodeOnly, horder]
          rfl
        · intro hfull
          exact h.backup (hplaced.backed (hbacked rfl hfull))
  | activate hpending hrestart hstage =>
      have hindex := (hplaced.ordered.index_eq hstage).trans hplaced.ordered.activate
      exact of_backed (h.backup (by omega)) fun _ _ ↦ by simp
  | confirm hpending hactivation hanchor =>
      have hindex := hplaced.pendingAnchor _ hactivation hanchor
      exact of_backed (h.backup (by omega)) fun _ _ ↦ by simp
  | restore => exact of_not_starts rfl fun _ _ ↦ by simp
  | rollback => exact of_not_starts rfl fun _ _ ↦ by simp

/-- The flow keeps its order and its place, has done what lies behind it, and asks only what it may. -/
structure GatedRun (prepareBeforeStop : Bool) (s : System) : Prop where
  inPlace : InPlace s
  order : s.flow.slots.order = runOrder prepareBeforeStop
  gated : Gated s.flow.slots s.history
  asking : ∀ question, s.phase = .asking question → MayAsk prepareBeforeStop s.history question

namespace GatedRun

variable {prepareBeforeStop : Bool} {s s' : System}

theorem start (prepareBeforeStop : Bool) : GatedRun prepareBeforeStop (System.start prepareBeforeStop) where
  inPlace := InPlace.start prepareBeforeStop
  order := rfl
  gated := by
    constructor
    · intro hlt
      cases hlt
    · intro hlt
      cases hlt
  asking := fun question h ↦ by cases h

theorem step {move : Move} (h : GatedRun prepareBeforeStop s) (hstep : Steps s move s') :
    GatedRun prepareBeforeStop s' := by
  have hinPlace := h.inPlace.step hstep
  have hplaced := h.inPlace.placed
  have hrecorded := h.inPlace.standing.recorded
  cases hstep with
  | quiet hphase hslots =>
      constructor
      · exact hinPlace
      · rw [hslots]
        exact h.order
      · exact h.gated.congr (congrArg Slots.order hslots) (congrArg Slots.index hslots)
      · intro question hasking
        change s.phase = _ at hasking
        rw [hphase] at hasking
        cases hasking
  | asks hphase hnew hasks =>
      constructor
      · exact hinPlace
      · rw [hasks.order_eq]
        exact h.order
      · exact h.gated.asks hasks
      · intro question hasking
        cases hasking
        exact MayAsk.of_asks hplaced h.order h.gated hasks
  | port hphase =>
      constructor
      · exact hinPlace
      · exact h.order
      · exact h.gated.cons rfl
      · intro question hasking
        cases hasking
  | answer hphase =>
      rename_i question answer
      have hanswers := h.inPlace.standing.answers hphase answer
      constructor
      · exact hinPlace
      · rw [hanswers.order_eq]
        exact h.order
      · exact h.gated.answers hplaced hrecorded (h.inPlace.asked hphase) hanswers
      · intro question hasking
        cases hasking
  | restart =>
      have hresumes := resumes hrecorded
      constructor
      · exact hinPlace
      · rw [hresumes.order]
        exact h.order
      · exact h.gated.resumes hplaced hrecorded hresumes
      · intro question hasking
        cases hasking

end GatedRun

/-- In both orders and every run: the probe, the activation and its confirmation go out only behind a
verified backup of a stopped store, in the same attempt; a flow that prepares first never prepares in
full, and one that prepares later does so only behind that backup. -/
theorem starts_behind_backup (prepareBeforeStop : Bool) (moves : List Move) (question : Question)
    (h : (System.after prepareBeforeStop moves).phase = .asking question) :
    (question.starts → Backed (System.after prepareBeforeStop moves).history) ∧
      ∀ operationId codeOnly, question = .issue .prepareApply operationId codeOnly →
        codeOnly = prepareBeforeStop ∧
          (prepareBeforeStop = false → Backed (System.after prepareBeforeStop moves).history) := by
  have hrun : GatedRun prepareBeforeStop (System.after prepareBeforeStop moves) :=
    System.invariant (GatedRun.start prepareBeforeStop) (fun _ _ _ ↦ GatedRun.step) moves
  have hask := hrun.asking question h
  constructor
  · exact hask.starts
  · intro operationId codeOnly hquestion
    obtain ⟨hcodeOnly, hbacked⟩ := hask.prepares operationId codeOnly hquestion
    exact ⟨hcodeOnly, fun hdefault ↦ hbacked (hcodeOnly.trans hdefault)⟩

/-- An activation that is about to be issued, in a run that has come so far. -/
theorem starts_behind_backup_activation :
    Backed (System.after false (verifiedMoves true ++ [.call .advance "activation"])).history := by
  have hphase : (System.after false (verifiedMoves true ++ [.call .advance "activation"])).phase =
      .asking (.issue .activationIssue "activation" false) := by decide
  have hstarts : (Question.issue .activationIssue "activation" false).starts := by decide
  exact (starts_behind_backup _ _ _ hphase).1 hstarts

end WorkStack.RemoteUpdate
