import WorkStack.RemoteUpdate.Steps
import WorkStack.Effect.Requests
import WorkStack.Effect.InFlight

/-!
# Runs of a remote update

The flow is driven by calls in any order, its ports answer anything, and the process can end between
any two steps: before a recorded mutation is issued, while its answer is out, or after it has been
settled. A restart builds the flow again from the journal, in the same order. A history tells which
questions went out, which answers came in and what each restart found recorded, the latest first.
-/

namespace WorkStack.RemoteUpdate

open WorkStack.Effect

/-! ## What an answer does -/

/-- All that an answer can do to the slots of the flow that asked. -/
inductive Answers (slots : Slots) (question : Question) (answer : Answer) : Slots → Prop
  | quiet (h : question.settles answer = false) : Answers slots question answer slots
  | previewed (migrationRequired : Option Bool) (h : question = .describe) :
      Answers slots question answer
        { slots with index := slots.order.index .preview + 1, migrationRequired }
  | probed (h : question.reads = some .probe) :
      Answers slots question answer { slots with index := slots.order.index .probe + 1 }
  | finished (h : question.reads = some .verify) :
      Answers slots question answer
        ({ slots with index := slots.order.stages.length }.recorded none none)
  | settled {kind : Kind} {operationId : String} {decision : Decision} {decided : Slots}
      (hidentity : question.identity = some (kind, operationId)) (hdecision : decision ∈ kind.decisions)
      (hcode : question.answerCode answer = some decision.2)
      (hdecided : Decides kind answer decision.2 slots decided) :
      Answers slots question answer (decided.settled kind operationId decision.2)

section Answers

variable {flow : Flow} {kind : Kind} {operationId : String}

theorem openCode_mem (kind : Kind) : (Stage.unknown, kind.spec.openCode) ∈ kind.decisions := List.mem_cons_self ..

theorem refusedCode_mem (kind : Kind) : (Stage.failed, kind.spec.refusedCode) ∈ kind.decisions :=
  List.mem_cons_of_mem _ (List.mem_cons_self ..)

theorem keepsOpen_openCode (kind : Kind) : kind.spec.openCode.keepsOpen := by
  cases kind <;> rfl

theorem decides_openCode (kind : Kind) (answer : Answer) (slots : Slots) :
    Decides kind answer kind.spec.openCode slots slots := by
  apply Decides.same
  · right
    cases kind <;> decide
  · cases kind <;> decide

theorem decides_refusedCode (kind : Kind) (slots : Slots) :
    Decides kind .portRefusal kind.spec.refusedCode slots slots := by
  apply Decides.same
  · exact Or.inl rfl
  · cases kind <;> decide

theorem answers_describe (answer : Answer) :
    Answers flow.slots .describe answer (flow.previewAnswered answer).2.slots := by
  cases answer with
  | previewFacts facts => exact .previewed _ rfl
  | _ => exact .quiet rfl

theorem stage_classifyProbe (outcome : ProbeOutcome) (h : (classifyProbe outcome).2 ∈ progressCodes) :
    (classifyProbe outcome).1 = .probe := by
  unfold classifyProbe at *
  split at h <;> first | rfl | simp [progressCodes] at h

theorem answers_probe (operationId : String) (answer : Answer) :
    Answers flow.slots (.probe operationId) answer (flow.probeAnswered answer).2.slots := by
  cases answer with
  | probe outcome =>
      unfold Flow.probeAnswered
      dsimp only
      split
      · rename_i hprogress
        rw [stage_classifyProbe outcome hprogress]
        exact .probed rfl
      · exact .quiet rfl
  | _ => exact .quiet rfl

theorem answers_verify (operationId : String) (answer : Answer) :
    Answers flow.slots (.verify operationId) answer (flow.verifyAnswered answer).2.slots := by
  cases answer with
  | verify outcome =>
      unfold Flow.verifyAnswered
      dsimp only
      split
      · exact .finished rfl
      · exact .quiet rfl
  | _ => exact .quiet rfl

/-- What is decided about an issued mutation. -/
theorem issueDecision_spec (kind : Kind) (operationId : String) (codeOnly : Bool) {answer : Answer}
    (h : answer ≠ .otherError) :
    (flow.issueDecision kind answer).2 ∈ kind.decisions ∧
      (Question.issue kind operationId codeOnly).answerCode answer = some (flow.issueDecision kind answer).2.2 ∧
      Decides kind answer (flow.issueDecision kind answer).2.2 flow.slots (flow.issueDecision kind answer).1.slots := by
  by_cases hlost : answer = .lostResponse
  · subst hlost
    refine ⟨openCode_mem kind, ?_, decides_openCode kind _ _⟩
    cases kind <;> rfl
  by_cases hrefusal : answer = .portRefusal
  · subst hrefusal
    exact ⟨refusedCode_mem kind, rfl, decides_refusedCode kind _⟩
  have hissue : flow.issueDecision kind answer =
      (flow.decideOutcome kind.spec.classify answer).getD (flow, .unknown, kind.spec.openCode) := by
    unfold Flow.issueDecision
    split <;> first | rfl | contradiction
  have hanswer : (Question.issue kind operationId codeOnly).answerCode answer =
      some ((kind.spec.classify.code answer).getD kind.spec.openCode) := by
    unfold Question.answerCode
    split <;> simp_all
  rw [hissue, hanswer]
  cases hdecided : flow.decideOutcome kind.spec.classify answer with
  | none =>
      rw [code_of_decideOutcome_none hdecided]
      exact ⟨openCode_mem kind, rfl, decides_openCode kind _ _⟩
  | some decided =>
      obtain ⟨hmem, hcode, hdecides⟩ := decideOutcome_spec hdecided
      rw [hcode]
      exact ⟨hmem, rfl, hdecides⟩

theorem answers_issue (hkind : kind.isAnchor = false) (codeOnly : Bool) (answer : Answer) :
    Answers flow.slots (.issue kind operationId codeOnly) answer (flow.issueAnswered kind operationId answer).2.slots := by
  by_cases herror : answer = .otherError
  · subst herror
    exact .quiet rfl
  · obtain ⟨hmem, hcode, hdecides⟩ := @issueDecision_spec flow kind operationId codeOnly answer herror
    have hanswered : (flow.issueAnswered kind operationId answer).2 =
        (flow.issueDecision kind answer).1.settle (flow.issueDecision kind answer).2 operationId := by
      unfold Flow.issueAnswered
      split <;> first | rfl | contradiction
    rw [hanswered, Flow.slots_settle _ _ hkind hmem]
    exact .settled rfl hmem hcode hdecides

theorem observeAnswered_of {answer : Answer} (herror : answer ≠ .otherError) (hlost : answer ≠ .lostResponse)
    (hrefusal : answer ≠ .portRefusal) : flow.observeAnswered kind operationId answer =
      match flow.decideOutcome kind.spec.classify answer with
      | some (decided, decision) => (decided.settle decision operationId).reconciled
      | none => (.returned, flow.publish .unknown kind.spec.openCode) := by
  unfold Flow.observeAnswered
  split <;> first | rfl | contradiction

theorem answers_observe (hkind : kind.isAnchor = false) (answer : Answer) :
    Answers flow.slots (.observe kind operationId) answer (flow.observeAnswered kind operationId answer).2.slots := by
  by_cases herror : answer = .otherError
  · subst herror
    exact .quiet rfl
  have hcode : (Question.observe kind operationId).answerCode answer =
      some ((kind.spec.classify.code answer).getD kind.spec.openCode) := by
    unfold Question.answerCode
    split <;> simp_all
  have hquiet : kind.spec.classify.code answer = none → (Question.observe kind operationId).settles answer = false := by
    intro hnone
    rw [Question.settles, hcode, hnone, Option.getD_none, Option.any_some, keepsOpen_openCode]
    rfl
  by_cases hlost : answer = .lostResponse ∨ answer = .portRefusal
  · have hslots : (flow.observeAnswered kind operationId answer).2.slots = flow.slots := by
      rcases hlost with rfl | rfl <;> rfl
    rw [hslots]
    apply Answers.quiet
    apply hquiet
    rcases hlost with rfl | rfl <;> cases kind <;> rfl
  rw [not_or] at hlost
  rw [observeAnswered_of herror hlost.1 hlost.2]
  cases hdecided : flow.decideOutcome kind.spec.classify answer with
  | none =>
      apply Answers.quiet
      exact hquiet (code_of_decideOutcome_none hdecided)
  | some decided =>
      obtain ⟨hmem, houtcome, hdecides⟩ := decideOutcome_spec hdecided
      dsimp only
      rw [Flow.slots_reconciled, Flow.slots_settle _ _ hkind hmem]
      rw [houtcome, Option.getD_some] at hcode
      exact .settled rfl hmem hcode hdecides

/-- A question never concerns the receipt of an activation itself. -/
def Question.Mutates (question : Question) : Prop := ∀ identity ∈ question.identity, identity.1.isAnchor = false

theorem answers {question : Question} (h : question.Mutates) (answer : Answer) :
    Answers flow.slots question answer (flow.answered question answer).2.slots := by
  cases question with
  | describe => exact answers_describe answer
  | probe operationId => exact answers_probe operationId answer
  | verify operationId => exact answers_verify operationId answer
  | issue kind operationId codeOnly => exact answers_issue (h _ rfl) codeOnly answer
  | observe kind operationId => exact answers_observe (h _ rfl) answer

end Answers

/-- The ways in which an identity of a kind can be settled, or kept. -/
inductive Settles (slots : Slots) (kind : Kind) (operationId : String) (code : Code) : Slots → Prop
  | kept (h : code.keepsOpen) : Settles slots kind operationId code (slots.opened kind operationId)
  | written (hkind : kind = .activationIssue) (hcode : code = .activatePendingRestart) :
      Settles slots kind operationId code
        (slots.recorded none (some (slots.newRecord .activationPending operationId)))
  | committed (hkind : kind = .activationConfirm) (hcode : code = .activateCommitted) :
      Settles slots kind operationId code
        ({ slots with index := slots.order.index .activate + 1 }.recorded none
          (some (slots.newRecord .activationConfirmed operationId)))
  | rolledBack (hkind : kind = .activationRollback) (hcode : code = .rollbackVerified) :
      Settles slots kind operationId code (slots.recorded none none)
  | progressed (hkind : kind ∈ stageKinds) (hcode : code ∈ progressCodes) (hopen : code.keepsOpen = false) :
      Settles slots kind operationId code
        ({ slots with index := slots.order.index kind.spec.stage + 1 }.recorded none slots.activation)
  | closed (hopen : code.keepsOpen = false) (hcode : code ∉ progressCodes) (hrollback : code ≠ .rollbackVerified) :
      Settles slots kind operationId code (slots.recorded none slots.activation)

theorem settles {slots : Slots} {kind : Kind} {decision : Decision} (operationId : String)
    (hkind : kind.isAnchor = false) (h : decision ∈ kind.decisions) :
    Settles slots kind operationId decision.2 (slots.settled kind operationId decision.2) := by
  have hcodes : ∀ kind : Kind, kind.isAnchor = false → ∀ decision ∈ kind.decisions,
      (decision.2 = .activatePendingRestart → kind = .activationIssue) ∧
      (decision.2 = .activateCommitted → kind = .activationConfirm) ∧
      (decision.2 = .rollbackVerified → kind = .activationRollback) ∧
      (decision.2 ∈ progressCodes → decision.2 ≠ .activateCommitted → kind ∈ stageKinds) := by
    intro kind
    cases kind <;> decide
  obtain ⟨hwritten, hcommitted, hrolledBack, hprogress⟩ := hcodes kind hkind decision h
  unfold Slots.settled
  split
  · rename_i hopen
    exact .kept hopen
  rename_i hopen
  have hsettled := Bool.eq_false_iff.mpr hopen
  split
  · rename_i hcode
    exact .written (hwritten hcode) hcode
  split
  · rename_i hcode
    exact .committed (hcommitted hcode) hcode
  rename_i hcommitted'
  split
  · rename_i hcode
    exact .rolledBack (hrolledBack hcode) hcode
  rename_i hrollback
  split
  · rename_i hcode
    exact .progressed (hprogress hcode hcommitted') hcode hsettled
  · rename_i hcode
    exact .closed hsettled hcode hrollback

/-! ## Runs -/

/-- Where a flow stands between two steps. -/
inductive Phase where
  | idle
  /-- Everything is recorded, and the port has not been called. -/
  | asking (question : Question)
  /-- The port has been called, and its answer has not been settled. -/
  | waiting (question : Question)
  deriving DecidableEq, Repr

inductive Event where
  | issued (question : Question)
  | answered (question : Question) (answer : Answer)
  | rebuilt (journal : List PendingOperation)

/-- A flow and its history. -/
structure System where
  flow : Flow
  phase : Phase
  history : List Event
  /-- The operation ids drawn so far. -/
  drawn : List String

/-- What can happen next: a call with the operation id it would draw, the call of the port, its answer,
the end of the process and its next start, or what a call of the skill offer publishes. -/
inductive Move where
  | call (call : Call) (operationId : String)
  | port
  | answer (answer : Answer)
  | restart
  | skill (flowCode : Option String) (offer : SkillOffer)

/-- What a call of the skill offer publishes: the update's own code or one of its own, and only at the
end of an update. -/
def Flow.skillPublished (flowCode : Option String) (offer : SkillOffer) (flow : Flow) : Flow :=
  let offered := { flow with skill := offer }
  if flow.stage = .ready then offered.publish .ready (flowCode.elim .updateReady .skill) else offered

namespace System

/-- A system before its first call. -/
def start (prepareBeforeStop : Bool) : System where
  flow := Flow.build (runOrder prepareBeforeStop) []
  phase := .idle
  history := []
  drawn := []

variable (s : System)

def turned : Turn → System
  | .ends _ flow => { s with flow }
  | .asks question flow => { s with flow, phase := .asking question }

/-- One step; a call draws an operation id that no call has drawn before. -/
def step (s : System) (move : Move) : Option System :=
  match s.phase, move with
  | .idle, .call call operationId =>
      if operationId ∈ s.drawn then none
      else some { s.turned (call.begin operationId s.flow) with drawn := operationId :: s.drawn }
  | .idle, .skill flowCode offer => some { s with flow := s.flow.skillPublished flowCode offer }
  | .asking question, .port =>
      some { s with phase := .waiting question, history := .issued question :: s.history }
  | .waiting question, .answer answer =>
      some { s with
        flow := (s.flow.answered question answer).2
        phase := .idle
        history := .answered question answer :: s.history }
  | _, .restart =>
      some { s with
        flow := Flow.build s.flow.order s.flow.journal
        phase := .idle
        history := .rebuilt s.flow.journal :: s.history }
  | _, _ => none

/-- The system after a run; a move that is impossible changes nothing. -/
def after (prepareBeforeStop : Bool) (moves : List Move) : System :=
  Requests.after step (start prepareBeforeStop) moves

/-- The steps of a run: the systems they started from and the moves. -/
def steps (prepareBeforeStop : Bool) (moves : List Move) : List (System × Move) :=
  Requests.savingSteps step (start prepareBeforeStop) moves

end System

/-! ## What a history tells -/

/-- An answer established one of these codes for a mutation of this kind. -/
def Event.establishes (kind : Kind) (codes : List Code) : Event → Bool
  | .answered question answer =>
      question.identity.any (fun identity ↦ identity.1 = kind) && (question.answerCode answer).any (codes.contains ·)
  | _ => false

/-- A mutation of this kind was issued. -/
def Event.issues (kind : Kind) : Event → Bool
  | .issued (.issue mutation _ _) => mutation = kind
  | _ => false

/-- A restart that found nothing recorded starts a new attempt. -/
def Event.continues : Event → Bool
  | .rebuilt journal => !journal.isEmpty
  | _ => true

/-- The history of the attempt that the flow is in. -/
def attempt (history : List Event) : List Event := history.takeWhile Event.continues

theorem attempt_cons {event : Event} (h : event.continues) (history : List Event) :
    attempt (event :: history) = event :: attempt history := List.takeWhile_cons_of_pos h

/-! ## What a step of a run can be -/

/-- All that a step can be, as far as the slots are concerned. -/
inductive Steps (s : System) : Move → System → Prop
  | quiet {move : Move} {flow : Flow} {drawn : List String} (hphase : s.phase = .idle)
      (hslots : flow.slots = s.flow.slots) (hdrawn : s.drawn ⊆ drawn) : Steps s move { s with flow, drawn }
  | asks {call : Call} {operationId : String} {question : Question} {flow : Flow} (hphase : s.phase = .idle)
      (hnew : operationId ∉ s.drawn) (hasks : Asks s.flow.slots call operationId question flow.slots) :
      Steps s (.call call operationId) { s with flow, phase := .asking question, drawn := operationId :: s.drawn }
  | port {question : Question} (hphase : s.phase = .asking question) :
      Steps s .port { s with phase := .waiting question, history := .issued question :: s.history }
  | answer {question : Question} {answer : Answer} (hphase : s.phase = .waiting question) :
      Steps s (.answer answer) { s with
        flow := (s.flow.answered question answer).2
        phase := .idle
        history := .answered question answer :: s.history }
  | restart : Steps s .restart { s with
      flow := Flow.build s.flow.order s.flow.journal
      phase := .idle
      history := .rebuilt s.flow.journal :: s.history }

theorem Flow.slots_skillPublished (flowCode : Option String) (offer : SkillOffer) (flow : Flow) :
    (flow.skillPublished flowCode offer).slots = flow.slots := by
  unfold skillPublished
  dsimp only
  split <;> rfl

theorem steps_of_step {s s' : System} {move : Move} (h : s.step move = some s') : Steps s move s' := by
  unfold System.step at h
  split at h
  · rename_i call operationId hphase
    split at h
    · cases h
    · rename_i hnew
      rw [Option.some.injEq] at h
      subst h
      have hbegins := begins s.flow call operationId
      cases hturn : call.begin operationId s.flow with
      | ends ending flow =>
          rw [hturn] at hbegins
          cases hbegins with
          | quiet hslots => exact .quiet hphase hslots (List.subset_cons_self ..)
      | asks question flow =>
          rw [hturn] at hbegins
          cases hbegins with
          | asks hasks => exact .asks hphase hnew hasks
  · rename_i flowCode offer hphase
    rw [Option.some.injEq] at h
    subst h
    exact .quiet hphase (Flow.slots_skillPublished ..) (List.Subset.refl _)
  · rename_i question hphase
    rw [Option.some.injEq] at h
    subst h
    exact .port hphase
  · rename_i question answer hphase
    rw [Option.some.injEq] at h
    subst h
    exact .answer hphase
  · rw [Option.some.injEq] at h
    subst h
    exact .restart
  · cases h

/-- What holds at the start and is kept by every step holds after every run. -/
theorem System.invariant {I : System → Prop} {prepareBeforeStop : Bool} (hstart : I (start prepareBeforeStop))
    (hstep : ∀ s move s', I s → Steps s move s' → I s') (moves : List Move) : I (after prepareBeforeStop moves) :=
  Requests.invariant_after hstart fun s move s' hs h ↦ hstep s move s' hs (steps_of_step h)

/-- The same where every step of the run meets a condition. -/
theorem System.invariant_of_steps {I : System → Prop} {Fair : System → Move → Prop} {prepareBeforeStop : Bool}
    {moves : List Move} (hstart : I (start prepareBeforeStop))
    (hstep : ∀ s move s', I s → Fair s move → Steps s move s' → I s')
    (hfair : ∀ step ∈ steps prepareBeforeStop moves, Fair step.1 step.2) : I (after prepareBeforeStop moves) :=
  Requests.invariant_after_of_steps hstart
    (fun s move s' hs hmove h ↦ hstep s move s' hs hmove (steps_of_step h)) hfair

/-! ## A run in which every stage is verified -/

/-- A stage, its question and its answer. -/
def stageMoves (operationId : String) (answer : Answer) : List Move := [.call .advance operationId, .port, .answer answer]

/-- The stages before the activation in the default order, all verified. -/
def verifiedMoves (migrationRequired : Bool) : List Move :=
  stageMoves "preview" (.previewFacts ⟨.str "1", .str "1", .str "1", .str "1", .str "1", .str "2",
    .bool migrationRequired, .str "available", .str "transactional"⟩) ++
  stageMoves "stop" (.ownerStop ⟨.str "dead", .bool true, .bool true, .str "verified", .str "verified",
    .str "verified"⟩) ++
  stageMoves "backup" (.backup ⟨.str "verified", .bool migrationRequired⟩) ++
  stageMoves "prepare" (.prepare ⟨.str "verified", .str "available", .str "transactional", .bool true, .bool true⟩) ++
  stageMoves "probe" (.probe ⟨.str "verified", .str "verified", .str "2", .str "1"⟩)

end WorkStack.RemoteUpdate
