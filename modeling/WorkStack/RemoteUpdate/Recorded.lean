import WorkStack.RemoteUpdate.Runs

/-!
# What is recorded

In every state of a run the journal holds what the flow holds: the receipt of an activation and the
identity of a mutation that may be out. So a restart finds both again, and nothing else.
-/

namespace WorkStack.RemoteUpdate

/-- The journal holds the receipt and the open identity, and each slot holds what it is for. -/
structure Recorded (slots : Slots) : Prop where
  journal : slots.journal = slots.activation.toList ++ slots.pending.toList
  pending : ∀ pending ∈ slots.pending, pending.kind.isAnchor = false ∧ pending.stage = pending.kind.spec.stage
  activation : ∀ anchor ∈ slots.activation, anchor.kind.isAnchor = true ∧ anchor.stage = anchor.kind.spec.stage

/-- What the flow has asked: about the recorded identity, or for the stage that it has reached. -/
def Asked (slots : Slots) (question : Question) : Prop :=
  match question.identity with
  | some identity => ∃ pending, slots.pending = some pending ∧ (pending.kind, pending.operationId) = identity
  | none => slots.pending = none ∧ ∃ stage, question.reads = some stage ∧
      slots.order.stages[slots.index]? = some stage

/-- The invariant between the slots and the phase. -/
def AskedIn (slots : Slots) : Phase → Prop
  | .idle => True
  | .asking question => Asked slots question
  | .waiting question => Asked slots question

/-! ## Slots that are recorded -/

section Slots

variable {slots : Slots}

theorem Recorded.opened (h : Recorded slots) {kind : Kind} (hkind : kind.isAnchor = false) (operationId : String) :
    Recorded (slots.opened kind operationId) where
  journal := rfl
  pending := by
    intro pending hpending
    cases hpending
    exact ⟨hkind, rfl⟩
  activation := h.activation

theorem Recorded.released (h : Recorded slots) (index : ℕ) :
    Recorded ({ slots with index }.recorded none slots.activation) where
  journal := rfl
  pending := fun pending hpending ↦ by cases hpending
  activation := h.activation

theorem Recorded.anchored (slots : Slots) {kind : Kind} (hkind : kind.isAnchor = true) (operationId : String)
    (index : ℕ) : Recorded ({ slots with index }.recorded none (some (slots.newRecord kind operationId))) where
  journal := rfl
  pending := fun pending hpending ↦ by cases hpending
  activation := by
    intro anchor hanchor
    cases hanchor
    exact ⟨hkind, rfl⟩

theorem Recorded.emptied (slots : Slots) (index : ℕ) : Recorded ({ slots with index }.recorded none none) where
  journal := rfl
  pending := fun pending hpending ↦ by cases hpending
  activation := fun anchor hanchor ↦ by cases hanchor

variable {slots' : Slots}

/-- The record of the slots depends on what is recorded alone. -/
theorem Recorded.congr (h : Recorded slots) (hjournal : slots'.journal = slots.journal)
    (hpending : slots'.pending = slots.pending) (hactivation : slots'.activation = slots.activation) :
    Recorded slots' where
  journal := by rw [hjournal, hpending, hactivation, h.journal]
  pending := by
    rw [hpending]
    exact h.pending
  activation := by
    rw [hactivation]
    exact h.activation

theorem isAnchor_of_stageKind {kind : Kind} (h : kind ∈ stageKinds) : kind.isAnchor = false := by
  revert kind
  decide

variable {question : Question} {operationId : String}

theorem Recorded.asks (h : Recorded slots) {call : Call} (hasks : Asks slots call operationId question slots') :
    Recorded slots' := by
  cases hasks with
  | observe => exact h
  | read => exact h
  | mutate kind codeOnly hkind => exact h.opened (isAnchor_of_stageKind hkind) operationId
  | activate =>
      have hsame : Recorded { slots with activationId := some operationId } := h.congr rfl rfl rfl
      exact hsame.opened rfl operationId
  | confirm => exact h.opened rfl _
  | restore => exact h.opened rfl operationId
  | rollback => exact h.opened rfl _

theorem Asks.order_eq {call : Call} (h : Asks slots call operationId question slots') : slots'.order = slots.order := by
  cases h <;> rfl

theorem settled_order {kind : Kind} {code : Code} :
    (slots.settled kind operationId code).order = slots.order := by
  unfold Slots.settled
  split_ifs <;> rfl

theorem Answers.order_eq {answer : Answer} (h : Answers slots question answer slots') : slots'.order = slots.order := by
  cases h with
  | settled hidentity hdecision hcode hdecided => exact settled_order.trans hdecided.order
  | _ => rfl

theorem asked_of_asks {call : Call} (hasks : Asks slots call operationId question slots') : Asked slots' question := by
  cases hasks with
  | observe hpending => exact ⟨_, hpending, rfl⟩
  | read hreads hpending hstage =>
      cases question with
      | issue => cases hreads
      | observe => cases hreads
      | _ => exact ⟨hpending, _, hreads, hstage⟩
  | _ => exact ⟨_, rfl, rfl⟩

theorem Recorded.mutates (h : Recorded slots) (hasked : Asked slots question) :
    question.Mutates := by
  intro identity hidentity
  rw [Option.mem_def] at hidentity
  unfold Asked at hasked
  rw [hidentity] at hasked
  obtain ⟨pending, hpending, rfl⟩ := hasked
  exact (h.pending pending hpending).1

theorem Recorded.settled (h : Recorded slots) {kind : Kind} {code : Code} (hkind : kind.isAnchor = false)
    (hsettles : Settles slots kind operationId code slots') : Recorded slots' := by
  cases hsettles with
  | kept => exact h.opened hkind operationId
  | written => exact Recorded.anchored slots rfl operationId slots.index
  | committed => exact Recorded.anchored slots rfl operationId _
  | rolledBack => exact Recorded.emptied slots slots.index
  | progressed => exact h.released _
  | closed => exact h.released slots.index

theorem Recorded.answers (h : Recorded slots) {answer : Answer} (hmutates : question.Mutates)
    (hanswers : Answers slots question answer slots') : Recorded slots' := by
  cases hanswers with
  | quiet => exact h
  | previewed => exact h.congr rfl rfl rfl
  | probed => exact h.congr rfl rfl rfl
  | finished => exact Recorded.emptied slots _
  | settled hidentity hdecision hcode hdecided =>
      have hkind := hmutates _ hidentity
      have hsame := h.congr hdecided.journal hdecided.pending hdecided.activation
      exact hsame.settled hkind (settles _ hkind hdecision)

end Slots

/-! ## A restart -/

/-- The id of the activation that is recorded. -/
def Slots.recordedId (slots : Slots) : Option String :=
  ((slots.pending.filter fun pending ↦ pending.kind.spec.port = .activation).or slots.activation).map
    PendingOperation.operationId

/-- The place in the order that the record itself establishes. -/
def Slots.recordedIndex (slots : Slots) : ℕ :=
  let reached := match slots.activation with
    | some anchor => slots.order.activate + if anchor.kind = .activationPending then 0 else 1
    | none => 0
  match slots.pending with
  | some pending => max reached (slots.order.index pending.kind.spec.stage)
  | none => reached

/-- What a restart makes of the slots. -/
structure Resumes (slots resumed : Slots) : Prop where
  order : resumed.order = slots.order
  journal : resumed.journal = slots.journal
  pending : resumed.pending = slots.pending
  activation : resumed.activation = slots.activation
  index : resumed.index = slots.recordedIndex
  activationId : resumed.activationId = slots.recordedId
  restored : resumed.restored = false
  backed : resumed.backed → slots.order.backup < resumed.index

theorem adoptEntry_anchor (flow : Flow) {entry : PendingOperation} (hkind : entry.kind.isAnchor = true)
    (hstage : entry.stage = entry.kind.spec.stage) : flow.adoptEntry entry =
      { flow with
        activation := some entry
        activationId := some entry.operationId
        retention := if entry.previousAppRetained ≠ .unknown then entry.previousAppRetained else flow.retention } := by
  have hport : entry.kind.spec.port = .activation := by
    cases hentry : entry.kind <;> first | rfl | (rw [hentry] at hkind; cases hkind)
  unfold Flow.adoptEntry
  rw [if_neg (not_not.mpr hstage.symm), if_pos hkind]
  dsimp only
  rw [if_pos hport]
  split <;> rfl

theorem adoptEntry_request (flow : Flow) {entry : PendingOperation} (hkind : entry.kind.isAnchor = false)
    (hstage : entry.stage = entry.kind.spec.stage) : flow.adoptEntry entry =
      { flow with
        pending := some entry
        activationId := if entry.kind.spec.port = .activation then some entry.operationId else flow.activationId
        retention := if entry.previousAppRetained ≠ .unknown then entry.previousAppRetained else flow.retention } := by
  unfold Flow.adoptEntry
  rw [if_neg (not_not.mpr hstage.symm), if_neg (Bool.eq_false_iff.mp hkind)]
  dsimp only
  by_cases hport : entry.kind.spec.port = .activation
  · rw [if_pos hport, if_pos hport]
    split <;> rfl
  · rw [if_neg hport, if_neg hport]
    split <;> rfl

theorem resume_of_recorded {flow : Flow} (h : flow.pending ≠ none ∨ flow.activation ≠ none) :
    flow.resume.slots =
      { flow.slots with
        index := flow.resumedIndex
        backed := if flow.order.backup < flow.resumedIndex then true else flow.slots.backed
        migrationRequired := if flow.order.backup < flow.resumedIndex then flow.preview.migrationRequired
          else flow.migrationRequired } := by
  unfold Flow.resume
  rw [if_neg (by simpa [imp_iff_not_or] using h)]
  dsimp only
  split
  · rename_i hbackup
    change flow.order.backup < flow.resumedIndex at hbackup
    rw [if_pos hbackup, if_pos hbackup]
    rfl
  · rename_i hbackup
    change ¬flow.order.backup < flow.resumedIndex at hbackup
    rw [if_neg hbackup, if_neg hbackup]
    rfl

theorem resumedIndex_eq (flow : Flow) : flow.resumedIndex = flow.slots.recordedIndex := by
  unfold Flow.resumedIndex Slots.recordedIndex Flow.restartPending Flow.slots
  dsimp only
  cases flow.activation with
  | none => rfl
  | some anchor =>
      by_cases hanchor : anchor.kind = .activationPending
      · cases flow.pending <;> simp [hanchor]
      · cases flow.pending <;> simp [hanchor]

/-- What the adoption of a record makes of a new flow. -/
theorem slots_adopted (order : RunOrder) (journal : List PendingOperation) {pending activation : Option PendingOperation}
    (hpending : ∀ entry ∈ pending, entry.kind.isAnchor = false ∧ entry.stage = entry.kind.spec.stage)
    (hactivation : ∀ entry ∈ activation, entry.kind.isAnchor = true ∧ entry.stage = entry.kind.spec.stage) :
    ∃ retention, ((activation.toList ++ pending.toList).foldl Flow.adoptEntry (Flow.blank order journal)).slots =
      { (Flow.blank order journal).slots with
        pending
        activation
        activationId := ((pending.filter fun entry ↦ entry.kind.spec.port = .activation).or activation).map
          PendingOperation.operationId
        retention } := by
  cases activation with
  | none =>
      cases pending with
      | none => exact ⟨_, rfl⟩
      | some entry =>
          obtain ⟨hkind, hstage⟩ := hpending entry rfl
          rw [Option.toList_none, Option.toList_some, List.nil_append, List.foldl_cons, List.foldl_nil,
            adoptEntry_request _ hkind hstage, Option.filter_some, Option.or_none]
          by_cases hport : entry.kind.spec.port = .activation
          · rw [if_pos hport, if_pos (decide_eq_true hport)]
            exact ⟨_, rfl⟩
          · rw [if_neg hport, if_neg (show ¬decide (entry.kind.spec.port = .activation) = true by simpa using hport)]
            exact ⟨_, rfl⟩
  | some anchor =>
      obtain ⟨hanchorKind, hanchorStage⟩ := hactivation anchor rfl
      rw [Option.toList_some, List.singleton_append, List.foldl_cons, adoptEntry_anchor _ hanchorKind hanchorStage]
      cases pending with
      | none => exact ⟨_, rfl⟩
      | some entry =>
          obtain ⟨hkind, hstage⟩ := hpending entry rfl
          rw [Option.toList_some, List.foldl_cons, List.foldl_nil, adoptEntry_request _ hkind hstage,
            Option.filter_some]
          by_cases hport : entry.kind.spec.port = .activation
          · rw [if_pos hport, if_pos (decide_eq_true hport)]
            exact ⟨_, rfl⟩
          · rw [if_neg hport, if_neg (show ¬decide (entry.kind.spec.port = .activation) = true by simpa using hport)]
            exact ⟨_, rfl⟩

theorem resumes {flow : Flow} (h : Recorded flow.slots) :
    Resumes flow.slots (Flow.build flow.order flow.journal).slots := by
  obtain ⟨retention, hslots⟩ := slots_adopted flow.order flow.journal h.pending h.activation
  rw [← h.journal] at hslots
  change (flow.journal.foldl Flow.adoptEntry _).slots = _ at hslots
  unfold Flow.build
  generalize flow.journal.foldl Flow.adoptEntry (Flow.blank flow.order flow.journal) = folded at hslots ⊢
  have horder : folded.order = flow.order := congrArg Slots.order hslots
  have hpending : folded.pending = flow.pending := congrArg Slots.pending hslots
  have hactivation : folded.activation = flow.activation := congrArg Slots.activation hslots
  have hindex : folded.resumedIndex = flow.slots.recordedIndex := by
    rw [resumedIndex_eq, hslots]
    rfl
  by_cases hrecorded : flow.pending ≠ none ∨ flow.activation ≠ none
  · rw [resume_of_recorded (by rwa [hpending, hactivation]), hslots, hindex, horder]
    constructor
    · rfl
    · rfl
    · rfl
    · rfl
    · rfl
    · rfl
    · rfl
    · intro hbacked
      change (if flow.order.backup < flow.slots.recordedIndex then true else false) = true at hbacked
      have hindex : flow.order.backup < flow.slots.recordedIndex := by simpa using hbacked
      exact hindex
  · rw [not_or, not_not, not_not] at hrecorded
    have hresume : folded.resume = folded := by
      unfold Flow.resume
      rw [hpending, hactivation, hrecorded.1, hrecorded.2]
      rfl
    rw [hresume, hslots]
    constructor
    · rfl
    · rfl
    · rfl
    · rfl
    · change 0 = flow.slots.recordedIndex
      unfold Slots.recordedIndex Flow.slots
      dsimp only
      rw [hrecorded.1, hrecorded.2]
    · rfl
    · rfl
    · intro hbacked
      cases hbacked

/-! ## Runs -/

/-- The invariant that every other one of the flow rests on. -/
structure Standing (s : System) : Prop where
  recorded : Recorded s.flow.slots
  asked : AskedIn s.flow.slots s.phase

theorem Standing.start (prepareBeforeStop : Bool) : Standing (System.start prepareBeforeStop) where
  recorded := by
    constructor
    · rfl
    · intro pending hpending
      cases hpending
    · intro anchor hanchor
      cases hanchor
  asked := trivial

theorem Resumes.recorded {slots resumed : Slots} (h : Resumes slots resumed) (hrecorded : Recorded slots) :
    Recorded resumed := hrecorded.congr h.journal h.pending h.activation

theorem Standing.answers {s : System} {question : Question} (h : Standing s) (hphase : s.phase = .waiting question)
    (answer : Answer) : Answers s.flow.slots question answer (s.flow.answered question answer).2.slots := by
  have hasked := h.asked
  rw [hphase] at hasked
  exact RemoteUpdate.answers (h.recorded.mutates hasked) answer

theorem Standing.step {s s' : System} {move : Move} (h : Standing s) (hstep : Steps s move s') : Standing s' := by
  cases hstep with
  | quiet hphase hslots =>
      constructor
      · rw [hslots]
        exact h.recorded
      · change AskedIn _ s.phase
        rw [hphase]
        trivial
  | asks hphase hnew hasks => exact ⟨h.recorded.asks hasks, asked_of_asks hasks⟩
  | port hphase =>
      have hasked := h.asked
      rw [hphase] at hasked
      exact ⟨h.recorded, hasked⟩
  | answer hphase =>
      have hasked := h.asked
      rw [hphase] at hasked
      exact ⟨h.recorded.answers (h.recorded.mutates hasked) (h.answers hphase _), trivial⟩
  | restart => exact ⟨(resumes h.recorded).recorded h.recorded, trivial⟩

end WorkStack.RemoteUpdate
