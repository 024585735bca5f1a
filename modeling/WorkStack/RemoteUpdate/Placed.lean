import WorkStack.RemoteUpdate.Recorded

/-!
# The place in the order

Where a flow stands in its order, which receipt it holds and which identity it has recorded fit
together, in both orders. A restart reads its place off the record alone; it never comes further than
the flow had come.
-/

namespace WorkStack.RemoteUpdate

/-! ## The two orders -/

/-- What the two orders have in common. -/
structure Ordered (order : RunOrder) : Prop where
  nodup : order.stages.Nodup
  preview : order.index .preview = 0
  stop_pos : 0 < order.index .stop
  stop : order.index .stop < order.backup
  backup : order.index .backup = order.backup
  prepare : order.index .prepare < order.probe
  prepare_ne_stop : order.index .prepare ≠ order.index .stop
  prepare_ne_backup : order.index .prepare ≠ order.backup
  backup_lt : order.backup < order.probe
  probe : order.index .probe = order.probe
  probe_lt : order.probe + 1 = order.activate
  activate : order.index .activate = order.activate
  verify : order.index .verify = order.activate + 1
  length : order.stages.length = order.activate + 2

theorem ordered (prepareBeforeStop : Bool) : Ordered (runOrder prepareBeforeStop) := by
  cases prepareBeforeStop <;> constructor <;> decide

theorem Ordered.index_eq {order : RunOrder} (h : Ordered order) {stage : Stage} {index : ℕ}
    (hstage : order.stages[index]? = some stage) : index = order.index stage := by
  obtain ⟨hlt, rfl⟩ := List.getElem?_eq_some_iff.mp hstage
  exact (h.nodup.idxOf_getElem index hlt).symm

theorem Ordered.stageKind_lt {order : RunOrder} (h : Ordered order) {kind : Kind} (hkind : kind ∈ stageKinds) :
    order.index kind.spec.stage < order.activate := by
  have hstop := h.stop
  have hbackup := h.backup
  have hbackupLt := h.backup_lt
  have hprepare := h.prepare
  have hprobe := h.probe_lt
  simp only [stageKinds, List.mem_cons, List.not_mem_nil, or_false] at hkind
  rcases hkind with rfl | rfl | rfl
  · change order.index .stop < _
    omega
  · change order.index .backup < _
    omega
  · change order.index .prepare < _
    omega

theorem ne_of_stageKind {kind : Kind} (h : kind ∈ stageKinds) : kind ≠ .activationIssue ∧
    kind ≠ .activationConfirm ∧ kind ≠ .backupRestore ∧ kind.spec.port ≠ .activation := by
  revert kind
  decide

/-! ## The invariant -/

/-- How the place, the receipt and the recorded identity fit together. -/
structure Placed (slots : Slots) : Prop where
  ordered : Ordered slots.order
  named : slots.activationId.isSome → slots.order.activate ≤ slots.index
  held : ∀ anchor ∈ slots.activation, slots.activationId = some anchor.operationId
  pendingAnchor : ∀ anchor ∈ slots.activation, anchor.kind = .activationPending → slots.index = slots.order.activate
  otherAnchor : ∀ anchor ∈ slots.activation, anchor.kind ≠ .activationPending → slots.order.activate < slots.index
  staged : ∀ pending ∈ slots.pending, pending.kind ∈ stageKinds →
    slots.index = slots.order.index pending.kind.spec.stage
  activating : ∀ pending ∈ slots.pending, pending.kind = .activationIssue →
    slots.index = slots.order.activate ∧ slots.activation = none
  confirming : ∀ pending ∈ slots.pending, pending.kind = .activationConfirm →
    ∃ anchor ∈ slots.activation, anchor.kind = .activationPending
  naming : ∀ pending ∈ slots.pending, pending.kind.spec.port = .activation →
    slots.activationId = some pending.operationId
  restoring : ∀ pending ∈ slots.pending, pending.kind = .backupRestore → slots.order.backup ≤ slots.index
  backed : slots.backed → slots.order.backup < slots.index

namespace Placed

variable {slots slots' : Slots}

theorem activationId_eq_none (h : Placed slots) (hlt : slots.index < slots.order.activate) :
    slots.activationId = none := by
  by_contra hne
  have hle := h.named (Option.isSome_iff_ne_none.mpr hne)
  omega

theorem activation_eq_none (h : Placed slots) (hid : slots.activationId = none) : slots.activation = none := by
  apply Option.eq_none_iff_forall_not_mem.mpr
  intro anchor hanchor
  rw [h.held anchor hanchor] at hid
  cases hid

/-- Before the activation nothing about an activation is held. -/
theorem staged_activation (h : Placed slots) {pending : PendingOperation} (hpending : slots.pending = some pending)
    (hkind : pending.kind ∈ stageKinds) : slots.activationId = none ∧ slots.activation = none := by
  have hindex := h.staged pending hpending hkind
  have hlt := h.ordered.stageKind_lt hkind
  have hid := h.activationId_eq_none (by omega)
  exact ⟨hid, h.activation_eq_none hid⟩

/-- With no recorded identity only the place and the receipt have to fit. -/
theorem of_released (hordered : Ordered slots.order) (hpending : slots.pending = none)
    (hnamed : slots.activationId.isSome → slots.order.activate ≤ slots.index)
    (hheld : ∀ anchor ∈ slots.activation, slots.activationId = some anchor.operationId)
    (hpendingAnchor : ∀ anchor ∈ slots.activation, anchor.kind = .activationPending →
      slots.index = slots.order.activate)
    (hotherAnchor : ∀ anchor ∈ slots.activation, anchor.kind ≠ .activationPending →
      slots.order.activate < slots.index)
    (hbacked : slots.backed → slots.order.backup < slots.index) : Placed slots where
  ordered := hordered
  named := hnamed
  held := hheld
  pendingAnchor := hpendingAnchor
  otherAnchor := hotherAnchor
  staged := fun pending h ↦ by rw [hpending] at h; cases h
  activating := fun pending h ↦ by rw [hpending] at h; cases h
  confirming := fun pending h ↦ by rw [hpending] at h; cases h
  naming := fun pending h ↦ by rw [hpending] at h; cases h
  restoring := fun pending h ↦ by rw [hpending] at h; cases h
  backed := hbacked

/-- An identity is recorded where the place and the receipt allow its kind. -/
theorem opened (h : Placed slots) {kind : Kind} {operationId : String}
    (hstaged : kind ∈ stageKinds → slots.index = slots.order.index kind.spec.stage)
    (hactivating : kind = .activationIssue → slots.index = slots.order.activate ∧ slots.activation = none)
    (hconfirming : kind = .activationConfirm → ∃ anchor ∈ slots.activation, anchor.kind = .activationPending)
    (hnaming : kind.spec.port = .activation → slots.activationId = some operationId)
    (hrestoring : kind = .backupRestore → slots.order.backup ≤ slots.index) :
    Placed (slots.opened kind operationId) where
  ordered := h.ordered
  named := h.named
  held := h.held
  pendingAnchor := h.pendingAnchor
  otherAnchor := h.otherAnchor
  staged := fun pending hpending ↦ by cases hpending; exact hstaged
  activating := fun pending hpending ↦ by cases hpending; exact hactivating
  confirming := fun pending hpending ↦ by cases hpending; exact hconfirming
  naming := fun pending hpending ↦ by cases hpending; exact hnaming
  restoring := fun pending hpending ↦ by cases hpending; exact hrestoring
  backed := h.backed

/-! ## What a call asks -/

theorem activating_id (h : Placed slots) (hindex : slots.index = slots.order.activate)
    (hactivation : slots.activation = none) (operationId : String) :
    Placed { slots with activationId := some operationId, pending := none } := by
  apply of_released
  · exact h.ordered
  · rfl
  · intro _
    exact hindex.ge
  · intro anchor hanchor
    rw [hactivation] at hanchor
    cases hanchor
  · intro anchor hanchor
    rw [hactivation] at hanchor
    cases hanchor
  · intro anchor hanchor
    rw [hactivation] at hanchor
    cases hanchor
  · exact h.backed

theorem asks (h : Placed slots) {call : Call} {operationId : String} {question : Question}
    (hasks : Asks slots call operationId question slots') : Placed slots' := by
  cases hasks with
  | observe => exact h
  | read => exact h
  | mutate kind codeOnly hkind hpending hstage =>
      have hindex := h.ordered.index_eq hstage
      obtain ⟨hissue, hconfirm, hrestore, hport⟩ := ne_of_stageKind hkind
      apply h.opened
      · exact fun _ ↦ hindex
      · exact fun h ↦ absurd h hissue
      · exact fun h ↦ absurd h hconfirm
      · exact fun h ↦ absurd h hport
      · exact fun h ↦ absurd h hrestore
  | activate hpending hrestart hstage =>
      have hindex : slots.index = slots.order.activate := (h.ordered.index_eq hstage).trans h.ordered.activate
      have hactivation : slots.activation = none := by
        apply Option.eq_none_iff_forall_not_mem.mpr
        intro anchor hanchor
        have hlt := h.otherAnchor anchor hanchor (hrestart anchor hanchor)
        omega
      have hplaced := h.activating_id hindex hactivation operationId
      rw [← hpending] at hplaced
      apply hplaced.opened
      · exact fun hkind ↦ absurd hkind (by decide)
      · exact fun _ ↦ ⟨hindex, hactivation⟩
      · exact fun hkind ↦ absurd hkind (by decide)
      · exact fun _ ↦ rfl
      · exact fun hkind ↦ absurd hkind (by decide)
  | confirm hpending hactivation hanchor hcall hstartup =>
      apply h.opened
      · exact fun hkind ↦ absurd hkind (by decide)
      · exact fun hkind ↦ absurd hkind (by decide)
      · exact fun _ ↦ ⟨_, hactivation, hanchor⟩
      · exact fun _ ↦ h.held _ hactivation
      · exact fun hkind ↦ absurd hkind (by decide)
  | restore hpending hbacked =>
      apply h.opened
      · exact fun hkind ↦ absurd hkind (by decide)
      · exact fun hkind ↦ absurd hkind (by decide)
      · exact fun hkind ↦ absurd hkind (by decide)
      · exact fun hport ↦ absurd hport (by decide)
      · exact fun _ ↦ (h.backed hbacked).le
  | rollback hpending hmigrated hretention hactivation =>
      apply h.opened
      · exact fun hkind ↦ absurd hkind (by decide)
      · exact fun hkind ↦ absurd hkind (by decide)
      · exact fun hkind ↦ absurd hkind (by decide)
      · exact fun _ ↦ hactivation
      · exact fun hkind ↦ absurd hkind (by decide)

/-! ## What an answer settles -/

theorem congr (h : Placed slots) (horder : slots'.order = slots.order) (hindex : slots'.index = slots.index)
    (hid : slots'.activationId = slots.activationId) (hpending : slots'.pending = slots.pending)
    (hactivation : slots'.activation = slots.activation) (hbacked : slots'.backed → slots.backed) : Placed slots' where
  ordered := by rw [horder]; exact h.ordered
  named := by rw [horder, hindex, hid]; exact h.named
  held := by rw [hid, hactivation]; exact h.held
  pendingAnchor := by rw [horder, hindex, hactivation]; exact h.pendingAnchor
  otherAnchor := by rw [horder, hindex, hactivation]; exact h.otherAnchor
  staged := by rw [horder, hindex, hpending]; exact h.staged
  activating := by rw [horder, hindex, hpending, hactivation]; exact h.activating
  confirming := by rw [hpending, hactivation]; exact h.confirming
  naming := by rw [hid, hpending]; exact h.naming
  restoring := by rw [horder, hindex, hpending]; exact h.restoring
  backed := by
    intro hafter
    rw [horder, hindex]
    exact h.backed (hbacked hafter)

section Settled

variable {kind : Kind} {answer : Answer} {decision : Decision} {decided : Slots} {pending : PendingOperation}

theorem code_kind (h : decision ∈ kind.decisions) :
    (decision.2 = .backupVerified → kind = .backupCreate) ∧
      (decision.2 = .activateFailed → kind.spec.classify = .activationIssue) := by
  revert decision
  cases kind <;> decide

theorem activationId_decided (hdecided : Decides kind answer decision.2 slots decided) :
    decided.activationId = none ∨ decided.activationId = slots.activationId := by
  by_cases hvoid : answer ≠ .portRefusal ∧ decision.2 ∈ voidCodes
  · exact Or.inl (hdecided.cleared hvoid.1 hvoid.2)
  · rw [not_and_or, not_not] at hvoid
    exact Or.inr (hdecided.kept hvoid)

theorem named_decided (h : Placed slots) (hdecided : Decides kind answer decision.2 slots decided)
    (hid : decided.activationId.isSome) : slots.order.activate ≤ slots.index := by
  rcases activationId_decided hdecided with hnone | hsame
  · rw [hnone] at hid
    cases hid
  · rw [hsame] at hid
    exact h.named hid

theorem ordered_decided (h : Placed slots) (hdecided : Decides kind answer decision.2 slots decided) :
    Ordered decided.order := by
  rw [hdecided.order]
  exact h.ordered

/-- A verified backup is behind the flow, unless it is the one just decided. -/
theorem backed_decided (h : Placed slots) (hdecided : Decides kind answer decision.2 slots decided)
    (hcode : decision.2 ≠ .backupVerified) (hbacked : decided.backed) : decided.order.backup < decided.index := by
  rw [hdecided.order, hdecided.index]
  exact h.backed ((hdecided.backed hbacked).resolve_left hcode)

theorem kept (h : Placed slots) (hpending : slots.pending = some pending)
    (hdecided : Decides pending.kind answer decision.2 slots decided) (hkept : decision.2.keepsOpen) :
    Placed (decided.opened pending.kind pending.operationId) := by
  have hvoid : decision.2 ∉ voidCodes := by
    intro hmem
    simp only [voidCodes, List.mem_cons, List.not_mem_nil, or_false] at hmem
    rcases hmem with hcode | hcode <;> (rw [hcode] at hkept; cases hkept)
  have hbacked : decided.backed → slots.backed := by
    intro hafter
    rcases hdecided.backed hafter with hcode | hbefore
    · rw [hcode] at hkept
      cases hkept
    · exact hbefore
  have hid := hdecided.kept (Or.inr hvoid)
  have hplaced := h.congr hdecided.order hdecided.index hid hdecided.pending hdecided.activation hbacked
  have hsame : decided.pending = some pending := hdecided.pending.trans hpending
  apply hplaced.opened
  · exact hplaced.staged pending hsame
  · exact hplaced.activating pending hsame
  · exact hplaced.confirming pending hsame
  · exact hplaced.naming pending hsame
  · exact hplaced.restoring pending hsame

theorem written (h : Placed slots) (hpending : slots.pending = some pending)
    (hdecided : Decides pending.kind answer decision.2 slots decided) (hkind : pending.kind = .activationIssue)
    (hcode : decision.2 = .activatePendingRestart) : Placed (decided.recorded none
      (some (decided.newRecord .activationPending pending.operationId))) := by
  obtain ⟨hindex, _⟩ := h.activating pending hpending hkind
  have hid : decided.activationId = some pending.operationId := by
    rw [hdecided.kept (Or.inr (by rw [hcode]; decide))]
    exact h.naming pending hpending (by rw [hkind]; rfl)
  have hplace : decided.index = decided.order.activate := by rw [hdecided.index, hdecided.order, hindex]
  have hbacked := h.backed_decided hdecided (by rw [hcode]; decide)
  have hordered := ordered_decided h hdecided
  apply of_released
  · exact hordered
  · rfl
  · exact fun _ ↦ hplace.ge
  · intro anchor hanchor
    cases hanchor
    exact hid
  · exact fun _ _ _ ↦ hplace
  · intro anchor hanchor hne
    cases hanchor
    exact absurd rfl hne
  · exact hbacked

theorem committed (h : Placed slots) (hpending : slots.pending = some pending)
    (hdecided : Decides pending.kind answer decision.2 slots decided) (hkind : pending.kind = .activationConfirm)
    (hcode : decision.2 = .activateCommitted) :
    Placed ({ decided with index := decided.order.index .activate + 1 }.recorded none
      (some (decided.newRecord .activationConfirmed pending.operationId))) := by
  have hid : decided.activationId = some pending.operationId := by
    rw [hdecided.kept (Or.inr (by rw [hcode]; decide))]
    exact h.naming pending hpending (by rw [hkind]; rfl)
  have hordered := ordered_decided h hdecided
  have hactivate := hordered.activate
  have hbackup := hordered.backup_lt
  have hprobe := hordered.probe_lt
  apply of_released
  · exact hordered
  · rfl
  · intro _
    change decided.order.activate ≤ decided.order.index .activate + 1
    omega
  · intro anchor hanchor
    cases hanchor
    exact hid
  · intro anchor hanchor hkind'
    cases hanchor
    cases hkind'
  · intro anchor hanchor _
    change decided.order.activate < decided.order.index .activate + 1
    omega
  · intro _
    change decided.order.backup < decided.order.index .activate + 1
    omega

theorem rolledBack (h : Placed slots) (hdecided : Decides kind answer decision.2 slots decided)
    (hcode : decision.2 = .rollbackVerified) : Placed (decided.recorded none none) := by
  have hbacked := h.backed_decided hdecided (by rw [hcode]; decide)
  have hordered := ordered_decided h hdecided
  apply of_released
  · exact hordered
  · rfl
  · intro hid
    change decided.order.activate ≤ decided.index
    rw [hdecided.order, hdecided.index]
    exact h.named_decided hdecided hid
  · exact fun anchor hanchor ↦ by cases hanchor
  · exact fun anchor hanchor ↦ by cases hanchor
  · exact fun anchor hanchor ↦ by cases hanchor
  · exact hbacked

theorem progressed (h : Placed slots) (hpending : slots.pending = some pending)
    (hdecided : Decides pending.kind answer decision.2 slots decided) (hkind : pending.kind ∈ stageKinds)
    (hdecision : decision ∈ pending.kind.decisions) :
    Placed ({ decided with index := decided.order.index pending.kind.spec.stage + 1 }.recorded none
      decided.activation) := by
  obtain ⟨hid, hactivation⟩ := h.staged_activation hpending hkind
  have hindex := h.staged pending hpending hkind
  have hnone : decided.activationId = none := by
    rcases activationId_decided hdecided with hnone | hsame
    · exact hnone
    · exact hsame.trans hid
  rw [hdecided.activation, hactivation]
  have hordered := ordered_decided h hdecided
  apply of_released
  · exact hordered
  · rfl
  · intro hsome
    change decided.activationId.isSome at hsome
    rw [hnone] at hsome
    cases hsome
  · exact fun anchor hanchor ↦ by cases hanchor
  · exact fun anchor hanchor ↦ by cases hanchor
  · exact fun anchor hanchor ↦ by cases hanchor
  · intro hbacked
    change decided.order.backup < decided.order.index pending.kind.spec.stage + 1
    rw [hdecided.order]
    rcases hdecided.backed hbacked with hcode | hbefore
    · have hbackup := h.ordered.backup
      rw [(code_kind hdecision).1 hcode]
      change slots.order.backup < slots.order.index .backup + 1
      omega
    · have hlt := h.backed hbefore
      omega

theorem closed (h : Placed slots) (hpending : slots.pending = some pending)
    (hdecided : Decides pending.kind answer decision.2 slots decided) (hdecision : decision ∈ pending.kind.decisions)
    (hanchor : pending.kind.isAnchor = false) (hprogress : decision.2 ∉ progressCodes)
    (hrollback : decision.2 ≠ .rollbackVerified) : Placed (decided.recorded none decided.activation) := by
  have hfailed : decision.2 = .activateFailed → slots.activation = none := by
    intro hcode
    apply (h.activating pending hpending _).2
    have hclassify := (code_kind hdecision).2 hcode
    revert hclassify hanchor
    cases pending.kind <;> decide
  have hheld : slots.activation = none ∨ decided.activationId = slots.activationId := by
    by_cases hcode : decision.2 = .activateFailed
    · exact Or.inl (hfailed hcode)
    · right
      apply hdecided.kept
      right
      simp [voidCodes, hcode, hrollback]
  have hbacked := h.backed_decided hdecided fun hcode ↦ by
    rw [hcode] at hprogress
    exact hprogress (by decide)
  have hordered := ordered_decided h hdecided
  apply of_released
  · exact hordered
  · rfl
  · intro hid
    change decided.order.activate ≤ decided.index
    rw [hdecided.order, hdecided.index]
    exact h.named_decided hdecided hid
  · intro anchor hmem
    change anchor ∈ decided.activation at hmem
    rw [hdecided.activation] at hmem
    rcases hheld with hnone | hsame
    · rw [hnone] at hmem
      cases hmem
    · exact hsame.trans (h.held anchor hmem)
  · intro anchor hmem hkind
    change anchor ∈ decided.activation at hmem
    rw [hdecided.activation] at hmem
    exact hdecided.index.trans ((h.pendingAnchor anchor hmem hkind).trans (congrArg _ hdecided.order).symm)
  · intro anchor hmem hkind
    change anchor ∈ decided.activation at hmem
    rw [hdecided.activation] at hmem
    change decided.order.activate < decided.index
    rw [hdecided.order, hdecided.index]
    exact h.otherAnchor anchor hmem hkind
  · exact hbacked

/-- Whatever an answer settles, the flow stays in place. -/
theorem settled (h : Placed slots) (hpending : slots.pending = some pending) (hanchor : pending.kind.isAnchor = false)
    (hdecision : decision ∈ pending.kind.decisions) (hdecided : Decides pending.kind answer decision.2 slots decided) :
    Placed (decided.settled pending.kind pending.operationId decision.2) := by
  have hsettles := @settles decided _ _ pending.operationId hanchor hdecision
  generalize decided.settled pending.kind pending.operationId decision.2 = after at hsettles
  cases hsettles with
  | kept hkept => exact h.kept hpending hdecided hkept
  | written hkind hcode => exact h.written hpending hdecided hkind hcode
  | committed hkind hcode => exact h.committed hpending hdecided hkind hcode
  | rolledBack hkind hcode => exact h.rolledBack hdecided hcode
  | progressed hkind hcode hopen => exact h.progressed hpending hdecided hkind hdecision
  | closed hopen hprogress hrollback => exact h.closed hpending hdecided hdecision hanchor hprogress hrollback

end Settled

theorem answers (h : Placed slots) (hrecorded : Recorded slots) {question : Question} {answer : Answer}
    (hasked : Asked slots question) (hanswers : Answers slots question answer slots') : Placed slots' := by
  have hpreview := h.ordered.preview
  have hbackup := h.ordered.backup_lt
  have hprobe := h.ordered.probe
  have hactivate := h.ordered.probe_lt
  have hverify := h.ordered.verify
  have hlength := h.ordered.length
  cases hanswers with
  | quiet => exact h
  | previewed migrationRequired hquestion =>
      subst hquestion
      obtain ⟨hpending, stage, hstage, hat⟩ := hasked
      cases hstage
      have hindex := h.ordered.index_eq hat
      have hid := h.activationId_eq_none (by omega)
      have hactivation := h.activation_eq_none hid
      apply of_released
      · exact h.ordered
      · exact hpending
      · intro hsome
        change slots.activationId.isSome at hsome
        rw [hid] at hsome
        cases hsome
      · exact fun anchor hanchor ↦ by rw [hactivation] at hanchor; cases hanchor
      · exact fun anchor hanchor ↦ by rw [hactivation] at hanchor; cases hanchor
      · exact fun anchor hanchor ↦ by rw [hactivation] at hanchor; cases hanchor
      · intro hbacked
        have hlt := h.backed hbacked
        omega
  | probed hreads =>
      cases question with
      | issue => cases hreads
      | observe => cases hreads
      | _ =>
          obtain ⟨hpending, stage, hstage, hat⟩ := hasked
          rw [hreads, Option.some.injEq] at hstage
          subst hstage
          have hindex := h.ordered.index_eq hat
          have hid := h.activationId_eq_none (by omega)
          have hactivation := h.activation_eq_none hid
          apply of_released
          · exact h.ordered
          · exact hpending
          · intro _
            change slots.order.activate ≤ slots.order.index .probe + 1
            omega
          · exact fun anchor hanchor ↦ by rw [hactivation] at hanchor; cases hanchor
          · exact fun anchor hanchor ↦ by rw [hactivation] at hanchor; cases hanchor
          · exact fun anchor hanchor ↦ by rw [hactivation] at hanchor; cases hanchor
          · intro _
            change slots.order.backup < slots.order.index .probe + 1
            omega
  | finished hreads =>
      apply of_released
      · exact h.ordered
      · rfl
      · intro _
        change slots.order.activate ≤ slots.order.stages.length
        omega
      · exact fun anchor hanchor ↦ by cases hanchor
      · exact fun anchor hanchor ↦ by cases hanchor
      · exact fun anchor hanchor ↦ by cases hanchor
      · intro _
        change slots.order.backup < slots.order.stages.length
        omega
  | settled hidentity hdecision hcode hdecided =>
      unfold Asked at hasked
      rw [hidentity] at hasked
      obtain ⟨pending, hpending, hsame⟩ := hasked
      cases hsame
      exact h.settled hpending (hrecorded.pending pending hpending).1 hdecision hdecided

/-! ## A restart -/

theorem pending_index_le (h : Placed slots) {pending : PendingOperation} (hpending : slots.pending = some pending)
    (hanchor : pending.kind.isAnchor = false) : slots.order.index pending.kind.spec.stage ≤ slots.index := by
  have hactivate := h.ordered.activate
  cases hkind : pending.kind with
  | ownerStop => exact hkind ▸ (h.staged pending hpending (by rw [hkind]; decide)).ge
  | backupCreate => exact hkind ▸ (h.staged pending hpending (by rw [hkind]; decide)).ge
  | prepareApply => exact hkind ▸ (h.staged pending hpending (by rw [hkind]; decide)).ge
  | backupRestore =>
      have hbackup := h.ordered.backup
      have hle := h.restoring pending hpending hkind
      change slots.order.index .backup ≤ slots.index
      omega
  | activationPending =>
      rw [hkind] at hanchor
      cases hanchor
  | activationConfirmed =>
      rw [hkind] at hanchor
      cases hanchor
  | activationIssue | activationConfirm | activationRollback =>
      have hid := h.naming pending hpending (by rw [hkind]; rfl)
      have hle := h.named (by rw [hid]; rfl)
      change slots.order.index .activate ≤ slots.index
      omega

/-- The record never tells of more than the flow has reached. -/
theorem recordedIndex_le (h : Placed slots) (hrecorded : Recorded slots) : slots.recordedIndex ≤ slots.index := by
  unfold Slots.recordedIndex
  cases hactivation : slots.activation with
  | none =>
      cases hpending : slots.pending with
      | none => exact Nat.zero_le _
      | some pending =>
          exact max_le (Nat.zero_le _) (h.pending_index_le hpending (hrecorded.pending pending hpending).1)
  | some anchor =>
      have hreached : slots.order.activate + (if anchor.kind = .activationPending then 0 else 1) ≤ slots.index := by
        by_cases hkind : anchor.kind = .activationPending
        · have hindex := h.pendingAnchor anchor hactivation hkind
          simp only [hkind, if_true]
          omega
        · have hindex := h.otherAnchor anchor hactivation hkind
          simp only [hkind, if_false]
          omega
      cases hpending : slots.pending with
      | none => exact hreached
      | some pending =>
          exact max_le hreached (h.pending_index_le hpending (hrecorded.pending pending hpending).1)

theorem le_recordedIndex {pending : PendingOperation} (hpending : slots.pending = some pending) :
    slots.order.index pending.kind.spec.stage ≤ slots.recordedIndex := by
  unfold Slots.recordedIndex
  rw [hpending]
  exact le_max_right _ _

theorem anchor_le_recordedIndex {anchor : PendingOperation} (hactivation : slots.activation = some anchor) :
    slots.order.activate + (if anchor.kind = .activationPending then 0 else 1) ≤ slots.recordedIndex := by
  unfold Slots.recordedIndex
  rw [hactivation]
  cases slots.pending with
  | none => exact le_rfl
  | some pending => exact le_max_left _ _

theorem stage_of_port {kind : Kind} (h : kind.spec.port = .activation) : kind.spec.stage = .activate := by
  revert h
  cases kind <;> decide

theorem recordedId_cases (slots : Slots) : slots.recordedId = none ∧ slots.activation = none ∨
    (∃ pending, slots.pending = some pending ∧ pending.kind.spec.port = .activation ∧
      slots.recordedId = some pending.operationId) ∨
    ∃ anchor, slots.activation = some anchor ∧ slots.recordedId = some anchor.operationId := by
  unfold Slots.recordedId
  cases hfilter : slots.pending.filter fun pending ↦ pending.kind.spec.port = .activation with
  | some pending =>
      rw [Option.filter_eq_some_iff] at hfilter
      exact Or.inr (Or.inl ⟨pending, hfilter.1, by simpa using hfilter.2, rfl⟩)
  | none =>
      cases hactivation : slots.activation with
      | none => exact Or.inl ⟨rfl, rfl⟩
      | some anchor => exact Or.inr (Or.inr ⟨anchor, rfl, rfl⟩)

/-- What is recorded of an activation is the activation that the flow has named. -/
theorem recordedId_eq (h : Placed slots) (hid : slots.recordedId ≠ none) :
    slots.recordedId = slots.activationId ∧ slots.order.activate ≤ slots.recordedIndex := by
  rcases recordedId_cases slots with ⟨hnone, _⟩ | ⟨pending, hpending, hport, hsome⟩ | ⟨anchor, hactivation, hsome⟩
  · exact absurd hnone hid
  · constructor
    · rw [hsome, h.naming pending hpending hport]
    · have hle := le_recordedIndex hpending
      rw [stage_of_port hport, h.ordered.activate] at hle
      exact hle
  · constructor
    · rw [hsome, h.held anchor hactivation]
    · exact le_trans (Nat.le_add_right _ _) (anchor_le_recordedIndex hactivation)

theorem resumes (h : Placed slots) (hrecorded : Recorded slots) (hresumes : Resumes slots slots') : Placed slots' := by
  have hle := h.recordedIndex_le hrecorded
  have hid : ∀ anchor ∈ slots.activation, slots.recordedId = slots.activationId := by
    intro anchor hanchor
    apply (h.recordedId_eq _).1
    intro hnone
    rcases recordedId_cases slots with ⟨_, hactivation⟩ | ⟨pending, _, _, hsome⟩ | ⟨anchor, _, hsome⟩
    · rw [hactivation] at hanchor
      cases hanchor
    · rw [hsome] at hnone
      cases hnone
    · rw [hsome] at hnone
      cases hnone
  have hport : ∀ pending ∈ slots.pending, pending.kind.spec.port = .activation →
      slots.recordedId = some pending.operationId := by
    intro pending hpending hport
    rw [Option.mem_def] at hpending
    simp [Slots.recordedId, hpending, hport]
  constructor
  · rw [hresumes.order]
    exact h.ordered
  · rw [hresumes.order, hresumes.index, hresumes.activationId]
    intro hsome
    exact (h.recordedId_eq (Option.isSome_iff_ne_none.mp hsome)).2
  · rw [hresumes.activation, hresumes.activationId]
    intro anchor hanchor
    rw [hid anchor hanchor]
    exact h.held anchor hanchor
  · rw [hresumes.order, hresumes.index, hresumes.activation]
    intro anchor hanchor hkind
    have hindex := h.pendingAnchor anchor hanchor hkind
    have hge := anchor_le_recordedIndex hanchor
    omega
  · rw [hresumes.order, hresumes.index, hresumes.activation]
    intro anchor hanchor hkind
    have hge := anchor_le_recordedIndex hanchor
    rw [if_neg hkind] at hge
    omega
  · rw [hresumes.order, hresumes.index, hresumes.pending]
    intro pending hpending hkind
    have hindex := h.staged pending hpending hkind
    have hge := le_recordedIndex hpending
    omega
  · rw [hresumes.order, hresumes.index, hresumes.pending, hresumes.activation]
    intro pending hpending hkind
    obtain ⟨hindex, hactivation⟩ := h.activating pending hpending hkind
    have hge := le_recordedIndex hpending
    have hactivate := h.ordered.activate
    rw [hkind] at hge
    change slots.order.index .activate ≤ _ at hge
    exact ⟨by omega, hactivation⟩
  · rw [hresumes.pending, hresumes.activation]
    exact h.confirming
  · rw [hresumes.pending, hresumes.activationId]
    exact hport
  · rw [hresumes.order, hresumes.index, hresumes.pending]
    intro pending hpending hkind
    have hge := le_recordedIndex hpending
    have hbackup := h.ordered.backup
    rw [hkind] at hge
    change slots.order.index .backup ≤ _ at hge
    omega
  · rw [hresumes.order]
    exact hresumes.backed

end Placed

/-! ## Runs -/

/-- The flow keeps its record and its place. -/
structure InPlace (s : System) : Prop where
  standing : Standing s
  placed : Placed s.flow.slots

namespace InPlace

variable {s s' : System}

theorem start (prepareBeforeStop : Bool) : InPlace (System.start prepareBeforeStop) where
  standing := Standing.start prepareBeforeStop
  placed := by
    apply Placed.of_released
    · exact ordered prepareBeforeStop
    · rfl
    · exact fun h ↦ by cases h
    · exact fun anchor h ↦ by cases h
    · exact fun anchor h ↦ by cases h
    · exact fun anchor h ↦ by cases h
    · exact fun h ↦ by cases h

theorem asked (h : InPlace s) {question : Question} (hphase : s.phase = .waiting question) :
    Asked s.flow.slots question := by
  have hasked := h.standing.asked
  rwa [hphase] at hasked

theorem step {move : Move} (h : InPlace s) (hstep : Steps s move s') : InPlace s' := by
  have hstanding := h.standing.step hstep
  constructor
  · exact hstanding
  · cases hstep with
    | quiet hphase hslots =>
        rw [hslots]
        exact h.placed
    | asks hphase hnew hasks => exact h.placed.asks hasks
    | port => exact h.placed
    | answer hphase =>
        exact h.placed.answers h.standing.recorded (h.asked hphase) (h.standing.answers hphase _)
    | restart => exact h.placed.resumes h.standing.recorded (resumes h.standing.recorded)

end InPlace

end WorkStack.RemoteUpdate
