import WorkStack.Reports.Validated

/-!
# What a command does to the document

A command that is accepted for the first time either adds one report or moves one report on by a revision,
and adds its receipt. A command whose receipt is still there changes nothing.
-/

open WorkStack.Python WorkStack.Effect WorkStack.Effect.Refusing

namespace WorkStack.Reports

/-- A report that has moved on: its revision is the next one and nothing that was authored is lost. -/
structure Advances (old report : Report) : Prop where
  uid : report.uid = old.uid
  workspace : report.workspaceUid = old.workspaceUid
  revision : report.revision = old.revision + 1
  authored : old.revisions <+: report.revisions

/-- A create puts a new report behind the others; any other body moves one report on where it is, from the revision
that was expected. -/
inductive Moves (before : List Report) (report : Report) : Body → List Report → Prop
  | created {workspaceUid template digest generatedAt markdown : String} {period : Json}
      (hnew : ∀ other ∈ before, other.uid ≠ report.uid) (hrevision : report.revision = 1) :
      Moves before report (.create workspaceUid template period digest generatedAt markdown) (before ++ [report])
  | advanced {operation : Operation} {workspaceUid markdown : String} {note : Option String} (index : ℕ) (old : Report)
      (hold : before[index]? = some old) (hadvances : Advances old report) :
      Moves before report (.transition operation workspaceUid old.revision markdown note) (before.set index report)

section Plans

variable {L : Library}

theorem locate_eq_ok {reports : List Report} {target : String} {found : ℕ × Report}
    (h : locate reports target = .ok found) : reports[found.1]? = some found.2 ∧ found.2.uid = target := by
  unfold locate at h
  cases hindex : reports.findIdx? fun report ↦ report.uid == target with
  | none => simp [hindex] at h
  | some index =>
      cases hfind : reports.find? fun report ↦ report.uid == target with
      | none => simp [hindex, hfind] at h
      | some report =>
          simp only [hindex, hfind, Except.ok.injEq] at h
          subst h
          have huid := List.find?_some hfind
          refine ⟨?_, by simpa using huid⟩
          rw [List.find?_eq_bind_findIdx?_getElem?] at hfind
          simpa [hindex] using hfind

theorem advances_moved (operation : Operation) (report : Report) (markdown : String) (note : Option String)
    (now : String) : Advances report (moved operation report markdown note now) := by
  refine ⟨rfl, rfl, rfl, ?_⟩
  unfold moved
  by_cases h : operation = .revise
  · simp [h]
  · simp [h]

variable {operation : Operation}

/-- The report that a transition plans has a period, like the one it comes from. -/
theorem period_of_transition {reports : List Report} {report : Report} (hkept : WellKept L [] [] reports)
    (hmem : report ∈ reports) (hallows : operation.allows report.state = true) {result : Unit}
    (hcheck : checkTransition L reports operation report = .ok result) :
    ∃ period, periodOf L report.period = .ok period := by
  have hcoverage : ∀ coverage, report.coverage L = .ok coverage → ∃ period, periodOf L report.period = .ok period := by
    intro coverage h
    simp only [Report.coverage, bind_eq_ok] at h
    obtain ⟨period, hperiod, -⟩ := h
    exact ⟨period, hperiod⟩
  cases harchived : report.state.isArchived with
  | false =>
      obtain ⟨coverage, h, -⟩ := hkept.covered report hmem harchived
      exact hcoverage coverage h
  | true =>
      cases operation with
      | restore =>
          simp only [checkTransition, requireFreePeriod, bind_eq_ok] at hcheck
          obtain ⟨coverage, h, -⟩ := hcheck
          exact hcoverage coverage h
      | create => simp [Operation.allows] at hallows
      | revise => simp [Operation.allows, harchived] at hallows
      | finalize =>
          rw [Operation.allows, beq_iff_eq] at hallows
          simp [hallows, ReportState.isArchived] at harchived
      | archive => simp [Operation.allows, harchived] at hallows

/-- What a plan is: the document with one report created or moved on. -/
structure Planned (L : Library) (body : Body) (target : String) (top : Document) (plan : Plan) : Prop where
  moves : Moves top.reports plan.report body plan.document.reports
  receipts : plan.document.idempotency = top.idempotency
  uid : plan.report.uid = target
  mem : plan.report ∈ plan.document.reports
  period : ∃ period, periodOf L plan.report.period = .ok period

theorem planCreate_eq_ok {top : Document} {target workspaceUid template digest generatedAt markdown asserted now : String}
    {period : Json} {plan : Plan}
    (h : planCreate L top target workspaceUid template period digest generatedAt markdown asserted now = .ok plan) :
    Planned L (.create workspaceUid template period digest generatedAt markdown) target top plan := by
  simp only [planCreate, bind_eq_ok, pure_eq_ok, check_eq_ok] at h
  obtain ⟨-, hnew, -, -, taken, -, wanted, hwanted, -, -, -, -, -, -, rfl⟩ := h
  refine ⟨.created ?_ rfl, rfl, rfl, by simp, ⟨wanted, hwanted⟩⟩
  intro other hother heq
  simp only [Bool.not_eq_true', List.any_eq_false, beq_iff_eq] at hnew
  exact hnew other hother heq

theorem planTransition_eq_ok {top : Document} {expected : ℤ} {workspaceUid markdown target now : String}
    {note : Option String} {plan : Plan} (hkept : WellKept L [] [] top.reports)
    (h : planTransition L top operation expected markdown note target now = .ok plan) :
    Planned L (.transition operation workspaceUid expected markdown note) target top plan := by
  simp only [planTransition, bind_eq_ok, pure_eq_ok, check_eq_ok, beq_iff_eq] at h
  obtain ⟨found, hfound, -, hexpected, -, hallows, -, -, current, -, updated, -, -, -, _, hcheck, rfl⟩ := h
  obtain ⟨hindex, huid⟩ := locate_eq_ok hfound
  obtain ⟨hlt, hget⟩ := List.getElem?_eq_some_iff.mp hindex
  have hperiod := period_of_transition hkept (List.mem_of_getElem? hindex) hallows hcheck
  rw [← hexpected]
  exact ⟨.advanced found.1 found.2 hindex (advances_moved ..), rfl, huid, List.mem_set hlt _, hperiod⟩

theorem planReportMutation_eq_ok {document request : Json} {target now : String} {asserted : Option String}
    {body : Body} {plan : Plan} (hbody : normalizeReportRequest L operation request = .ok body)
    (h : planReportMutation L document operation request target asserted now = .ok plan) :
    ∃ top, readDocument L body.workspaceUid document = .ok top ∧ Planned L body target top plan := by
  simp only [planReportMutation, hbody, bind_eq_ok] at h
  obtain ⟨_, hsame, top, htop, -, -, -, -, h⟩ := h
  cases hsame
  refine ⟨top, htop, ?_⟩
  cases body with
  | create workspaceUid template period digest generatedAt markdown => exact planCreate_eq_ok h
  | transition operation workspaceUid expected markdown note =>
      simp only [bind_eq_ok] at h
      obtain ⟨-, -, h⟩ := h
      exact planTransition_eq_ok (wellKept_of_readDocument htop) h

/-! ## Answers -/

/-- A period holds nothing but texts. -/
theorem fields_of_periodOf {value : Json} {period : String × String} (h : periodOf L value = .ok period) :
    ∃ fields, value = .obj fields ∧ ∀ field ∈ fields, field.1 ∈ periodKeys ∧ ∃ text, field.2 = .str text := by
  simp only [periodOf, bind_eq_ok] at h
  obtain ⟨fields, hfields, kind, hkind, -, -, date, hdate, -⟩ := h
  cases value with
  | obj fields' =>
      cases exactDict_obj hfields
      simp only [exactDict, ite_ok_eq_ok, hasKeys, Bool.and_eq_true, decide_eq_true_eq, List.all_eq_true] at hfields
      obtain ⟨⟨⟨hnodup, hallowed⟩, -⟩, -⟩ := hfields
      refine ⟨fields, rfl, ?_⟩
      rintro ⟨key, value⟩ hmem
      have hvalue : item fields key = value := by
        rw [item, (Dict.get_eq_some_iff_mem hnodup).2 hmem, Option.getD_some]
      have hkey : key ∈ periodKeys := by simpa using hallowed key (List.mem_map.mpr ⟨_, hmem, rfl⟩)
      refine ⟨hkey, ?_⟩
      simp only [periodKeys, List.mem_cons, List.not_mem_nil, or_false] at hkey
      rcases hkey with rfl | rfl
      · rw [hvalue] at hkind
        cases value with
        | str text => exact ⟨text, rfl⟩
        | _ => cases hkind
      · rw [hvalue] at hdate
        cases value with
        | str text => exact ⟨text, rfl⟩
        | _ => cases hdate
  | _ => cases hfields

theorem isSafe_of_periodOf {value : Json} {period : String × String} {depth : ℕ} (hdepth : depth < maxReportJsonDepth)
    (h : periodOf L value = .ok period) : isSafe L depth value = true := by
  obtain ⟨fields, rfl, hfields⟩ := fields_of_periodOf h
  rw [isSafe, fieldsSafe_eq_all]
  simp only [hdepth, decide_true, Bool.true_and, List.all_eq_true]
  intro field hfield
  obtain ⟨-, text, htext⟩ := hfields field hfield
  rw [htext]
  rfl

/-- A value that holds no other value, and is no floating-point number. -/
def isFlat : Json → Bool
  | .null | .bool _ | .int _ | .str _ => true
  | _ => false

theorem isFlat_textOrNull (text : Option String) : isFlat (textOrNull text) = true := by
  cases text <;> rfl

theorem isSafe_of_isFlat {value : Json} {depth : ℕ} (h : isFlat value = true) : isSafe L depth value = true := by
  cases value with
  | null | bool _ | int _ | str _ => rfl
  | float _ | arr _ | obj _ => cases h

/-- The fields of an answer: the period, the entry that was written, and flat values; none of them is a history. -/
theorem mem_dataOf {plan : Plan} {stale : Option Bool} {field : String × Json}
    (h : field ∈ dataOf operation plan stale) : field.1 ≠ "revisions" ∧
      (field.2 = plan.report.period ∨ (∃ entry : Entry, field.2 = entry.json) ∨ isFlat field.2 = true) := by
  have hoptional : ∀ (name : String) (value : Option Json), field ∈ optionalField name value →
      field.1 = name ∧ value = some field.2 := by
    intro name value hmem
    simp only [optionalField, Option.mem_toList, Option.map_eq_some_iff] at hmem
    obtain ⟨value', hvalue, rfl⟩ := hmem
    exact ⟨rfl, hvalue⟩
  simp only [dataOf, Report.summary, List.mem_append, List.mem_cons, List.not_mem_nil, or_false] at h
  rcases h with ((((((rfl | rfl | rfl | rfl | rfl | rfl | rfl | rfl) | harchive) | rfl | rfl) | hentry) | hreopened) | hstale)
  · exact ⟨by simp, .inr (.inr rfl)⟩
  · exact ⟨by simp, .inr (.inr rfl)⟩
  · exact ⟨by simp, .inr (.inr rfl)⟩
  · exact ⟨by simp, .inl rfl⟩
  · exact ⟨by simp, .inr (.inr rfl)⟩
  · exact ⟨by simp, .inr (.inr rfl)⟩
  · exact ⟨by simp, .inr (.inr rfl)⟩
  · exact ⟨by simp, .inr (.inr rfl)⟩
  · cases hstate : plan.report.state with
    | active standing =>
        rw [hstate] at harchive
        simp only [ReportState.archiveFields, List.mem_cons, List.not_mem_nil, or_false] at harchive
        rcases harchive with rfl | rfl | rfl
        all_goals exact ⟨by simp, .inr (.inr rfl)⟩
    | archived former archivedAt note =>
        rw [hstate] at harchive
        simp only [ReportState.archiveFields, List.mem_cons, List.not_mem_nil, or_false] at harchive
        rcases harchive with rfl | rfl | rfl
        · exact ⟨by simp, .inr (.inr rfl)⟩
        · exact ⟨by simp, .inr (.inr rfl)⟩
        · exact ⟨by simp, .inr (.inr (isFlat_textOrNull note))⟩
  · exact ⟨by simp, .inr (.inr rfl)⟩
  · exact ⟨by simp, .inr (.inr rfl)⟩
  · obtain ⟨hname, hvalue⟩ := hoptional _ _ hentry
    obtain ⟨entry, -, hentry⟩ := Option.map_eq_some_iff.mp hvalue
    exact ⟨by simp [hname], .inr (.inl ⟨entry, hentry.symm⟩)⟩
  · obtain ⟨hname, hvalue⟩ := hoptional _ _ hreopened
    refine ⟨by simp [hname], .inr (.inr ?_)⟩
    split at hvalue
    · rw [← Option.some.inj hvalue]
      rfl
    · cases hvalue
  · obtain ⟨hname, hvalue⟩ := hoptional _ _ hstale
    obtain ⟨value, -, hvalue⟩ := Option.map_eq_some_iff.mp hvalue
    refine ⟨by simp [hname], .inr (.inr ?_)⟩
    rw [← hvalue]
    rfl

/-- The data of an answer is no deeper than a receipt may be. -/
theorem isSafe_dataOf {plan : Plan} {stale : Option Bool} {period : String × String} {depth : ℕ}
    (hdepth : depth + 1 < maxReportJsonDepth) (hperiod : periodOf L plan.report.period = .ok period) :
    isSafe L depth (.obj (dataOf operation plan stale)) = true := by
  have hopen : depth < maxReportJsonDepth := by omega
  rw [isSafe, fieldsSafe_eq_all]
  simp only [hopen, decide_true, Bool.true_and, List.all_eq_true]
  intro field hfield
  rcases (mem_dataOf hfield).2 with hvalue | ⟨entry, hvalue⟩ | hflat
  · rw [hvalue]
    exact isSafe_of_periodOf hdepth hperiod
  · rw [hvalue]
    simp [Entry.json, isSafe, fieldsSafe, fieldSafe, isSafe_of_isFlat (isFlat_textOrNull _), hdepth]
  · exact isSafe_of_isFlat hflat

theorem isSafe_receipt {receipt : Receipt} (h : isSafe L 4 (.obj receipt.data) = true) :
    isSafe L 2 receipt.json = true := by
  simp [Receipt.json, Receipt.body, isSafe, fieldsSafe, fieldSafe, maxReportJsonDepth]
  simpa [isSafe, maxReportJsonDepth] using h

theorem identity_eq_ok {workspaceUid key path requestDigest now : String} {time : ℤ}
    (h : identity L workspaceUid key path requestDigest now = .ok time) :
    isLedgerKey key = true ∧ (path != "") = true ∧ isDigest requestDigest = true ∧ momentOf L now = some time := by
  simp only [identity, bind_eq_ok, pure_eq_ok, check_eq_ok] at h
  obtain ⟨-, -, -, hkey, -, hpath, -, hdigest, current, hcurrent, rfl⟩ := h
  exact ⟨hkey, hpath, hdigest, (moment_str hcurrent).2⟩

/-- A receipt that was appended leaves a document that is accepted. -/
theorem appendReportReceipt_eq_ok {document final : Document} {workspaceUid key path requestDigest now : String}
    {status : ℤ} {data : Dict String Json} (hsafe : isSafe L 4 (.obj data) = true)
    (h : appendReportReceipt L document.json workspaceUid key path requestDigest status data now = .ok final) :
    ∃ time, momentOf L now = some time ∧ readDocument L workspaceUid final.json = .ok final ∧
      final.reports = document.reports ∧ final.idempotency =
        surviving L time document.idempotency ++ [⟨key, path, requestDigest, status, data, now⟩] := by
  simp only [appendReportReceipt, bind_eq_ok, pure_eq_ok, check_eq_ok] at h
  obtain ⟨time, hidentity, top, htop, -, hstatus, -, -, read, hbody, -, hfresh, -, hroom, -, hsize, -, htotal, rfl⟩ := h
  cases readDocument_json htop
  obtain ⟨hkey, hpath, hdigest, htime⟩ := identity_eq_ok hidentity
  obtain ⟨howner, hreportsSafe, hlength, hreports, hanswered, -⟩ := readDocument_json_eq_ok.mp htop
  cases readBody_body hbody
  have hreceipt : readReceipt L (Receipt.json ⟨key, path, requestDigest, status, data, now⟩) =
      .ok ⟨key, path, requestDigest, status, data, now⟩ := by
    have hfields : exactDict ledgerKeys "idempotency" (Receipt.json ⟨key, path, requestDigest, status, data, now⟩) =
        .ok [("key", .str key), ("method", .str ledgerMethod), ("path", .str path),
          ("request_digest", .str requestDigest), ("response_status", .int status),
          ("response_body", Receipt.body data false), ("created_at", .str now)] := by
      simp [exactDict, Receipt.json, hasKeys, ledgerKeys, Dict.keys]
    have hmoment : moment L "idempotency" (.str now) = .ok (now, time) := by simp [moment, htime]
    simp only [readReceipt, bind_eq_ok, pure_eq_ok, check_eq_ok, hfields, Except.ok.injEq]
    exact ⟨_, rfl, key, if_pos hkey, ledgerMethod, rfl, path, if_pos hpath, requestDigest, if_pos hdigest, status, rfl, (),
      hstatus, data, hbody, (now, time), hmoment, (), hsize, rfl⟩
  have hfresh' : key ∉ (surviving L time document.idempotency).map Receipt.key := by
    intro hmem
    obtain ⟨other, hother, heq⟩ := List.mem_map.mp hmem
    simp only [Bool.not_eq_true', List.any_eq_false, beq_iff_eq] at hfresh
    exact hfresh other hother heq
  refine ⟨time, htime, readDocument_json_eq_ok.mpr ⟨howner, hreportsSafe, hlength, hreports, ?_, by simpa using htotal⟩,
    rfl, rfl⟩
  refine ⟨?_, ?_, ?_, ?_⟩
  · intro receipt hmem
    rcases List.mem_append.mp hmem with hmem | hmem
    · exact hanswered.safe receipt (List.mem_filter.mp hmem).1
    · rw [List.mem_singleton.mp hmem]
      exact isSafe_receipt hsafe
  · intro receipt hmem
    rcases List.mem_append.mp hmem with hmem | hmem
    · exact hanswered.each receipt (List.mem_filter.mp hmem).1
    · rw [List.mem_singleton.mp hmem]
      exact hreceipt
  · exact Receipts.nodup_filter_append (isRetained L time) hanswered.keys hfresh'
  · rw [List.length_append, List.length_singleton]
    simp only [decide_eq_true_eq] at hroom
    omega

/-! ## The command -/

theorem surviving_surviving (time : ℤ) (receipts : List Receipt) :
    surviving L time (surviving L time receipts) = surviving L time receipts := by
  simp [surviving, List.filter_filter]

/-- What is planned for a command is planned on the document without what has expired. -/
theorem plannedFor_eq_ok {pruned : Document} {body : Body} {command : Command} {planned : Plan × Option Bool}
    (hbody : normalizeReportRequest L operation command.request = .ok body)
    (htarget : (command.targetReportUid.isNone == (operation == .create)) = true)
    (h : plannedFor L pruned.json operation body command = .ok planned) :
    ∃ target, readDocument L body.workspaceUid pruned.json = .ok pruned ∧ Planned L body target pruned planned.1 ∧
      (operation ≠ .create → command.targetReportUid = some target) := by
  have hplan : ∀ {operation' target asserted plan}, normalizeReportRequest L operation' command.request = .ok body →
      planReportMutation L pruned.json operation' command.request target asserted command.now = .ok plan →
      readDocument L body.workspaceUid pruned.json = .ok pruned ∧ Planned L body target pruned plan := by
    intro operation' target asserted plan hbody' hplan
    obtain ⟨top, htop, hplanned⟩ := planReportMutation_eq_ok hbody' hplan
    cases readDocument_json htop
    exact ⟨htop, hplanned⟩
  have hnamed : ∀ target, command.targetReportUid.getD "" = target → operation ≠ .create →
      command.targetReportUid = some target := by
    intro target hget hne
    cases huid : command.targetReportUid with
    | none =>
        simp only [huid, Option.isNone_none, Bool.true_eq, beq_iff_eq] at htarget
        exact absurd htarget hne
    | some uid =>
        rw [← hget, huid, Option.getD_some]
  cases body with
  | create workspaceUid template period digest generatedAt markdown =>
      have hcreate : operation = .create := by
        by_contra hne
        simp only [normalizeReportRequest, hne, if_false, transitionBody, bind_eq_ok, pure_eq_ok] at hbody
        obtain ⟨_, -, _, -, _, -, _, -, _, -, _, -, _, -, hbody⟩ := hbody
        cases hbody
      simp only [plannedFor, planCreated, bind_eq_ok, pure_eq_ok] at h
      obtain ⟨plan, ⟨allocated, -, settled, -, current, -, hplanned⟩, rfl⟩ := h
      obtain ⟨htop, hplanned⟩ := hplan (hcreate ▸ hbody) hplanned
      exact ⟨allocated, htop, hplanned, fun hne ↦ absurd hcreate hne⟩
  | transition operation' workspaceUid expected markdown note =>
      simp only [plannedFor, planMoved, bind_eq_ok] at h
      obtain ⟨plan, hplanned, h⟩ := h
      obtain ⟨htop, hplanned⟩ := hplan hbody hplanned
      have hsame : planned.1 = plan := by
        by_cases hsource : operation.readsSource = true
        · simp only [hsource, if_true, bind_eq_ok, pure_eq_ok] at h
          obtain ⟨current, -, rfl⟩ := h
          rfl
        · rw [if_neg hsource, pure_eq_ok] at h
          rw [← h]
      rw [hsame]
      exact ⟨command.targetReportUid.getD "", htop, hplanned, hnamed _ rfl⟩

/-- A command that is answered from its receipt. -/
structure Replayed (L : Library) (command : Command) (top : Document) (time : ℤ) (answer : Answer) : Prop where
  saves : answer.documentToSave = none
  replayed : answer.replayed = true
  recorded : ∃ receipt ∈ top.idempotency, isRetained L time receipt = true ∧ receipt.key = command.idempotencyKey ∧
    receipt.path = command.path ∧ receipt.requestDigest = command.requestDigest ∧
    answer.responseStatus = receipt.responseStatus ∧ answer.data = receipt.data

/-- A command that is carried out: what it saves is accepted, with one report moved and one receipt more. -/
structure Performed (L : Library) (command : Command) (body : Body) (top : Document) (time : ℤ) (answer : Answer)
    (final : Document) : Prop where
  saves : answer.documentToSave = some final.json
  fresh : answer.replayed = false
  accepted : readDocument L body.workspaceUid final.json = .ok final
  moves : ∃ report, Moves top.reports report body final.reports ∧ report ∈ final.reports ∧
    ∀ uid, command.targetReportUid = some uid → report.uid = uid
  receipts : final.idempotency = surviving L time top.idempotency ++
    [⟨command.idempotencyKey, command.path, command.requestDigest, answer.responseStatus, answer.data, command.now⟩]

theorem performCommand_eq_ok {pruned : Document} {body : Body} {command : Command} {answer : Answer}
    (hbody : normalizeReportRequest L operation command.request = .ok body)
    (hnone : (command.targetReportUid.isNone == (operation == .create)) = true)
    (h : performCommand L pruned operation body command = .ok answer) :
    ∃ time final, momentOf L command.now = some time ∧ Performed L command body pruned time answer final := by
  simp only [performCommand, bind_eq_ok, pure_eq_ok] at h
  obtain ⟨planned, hplanned, final, hfinal, rfl⟩ := h
  obtain ⟨target, -, hplan, htarget⟩ := plannedFor_eq_ok hbody hnone hplanned
  obtain ⟨period, hperiod⟩ := hplan.period
  obtain ⟨time, htime, haccepted, hreports, hreceipts⟩ := appendReportReceipt_eq_ok (isSafe_dataOf (by decide) hperiod) hfinal
  refine ⟨time, final, htime, rfl, rfl, haccepted, ⟨planned.1.report, ?_, ?_, ?_⟩, ?_⟩
  · rw [hreports]
    exact hplan.moves
  · rw [hreports]
    exact hplan.mem
  · intro uid huid
    rw [hplan.uid]
    apply Option.some.inj
    rw [← huid]
    refine (htarget ?_).symm
    rintro rfl
    simp [huid] at hnone
  · rw [hreceipts, hplan.receipts]

/-- What an accepted command was: answered again, or carried out. -/
theorem executeReportCommand_eq_ok {document : Json} {command : Command} {answer : Answer}
    (h : executeReportCommand L document command = .ok answer) :
    ∃ operation body time top, operationOf command.operation = .ok operation ∧
      normalizeReportRequest L operation command.request = .ok body ∧ momentOf L command.now = some time ∧
      readDocument L body.workspaceUid document = .ok top ∧
      (Replayed L command top time answer ∨ ∃ final, Performed L command body top time answer final) := by
  simp only [executeReportCommand, checkTarget, bind_eq_ok, check_eq_ok] at h
  obtain ⟨operation, hoperation, body, hbody, -, htarget, prepared, hprepared, h⟩ := h
  simp only [prepareReportReplay, bind_eq_ok] at hprepared
  obtain ⟨time, hidentity, top, htop, hfound⟩ := hprepared
  obtain ⟨-, -, -, htime⟩ := identity_eq_ok hidentity
  refine ⟨operation, body, time, top, hoperation, hbody, htime, htop, ?_⟩
  cases hfind : (surviving L time top.idempotency).find? fun receipt ↦ receipt.key == command.idempotencyKey with
  | none =>
      simp only [hfind, pure_eq_ok] at hfound
      subst hfound
      obtain ⟨time', final, htime', hperformed⟩ := performCommand_eq_ok hbody htarget h
      rw [htime, Option.some.injEq] at htime'
      subst htime'
      refine Or.inr ⟨final, hperformed.saves, hperformed.fresh, hperformed.accepted, hperformed.moves, ?_⟩
      rw [hperformed.receipts, surviving_surviving]
  | some receipt =>
      simp only [hfind, ite_ok_eq_ok, pure_eq_ok] at hfound
      obtain ⟨⟨hpath, hdigest⟩, hprepared⟩ := hfound
      subst hprepared
      simp only [pure_eq_ok] at h
      subst h
      have hkey := List.find?_some hfind
      obtain ⟨hmem, hretained⟩ := List.mem_filter.mp (List.mem_of_find?_eq_some hfind)
      exact Or.inl ⟨rfl, rfl, receipt, hmem, hretained, by simpa using hkey, hpath, hdigest, rfl, rfl⟩

end Plans

end WorkStack.Reports
