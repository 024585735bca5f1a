import WorkStack.Effect.Requests
import WorkStack.Reports.Transitions

/-!
# Runs of report commands

Commands come one after the other, with any bodies and keys. What they save is always accepted, a report
only moves on, two commands that were made for one revision do not both succeed, and a command that is
repeated in time is answered as it was answered first.
-/

open WorkStack.Python WorkStack.Effect WorkStack.Effect.Refusing WorkStack.Effect.Requests

namespace WorkStack.Reports

section Runs

variable (L : Library)

/-- What a command saves, if it is accepted and saves anything. -/
def serve (document : Json) (command : Command) : Option Json :=
  (executeReportCommand L document command).toOption.bind Answer.documentToSave

/-- `validate_reports_document` accepts the document of some workspace. -/
def Accepted (document : Json) : Prop := ∃ owner top, readDocument L owner document = .ok top

/-- Every report is still there, of the same workspace, at its revision or a later one, and its authored history is
the beginning of what it is now. -/
def Keeps (before later : Document) : Prop :=
  ∀ report ∈ before.reports, ∃ report' ∈ later.reports, report'.uid = report.uid ∧
    report'.workspaceUid = report.workspaceUid ∧ report.revision ≤ report'.revision ∧
    report.revisions <+: report'.revisions

def Continues (document later : Json) : Prop :=
  ∀ owner top, readDocument L owner document = .ok top → ∃ owner' top', readDocument L owner' later = .ok top' ∧
    Keeps top top'

/-- A command that moves a report on from an expected revision. -/
def Expects (command : Command) (uid : String) (expected : ℤ) : Prop :=
  ∃ operation workspaceUid markdown note, operationOf command.operation = .ok operation ∧
    normalizeReportRequest L operation command.request =
      .ok (.transition operation workspaceUid expected markdown note) ∧ command.targetReportUid = some uid

/-- The same request under the same key. -/
structure Repeats (command again : Command) : Prop where
  operation : again.operation = command.operation
  request : again.request = command.request
  target : again.targetReportUid = command.targetReportUid
  key : again.idempotencyKey = command.idempotencyKey
  path : again.path = command.path
  digest : again.requestDigest = command.requestDigest

/-- The clock of a command is not ahead of an instant. -/
def NotAfter (time : ℤ) (command : Command) : Prop := ∀ t, momentOf L command.now = some t → t ≤ time

variable {L}

theorem Keeps.refl (top : Document) : Keeps top top :=
  fun report hreport ↦ ⟨report, hreport, rfl, rfl, le_rfl, List.prefix_rfl⟩

theorem Keeps.trans {a b c : Document} (hab : Keeps a b) (hbc : Keeps b c) : Keeps a c := by
  intro report hreport
  obtain ⟨middle, hmiddle, huid, hworkspace, hrevision, hauthored⟩ := hab report hreport
  obtain ⟨last, hlast, huid', hworkspace', hrevision', hauthored'⟩ := hbc middle hmiddle
  exact ⟨last, hlast, huid'.trans huid, hworkspace'.trans hworkspace, hrevision.trans hrevision',
    hauthored.trans hauthored'⟩

theorem Continues.refl (document : Json) : Continues L document document :=
  fun owner top htop ↦ ⟨owner, top, htop, Keeps.refl top⟩

theorem Continues.trans {a b c : Json} (hab : Continues L a b) (hbc : Continues L b c) : Continues L a c := by
  intro owner top htop
  obtain ⟨owner', middle, hmiddle, hkeeps⟩ := hab owner top htop
  obtain ⟨owner'', last, hlast, hkeeps'⟩ := hbc owner' middle hmiddle
  exact ⟨owner'', last, hlast, hkeeps.trans hkeeps'⟩

theorem keeps_of_moves {before final : Document} {report : Report} {body : Body}
    (h : Moves before.reports report body final.reports) : Keeps before final := by
  intro other hother
  generalize hafter : final.reports = after at h
  cases h with
  | created hnew hrevision =>
      exact ⟨other, List.mem_append_left _ hother, rfl, rfl, le_rfl, List.prefix_rfl⟩
  | advanced index old hold hadvances =>
      obtain ⟨place, hplace⟩ := List.mem_iff_getElem?.mp hother
      by_cases hsame : place = index
      · subst hsame
        rw [hold, Option.some.injEq] at hplace
        subst hplace
        have hlt := (List.getElem?_eq_some_iff.mp hold).1
        refine ⟨report, List.mem_set hlt _, hadvances.uid, hadvances.workspace, ?_, hadvances.authored⟩
        rw [hadvances.revision]
        omega
      · have hkept : (before.reports.set index report)[place]? = some other := by
          rw [List.getElem?_set_ne (Ne.symm hsame), hplace]
        exact ⟨other, List.mem_of_getElem? hkept, rfl, rfl, le_rfl, List.prefix_rfl⟩

/-! ## One command -/

variable {document saved : Json}

/-- A command that saves something was carried out. -/
theorem performed_of_saves {command : Command} {answer : Answer}
    (h : executeReportCommand L document command = .ok answer) (hsaves : answer.documentToSave = some saved) :
    ∃ operation body time top final, operationOf command.operation = .ok operation ∧
      normalizeReportRequest L operation command.request = .ok body ∧ momentOf L command.now = some time ∧
      readDocument L body.workspaceUid document = .ok top ∧ saved = final.json ∧
      Performed L command body top time answer final := by
  obtain ⟨operation, body, time, top, hoperation, hbody, htime, htop, hreplayed | ⟨final, hperformed⟩⟩ :=
    executeReportCommand_eq_ok h
  · rw [hreplayed.saves] at hsaves
    cases hsaves
  · have hsaved := hperformed.saves
    rw [hsaves, Option.some.injEq] at hsaved
    exact ⟨operation, body, time, top, final, hoperation, hbody, htime, htop, hsaved, hperformed⟩

theorem performed_of_serve {command : Command} (h : serve L document command = some saved) :
    ∃ answer body time top final, executeReportCommand L document command = .ok answer ∧
      momentOf L command.now = some time ∧ readDocument L body.workspaceUid document = .ok top ∧ saved = final.json ∧
      Performed L command body top time answer final := by
  obtain ⟨answer, hanswer, hsaves⟩ := Option.bind_eq_some_iff.mp h
  obtain ⟨operation, body, time, top, final, -, -, htime, htop, hsaved, hperformed⟩ :=
    performed_of_saves (toOption_eq_some.mp hanswer) hsaves
  exact ⟨answer, body, time, top, final, toOption_eq_some.mp hanswer, htime, htop, hsaved, hperformed⟩

/-- What a command saves is accepted and continues what it was given. -/
theorem serve_continues {command : Command} (h : serve L document command = some saved) :
    Accepted L saved ∧ Continues L document saved := by
  obtain ⟨answer, body, time, top, final, -, -, htop, rfl, hperformed⟩ := performed_of_serve h
  refine ⟨⟨_, _, hperformed.accepted⟩, ?_⟩
  intro owner top' htop'
  cases readDocument_unique htop htop'
  obtain ⟨report, hmoves, -⟩ := hperformed.moves
  exact ⟨_, final, hperformed.accepted, keeps_of_moves hmoves⟩

theorem accepted_after {document : Json} (haccepted : Accepted L document) (run : List Command) :
    Accepted L (after (serve L) document run) :=
  invariant_after haccepted fun _ _ _ _ hserve ↦ (serve_continues hserve).1

theorem continues_after {document : Json} (haccepted : Accepted L document) (run : List Command) :
    Continues L document (after (serve L) document run) :=
  relates_after (P := Accepted L) Continues.refl (fun _ _ _ ↦ Continues.trans) haccepted
    fun _ _ _ _ hserve ↦ serve_continues hserve

/-- A receipt that is retained at an instant is there at that instant, whatever was served before it. -/
theorem receipt_after {document : Json} {receipt : Receipt} {time : ℤ} {run : List Command}
    (hreceipt : ∃ owner top, readDocument L owner document = .ok top ∧ receipt ∈ top.idempotency)
    (hretained : isRetained L time receipt = true) (hclock : ∀ command ∈ run, NotAfter L time command) :
    ∃ owner top, readDocument L owner (after (serve L) document run) = .ok top ∧ receipt ∈ top.idempotency := by
  refine invariant_after_of_mem (P := fun document ↦ ∃ owner top, readDocument L owner document = .ok top ∧
    receipt ∈ top.idempotency) hreceipt ?_ hclock
  rintro document command saved ⟨owner, top, htop, hmem⟩ hnotAfter hserve
  obtain ⟨answer, body, time', top', final, -, htime, htop', rfl, hperformed⟩ := performed_of_serve hserve
  cases readDocument_unique htop htop'
  refine ⟨_, final, hperformed.accepted, ?_⟩
  rw [hperformed.receipts]
  apply List.mem_append_left
  rw [surviving, List.mem_filter]
  refine ⟨hmem, ?_⟩
  have hle := hnotAfter time' htime
  simp only [isRetained, decide_eq_true_eq] at hretained ⊢
  omega

/-! ## Answering again -/

theorem workspace_of_readReports {owner : String} {identities : List String} {taken : List (String × String × String)}
    {values : List Json} {reports : List Report} (h : readReports L owner identities taken values = .ok reports) :
    ∀ report ∈ reports, report.workspaceUid = owner := by
  induction values generalizing identities taken reports with
  | nil =>
      cases h
      simp
  | cons value values ih =>
      simp only [readReports, bind_eq_ok, pure_eq_ok] at h
      obtain ⟨result, hresult, -, -, -, -, rest, hrest, rfl⟩ := h
      intro report hreport
      rcases List.mem_cons.mp hreport with rfl | hreport
      · simp only [readReport, bind_eq_ok, pure_eq_ok, check_eq_ok, beq_iff_eq] at hresult
        obtain ⟨fields, -, uid, -, workspace, -, -, howner, template, -, digest, -, generated, -, state, -, revision,
          -, -, -, archive, -, revisions, -, created, -, updated, -, -, -, coverage, -, rfl⟩ := hresult
        exact howner
      · exact ih hrest report hreport

theorem keys_of_readReceipts {keys : List String} {values : List Json} {receipts : List Receipt}
    (h : readReceipts L keys values = .ok receipts) :
    (receipts.map Receipt.key).Nodup ∧ ∀ receipt ∈ receipts, receipt.key ∉ keys := by
  induction values generalizing keys receipts with
  | nil =>
      cases h
      simp
  | cons value values ih =>
      simp only [readReceipts, bind_eq_ok, pure_eq_ok, check_eq_ok] at h
      obtain ⟨receipt, -, -, hkey, rest, hrest, rfl⟩ := h
      obtain ⟨hnodup, hnew⟩ := ih hrest
      constructor
      · rw [List.map_cons, List.nodup_cons]
        refine ⟨?_, hnodup⟩
        intro hmem
        obtain ⟨other, hother, heq⟩ := List.mem_map.mp hmem
        exact hnew other hother (by simp [heq])
      · intro other hother
        rcases List.mem_cons.mp hother with rfl | hother
        · simpa using hkey
        · exact fun hmem ↦ hnew other hother (List.mem_cons_of_mem _ hmem)

/-- The workspace of the reports, and the keys of the receipts, of an accepted document. -/
theorem of_readDocument {owner : String} {document : Json} {top : Document} (h : readDocument L owner document = .ok top) :
    (∀ report ∈ top.reports, report.workspaceUid = owner) ∧ (top.idempotency.map Receipt.key).Nodup := by
  simp only [readDocument, bind_eq_ok, pure_eq_ok] at h
  obtain ⟨-, -, -, -, fields, -, version, -, -, -, values, -, reports, hreports, records, -, receipts, hreceipts, -, -,
    rfl⟩ := h
  exact ⟨workspace_of_readReports hreports, (keys_of_readReceipts hreceipts).1⟩

theorem identity_of_time {workspaceUid key path requestDigest now now' : String} {time time' : ℤ}
    (h : identity L workspaceUid key path requestDigest now = .ok time) (htime : momentOf L now' = some time') :
    identity L workspaceUid key path requestDigest now' = .ok time' := by
  simp only [identity, bind_eq_ok, pure_eq_ok] at h ⊢
  obtain ⟨_, howner, _, hkey, _, hpath, _, hdigest, -⟩ := h
  have hmoment : moment L "now" (.str now') = .ok (now', time') := by simp [moment, htime]
  exact ⟨_, howner, _, hkey, _, hpath, _, hdigest, (now', time'), hmoment, rfl⟩

/-- An accepted command is answered from its receipt wherever the receipt is still retained. -/
theorem executeReportCommand_of_receipt {document later : Json} {command again : Command} {answer : Answer}
    {operation : Operation} {body : Body} {top : Document} {receipt : Receipt} {time : ℤ}
    (h : executeReportCommand L document command = .ok answer) (hoperation : operationOf command.operation = .ok operation)
    (hbody : normalizeReportRequest L operation command.request = .ok body) (hrepeats : Repeats command again)
    (htime : momentOf L again.now = some time) (htop : readDocument L body.workspaceUid later = .ok top)
    (hmem : receipt ∈ top.idempotency) (hretained : isRetained L time receipt = true)
    (hkey : receipt.key = command.idempotencyKey) (hpath : receipt.path = command.path)
    (hdigest : receipt.requestDigest = command.requestDigest) :
    executeReportCommand L later again = .ok ⟨none, receipt.responseStatus, receipt.data, true⟩ := by
  simp only [executeReportCommand, hoperation, bind_eq_ok, Except.ok.injEq] at h
  obtain ⟨_, rfl, _, hsame, _, htarget, prepared, hprepared, -⟩ := h
  cases ok_unique hbody hsame
  simp only [prepareReportReplay, bind_eq_ok] at hprepared
  obtain ⟨time', hidentity, -⟩ := hprepared
  have hnodup : ((surviving L time top.idempotency).map Receipt.key).Nodup :=
    (of_readDocument htop).2.sublist (List.filter_sublist.map _)
  have hfind := Receipts.find_of_mem hnodup (List.mem_filter.mpr ⟨hmem, hretained⟩)
  rw [hkey] at hfind
  have hagain : prepareReportReplay L later body.workspaceUid command.idempotencyKey command.path command.requestDigest
      again.now = .ok ({ top with idempotency := surviving L time top.idempotency }, some receipt) := by
    simp only [prepareReportReplay, bind_eq_ok]
    refine ⟨time, identity_of_time hidentity htime, top, htop, ?_⟩
    simp only [hfind, hpath, hdigest, and_self, if_true]
    rfl
  simp only [executeReportCommand, hrepeats.operation, hrepeats.request, hrepeats.target, hrepeats.key, hrepeats.path,
    hrepeats.digest, hoperation, bind_eq_ok, Except.ok.injEq]
  exact ⟨_, rfl, _, hbody, _, htarget, _, hagain, rfl⟩

/-! ## Whole runs -/

variable (L)

/-- What holds of a document of reports, and of everything that is done from it on. -/
structure Sound (document : Json) (top : Document) : Prop where
  accepted : ∃ owner, readDocument L owner document = .ok top
  periods : top.reports.Pairwise fun a b ↦ a.state.isArchived = false → b.state.isArchived = false →
    a.coverage L ≠ b.coverage L
  saved : ∀ command answer saved, executeReportCommand L document command = .ok answer →
    answer.documentToSave = some saved → ∃ operation body owner final report,
      operationOf command.operation = .ok operation ∧
      normalizeReportRequest L operation command.request = .ok body ∧ readDocument L owner saved = .ok final ∧
      Moves top.reports report body final.reports ∧ ∀ uid, command.targetReportUid = some uid → report.uid = uid
  authored : ∀ rest, ∃ owner later, readDocument L owner (after (serve L) document rest) = .ok later ∧ Keeps top later
  exclusive : ∀ command answer saved uid expected, executeReportCommand L document command = .ok answer →
    answer.documentToSave = some saved → Expects L command uid expected → ∀ rest other answer',
      Expects L other uid expected → executeReportCommand L (after (serve L) saved rest) other = .ok answer' →
        answer'.documentToSave = none
  repeated : ∀ command answer saved, executeReportCommand L document command = .ok answer →
    answer.documentToSave = some saved → ∀ rest again start time, Repeats command again →
      momentOf L command.now = some start → momentOf L again.now = some time → time - start < retentionSeconds →
      (∀ other ∈ rest, NotAfter L time other) → executeReportCommand L (after (serve L) saved rest) again =
        .ok ⟨none, answer.responseStatus, answer.data, true⟩

variable {L}

/-- Two commands that expect one revision of a report are not both carried out. -/
theorem exclusive_of_performed {command other : Command} {answer answer' : Answer} {uid : String} {expected : ℤ}
    (h : executeReportCommand L document command = .ok answer) (hsaves : answer.documentToSave = some saved)
    (hexpects : Expects L command uid expected) (rest : List Command) (hexpects' : Expects L other uid expected)
    (h' : executeReportCommand L (after (serve L) saved rest) other = .ok answer') : answer'.documentToSave = none := by
  obtain ⟨operation, body, time, top, final, hoperation, hbody, -, -, rfl, hperformed⟩ := performed_of_saves h hsaves
  obtain ⟨_, workspaceUid, markdown, note, hoperation', hbody', htarget⟩ := hexpects
  cases ok_unique hoperation hoperation'
  cases ok_unique hbody hbody'
  obtain ⟨report, hmoves, hmem, huid⟩ := hperformed.moves
  have hrevision : report.revision = expected + 1 := by
    generalize final.reports = reports at hmoves
    cases hmoves with
    | advanced index old hold hadvances => exact hadvances.revision
  obtain ⟨owner, later, hlater, hkeeps⟩ := continues_after ⟨_, _, hperformed.accepted⟩ rest _ _ hperformed.accepted
  obtain ⟨kept, hkept, hkeptUid, -, hle, -⟩ := hkeeps report hmem
  cases hsaves' : answer'.documentToSave with
  | none => rfl
  | some saved' =>
      exfalso
      obtain ⟨_, body', _, top', final', hoperation₁, hbody₁, -, htop', -, hperformed'⟩ := performed_of_saves h' hsaves'
      obtain ⟨_, workspaceUid', markdown', note', hoperation₂, hbody₂, htarget'⟩ := hexpects'
      cases ok_unique hoperation₁ hoperation₂
      cases ok_unique hbody₁ hbody₂
      cases readDocument_unique hlater htop'
      obtain ⟨report', hmoves', -, huid'⟩ := hperformed'.moves
      generalize final'.reports = reports' at hmoves'
      cases hmoves' with
      | advanced index old hold hadvances =>
          have hsameUid : kept.uid = old.uid := by
            rw [hkeptUid, huid uid htarget, ← huid' uid htarget', hadvances.uid]
          have hdistinct := (wellKept_of_readDocument hlater).distinct
          have hsame := List.inj_on_of_nodup_map hdistinct hkept (List.mem_of_getElem? hold) hsameUid
          rw [hsame] at hle
          omega

/-- A command that is repeated while its receipt is retained is answered as it was answered first. -/
theorem repeated_of_performed {command again : Command} {answer : Answer} {start time : ℤ} {rest : List Command}
    (h : executeReportCommand L document command = .ok answer) (hsaves : answer.documentToSave = some saved)
    (hrepeats : Repeats command again) (hstart : momentOf L command.now = some start)
    (htime : momentOf L again.now = some time) (hwindow : time - start < retentionSeconds)
    (hclock : ∀ other ∈ rest, NotAfter L time other) :
    executeReportCommand L (after (serve L) saved rest) again =
      .ok ⟨none, answer.responseStatus, answer.data, true⟩ := by
  obtain ⟨operation, body, _, top, final, hoperation, hbody, -, -, rfl, hperformed⟩ := performed_of_saves h hsaves
  have hreceipt : (⟨command.idempotencyKey, command.path, command.requestDigest, answer.responseStatus, answer.data,
      command.now⟩ : Receipt) ∈ final.idempotency := by
    rw [hperformed.receipts]
    simp
  have hretained : isRetained L time ⟨command.idempotencyKey, command.path, command.requestDigest,
      answer.responseStatus, answer.data, command.now⟩ = true := by
    simp only [isRetained, receiptTime, hstart, Option.getD_some, decide_eq_true_eq]
    exact hwindow
  obtain ⟨owner, later, hlater, hmem⟩ := receipt_after ⟨_, _, hperformed.accepted, hreceipt⟩ hretained hclock
  -- a report of the workspace is there, so whoever reads the document later is that workspace
  obtain ⟨report, -, hreport, -⟩ := hperformed.moves
  obtain ⟨owner', later', hlater', hkeeps⟩ := continues_after ⟨_, _, hperformed.accepted⟩ rest _ _ hperformed.accepted
  obtain ⟨kept, hkept, -, hworkspace, -⟩ := hkeeps report hreport
  cases readDocument_unique hlater hlater'
  have howner : owner = body.workspaceUid := by
    rw [← (of_readDocument hlater).1 kept hkept, hworkspace]
    exact (of_readDocument hperformed.accepted).1 report hreport
  subst howner
  exact executeReportCommand_of_receipt h hoperation hbody hrepeats htime hlater hmem hretained rfl rfl rfl

/-- Whatever commands are made on an accepted document, it stays sound. -/
theorem reports_sound_over_runs {start : Json} (haccepted : Accepted L start) (run : List Command) :
    ∃ top, Sound L (after (serve L) start run) top := by
  obtain ⟨owner, top, htop⟩ := accepted_after haccepted run
  refine ⟨top, ⟨owner, htop⟩, (wellKept_of_readDocument htop).periods, ?_, ?_, ?_, ?_⟩
  · intro command answer saved h hsaves
    obtain ⟨operation, body, _, top', final, hoperation, hbody, -, htop', rfl, hperformed⟩ := performed_of_saves h hsaves
    cases readDocument_unique htop htop'
    obtain ⟨report, hmoves, -, huid⟩ := hperformed.moves
    exact ⟨operation, body, _, final, report, hoperation, hbody, hperformed.accepted, hmoves, huid⟩
  · intro rest
    exact continues_after ⟨owner, top, htop⟩ rest owner top htop
  · intro command answer saved uid expected h hsaves hexpects rest other answer' hexpects' h'
    exact exclusive_of_performed h hsaves hexpects rest hexpects' h'
  · intro command answer saved h hsaves rest again start' time hrepeats hstart htime hwindow hclock
    exact repeated_of_performed h hsaves hrepeats hstart htime hwindow hclock

end Runs

/-! ## A run -/

/-- The libraries on ASCII texts and on the stamps that the reports carry. -/
def sampleLibrary : Library where
  toPlatform := asciiPlatform [] []
  strptime text := (asciiInterpreter.parseUtc text).map Stamp.seconds
  isFinite _ := true

def sampleOwner : String := "6f1c2b7e-9a54-4d3e-8f10-2b7c5a9d4e61"

def sampleReportUid : String := "0c3e6a9d-1b2f-4c5d-8e7f-a0b1c2d3e4f5"

def sampleDigest : String := "sha256:9f86d081884c7d659a2feaa0c55ad015a3bf4f1b2b0b822cd15d6c15b0f00a08"

def sampleCommand (operation key : String) (request : Json) (target : Option String) (now : String) : Command where
  operation := operation
  request := request
  targetReportUid := target
  idempotencyKey := key
  path := "/api/v1/reports"
  requestDigest := sampleDigest
  now := now
  allocateReportUid := some sampleReportUid
  currentDayDigest _ := some sampleDigest

def sampleCreate : Json := .obj [
  ("workspace_uid", .str sampleOwner),
  ("template", .str templateDailyV1),
  ("period", .obj [("kind", .str "day"), ("date", .str "2026-09-01")]),
  ("source_digest", .str sampleDigest),
  ("source_generated_at", .str "2026-09-01T18:00:00+00:00"),
  ("markdown", .str "Day")]

def sampleFinalize : Json := .obj [("workspace_uid", .str sampleOwner), ("expected_revision", .int 1)]

/-- A report is created and finalized, and the creation is repeated. -/
def sampleCommands : List Command := [
  sampleCommand "create" "create-0901" sampleCreate none "2026-09-01T18:05:00Z",
  sampleCommand "finalize" "finalize-0901" sampleFinalize (some sampleReportUid) "2026-09-01T18:10:00Z",
  sampleCommand "create" "create-0901" sampleCreate none "2026-09-02T09:00:00Z"]

theorem reports_sound_over_sample_commands :
    ∃ top, Sound sampleLibrary (after (serve sampleLibrary) (Document.json ⟨[], []⟩) sampleCommands) top := by
  apply reports_sound_over_runs
  have hempty : (readDocument sampleLibrary sampleOwner (Document.json ⟨[], []⟩)).toOption.isSome = true := by
    decide
  obtain ⟨top, htop⟩ := Option.isSome_iff_exists.mp hempty
  exact ⟨sampleOwner, top, toOption_eq_some.mp htop⟩

end WorkStack.Reports
