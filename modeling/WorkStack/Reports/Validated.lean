import WorkStack.Reports.Plans

/-!
# What the validator accepts

A document that was written and is accepted is read back as it was, whichever workspace asks for it. In an
accepted document the reports have distinct identities and occupy distinct periods, and the receipts have
distinct keys. An accepted document with fewer receipts, or with one more that is accepted on its own, is
accepted again if it is not too large.
-/

open WorkStack.Python WorkStack.Effect WorkStack.Effect.Refusing

namespace WorkStack.Reports

theorem check_eq_ok {condition : Bool} {refusal : Refusal} {result : Unit} :
    check condition refusal = .ok result ↔ condition = true := by
  simp [check]

section ReadBack

variable {L : Library} {owner field : String}

/-! ## What was written is read back -/

theorem exactDict_obj {keys : List String} {fields result : Dict String Json}
    (h : exactDict keys field (.obj fields) = .ok result) : result = fields := by
  simp only [exactDict, ite_ok_eq_ok, Except.ok.injEq] at h
  exact h.2.symm

theorem exactStr_str {text result : String} (h : exactStr field (.str text) = .ok result) : result = text :=
  (Except.ok.inj h).symm

theorem exactInt_int {value result : ℤ} (h : exactInt field (.int value) = .ok result) : result = value :=
  (Except.ok.inj h).symm

theorem exactList_arr {bound : ℕ} {items result : List Json} (h : exactList bound field (.arr items) = .ok result) :
    result = items := by
  simp only [exactList, ite_ok_eq_ok, Except.ok.injEq] at h
  exact h.2.symm

theorem matched_str {accepts : String → Bool} {text result : String}
    (h : matched accepts field (.str text) = .ok result) : result = text ∧ accepts text = true := by
  simp only [matched, ite_ok_eq_ok, Except.ok.injEq] at h
  exact ⟨h.2.symm, h.1⟩

variable {value : Json}

theorem accepted_of_matched {accepts : String → Bool} {text : String} (h : matched accepts field value = .ok text) :
    accepts text = true := by
  cases value with
  | str found =>
      simp only [matched] at h
      split at h
      · rename_i haccepts
        cases h
        exact haccepts
      · cases h
  | _ => cases h

theorem moment_str {text : String} {result : String × ℤ} (h : moment L field (.str text) = .ok result) :
    result.1 = text ∧ momentOf L text = some result.2 := by
  cases htime : momentOf L text with
  | none => simp [moment, htime] at h
  | some time =>
      simp only [moment, htime, Except.ok.injEq] at h
      rw [← h]
      exact ⟨rfl, rfl⟩

theorem noteOf_textOrNull {note result : Option String} (h : noteOf (textOrNull note) = .ok result) : result = note := by
  cases note with
  | none => exact (Except.ok.inj h).symm
  | some text =>
      simp only [textOrNull, Option.map_some, Option.getD_some, noteOf, bind_eq_ok, pure_eq_ok] at h
      obtain ⟨read, hread, rfl⟩ := h
      rw [(matched_str hread).1]

theorem templateOf_str {text result : String} (h : templateOf (.str text) = .ok result) : result = text := by
  simp only [templateOf, bind_eq_ok, pure_eq_ok] at h
  obtain ⟨read, hread, -, -, rfl⟩ := h
  exact exactStr_str hread

theorem readEntry_json {index : ℕ} {previous revision : ℤ} {entry result : Entry}
    (h : readEntry L index previous revision entry.json = .ok result) : result = entry := by
  simp only [readEntry, Entry.json, bind_eq_ok, pure_eq_ok] at h
  obtain ⟨fields, hfields, content, hcontent, -, -, written, hwritten, -, -, markdown, hmarkdown, authored, hauthored,
    note, hnote, rfl⟩ := h
  cases exactDict_obj hfields
  rw [exactInt_int hcontent, exactInt_int hwritten, (matched_str hmarkdown).1, (moment_str hauthored).1,
    noteOf_textOrNull hnote]

theorem readEntries_map_json {revision previous : ℤ} {index : ℕ} {entries result : List Entry}
    (h : readEntries L revision index previous (entries.map Entry.json) = .ok result) : result = entries := by
  induction entries generalizing index previous result with
  | nil => exact (Except.ok.inj h).symm
  | cons entry entries ih =>
      simp only [List.map_cons, readEntries, bind_eq_ok, pure_eq_ok] at h
      obtain ⟨read, hread, rest, hrest, rfl⟩ := h
      rw [readEntry_json hread, ih hrest]

theorem readHistory_arr {revision : ℤ} {entries result : List Entry}
    (h : readHistory L revision (.arr (entries.map Entry.json)) = .ok result) : result = entries := by
  simp only [readHistory, bind_eq_ok] at h
  obtain ⟨values, hvalues, -, -, hentries⟩ := h
  cases exactList_arr hvalues
  exact readEntries_map_json hentries

@[simp] theorem named_text (standing : Standing) : Standing.named standing.text = standing := by
  cases standing <;> simp [Standing.named, Standing.text]

theorem text_eq_archived {state : ReportState} : state.text = "archived" ↔ state.isArchived = true := by
  rcases state with ⟨_ | _⟩ | _ <;> simp [ReportState.text, ReportState.isArchived, Standing.text]

/-- The state is read from its text and from the fields that belong to it. -/
theorem readState_text {state result : ReportState} {fields : Dict String Json}
    (hformer : item fields "archived_from_state" = item state.archiveFields "archived_from_state")
    (hat : item fields "archived_at" = item state.archiveFields "archived_at")
    (hnote : item fields "archive_note" = item state.archiveFields "archive_note")
    (h : readState L state.text fields = .ok result) : result = state := by
  cases state with
  | active standing =>
      have htext : (ReportState.active standing).text ≠ "archived" := by
        rw [Ne, text_eq_archived]
        exact Bool.false_ne_true
      simp only [readState, htext, if_false, bind_eq_ok, pure_eq_ok] at h
      obtain ⟨-, -, rfl⟩ := h
      rw [ReportState.text, named_text]
  | archived former archivedAt note =>
      have htext : (ReportState.archived former archivedAt note).text = "archived" := rfl
      simp only [readState, htext, if_true, bind_eq_ok, pure_eq_ok, hformer, hat, hnote] at h
      obtain ⟨text, htext, at', hat', note', hnote', rfl⟩ := h
      have hread : text = former.text := (matched_str htext).1
      rw [hread, named_text, (moment_str hat').1, noteOf_textOrNull hnote']

theorem readReport_json {report : Report} {result : Report × Option (String × String × String)}
    (h : readReport L owner report.json = .ok result) : result.1 = report := by
  obtain ⟨uid, workspaceUid, template, period, digest, generatedAt, state, revision, revisions, createdAt, updatedAt⟩ :=
    report
  simp only [readReport, Report.json, bind_eq_ok, pure_eq_ok] at h
  obtain ⟨fields, hfields, uid', huid, workspace', hworkspace, -, -, template', htemplate, digest', hdigest, generated',
    hgenerated, state', hstate, revision', hrevision, -, -, archive, harchive, revisions', hrevisions, created, hcreated,
    updated, hupdated, -, -, coverage, -, rfl⟩ := h
  cases exactDict_obj hfields
  cases state with
  | active standing =>
      rw [(matched_str huid).1, (matched_str hworkspace).1, templateOf_str htemplate, (matched_str hdigest).1,
        (matched_str hgenerated).1, exactInt_int hrevision, readHistory_arr hrevisions, (moment_str hcreated).1,
        (moment_str hupdated).1]
      cases (matched_str hstate).1
      rw [readState_text rfl rfl rfl harchive]
      rfl
  | archived former archivedAt note =>
      rw [(matched_str huid).1, (matched_str hworkspace).1, templateOf_str htemplate, (matched_str hdigest).1,
        (matched_str hgenerated).1, exactInt_int hrevision, readHistory_arr hrevisions, (moment_str hcreated).1,
        (moment_str hupdated).1]
      cases (matched_str hstate).1
      rw [readState_text rfl rfl rfl harchive]
      rfl

variable {taken : List (String × String × String)}

theorem readReports_map_json {identities : List String} {reports result : List Report}
    (h : readReports L owner identities taken (reports.map Report.json) = .ok result) :
    result = reports := by
  induction reports generalizing identities taken result with
  | nil => exact (Except.ok.inj h).symm
  | cons report reports ih =>
      simp only [List.map_cons, readReports, bind_eq_ok, pure_eq_ok] at h
      obtain ⟨read, hread, -, -, -, -, rest, hrest, rfl⟩ := h
      rw [readReport_json hread, ih hrest]

theorem readBody_body {data result : Dict String Json} (h : readBody (Receipt.body data false) = .ok result) :
    result = data := by
  simp only [readBody, Receipt.body, bind_eq_ok] at h
  obtain ⟨fields, hfields, h⟩ := h
  cases exactDict_obj hfields
  have hdata : (if holdsHistory (.obj data) then Except.error (invalid "response_body") else .ok data : Checked _) =
      .ok result := h
  rw [ite_eq_ok, Except.ok.injEq] at hdata
  exact hdata.2.symm

theorem readReceipt_json {receipt result : Receipt} (h : readReceipt L receipt.json = .ok result) : result = receipt := by
  simp only [readReceipt, Receipt.json, bind_eq_ok, pure_eq_ok] at h
  obtain ⟨fields, hfields, key, hkey, -, -, path, hpath, digest, hdigest, status, hstatus, -, -, data, hdata, created,
    hcreated, -, -, rfl⟩ := h
  cases exactDict_obj hfields
  rw [(matched_str hkey).1, (matched_str hpath).1, (matched_str hdigest).1, exactInt_int hstatus, readBody_body hdata,
    (moment_str hcreated).1]

theorem readReceipts_map_json {keys : List String} {receipts result : List Receipt}
    (h : readReceipts L keys (receipts.map Receipt.json) = .ok result) : result = receipts := by
  induction receipts generalizing keys result with
  | nil => exact (Except.ok.inj h).symm
  | cons receipt receipts ih =>
      simp only [List.map_cons, readReceipts, bind_eq_ok, pure_eq_ok] at h
      obtain ⟨read, hread, -, -, rest, hrest, rfl⟩ := h
      rw [readReceipt_json hread, ih hrest]

/-- A document that was written and is accepted is read back as it was. -/
theorem readDocument_json {document result : Document} (h : readDocument L owner document.json = .ok result) :
    result = document := by
  simp only [readDocument, Document.json, Document.fields, bind_eq_ok, pure_eq_ok] at h
  obtain ⟨-, -, -, -, top, htop, version, -, -, -, values, hvalues, reports, hreports, records, hrecords, receipts,
    hreceipts, -, -, rfl⟩ := h
  cases exactDict_obj htop
  cases exactList_arr hvalues
  cases exactList_arr hrecords
  rw [readReports_map_json hreports, readReceipts_map_json hreceipts]

/-! ## What is read does not depend on who reads -/

theorem ok_unique {α : Type} {x : Checked α} {a b : α} (h : x = .ok a) (h' : x = .ok b) : a = b :=
  Except.ok.inj (h.symm.trans h')

variable {owner' : String}

theorem readReport_unique {result result' : Report × Option (String × String × String)}
    (h : readReport L owner value = .ok result) (h' : readReport L owner' value = .ok result') : result = result' := by
  simp only [readReport, bind_eq_ok, pure_eq_ok] at h h'
  obtain ⟨fields, hfields, uid, huid, workspace, hworkspace, -, -, template, htemplate, digest, hdigest, generated,
    hgenerated, state, hstate, revision, hrevision, -, -, archive, harchive, revisions, hrevisions, created, hcreated,
    updated, hupdated, -, -, coverage, hcoverage, rfl⟩ := h
  obtain ⟨_, hfields', _, huid', _, hworkspace', -, -, _, htemplate', _, hdigest', _, hgenerated', _, hstate', _,
    hrevision', -, -, _, harchive', _, hrevisions', _, hcreated', _, hupdated', -, -, _, hcoverage', rfl⟩ := h'
  cases ok_unique hfields hfields'
  cases ok_unique huid huid'
  cases ok_unique hworkspace hworkspace'
  cases ok_unique htemplate htemplate'
  cases ok_unique hdigest hdigest'
  cases ok_unique hgenerated hgenerated'
  cases ok_unique hstate hstate'
  cases ok_unique hrevision hrevision'
  cases ok_unique harchive harchive'
  cases ok_unique hrevisions hrevisions'
  cases ok_unique hcreated hcreated'
  cases ok_unique hupdated hupdated'
  cases ok_unique hcoverage hcoverage'
  rfl

theorem readReports_unique {identities : List String} {values : List Json} {reports reports' : List Report}
    (h : readReports L owner identities taken values = .ok reports)
    (h' : readReports L owner' identities taken values = .ok reports') : reports = reports' := by
  induction values generalizing identities taken reports reports' with
  | nil => exact ok_unique h h'
  | cons value values ih =>
      simp only [readReports, bind_eq_ok, pure_eq_ok] at h h'
      obtain ⟨report, hreport, -, -, -, -, rest, hrest, rfl⟩ := h
      obtain ⟨report', hreport', -, -, -, -, rest', hrest', rfl⟩ := h'
      cases readReport_unique hreport hreport'
      rw [ih hrest hrest']

/-- What is read of a document does not depend on the workspace that it was accepted for. -/
theorem readDocument_unique {document document' : Document} (h : readDocument L owner value = .ok document)
    (h' : readDocument L owner' value = .ok document') :
    document = document' := by
  simp only [readDocument, bind_eq_ok, pure_eq_ok] at h h'
  obtain ⟨-, -, -, -, top, htop, version, -, -, -, values, hvalues, reports, hreports, records, hrecords, receipts,
    hreceipts, -, -, rfl⟩ := h
  obtain ⟨-, -, -, -, _, htop', _, -, -, -, _, hvalues', _, hreports', _, hrecords', _, hreceipts', -, -, rfl⟩ := h'
  cases ok_unique htop htop'
  cases ok_unique hvalues hvalues'
  cases ok_unique hrecords hrecords'
  cases ok_unique hreceipts hreceipts'
  rw [readReports_unique hreports hreports']

/-! ## Reports that were accepted -/

theorem of_readReport {result : Report × Option (String × String × String)}
    (h : readReport L owner value = .ok result) :
    occupied L result.1 = .ok result.2 := by
  simp only [readReport, bind_eq_ok, pure_eq_ok] at h
  obtain ⟨fields, -, uid, -, workspace, -, -, -, template, -, digest, -, generated, -, state, -, revision, -, -, -,
    archive, -, revisions, -, created, -, updated, -, -, -, coverage, hcoverage, rfl⟩ := h
  exact hcoverage

theorem occupied_eq_ok {report : Report} {coverage : Option (String × String × String)}
    (h : occupied L report = .ok coverage) (hactive : report.state.isArchived = false) :
    ∃ period, coverage = some period ∧ report.coverage L = .ok period := by
  simp only [occupied, hactive, Bool.false_eq_true, if_false, bind_eq_ok, Except.ok.injEq] at h
  obtain ⟨period, hperiod, rfl⟩ := h
  exact ⟨period, rfl, hperiod⟩

/-- What an accepted list of reports is, after identities and periods that were seen before it. -/
structure WellKept (L : Library) (identities : List String) (taken : List (String × String × String))
    (reports : List Report) : Prop where
  distinct : (reports.map Report.uid).Nodup
  newIdentities : ∀ report ∈ reports, report.uid ∉ identities
  covered : ∀ report ∈ reports, report.state.isArchived = false → ∃ period, report.coverage L = .ok period ∧
    period ∉ taken
  periods : reports.Pairwise fun a b ↦ a.state.isArchived = false → b.state.isArchived = false →
    a.coverage L ≠ b.coverage L

theorem wellKept_of_readReports {identities : List String} {values : List Json} {reports : List Report}
    (h : readReports L owner identities taken values = .ok reports) :
    WellKept L identities taken reports := by
  induction values generalizing identities taken reports with
  | nil =>
      cases h
      exact ⟨List.nodup_nil, by simp, by simp, List.Pairwise.nil⟩
  | cons value values ih =>
      simp only [readReports, bind_eq_ok, pure_eq_ok, check_eq_ok] at h
      obtain ⟨⟨report, coverage⟩, hreport, -, hidentity, -, hfree, rest, hrest, rfl⟩ := h
      have hkept := ih hrest
      have hoccupied := of_readReport hreport
      refine ⟨?_, ?_, ?_, ?_⟩
      · rw [List.map_cons, List.nodup_cons]
        refine ⟨?_, hkept.distinct⟩
        intro hmem
        obtain ⟨other, hother, heq⟩ := List.mem_map.mp hmem
        exact hkept.newIdentities other hother (by simp [heq])
      · intro other hother
        rcases List.mem_cons.mp hother with rfl | hother
        · simpa using hidentity
        · exact fun hmem ↦ hkept.newIdentities other hother (List.mem_cons_of_mem _ hmem)
      · intro other hother hactive
        rcases List.mem_cons.mp hother with rfl | hother
        · obtain ⟨period, rfl, hperiod⟩ := occupied_eq_ok hoccupied hactive
          exact ⟨period, hperiod, by simpa [isFree] using hfree⟩
        · obtain ⟨period, hperiod, hnot⟩ := hkept.covered other hother hactive
          exact ⟨period, hperiod, fun hmem ↦ hnot (List.mem_append_right _ hmem)⟩
      · rw [List.pairwise_cons]
        refine ⟨?_, hkept.periods⟩
        intro other hother hactive hactive' heq
        obtain ⟨period, rfl, hperiod⟩ := occupied_eq_ok hoccupied hactive
        obtain ⟨period', hperiod', hnot⟩ := hkept.covered other hother hactive'
        change report.coverage L = .ok period at hperiod
        rw [hperiod, hperiod', Except.ok.injEq] at heq
        exact hnot (List.mem_append_left _ (by simp [heq]))

theorem wellKept_of_readDocument {document : Document} (h : readDocument L owner value = .ok document) :
    WellKept L [] [] document.reports := by
  simp only [readDocument, bind_eq_ok, pure_eq_ok] at h
  obtain ⟨-, -, -, -, top, -, version, -, -, -, values, -, reports, hreports, records, -, receipts, -, -, -, rfl⟩ := h
  exact wellKept_of_readReports hreports

/-! ## Receipts that were accepted -/

theorem readReceipts_map_json_eq_ok {keys : List String} {receipts : List Receipt} :
    readReceipts L keys (receipts.map Receipt.json) = .ok receipts ↔
      (∀ receipt ∈ receipts, readReceipt L receipt.json = .ok receipt) ∧ (receipts.map Receipt.key).Nodup ∧
        ∀ receipt ∈ receipts, receipt.key ∉ keys := by
  induction receipts generalizing keys with
  | nil => simp [readReceipts]
  | cons receipt receipts ih =>
      simp only [List.map_cons, readReceipts, bind_eq_ok, pure_eq_ok, check_eq_ok, List.forall_mem_cons,
        List.nodup_cons]
      constructor
      · rintro ⟨read, hread, -, hkey, rest, hrest, heq⟩
        obtain ⟨rfl, rfl⟩ := List.cons.inj heq
        obtain ⟨heach, hnodup, hnew⟩ := ih.mp hrest
        refine ⟨⟨hread, heach⟩, ⟨?_, hnodup⟩, by simpa using hkey, ?_⟩
        · intro hmem
          obtain ⟨other, hother, hsame⟩ := List.mem_map.mp hmem
          exact hnew other hother (by simp [hsame])
        · exact fun other hother hmem ↦ hnew other hother (List.mem_cons_of_mem _ hmem)
      · rintro ⟨⟨hread, heach⟩, ⟨hnot, hnodup⟩, hkey, hnew⟩
        refine ⟨receipt, hread, (), by simpa using hkey, receipts, ih.mpr ⟨heach, hnodup, ?_⟩, rfl⟩
        intro other hother hmem
        rcases List.mem_cons.mp hmem with hsame | hmem
        · exact hnot (List.mem_map.mpr ⟨other, hother, hsame⟩)
        · exact hnew other hother hmem

theorem areSafe_eq_all (depth : ℕ) (items : List Json) : areSafe L depth items = items.all (isSafe L depth) := by
  induction items with
  | nil => rfl
  | cons item items ih => rw [areSafe, ih, List.all_cons]

theorem fieldsSafe_eq_all (depth : ℕ) (fields : List (String × Json)) :
    fieldsSafe L depth fields = fields.all fun field ↦ isSafe L depth field.2 := by
  induction fields with
  | nil => rfl
  | cons field fields ih => rw [fieldsSafe, ih, fieldSafe, List.all_cons]

@[simp] theorem item_version (document : Document) : item document.fields "version" = .int 1 := rfl

@[simp] theorem item_reports (document : Document) :
    item document.fields "reports" = .arr (document.reports.map Report.json) := rfl

@[simp] theorem item_idempotency (document : Document) :
    item document.fields "idempotency" = .arr (document.idempotency.map Receipt.json) := rfl

theorem exactDict_json (document : Document) : exactDict topKeys "document" document.json = .ok document.fields := by
  simp [exactDict, Document.json, Document.fields, hasKeys, topKeys, Dict.keys]

theorem isSafe_json {document : Document} :
    isSafe L 0 document.json = true ↔
      (∀ report ∈ document.reports, isSafe L 2 report.json = true) ∧
        ∀ receipt ∈ document.idempotency, isSafe L 2 receipt.json = true := by
  simp [Document.json, Document.fields, isSafe, fieldsSafe, fieldSafe, areSafe_eq_all, maxReportJsonDepth]

/-- What an accepted log of receipts is. -/
structure WellAnswered (L : Library) (receipts : List Receipt) : Prop where
  safe : ∀ receipt ∈ receipts, isSafe L 2 receipt.json = true
  each : ∀ receipt ∈ receipts, readReceipt L receipt.json = .ok receipt
  keys : (receipts.map Receipt.key).Nodup
  bounded : receipts.length ≤ reportLedgerMaxRecords

theorem exactList_map_eq_ok {α : Type} {bound : ℕ} {items : List α} {write : α → Json} {result : List Json} :
    exactList bound field (.arr (items.map write)) = .ok result ↔
      items.length ≤ bound ∧ items.map write = result := by
  simp only [exactList, ite_ok_eq_ok, Except.ok.injEq, List.length_map]

/-- A written document is accepted when its reports are, its receipts are, and it is not too large. -/
theorem readDocument_json_eq_ok {document : Document} :
    readDocument L owner document.json = .ok document ↔
      isUuidAny owner = true ∧ (∀ report ∈ document.reports, isSafe L 2 report.json = true) ∧
        document.reports.length ≤ maxReportDocuments ∧
        readReports L owner [] [] (document.reports.map Report.json) = .ok document.reports ∧
        WellAnswered L document.idempotency ∧ document.json.size ≤ maxReportsBytes := by
  simp only [readDocument, bind_eq_ok, pure_eq_ok, check_eq_ok, jsonSafe, exactDict_json, Except.ok.injEq,
    isSafe_json, decide_eq_true_eq]
  constructor
  · rintro ⟨-, howner, -, ⟨hsafeReports, hsafeReceipts⟩, _, rfl, version, -, -, -, values, hvalues, reports, hreports,
      records, hrecords, receipts, hreceipts, -, hsize, hdocument⟩
    obtain ⟨hlength, rfl⟩ := exactList_map_eq_ok.mp hvalues
    obtain ⟨hbounded, rfl⟩ := exactList_map_eq_ok.mp hrecords
    cases hdocument
    obtain ⟨heach, hnodup, -⟩ := readReceipts_map_json_eq_ok.mp hreceipts
    exact ⟨howner, hsafeReports, hlength, hreports, ⟨hsafeReceipts, heach, hnodup, hbounded⟩, hsize⟩
  · rintro ⟨howner, hsafe, hlength, hreports, hanswered, hsize⟩
    have hread := (@readReceipts_map_json_eq_ok L [] document.idempotency).mpr ⟨hanswered.each, hanswered.keys, by simp⟩
    exact ⟨(), howner, (), ⟨hsafe, hanswered.safe⟩, _, rfl, 1, rfl, (), rfl, _, exactList_map_eq_ok.mpr ⟨hlength, rfl⟩,
      _, hreports, _, exactList_map_eq_ok.mpr ⟨hanswered.bounded, rfl⟩, _, hread, (), hsize, rfl⟩

end ReadBack

end WorkStack.Reports
