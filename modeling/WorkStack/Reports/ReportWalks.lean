import WorkStack.Python.IsoDates
import WorkStack.Reports.ListedReports

/-!
# Walks through the reports

The list of a filter is sorted by the update and then by the uid, so every report has its place in it. A page begins
behind the report of its cursor, and the walk from the first page on shows the whole list.
-/

open WorkStack.Python WorkStack.Effect.Refusing WorkStack.Effect.Paging

namespace WorkStack.Reports

variable {L : Library}

/-! ## The order of the list -/

/-- The latest update comes first, and the smaller uid where the updates are the same. -/
def Precedes (a b : Report) : Prop := b.updatedAt < a.updatedAt ∨ a.updatedAt = b.updatedAt ∧ a.uid < b.uid

theorem pairwise_uids {reports : List Report} (h : (reports.map Report.uid).Nodup) :
    (reports.insertionSort fun a b ↦ a.uid ≤ b.uid).Pairwise fun a b ↦ a.uid < b.uid := by
  have hsorted := pairwise_insertionSort_stable (r := fun _ _ ↦ True) (s := fun a b : Report ↦ a.uid ≤ b.uid)
    (fun a b ↦ le_total a.uid b.uid) (fun a b c ↦ le_trans) (List.pairwise_of_forall (l := reports) fun _ _ ↦ trivial)
  have hdistinct : (reports.insertionSort fun a b ↦ a.uid ≤ b.uid).Pairwise fun a b ↦ a.uid ≠ b.uid := by
    have hperm := (List.perm_insertionSort (fun a b : Report ↦ a.uid ≤ b.uid) reports).map Report.uid
    exact List.pairwise_map.mp (hperm.nodup_iff.mpr h)
  exact (hsorted.and hdistinct).imp fun h ↦ lt_of_le_of_ne h.1.1 h.2

/-- The list of a filter holds its reports in order. -/
theorem pairwise_ordered {reports : List Report} {wanted : List String} (h : (reports.map Report.uid).Nodup) :
    (ordered reports wanted).Pairwise Precedes := by
  have huids := pairwise_uids (h.sublist ((List.filter_sublist (p := isWanted wanted)).map Report.uid))
  have hsorted := pairwise_insertionSort_stable (s := fun a b : Report ↦ b.updatedAt ≤ a.updatedAt)
    (fun a b ↦ le_total b.updatedAt a.updatedAt) (fun a b c hab hbc ↦ le_trans hbc hab) huids
  refine hsorted.imp ?_
  rintro a b ⟨hle, htie⟩
  rcases lt_or_eq_of_le hle with hlt | heq
  · exact .inl hlt
  · exact .inr ⟨heq.symm, htie heq.ge⟩

theorem ordered_perm (reports : List Report) (wanted : List String) :
    (ordered reports wanted).Perm (reports.filter (isWanted wanted)) :=
  (List.perm_insertionSort _ _).trans (List.perm_insertionSort _ _)

/-! ## Pages -/

theorem momentOf_of_moment {field : String} {value : Json} {result : String × ℤ}
    (h : moment L field value = .ok result) :
    isStamp L.toInterpreter result.1 = true ∧ L.strptime result.1 = some result.2 := by
  cases value with
  | str text =>
      simp only [moment] at h
      split at h
      · rename_i time htime
        cases h
        simp only [momentOf] at htime
        split at htime
        · rename_i hstamp
          exact ⟨hstamp, htime⟩
        · cases htime
      · cases h
  | _ => cases h

/-- A page of a list, as a walk sees it. -/
def shownPage (L : Library) (document : Json) (owner state : String) (cursor : Option String) :
    Listed (List (Dict String Json) × Option String) :=
  (listReportDocuments L document (.str owner) (.str state) (.int listPageSize) (textOrNull cursor)).map fun page ↦
    (page.reports, page.cursor)

/-- The cursor behind a report. -/
def cursorOf (L : Library) (owner state : String) (report : Report) : String :=
  encodeCursor L owner state report.updatedAt report.uid

/-- What an accepted report carries into its cursor. -/
structure Marked (L : Library) (report : Report) : Prop where
  uid : isUuid4 report.uid = true
  stamp : isStamp L.toInterpreter report.updatedAt = true
  time : ∃ time, L.strptime report.updatedAt = some time

theorem marked_of_readReports {owner : String} {identities : List String} {taken : List (String × String × String)}
    {values : List Json} {reports : List Report} (h : readReports L owner identities taken values = .ok reports) :
    ∀ report ∈ reports, Marked L report := by
  induction values generalizing identities taken reports with
  | nil =>
      cases h
      simp
  | cons value values ih =>
      simp only [readReports, bind_eq_ok, pure_eq_ok] at h
      obtain ⟨result, hresult, -, -, -, -, rest, hrest, rfl⟩ := h
      intro report hreport
      rcases List.mem_cons.mp hreport with rfl | hreport
      · simp only [readReport, bind_eq_ok, pure_eq_ok] at hresult
        obtain ⟨fields, -, uid, huid, workspace, -, -, -, template, -, digest, -, generated, -, state, -, revision, -,
          -, -, archive, -, revisions, -, created, -, updated, hupdated, -, -, coverage, -, rfl⟩ := hresult
        obtain ⟨hstamp, htime⟩ := momentOf_of_moment hupdated
        exact ⟨accepted_of_matched huid, hstamp, _, htime⟩
      · exact ih hrest report hreport

theorem paginate_window (listed : List Report) (start : ℕ) (owner state : String) :
    ((paginate L listed start owner state).reports, (paginate L listed start owner state).cursor) =
      (window (cursorOf L owner state) listPageSize listed start).map (List.map listItem) id := by
  have homitted : listed.length - start - ((listed.drop start).take listPageSize).length =
      listed.length - (start + listPageSize) := by
    rw [List.length_take, List.length_drop]
    omega
  unfold paginate window
  simp only [homitted]
  by_cases hlast : listed.length ≤ start + listPageSize
  · rw [if_neg (by omega), if_pos hlast]
    rfl
  · rw [if_pos (by omega), if_neg hlast, getLast?_shown (by decide) hlast]
    rfl

theorem omittedCount_paginate (listed : List Report) (start : ℕ) (owner state : String) :
    (paginate L listed start owner state).omittedCount = (listed.drop (start + listPageSize)).length := by
  simp only [paginate, List.length_take, List.length_drop]
  omega

variable {document : Json} {owner state : String} {top : Document} {wanted : List String}

theorem listReportDocuments_eq_ok (htop : readDocument L owner document = .ok top)
    (hstate : filterStates state = some wanted) {cursor : Option String} {page : Page} :
    listReportDocuments L document (.str owner) (.str state) (.int listPageSize) (textOrNull cursor) = .ok page ↔
      ∃ anchor start, (cursor.elim (.ok none) fun cursor ↦ (decodeCursor L cursor owner state).map some) = .ok anchor ∧
        startIndex (ordered top.reports wanted) anchor = .ok start ∧
        page = paginate L (ordered top.reports wanted) start owner state := by
  have howner : isUuidAny owner = true := by
    simp only [readDocument, bind_eq_ok, check_eq_ok] at htop
    exact htop.choose_spec.1
  have hadmitted : admitOwner (.str owner) = .ok owner := if_pos howner
  have hfilter : admitState (.str state) = .ok (state, wanted) := by
    rw [admitState, hstate]
    rfl
  have hlimit : admitLimit (.int listPageSize) = .ok () := by rw [admitLimit, if_pos rfl]
  have hread : (readDocument L owner document).mapError ListRefusal.document = .ok top := by
    rw [htop]
    rfl
  have hargument : admitCursorArg (textOrNull cursor) = .ok cursor := by
    cases cursor with
    | none | some cursor => rfl
  simp only [listReportDocuments, hadmitted, hfilter, hlimit, hargument, bind_eq_ok, pure_eq_ok,
    Except.ok.injEq]
  constructor
  · rintro ⟨_, rfl, _, rfl, _, _, _, rfl, anchor, hanchor, top', htop', start, hstart, rfl⟩
    cases hread.symm.trans htop'
    exact ⟨anchor, start, hanchor, hstart, rfl⟩
  · rintro ⟨anchor, start, hanchor, hstart, rfl⟩
    exact ⟨_, rfl, _, rfl, (), trivial, _, rfl, anchor, hanchor, _, hread, start, hstart, rfl⟩

/-! ## Walks -/

section Walks

variable (hstamps : ReadsStamps L) (hcursors : ReadsCursors L) (htop : readDocument L owner document = .ok top)
  (hstate : filterStates state = some wanted)
include htop

theorem marked_of_readDocument : ∀ report ∈ top.reports, Marked L report := by
  simp only [readDocument, bind_eq_ok, pure_eq_ok] at htop
  obtain ⟨-, -, -, -, fields, -, version, -, -, -, values, -, reports, hreports, -, -, -, -, -, -, rfl⟩ := htop
  exact marked_of_readReports hreports

include hstamps hcursors

/-- The cursor behind a report of the list is read back. -/
theorem decodeCursor_cursorOf {report : Report} (hreport : report ∈ ordered top.reports wanted) :
    decodeCursor L (cursorOf L owner state report) owner state = .ok (report.updatedAt, report.uid) := by
  have hmem := (List.mem_filter.mp ((ordered_perm _ _).mem_iff.mp hreport)).1
  obtain ⟨huid, hstamp, time, htime⟩ := marked_of_readDocument htop report hmem
  exact (decodeCursor_eq_ok hcursors).mpr ⟨rfl, huid, hstamp, size_of_stamp hstamps hstamp htime⟩

omit hstamps hcursors in
/-- The report of a cursor is found at its place. -/
theorem startIndex_of_getElem? {report : Report} {i : ℕ} (hreport : (ordered top.reports wanted)[i]? = some report) :
    startIndex (ordered top.reports wanted) (some (report.updatedAt, report.uid)) = .ok (i + 1) := by
  have hdistinct : ((ordered top.reports wanted).map fun report ↦ (report.updatedAt, report.uid)).Nodup := by
    rw [List.Nodup, List.pairwise_map]
    refine (pairwise_ordered (wellKept_of_readDocument htop).distinct).imp ?_
    rintro a b (hlt | ⟨-, hlt⟩) heq
    · exact absurd (Prod.mk.inj heq).1 hlt.ne'
    · exact absurd (Prod.mk.inj heq).2 hlt.ne
  have hindex := idxOf?_of_getElem? hdistinct (by rw [List.getElem?_map, hreport, Option.map_some])
  rw [startIndex, hindex]

include hstate

/-- The first page, and the page behind each report. -/
theorem shownPage_eq {cursor : Option String} {start : ℕ} (h : cursor = none ∧ start = 0 ∨
    ∃ i report, (ordered top.reports wanted)[i]? = some report ∧ cursor = some (cursorOf L owner state report) ∧
      start = i + 1) :
    shownPage L document owner state cursor =
      .ok ((window (cursorOf L owner state) listPageSize (ordered top.reports wanted) start).map
        (List.map listItem) id) := by
  have hpage : listReportDocuments L document (.str owner) (.str state) (.int listPageSize) (textOrNull cursor) =
      .ok (paginate L (ordered top.reports wanted) start owner state) := by
    rw [listReportDocuments_eq_ok htop hstate]
    rcases h with ⟨rfl, rfl⟩ | ⟨i, report, hreport, rfl, rfl⟩
    · exact ⟨none, 0, rfl, rfl, rfl⟩
    · refine ⟨some (report.updatedAt, report.uid), i + 1, ?_, startIndex_of_getElem? htop hreport, rfl⟩
      rw [Option.elim_some, decodeCursor_cursorOf hstamps hcursors htop (List.mem_of_getElem? hreport)]
      rfl
  rw [shownPage, hpage, ← paginate_window]
  rfl

omit hstamps in
/-- A cursor that a page is shown for is the one behind a report of the list. -/
theorem place_of_page {cursor : Option String} {page : Page} (h : listReportDocuments L document (.str owner)
    (.str state) (.int listPageSize) (textOrNull cursor) = .ok page) :
    ∃ start, page = paginate L (ordered top.reports wanted) start owner state ∧ (cursor = none ∧ start = 0 ∨
      ∃ i report, (ordered top.reports wanted)[i]? = some report ∧ cursor = some (cursorOf L owner state report) ∧
        start = i + 1) := by
  obtain ⟨anchor, start, hanchor, hstart, rfl⟩ := (listReportDocuments_eq_ok htop hstate).mp h
  refine ⟨start, rfl, ?_⟩
  cases cursor with
  | none =>
      cases hanchor
      cases hstart
      exact .inl ⟨rfl, rfl⟩
  | some cursor =>
      rw [Option.elim_some] at hanchor
      cases hdecode : decodeCursor L cursor owner state with
      | error refusal =>
          rw [hdecode] at hanchor
          cases hanchor
      | ok found =>
          obtain ⟨updatedAt, uid⟩ := found
          rw [hdecode] at hanchor
          cases hanchor
          rw [startIndex] at hstart
          split at hstart
          · rename_i i hindex
            obtain ⟨hi, hfound, -⟩ := List.idxOf?_eq_some_iff.mp hindex
            rw [List.getElem_map] at hfound
            obtain ⟨rfl, rfl⟩ := Prod.mk.inj hfound
            right
            refine ⟨i, _, List.getElem?_eq_getElem (by simpa using hi), ?_, (Except.ok.inj hstart).symm⟩
            rw [((decodeCursor_eq_ok hcursors).mp hdecode).1, cursorOf]
          · cases hstart

end Walks

/-! ## A report of a day -/

/-- The text of a cursor whose parts are plain. -/
theorem compactText_cursorPayload {binding uid updatedAt : String} (hbinding : ∀ c ∈ binding.toList, Json.IsPlain c)
    (huid : ∀ c ∈ uid.toList, Json.IsPlain c) (hupdated : ∀ c ∈ updatedAt.toList, Json.IsPlain c) :
    Json.compactText (.obj (cursorPayload binding uid updatedAt)) =
      "\x7b\"binding\":\"".toList ++ (binding.toList ++ ("\",\"uid\":\"".toList ++ (uid.toList ++
        ("\",\"updated_at\":\"".toList ++ (updatedAt.toList ++ "\",\"v\":1\x7d".toList))))) := by
  have hquoted {text : String} (h : ∀ c ∈ text.toList, Json.IsPlain c) :
      Json.compactText (.str text) = '"' :: text.toList ++ ['"'] := by
    have hleaf : Json.compactText (.str text) = Json.quoted text := by simp [Json.compactText, Json.leaf]
    rw [hleaf, Json.quoted, Json.flatMap_escapeChar_of_plain h]
  have hfields : Json.compactFields (cursorPayload binding uid updatedAt) = [("binding", Json.compactText (.str binding)),
      ("uid", Json.compactText (.str uid)), ("updated_at", Json.compactText (.str updatedAt)),
        ("v", Json.compactText (.int cursorVersion))] := by
    simp only [cursorPayload, Json.compactFields, Json.compactField]
  have hsorted : Json.sortFields [("binding", Json.compactText (.str binding)), ("uid", Json.compactText (.str uid)),
      ("updated_at", Json.compactText (.str updatedAt)), ("v", Json.compactText (.int cursorVersion))] =
        [("binding", Json.compactText (.str binding)), ("uid", Json.compactText (.str uid)),
          ("updated_at", Json.compactText (.str updatedAt)), ("v", Json.compactText (.int cursorVersion))] := by
    have hkeys : (cursorKeys.map String.toList).Pairwise (· ≤ ·) := by decide
    exact List.Pairwise.insertionSort_eq (List.pairwise_map.mp hkeys)
  have hversion : Json.compactText (.int cursorVersion) = ['1'] := by decide
  rw [Json.compactText, hfields, hsorted, hquoted hbinding, hquoted huid, hquoted hupdated, hversion]
  simp [Json.joined, Json.quoted, Json.escapeChar, List.intercalate]

/-- The parts of the text of a cursor with a stamp of twenty characters. -/
def cursorParts (text : List Char) : Dict String Json :=
  cursorPayload (String.ofList ((text.drop 12).take 64)) (String.ofList ((text.drop 85).take 36))
    (String.ofList ((text.drop 137).take 20))

/-- `json.loads` of such a text. -/
def readCursorText (text : List Char) : Option Json :=
  if text = Json.compactText (.obj (cursorParts text)) then some (.obj (cursorParts text)) else none

def listLibrary : Library :=
  { sampleLibrary with loads := fun text ↦ readCursorText text.toList }

theorem isDigit_of_isAnyDigit {c : Char} (h : isAnyDigit listLibrary.toInterpreter c = true) : c.isDigit = true := by
  change (asciiDigit c).isSome = true at h
  by_contra hother
  rw [asciiDigit, if_neg hother] at h
  cases h

theorem plain_of_isHourMinute {text : List Char} (h : isHourMinute listLibrary.toInterpreter text = true) :
    text.length = 5 ∧ ∀ c ∈ text, Json.IsPlain c := by
  unfold isHourMinute at h
  split at h
  · rename_i a b c d
    simp only [Bool.and_eq_true, Bool.or_eq_true, beq_iff_eq, decide_eq_true_eq] at h
    obtain ⟨⟨⟨hhour, hc⟩, hc'⟩, hd⟩ := h
    have hfirst : Json.IsPlain a ∧ Json.IsPlain b := by
      rcases hhour with ⟨rfl | rfl, hb⟩ | ⟨⟨rfl, hb⟩, hb'⟩
      · exact ⟨by decide, Json.isPlain_of_isDigit (isDigit_of_isAnyDigit hb)⟩
      · exact ⟨by decide, Json.isPlain_of_isDigit (isDigit_of_isAnyDigit hb)⟩
      · exact ⟨by decide, Json.isPlain_of_isDigit (isDigit_of_between hb hb' (by decide))⟩
    refine ⟨rfl, ?_⟩
    simp only [List.forall_mem_cons]
    exact ⟨hfirst.1, hfirst.2, by decide, Json.isPlain_of_isDigit (isDigit_of_between hc hc' (by decide)),
      Json.isPlain_of_isDigit (isDigit_of_isAnyDigit hd), fun _ h ↦ absurd h List.not_mem_nil⟩
  · cases h

/-- A stamp of ASCII digits is plain. -/
theorem plain_of_isStamp {text : String} (h : isStamp listLibrary.toInterpreter text = true) :
    text.toList.length = 20 ∧ ∀ c ∈ text.toList, Json.IsPlain c := by
  obtain ⟨hshape, hlast⟩ := Bool.and_eq_true_iff.mp h
  obtain ⟨hshape, hsecond⟩ := Bool.and_eq_true_iff.mp hshape
  obtain ⟨hdate, htimes⟩ := Bool.and_eq_true_iff.mp hshape
  obtain ⟨hdates, hdate⟩ := of_fitsShape hdate
  obtain ⟨hminutes, hminute⟩ := plain_of_isHourMinute htimes
  have hseconds : ((text.toList.take 19).drop 16).length = 3 ∧ ∀ c ∈ (text.toList.take 19).drop 16, Json.IsPlain c := by
    split at hsecond
    · rename_i a b hab
      simp only [Bool.and_eq_true, decide_eq_true_eq] at hsecond
      rw [hab]
      refine ⟨rfl, ?_⟩
      simp only [List.forall_mem_cons]
      exact ⟨by decide, Json.isPlain_of_isDigit (isDigit_of_between hsecond.1.1 hsecond.1.2 (by decide)),
        Json.isPlain_of_isDigit (isDigit_of_isAnyDigit hsecond.2), fun _ h ↦ absurd h List.not_mem_nil⟩
    · cases hsecond
  have hsplit : text.toList = (text.toList.take 19).take 11 ++ (((text.toList.take 19).drop 11).take 5 ++
      (text.toList.take 19).drop 16) ++ text.toList.drop 19 := by
    rw [show (text.toList.take 19).drop 16 = ((text.toList.take 19).drop 11).drop 5 by rw [List.drop_drop],
      List.take_append_drop, List.take_append_drop, List.take_append_drop]
  have hshapes : ∀ c ∈ "dddd-dd-ddT".toList, Json.IsPlain c := forall_of_all (by decide)
  rw [hsplit, eq_of_beq hlast]
  constructor
  · rw [List.length_append, List.length_append, List.length_append, hdates, hminutes, hseconds.1]
    rfl
  · simp only [List.forall_mem_append, List.forall_mem_cons]
    refine ⟨⟨?_, hminute, hseconds.2⟩, by decide, fun _ h ↦ absurd h List.not_mem_nil⟩
    intro c hc
    rcases hdate c hc with hdigit | hmem
    · exact Json.isPlain_of_isDigit (isDigit_of_isAnyDigit hdigit)
    · exact hshapes c hmem

theorem take_drop_part {before part rest : List Char} {n m : ℕ} (hbefore : before.length = n) (hpart : part.length = m) :
    ((before ++ (part ++ rest)).drop n).take m = part := by
  rw [List.drop_left' hbefore, List.take_left' hpart]

theorem readsCursors_listLibrary : ReadsCursors listLibrary := by
  intro binding uid updatedAt hbinding huid hstamp
  obtain ⟨hbindings, hbinding⟩ := plain_of_isBinding hbinding
  obtain ⟨huids, huid⟩ := plain_of_isUuid4 huid
  obtain ⟨hstamps, hstamp⟩ := plain_of_isStamp hstamp
  have htext := compactText_cursorPayload hbinding huid hstamp
  generalize hnames : "\x7b\"binding\":\"".toList = first at htext
  generalize hnames' : "\",\"uid\":\"".toList = second at htext
  generalize hnames'' : "\",\"updated_at\":\"".toList = third at htext
  have hlengths : first.length = 12 ∧ second.length = 9 ∧ third.length = 16 := by
    subst hnames hnames' hnames''
    decide
  have hparts : cursorParts (Json.compactText (.obj (cursorPayload binding uid updatedAt))) =
      cursorPayload binding uid updatedAt := by
    have hfirst : ((Json.compactText (.obj (cursorPayload binding uid updatedAt))).drop 12).take 64 = binding.toList := by
      rw [htext]
      exact take_drop_part hlengths.1 hbindings
    have hsecond : ((Json.compactText (.obj (cursorPayload binding uid updatedAt))).drop 85).take 36 = uid.toList := by
      rw [htext, ← List.append_assoc binding.toList, ← List.append_assoc first]
      apply take_drop_part ?_ huids
      rw [List.length_append, List.length_append, hlengths.1, hbindings, hlengths.2.1]
    have hthird : ((Json.compactText (.obj (cursorPayload binding uid updatedAt))).drop 137).take 20 =
        updatedAt.toList := by
      rw [htext, ← List.append_assoc uid.toList, ← List.append_assoc second, ← List.append_assoc binding.toList,
        ← List.append_assoc first]
      apply take_drop_part ?_ hstamps
      simp only [List.length_append, hlengths, hbindings, huids]
    rw [cursorParts, hfirst, hsecond, hthird, String.ofList_toList, String.ofList_toList, String.ofList_toList]
  have hread : readCursorText (Json.compactText (.obj (cursorPayload binding uid updatedAt))) =
      some (.obj (cursorPayload binding uid updatedAt)) := by
    rw [readCursorText, hparts, if_pos rfl]
  have hloads (text : List Char) : listLibrary.loads (String.ofList text) = readCursorText text := by
    change readCursorText (String.ofList text).toList = _
    rw [String.toList_ofList]
  rw [hloads, hread]

theorem digits_of_fitsShape (n : ℕ) {text : List Char}
    (h : fitsShape (isAnyDigit listLibrary.toInterpreter) (List.replicate n 'd') text = true) :
    ∀ c ∈ text, c.isDigit = true := by
  induction n generalizing text with
  | zero =>
      cases text with
      | nil => simp
      | cons c text => cases h
  | succ n ih =>
      cases text with
      | nil => simp
      | cons c text =>
          obtain ⟨hc, hrest⟩ := Bool.and_eq_true_iff.mp h
          exact List.forall_mem_cons.mpr ⟨isDigit_of_isAnyDigit hc, ih hrest⟩

theorem readsStamps_listLibrary : ReadsStamps listLibrary where
  digits c h _ := isDigit_of_isAnyDigit h
  months text time hstamp _ := by
    obtain ⟨hshape, -⟩ := Bool.and_eq_true_iff.mp hstamp
    obtain ⟨hshape, -⟩ := Bool.and_eq_true_iff.mp hshape
    obtain ⟨hdate, -⟩ := Bool.and_eq_true_iff.mp hshape
    obtain ⟨-, hrest⟩ := @fitsShape_append _ "dddd-".toList "dd-ddT".toList _ hdate
    obtain ⟨hmonth, -⟩ := @fitsShape_append _ "dd".toList "-ddT".toList _ hrest
    have hsame : (((text.toList.take 19).take 11).drop 5).take 2 = (text.toList.drop 5).take 2 := by
      simp [List.take_take, List.drop_take]
    change fitsShape _ _ ((((text.toList.take 19).take 11).drop 5).take 2) = true at hmonth
    rw [hsame] at hmonth
    exact digits_of_fitsShape 2 hmonth

def listedReport : Report where
  uid := sampleReportUid
  workspaceUid := sampleOwner
  template := templateDailyV1
  period := .obj [("kind", .str "day"), ("date", .str "2026-09-01")]
  sourceDigest := sampleDigest
  sourceGeneratedAt := "2026-09-01T18:00:00+00:00"
  state := .active .finalized
  revision := 1
  revisions := [⟨1, 1, "Day", "2026-09-03T08:00:00Z", none⟩]
  createdAt := "2026-09-03T08:00:00Z"
  updatedAt := "2026-09-03T08:00:00Z"

def listedDocument : Document := ⟨[listedReport], []⟩

theorem readDocument_listed : readDocument listLibrary sampleOwner listedDocument.json = .ok listedDocument := by
  have hreports : (readReports listLibrary sampleOwner [] [] (listedDocument.reports.map Report.json)).toOption.isSome =
      true := by
    decide +kernel
  obtain ⟨reports, hread⟩ := Option.isSome_iff_exists.mp hreports
  have hread := toOption_eq_some.mp hread
  rw [readReports_map_json hread] at hread
  have hsafe : ∀ report ∈ listedDocument.reports, isSafe listLibrary 2 report.json = true :=
    List.all_eq_true.mp (by decide)
  have hsize : listedDocument.json.size ≤ maxReportsBytes := by
    decide +kernel
  have hanswered : WellAnswered listLibrary listedDocument.idempotency :=
    ⟨fun _ h ↦ absurd h List.not_mem_nil, fun _ h ↦ absurd h List.not_mem_nil, List.nodup_nil, Nat.zero_le _⟩
  exact readDocument_json_eq_ok.mpr ⟨by decide, hsafe, by decide, hread, hanswered, hsize⟩

end WorkStack.Reports
