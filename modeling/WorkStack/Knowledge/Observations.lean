import Mathlib
import WorkStack.Effect.Eviction
import WorkStack.Knowledge.Verification

/-!
# The window of observations

At most one observation is kept for a capture and for a check, at most 128 of them, and at most a mebibyte of
canonical JSON. A new observation takes the place of the one of its capture, and the oldest of the others go until
the list is within its bounds.
-/

open WorkStack.Python WorkStack.Effect WorkStack.Effect.Refusing

namespace WorkStack.Knowledge

open Verification

/-! ## Observations -/

/-- A normalized observation; its schema and the alias of its verifier are told by the rest. -/
structure Observation where
  captureDigest : String
  acceptedAt : String
  request : Verification.Request
  result : Verification.Result
  deriving DecidableEq

def observationSchema : String := "workstack.capture-observation.v1"

def maxObservations : ℕ := 128

def maxObservationBytes : ℕ := 40 * 1024

def maxObservationsBytes : ℕ := 1024 * 1024

def recordFields : List String := ["schema", "capture_digest", "verifier_alias", "accepted_at", "request", "result"]

namespace Observation

def json (observation : Observation) : Json := .obj [
  ("schema", .str observationSchema),
  ("capture_digest", .str observation.captureDigest),
  ("verifier_alias", .str observation.request.connection.connectionAlias),
  ("accepted_at", .str observation.acceptedAt),
  ("request", observation.request.json),
  ("result", observation.result.json)]

/-- `_capture_id` -/
def captureId (observation : Observation) : String := observation.request.binding.captureId

/-- `_verification_id` -/
def verificationId (observation : Observation) : String := observation.request.verificationId

end Observation

/-- A list of observations as it is stored. -/
def observationsJson (rows : List Observation) : Json := .arr (rows.map Observation.json)

/-- The order that rows are kept in, by their captures. -/
def sortRows (rows : List Observation) : List Observation :=
  rows.insertionSort fun a b ↦ a.captureId.toList ≤ b.captureId.toList

/-- Whether a list is within both caps. -/
def withinCaps (rows : List Observation) : Bool :=
  rows.length ≤ maxObservations && (observationsJson rows).size ≤ maxObservationsBytes

/-- A refusal of a reader under its own code. -/
def ownCode {α : Type} : Checked α → Observed α
  | .ok value => .ok value
  | .error (.request code _) => .error (fail code)
  | .error (.ledger code _) => .error (fail code)
  | .error .overflow => .error (.raised "OverflowError")

section Planning

variable (L : VerificationLibrary)

/-- `_workspace` -/
def readWorkspace (workspaceUid : Json) : Observed String :=
  ownCode (canonicalUuid (fun code ↦ .request code (some "workspace_uid")) L.toPlatform workspaceUid)

/-- `validate_observation`. The instant of acceptance is a text, as it was read as an instant. -/
def validateObservation (workspaceUid record : Json) : Observed Observation := do
  let workspace ← readWorkspace L workspaceUid
  let root ← ownCode (closedObject wire "invalid_observation" recordFields record)
  require (isText observationSchema (item root "schema")) "unsupported_observation_schema"
  let digest ← textWith isDigest "invalid_capture_digest" (item root "capture_digest")
  let request ← validateVerificationRequest L (item root "request") (item root "accepted_at")
  let result ← validateVerificationResult L (item root "result") request (item root "accepted_at")
  require (isText request.connection.connectionAlias (item root "verifier_alias")) "verifier_alias_mismatch"
  require (request.binding.workspaceUid == workspace) "workspace_mismatch"
  let acceptedAt ← textWith (fun _ ↦ true) "invalid_verification_timestamp" (item root "accepted_at")
  let normalized : Observation := ⟨digest, acceptedAt, request, result⟩
  require (normalized.json.size ≤ maxObservationBytes) "observation_too_large"
  return normalized

/-- `validate_observations` -/
def validateObservations (workspaceUid records : Json) : Observed (List Observation) := do
  let workspace ← readWorkspace L workspaceUid
  match records with
  | .arr entries => do
      require (entries.length ≤ maxObservations) "observations_too_many"
      let normalized ← entries.mapM (validateObservation L (.str workspace))
      require (normalized.map Observation.captureId).Nodup "duplicate_capture_id"
      require (normalized.map Observation.verificationId).Nodup "observation_conflict"
      require ((observationsJson (sortRows normalized)).size ≤ maxObservationsBytes) "observations_too_large"
      return sortRows normalized
  | _ => .error (fail "invalid_observations")

/-- `_accepted_instant` of a row that was read -/
def acceptedInstant (observation : Observation) : Instant :=
  (parseRfc3339 L.toInterpreter observation.acceptedAt).getD ⟨0, []⟩

/-- The order in which rows go: by their instants, then by their checks and their captures. -/
def age (observation : Observation) : ℤ ×ₗ List Char ×ₗ List Char ×ₗ List Char :=
  toLex ((acceptedInstant L observation).second, toLex ((acceptedInstant L observation).fraction,
    toLex (observation.verificationId.toList, observation.captureId.toList)))

/-- `_evict`, of rows that end with the one that is retained. -/
def evictRows (others : List Observation) (retained : Observation) : Observed (List Observation) :=
  match Eviction.evict withinCaps (age L) retained others with
  | some rows => .ok (sortRows rows)
  | none => .error (fail "observations_too_large")

/-- The part of `plan_observation_upsert` behind its readers. -/
def upsertRow (existing : List Observation) (incoming : Observation) : Observed (List Observation) :=
  match existing.find? fun row ↦ row.verificationId == incoming.verificationId with
  | some row => if row = incoming then .ok existing else .error (fail "observation_conflict")
  | none =>
      let prior := existing.find? fun row ↦ row.captureId == incoming.captureId
      if prior.any fun row ↦ (acceptedInstant L incoming).before (acceptedInstant L row) then
        .error (fail "stale_observation")
      else evictRows L (existing.filter fun row ↦ row.captureId != incoming.captureId) incoming

/-- `plan_observation_upsert` -/
def planObservationUpsert (workspaceUid records record : Json) : Observed (List Observation) := do
  let workspace ← readWorkspace L workspaceUid
  let existing ← validateObservations L (.str workspace) records
  let incoming ← validateObservation L (.str workspace) record
  upsertRow L existing incoming

end Planning

/-! ## What was read is read again -/

variable {L : VerificationLibrary} {workspaceUid records record : Json}

theorem ownCode_eq_ok {α : Type} {read : Checked α} {a : α} : ownCode read = .ok a ↔ read = .ok a := by
  rcases read with (⟨code, field⟩ | ⟨code, field⟩ | _) | b <;> simp [ownCode]

theorem readWorkspace_eq_ok {workspace : String} (h : readWorkspace L workspaceUid = .ok workspace) :
    workspaceUid = .str workspace := by
  rw [readWorkspace, ownCode_eq_ok] at h
  cases workspaceUid with
  | str text => rw [canonicalUuid_str h]
  | _ => cases h

/-- What an accepted row is known for. -/
structure AcceptedRow (L : VerificationLibrary) (workspaceUid : Json) (row : Observation) : Prop where
  again : validateObservation L workspaceUid row.json = .ok row
  size : row.json.size ≤ maxObservationBytes
  instant : ∃ instant, parseRfc3339 L.toInterpreter row.acceptedAt = some instant

theorem validateObservation_accepted {row : Observation} (h : validateObservation L workspaceUid record = .ok row) :
    AcceptedRow L workspaceUid row := by
  have hread := h
  simp only [validateObservation, bind_eq_ok, pure_eq_ok, require_eq_ok] at h
  obtain ⟨workspace, hworkspace, root, -, -, -, digest, hdigest, request, hrequest, result, hresult, -, halias, -,
    hsame, acceptedAt, haccepted, -, hsize, rfl⟩ := h
  have hnow := textWith_eq_ok haccepted
  obtain ⟨text, instant, htext, hparse⟩ := validateVerificationRequest_now hrequest
  refine ⟨?_, of_decide_eq_true hsize, instant, ?_⟩
  · simp only [validateObservation, bind_eq_ok, pure_eq_ok, require_eq_ok]
    rw [hnow] at hrequest hresult haccepted
    exact ⟨workspace, hworkspace, _, rfl, (), beq_self_eq_true observationSchema, digest,
      again hdigest (textWith_eq_ok hdigest), request, validateVerificationRequest_json hrequest, result,
      validateVerificationResult_json hresult, (), beq_self_eq_true request.connection.connectionAlias, (), hsame,
      acceptedAt, haccepted, (), hsize, rfl⟩
  · rw [hnow] at htext
    rw [Json.str.inj htext]
    exact hparse

/-- A list of rows as it is kept. -/
structure Kept (L : VerificationLibrary) (workspaceUid : Json) (rows : List Observation) : Prop where
  accepted : ∀ row ∈ rows, AcceptedRow L workspaceUid row
  captures : (rows.map Observation.captureId).Nodup
  checks : (rows.map Observation.verificationId).Nodup
  sorted : rows.Pairwise fun a b ↦ a.captureId.toList ≤ b.captureId.toList
  length : rows.length ≤ maxObservations
  size : (observationsJson rows).size ≤ maxObservationsBytes

theorem sortRows_perm (rows : List Observation) : (sortRows rows).Perm rows := List.perm_insertionSort _ rows

theorem sortRows_sorted (rows : List Observation) :
    (sortRows rows).Pairwise fun a b ↦ a.captureId.toList ≤ b.captureId.toList :=
  List.pairwise_insertionSort _ rows

variable {rows : List Observation}

theorem sortRows_of_sorted (h : rows.Pairwise fun a b ↦ a.captureId.toList ≤ b.captureId.toList) :
    sortRows rows = rows :=
  h.insertionSort_eq

theorem size_sortRows (rows : List Observation) : (observationsJson (sortRows rows)).size = (observationsJson rows).size :=
  Json.size_arr_perm ((sortRows_perm rows).map _)

/-- Rows within the caps, each accepted, one for a capture and one for a check, are kept when they are sorted. -/
theorem kept_sortRows (haccepted : ∀ row ∈ rows, AcceptedRow L workspaceUid row)
    (hcaptures : (rows.map Observation.captureId).Nodup) (hchecks : (rows.map Observation.verificationId).Nodup)
    (hlength : rows.length ≤ maxObservations) (hsize : (observationsJson rows).size ≤ maxObservationsBytes) :
    Kept L workspaceUid (sortRows rows) where
  accepted row hrow := haccepted row ((sortRows_perm rows).mem_iff.mp hrow)
  captures := ((sortRows_perm rows).map _).nodup_iff.mpr hcaptures
  checks := ((sortRows_perm rows).map _).nodup_iff.mpr hchecks
  sorted := sortRows_sorted rows
  length := by
    rw [(sortRows_perm rows).length_eq]
    exact hlength
  size := by
    rw [size_sortRows]
    exact hsize

theorem validateObservations_eq_ok (h : validateObservations L workspaceUid records = .ok rows) :
    (∃ workspace, workspaceUid = .str workspace ∧ readWorkspace L workspaceUid = .ok workspace) ∧
      Kept L workspaceUid rows := by
  obtain ⟨workspace, hworkspace, h⟩ := bind_eq_ok.mp h
  have huid := readWorkspace_eq_ok hworkspace
  refine ⟨⟨workspace, huid, hworkspace⟩, ?_⟩
  cases records with
  | arr entries =>
      simp only [bind_eq_ok, pure_eq_ok, require_eq_ok, decide_eq_true_eq] at h
      obtain ⟨-, hlength, normalized, hnormalized, -, hcaptures, -, hchecks, -, hsize, rfl⟩ := h
      rw [mapM_eq_ok] at hnormalized
      apply kept_sortRows
      · intro row hrow
        obtain ⟨i, hi, rfl⟩ := List.getElem_of_mem hrow
        have hrow := List.Forall₂.get hnormalized (i := i) (by rw [hnormalized.length_eq]; exact hi) hi
        rw [huid]
        exact validateObservation_accepted hrow
      · exact hcaptures
      · exact hchecks
      · rw [← hnormalized.length_eq]
        exact hlength
      · rw [← size_sortRows]
        exact hsize
  | _ => cases h

/-- A list that is kept is accepted as it is. -/
theorem Kept.validate {workspace : String} (h : Kept L (.str workspace) rows)
    (hworkspace : readWorkspace L (.str workspace) = .ok workspace) :
    validateObservations L (.str workspace) (observationsJson rows) = .ok rows := by
  have hread : (rows.map Observation.json).mapM (validateObservation L (.str workspace)) = .ok rows := by
    rw [mapM_eq_ok, List.forall₂_map_left_iff, List.forall₂_same]
    exact fun row hrow ↦ (h.accepted row hrow).again
  have hlength : (rows.map Observation.json).length ≤ maxObservations := by
    rw [List.length_map]
    exact h.length
  have hsort := sortRows_of_sorted h.sorted
  have hsize : (observationsJson (sortRows rows)).size ≤ maxObservationsBytes := by
    rw [hsort]
    exact h.size
  refine bind_eq_ok.mpr ⟨workspace, hworkspace, ?_⟩
  simp only [observationsJson, bind_eq_ok, pure_eq_ok, require_eq_ok, decide_eq_true_eq]
  exact ⟨(), hlength, rows, hread, (), h.captures, (), h.checks, (), decide_eq_true hsize, hsort⟩

/-! ## The new row -/

/-- A row within its own bound fits by itself. -/
theorem withinCaps_singleton {row : Observation} (h : row.json.size ≤ maxObservationBytes) : withinCaps [row] = true := by
  have hsize : (observationsJson [row]).size = 2 + row.json.size := by
    rw [observationsJson, Json.size_arr]
    simp
  unfold maxObservationBytes at h
  rw [withinCaps, hsize, Bool.and_eq_true, decide_eq_true_eq, decide_eq_true_eq]
  unfold maxObservations maxObservationsBytes
  constructor
  · rw [List.length_singleton]
    omega
  · omega

/-- What a new row leaves of the rows of other captures. -/
structure Upserted (L : VerificationLibrary) (existing : List Observation) (incoming : Observation)
    (rows : List Observation) : Prop where
  incoming_mem : incoming ∈ rows
  old : ∀ row ∈ rows, row = incoming ∨ row ∈ existing ∧ row.captureId ≠ incoming.captureId
  oldest : ∀ row ∈ existing, row.captureId ≠ incoming.captureId → row ∉ rows →
    ∀ other ∈ rows, other ≠ incoming → age L row ≤ age L other

/-- Eviction always leaves a list that is kept, with the new row in it. -/
theorem evictRows_spec {existing : List Observation} {incoming : Observation} (hkept : Kept L workspaceUid existing)
    (hincoming : AcceptedRow L workspaceUid incoming)
    (hcheck : incoming.verificationId ∉ existing.map Observation.verificationId) :
    ∃ rows, evictRows L (existing.filter fun row ↦ row.captureId != incoming.captureId) incoming = .ok rows ∧
      Kept L workspaceUid rows ∧ Upserted L existing incoming rows := by
  obtain ⟨rows, hrows⟩ : ∃ rows, Eviction.evict withinCaps (age L) incoming
      (existing.filter fun row ↦ row.captureId != incoming.captureId) = some rows :=
    Eviction.exists_evict _ (withinCaps_singleton hincoming.size)
  obtain ⟨kept, rfl, hsublist, hfits, hgone⟩ := Eviction.evict_eq_some hrows
  have hmem : ∀ row ∈ kept, row ∈ existing ∧ row.captureId ≠ incoming.captureId := by
    intro row hrow
    obtain ⟨hexisting, hother⟩ := List.mem_filter.mp (hsublist.mem hrow)
    exact ⟨hexisting, bne_iff_ne.mp hother⟩
  have hexisting : kept.Sublist existing := hsublist.trans List.filter_sublist
  rw [withinCaps, Bool.and_eq_true, decide_eq_true_eq, decide_eq_true_eq] at hfits
  refine ⟨sortRows (kept ++ [incoming]), ?_, ?_, ?_⟩
  · rw [evictRows, hrows]
  · apply kept_sortRows
    · intro row hrow
      rcases List.mem_append.mp hrow with hrow | hrow
      · exact hkept.accepted row (hmem row hrow).1
      · rw [List.mem_singleton.mp hrow]
        exact hincoming
    · rw [List.map_append, List.map_singleton, List.nodup_append]
      refine ⟨hkept.captures.sublist (hexisting.map _), List.nodup_singleton _, ?_⟩
      intro captureId hcapture other hother hsame
      obtain ⟨row, hrow, rfl⟩ := List.mem_map.mp hcapture
      rw [List.mem_singleton] at hother
      exact (hmem row hrow).2 (hsame.trans hother)
    · rw [List.map_append, List.map_singleton, List.nodup_append]
      refine ⟨hkept.checks.sublist (hexisting.map _), List.nodup_singleton _, ?_⟩
      intro check hchecked other hother hsame
      rw [List.mem_singleton] at hother
      rw [hsame, hother] at hchecked
      exact hcheck ((hexisting.map _).mem hchecked)
    · exact hfits.1
    · exact hfits.2
  · have hmemAll {row : Observation} : row ∈ sortRows (kept ++ [incoming]) ↔ row ∈ kept ∨ row = incoming := by
      rw [(sortRows_perm _).mem_iff, List.mem_append, List.mem_singleton]
    constructor
    · exact hmemAll.mpr (.inr rfl)
    · intro row hrow
      rcases hmemAll.mp hrow with hrow | rfl
      · exact .inr (hmem row hrow)
      · exact .inl rfl
    · intro row hrow hother hgone' other hkeptOther hne
      have hnot : row ∉ kept := fun hkept' ↦ hgone' (hmemAll.mpr (.inl hkept'))
      have hfilter : row ∈ existing.filter fun row ↦ row.captureId != incoming.captureId :=
        List.mem_filter.mpr ⟨hrow, bne_iff_ne.mpr hother⟩
      exact hgone row hfilter hnot other ((hmemAll.mp hkeptOther).resolve_right hne)

/-- A list that is kept and holds the row stays as it is. -/
theorem Kept.upsertRow_mem {incoming : Observation} (h : Kept L workspaceUid rows) (hmem : incoming ∈ rows) :
    upsertRow L rows incoming = .ok rows := by
  have hfound : rows.find? (fun row ↦ row.verificationId == incoming.verificationId) = some incoming := by
    cases hrow : rows.find? (fun row ↦ row.verificationId == incoming.verificationId) with
    | none =>
        have hnone := List.find?_eq_none.mp hrow incoming hmem
        rw [beq_self_eq_true] at hnone
        exact absurd rfl hnone
    | some row =>
        have hfound := List.find?_some hrow
        have hsame := beq_iff_eq.mp hfound
        rw [List.inj_on_of_nodup_map h.checks (List.mem_of_find?_eq_some hrow) hmem hsame]
  rw [upsertRow, hfound]
  exact if_pos rfl

/-- What becomes of a new row. -/
theorem upsertRow_spec {existing : List Observation} {incoming : Observation} (hkept : Kept L workspaceUid existing)
    (hincoming : AcceptedRow L workspaceUid incoming) :
    (upsertRow L existing incoming = .error (fail "observation_conflict") ∧
        ∃ row ∈ existing, row.verificationId = incoming.verificationId ∧ row ≠ incoming) ∨
      (upsertRow L existing incoming = .error (fail "stale_observation") ∧
        ∃ row ∈ existing, row.captureId = incoming.captureId ∧
          (acceptedInstant L incoming).before (acceptedInstant L row) = true) ∨
      ∃ rows, upsertRow L existing incoming = .ok rows ∧ Kept L workspaceUid rows ∧
        (rows = existing ∧ incoming ∈ rows ∨ Upserted L existing incoming rows) := by
  cases hrow : existing.find? (fun row ↦ row.verificationId == incoming.verificationId) with
  | some row =>
      have hmem := List.mem_of_find?_eq_some hrow
      have hfound := List.find?_some hrow
      have hsame := beq_iff_eq.mp hfound
      by_cases hequal : row = incoming
      · subst hequal
        exact .inr (.inr ⟨existing, hkept.upsertRow_mem hmem, hkept, .inl ⟨rfl, hmem⟩⟩)
      · refine .inl ⟨?_, row, hmem, hsame, hequal⟩
        rw [upsertRow, hrow]
        exact if_neg hequal
  | none =>
      have hcheck : incoming.verificationId ∉ existing.map Observation.verificationId := by
        intro hmem
        obtain ⟨row, hmem, hsame⟩ := List.mem_map.mp hmem
        exact List.find?_eq_none.mp hrow row hmem (beq_iff_eq.mpr hsame)
      unfold upsertRow
      rw [hrow]
      dsimp only
      split
      · next hstale =>
        cases hprior : existing.find? (fun row ↦ row.captureId == incoming.captureId) with
        | none =>
            rw [hprior] at hstale
            cases hstale
        | some prior =>
            rw [hprior] at hstale
            have hfound := List.find?_some hprior
            exact .inr (.inl ⟨rfl, prior, List.mem_of_find?_eq_some hprior, beq_iff_eq.mp hfound, hstale⟩)
      · obtain ⟨rows, hrows, hkeptRows, hupserted⟩ := evictRows_spec hkept hincoming hcheck
        exact .inr (.inr ⟨rows, hrows, hkeptRows, .inr hupserted⟩)

def verificationLibrary : VerificationLibrary where
  toPlatform := asciiPlatform [] []
  unquote text := text
  strictLoads _ := .error "invalid_json"

/-- A check of one document of a capture, answered in the minute that it was asked in. -/
def sampleObservation : Observation where
  captureDigest := "sha256:0123456789abcdef0123456789abcdef0123456789abcdef0123456789abcdef"
  acceptedAt := "2026-09-01T08:30:10Z"
  request := {
    verificationId := "6f1c2b7e-9a54-4d3e-8f10-2b7c5a9d4e71"
    binding := ⟨"6f1c2b7e-9a54-4d3e-8f10-2b7c5a9d4e60", "C-0001", 3⟩
    connection := ⟨"notion", "6f1c2b7e-9a54-4d3e-8f10-2b7c5a9d4e62", 1⟩
    corpusRefs := ["notes"]
    evidence := [⟨"document-1", "notion.page", some "version-1"⟩]
    requestedAt := "2026-09-01T08:30:00Z"
    expiresAt := "2026-09-01T08:31:00Z" }
  result := ⟨"6f1c2b7e-9a54-4d3e-8f10-2b7c5a9d4e71", "2026-09-01T08:30:05Z",
    [⟨⟨"document-1", "notion.page", some "version-1"⟩, some "version-1", "current", "hash_matched"⟩]⟩

def sampleWorkspace : Json := .str "6f1c2b7e-9a54-4d3e-8f10-2b7c5a9d4e60"

end WorkStack.Knowledge
