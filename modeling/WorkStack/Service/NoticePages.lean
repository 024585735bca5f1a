import WorkStack.Effect.Paging
import WorkStack.Python.Base64
import WorkStack.Python.Encoding
import WorkStack.Python.IsoDates
import WorkStack.Service.ClientKeys

/-!
# Pages of notices

The notices of a workspace are listed from the latest to the first, a page at a time. A cursor names the event of
the last notice of its page and the workspace, as the base64 of a small JSON object. A cursor that is given back
has to name an event of the list, and the next page starts behind the first notice with that id.
-/

namespace WorkStack.Service

open Effect.Outcome Effect.Paging Python

section Pages

variable (P : Platform)

/-! ## Cursors -/

def queryInvalid {α : Type} : Checked α := valueError "mutation notice query is invalid"

/-- `EVENT_ID_RE` -/
def isEventId (text : String) : Bool :=
  match text.toList with
  | 'E' :: '-' :: digits => 6 ≤ digits.length && digits.all Char.isDigit
  | _ => false

def cursorPayloadOf (workspaceUid eventId : String) : Record :=
  [("e", .str eventId), ("v", .int 1), ("w", .str workspaceUid)]

def cursorText (workspaceUid eventId : String) : List Char := Json.asciiText (.obj
    (cursorPayloadOf workspaceUid eventId))

/-- `encode_list_cursor` -/
def encodeListCursor (workspaceUid eventId : String) : String :=
  String.ofList (Base64.encode (Json.utf8 (cursorText workspaceUid eventId)))

/-- `_cursor_bytes` -/
def cursorBytes (cursor : String) : Checked Bytes :=
  if ¬(32 ≤ cursor.length ∧ cursor.length ≤ 160) then queryInvalid
  else if isEventId cursor then queryInvalid
  else if ¬cursor.toList.all (· ∈ Base64.alphabet) then queryInvalid
  else
    match Base64.decode cursor.toList with
    | some raw => if 1 ≤ raw.length ∧ raw.length ≤ 120 then .ok raw else queryInvalid
    | none => queryInvalid

/-- `_cursor_payload` -/
def cursorPayload (raw : Bytes) : Checked Record :=
  match (Base64.decodeUtf8 raw).bind P.loads with
  | some (.obj payload) =>
      if hasExactly payload ["e", "v", "w"] ∧ Json.same (.int 1)
          (valueAt payload "v") then .ok payload else queryInvalid
  | _ => queryInvalid

/-- `_require_cursor_workspace` -/
def requireCursorWorkspace (payload : Record) (workspaceUid : String) : Checked Unit :=
  match valueAt payload "w" with
  | .str marked => if marked = workspaceUid then .ok () else queryInvalid
  | _ => queryInvalid

/-- `_cursor_event_id` -/
def cursorEventId (payload : Record) : Checked String :=
  match valueAt payload "e" with
  | .str eventId => if isEventId eventId then .ok eventId else queryInvalid
  | _ => queryInvalid

/-- `decode_list_cursor` -/
def decodeListCursor (cursor workspaceUid : String) : Checked String := do
  let raw ← cursorBytes cursor
  let payload ← cursorPayload P raw
  requireCursorWorkspace payload workspaceUid
  cursorEventId payload

/-! ## Pages -/

/-- Whether a notice is of a workspace, where one is asked for. -/
def ofWorkspace (workspaceUid : Option String) (notice : Record) : Bool :=
  workspaceUid.all fun uid ↦ Json.same (.str uid) (valueAt notice "workspace_uid")

/-- The notices of events with the ids of their events. -/
def pairsOf (workspaceUid : Option String) : List Json → Checked (List (String × Record))
  | [] => .ok []
  | event :: rest => do
      match ← noticeFromEvent P event with
      | none => pairsOf workspaceUid rest
      | some notice =>
          if ofWorkspace workspaceUid notice then do
            let record ← asRecord event
            let id ← field record "id"
            let pairs ← pairsOf workspaceUid rest
            pure ((P.str id, notice) :: pairs)
          else pairsOf workspaceUid rest

/-- `_workspace_pairs` -/
def workspacePairs (activity : Record) (workspaceUid : Option String) : Checked (List (String × Record)) :=
  match activity.get "activity" with
  | some (.arr events) => pairsOf P workspaceUid events.reverse
  | _ => .ok []

/-- `_page_start` -/
def pageStart (items : List (String × Record)) (cursor : Option String) (workspaceUid : String) : Checked ℕ :=
  match cursor with
  | none => .ok 0
  | some cursor => do
      let eventId ← decodeListCursor P cursor workspaceUid
      match (items.map Prod.fst).idxOf? eventId with
      | some index => pure (index + 1)
      | none => queryInvalid

/-- `_next_page_cursor` -/
def nextPageCursor (items shown : List (String × Record)) (start limit : ℕ) (workspaceUid : String) : Option String :=
  if items.length ≤ start + limit then none
  else
    match shown.getLast? with
    | none => none
    | some (eventId, _) => some (encodeListCursor workspaceUid eventId)

/-- `page_notices`: the notices of a page, and the cursor of the next one. -/
def pageNotices (activity : Record) (workspaceUid : String) (limit : ℕ) (cursor : Option String) :
    Checked (List Record × Option String) := do
  let items ← workspacePairs P activity (some workspaceUid)
  let start ← pageStart P items cursor workspaceUid
  let shown := (items.drop start).take limit
  pure (shown.map Prod.snd, nextPageCursor items shown start limit workspaceUid)

end Pages

variable {P : Platform} {activity : Record} {workspaceUid : String}

/-! ## Cursors that are read back -/

/-- The characters of event ids and of the texts of UUIDs. -/
def plainChars : List Char := "0123456789abcdefE-".toList

theorem asciiChar_of_plain {c : Char} (h : c ∈ plainChars) : Json.asciiChar c = [c] := by
  have hall : ∀ c ∈ plainChars, Json.asciiChar c = [c] := forall_of_all (by decide)
  exact hall c h

theorem utf8EncodeChar_of_plain {c : Char} (h : c ∈ plainChars) : (String.utf8EncodeChar c).length = 1 := by
  have hall : ∀ c ∈ plainChars, (String.utf8EncodeChar c).length = 1 := forall_of_all (by decide)
  exact hall c h

theorem asciiQuoted_of_plain {text : String} (h : ∀ c ∈ text.toList, c ∈ plainChars) :
    Json.asciiQuoted text = '"' :: (text.toList ++ ['"']) := by
  have hsame : text.toList.flatMap Json.asciiChar = text.toList := by
    calc text.toList.flatMap Json.asciiChar
        = text.toList.flatMap (fun c ↦ [c]) :=
          List.flatMap_congr fun c hc ↦ asciiChar_of_plain (h c hc)
      _ = text.toList := List.flatMap_singleton' _
  rw [Json.asciiQuoted, hsame, List.cons_append]

/-- An id that a cursor can carry: it fits the grammar of event ids and leaves room for the rest. -/
structure FitsCursor (eventId : String) : Prop where
  isEventId : Service.isEventId eventId = true
  short : eventId.length ≤ 63

/-- What `str` of a UUID is documented to give: 36 characters, hexadecimal digits and dashes. -/
def CanonicalUuids (P : Platform) : Prop :=
  ∀ text, P.isRfc4122Uuid text = true → text.length = 36 ∧ ∀ c ∈ text.toList, c ∈ plainChars

theorem plain_of_between {c : Char} {low count : ℕ} (hlow : low ≤ c.toNat) (hhigh : c.toNat < low + count)
    (h : ∀ n : Fin count, Char.ofNat (low + n.val) ∈ plainChars) : c ∈ plainChars := by
  have hmem := h ⟨c.toNat - low, by omega⟩
  rw [show low + (c.toNat - low) = c.toNat by omega, Char.ofNat_toNat] at hmem
  exact hmem

theorem plain_of_isDigit {c : Char} (h : c.isDigit = true) : c ∈ plainChars := by
  obtain ⟨hlow, hhigh⟩ := Bool.and_eq_true_iff.mp h
  have hlow' : 48 ≤ c.toNat := of_decide_eq_true hlow
  have hhigh' : c.toNat ≤ 57 := of_decide_eq_true hhigh
  have hall : ∀ n : Fin 10, Char.ofNat (48 + n.val) ∈ plainChars := by decide
  exact plain_of_between hlow' (by omega) hall

variable {eventId : String}

theorem plain_of_isEventId (h : isEventId eventId = true) :
    ∀ c ∈ eventId.toList, c ∈ plainChars := by
  unfold isEventId at h
  split at h
  · next digits hdigits =>
    obtain ⟨-, hall⟩ := Bool.and_eq_true_iff.mp h
    rw [hdigits]
    intro c hc
    simp only [List.mem_cons] at hc
    rcases hc with rfl | rfl | hc
    · decide
    · decide
    · exact plain_of_isDigit (List.all_eq_true.mp hall c hc)
  · cases h

/-- The text of a cursor, part by part. -/
theorem cursorText_of_plain (huid : ∀ c ∈ workspaceUid.toList, c ∈ plainChars)
    (hid : ∀ c ∈ eventId.toList, c ∈ plainChars) :
    cursorText workspaceUid eventId = ['\x7b', '"', 'e', '"', ':', '"'] ++ (eventId.toList ++
      (['"', ',', '"', 'v', '"', ':', '1', ',', '"', 'w', '"', ':', '"'] ++ (workspaceUid.toList ++ ['"', '\x7d']))) := by
  have hone : (toString (1 : ℤ)).toList = ['1'] := by decide
  have he : Json.asciiQuoted "e" = ['"', 'e', '"'] := by decide
  have hv : Json.asciiQuoted "v" = ['"', 'v', '"'] := by decide
  have hw : Json.asciiQuoted "w" = ['"', 'w', '"'] := by decide
  simp only [cursorText, cursorPayloadOf, Json.asciiText, Json.asciiFields, Json.asciiField, asciiQuoted_of_plain huid,
    asciiQuoted_of_plain hid, Json.leaf, hone, he, hv, hw, Json.joined, List.intercalate, List.intersperse]
  simp

theorem length_utf8 {text : List Char} (h : ∀ c ∈ text, (String.utf8EncodeChar c).length = 1) :
    (Json.utf8 text).length = text.length := by
  induction text with
  | nil => rfl
  | cons c text ih =>
      obtain ⟨hc, hrest⟩ := List.forall_mem_cons.mp h
      rw [Json.utf8, List.flatMap_cons, List.length_append, hc, List.length_cons, ← ih hrest, Nat.add_comm]
      rfl

/-- The bytes of a cursor: one for each character. -/
theorem length_cursorText (huid : ∀ c ∈ workspaceUid.toList, c ∈ plainChars)
    (hid : ∀ c ∈ eventId.toList, c ∈ plainChars) :
    (Json.utf8 (cursorText workspaceUid eventId)).length = 21 + eventId.length + workspaceUid.length := by
  rw [length_utf8, cursorText_of_plain huid hid]
  · simp only [List.length_append, List.length_cons, List.length_nil, String.length_toList]
    omega
  · have hevent : ∀ c ∈ eventId.toList, (String.utf8EncodeChar c).length = 1 :=
      fun c hc ↦ utf8EncodeChar_of_plain (hid c hc)
    have hworkspace : ∀ c ∈ workspaceUid.toList, (String.utf8EncodeChar c).length = 1 :=
      fun c hc ↦ utf8EncodeChar_of_plain (huid c hc)
    rw [cursorText_of_plain huid hid]
    simp only [List.forall_mem_append]
    exact ⟨forall_of_all (by decide), hevent, forall_of_all (by decide), hworkspace,
      forall_of_all (by decide)⟩

/-- A cursor that is not too long has bytes. -/
theorem cursorBytes_encode (huid : ∀ c ∈ workspaceUid.toList, c ∈ plainChars)
    (hid : ∀ c ∈ eventId.toList, c ∈ plainChars) (hlong : 3 ≤ eventId.length + workspaceUid.length)
    (hshort : eventId.length + workspaceUid.length ≤ 99) :
    cursorBytes (encodeListCursor workspaceUid eventId) = .ok (Json.utf8 (cursorText workspaceUid eventId)) := by
  have hbytes := length_cursorText huid hid
  have hchars : (encodeListCursor workspaceUid eventId).length = (4 * (Json.utf8
      (cursorText workspaceUid eventId)).length + 2) / 3 := by
    rw [encodeListCursor, String.length_ofList, Base64.length_encode]
  have hlist : (encodeListCursor workspaceUid eventId).toList = Base64.encode (Json.utf8
      (cursorText workspaceUid eventId)) :=
    String.toList_ofList
  have hfirst : isEventId (encodeListCursor workspaceUid eventId) = false := by
    obtain ⟨rest, hrest⟩ : ∃ rest, Json.utf8 (cursorText workspaceUid eventId) = 123 :: 34 :: 101 :: rest := by
      rw [cursorText_of_plain huid hid]
      exact ⟨_, rfl⟩
    unfold isEventId
    rw [hlist, hrest]
    rfl
  have hallowed : (encodeListCursor workspaceUid eventId).toList.all (· ∈ Base64.alphabet) = true := by
    rw [hlist, List.all_eq_true]
    intro c hc
    exact decide_eq_true (Base64.mem_alphabet_of_mem_encode hc)
  unfold cursorBytes
  rw [if_neg (by omega), hfirst, if_neg (by simp), hallowed, if_neg (by simp), hlist, Base64.decode_encode]
  exact if_pos (by omega)

/-- A cursor that is too long is refused. -/
theorem cursorBytes_of_long (huid : ∀ c ∈ workspaceUid.toList, c ∈ plainChars)
    (hid : ∀ c ∈ eventId.toList, c ∈ plainChars) (hlong : 99 < eventId.length + workspaceUid.length) :
    cursorBytes (encodeListCursor workspaceUid eventId) = queryInvalid := by
  have hbytes := length_cursorText huid hid
  have hchars : (encodeListCursor workspaceUid eventId).length =
      (4 * (Json.utf8 (cursorText workspaceUid eventId)).length + 2) / 3 := by
    rw [encodeListCursor, String.length_ofList, Base64.length_encode]
  unfold cursorBytes
  rw [if_pos (by omega)]

/-- A cursor is read back where its id fits the grammar, and refused where it does not. -/
theorem decodeListCursor_encode (huid : ∀ c ∈ workspaceUid.toList, c ∈ plainChars)
    (hid : ∀ c ∈ eventId.toList, c ∈ plainChars) (hlong : 3 ≤ eventId.length + workspaceUid.length)
    (hshort : eventId.length + workspaceUid.length ≤ 99)
    (hloads : P.loads (String.ofList (cursorText workspaceUid eventId)) =
      some (.obj (cursorPayloadOf workspaceUid eventId))) :
    decodeListCursor P (encodeListCursor workspaceUid eventId) workspaceUid =
      if isEventId eventId then .ok eventId else queryInvalid := by
  have hpayload : cursorPayload P (Json.utf8 (cursorText workspaceUid eventId)) =
      .ok (cursorPayloadOf workspaceUid eventId) := by
    rw [cursorPayload, Base64.decodeUtf8_utf8, Option.bind_some, hloads]
    have hversion : Json.same (.int 1) (valueAt (cursorPayloadOf workspaceUid eventId) "v") = true := by
      change Json.same (.int 1) (.int 1) = true
      simp [Json.same, Json.int?]
    exact if_pos ⟨rfl, hversion⟩
  have hmarked : requireCursorWorkspace (cursorPayloadOf workspaceUid eventId) workspaceUid = .ok () := if_pos rfl
  rw [decodeListCursor, cursorBytes_encode huid hid hlong hshort, ok_bind, hpayload, ok_bind, hmarked, ok_bind]
  rfl

/-! ## The items of a ledger -/

variable {items : List (String × Record)}

/-- The items of a workspace are the notices of the log that are of it, from the latest to the first. -/
theorem pairsOf_notices {events : List Json} {notices : List Record} {uid : Option String}
    (hnotices : noticesOf P events = .ok notices) (hitems : pairsOf P uid events = .ok items) :
    items.map Prod.snd = notices.filter (ofWorkspace uid) := by
  induction events generalizing notices items with
  | nil =>
      cases hnotices
      cases hitems
      rfl
  | cons event events ih =>
      obtain ⟨read, rest, hread, hrest, rfl⟩ := noticesOf_cons hnotices
      unfold pairsOf at hitems
      rw [hread, ok_bind] at hitems
      cases read with
      | none => exact ih hrest hitems
      | some notice =>
          dsimp only at hitems
          rw [Option.toList_some, List.singleton_append, List.filter_cons]
          split at hitems
          · next hof =>
            obtain ⟨record, -, hitems⟩ := bind_eq_ok.mp hitems
            obtain ⟨id, -, hitems⟩ := bind_eq_ok.mp hitems
            obtain ⟨pairs, hpairs, hitems⟩ := bind_eq_ok.mp hitems
            cases hitems
            rw [if_pos hof, List.map_cons, ih hrest hpairs]
          · next hof =>
            rw [if_neg hof]
            exact ih hrest hitems

theorem workspacePairs_eq (uid : Option String) :
    workspacePairs P activity uid = pairsOf P uid (eventsOf activity).reverse := by
  unfold workspacePairs eventsOf
  cases activity.get "activity" with
  | none => rfl
  | some value => cases value <;> rfl

theorem workspacePairs_notices {notices : List Record} {uid : Option String}
    (hnotices : logNotices P activity = .ok notices) (hitems : workspacePairs P activity uid = .ok items) :
    items.map Prod.snd = notices.filter (ofWorkspace uid) := by
  rw [workspacePairs_eq] at hitems
  exact pairsOf_notices hnotices hitems

/-- The workspace of a notice that was read is the canonical text of a UUID. -/
theorem noticeFromEvent_workspace {event : Json} {notice : Record} (h : noticeFromEvent P event = .ok (some notice)) :
    ∃ uid, valueAt notice "workspace_uid" = .str uid ∧ P.isRfc4122Uuid uid = true := by
  obtain ⟨value, hvalid⟩ : ∃ value, validateNotice P value = .ok notice := by
    unfold noticeFromEvent at h
    split at h
    · split at h
      · split at h
        · split at h
          · split at h
            · next found hparsed =>
              cases h
              unfold parseNotice at hparsed
              split at hparsed
              · next value _ =>
                obtain ⟨found', hvalid, hparsed⟩ := bind_eq_ok.mp hparsed
                obtain ⟨text, -, hparsed⟩ := bind_eq_ok.mp hparsed
                split at hparsed
                · cases hparsed
                  exact ⟨value, hvalid⟩
                · cases hparsed
              · cases hparsed
            · cases h
          · cases h
        · cases h
        · cases h
      · cases h
    · cases h
  obtain ⟨v, mapping, rfl, rfl, hkept⟩ := validateNotice_eq_ok hvalid
  refine ⟨v.workspaceUid, rfl, ?_⟩
  have hworkspace : valueAt mapping "workspace_uid" = .str v.workspaceUid :=
    hkept ("workspace_uid", .str v.workspaceUid) (by simp [NoticeValues.record])
  obtain ⟨mapping', hmapping, hread⟩ := bind_eq_ok.mp hvalid
  cases exactFields_eq_ok hmapping
  dsimp only at hread
  split at hread
  · cases hread
  split at hread
  · cases hread
  obtain ⟨uid, huid, -⟩ := bind_eq_ok.mp hread
  rw [hworkspace] at huid
  obtain ⟨text, htext, huid⟩ := bind_eq_ok.mp huid
  cases htext
  obtain ⟨⟨⟩, -, huid⟩ := bind_eq_ok.mp huid
  split at huid
  · assumption
  · cases huid

/-- A workspace with items is named by the canonical text of a UUID. -/
theorem pairsOf_workspace {events : List Json} (h : pairsOf P (some workspaceUid) events = .ok items)
    (hitems : items ≠ []) :
    P.isRfc4122Uuid workspaceUid = true := by
  induction events generalizing items with
  | nil =>
      cases h
      exact absurd rfl hitems
  | cons event events ih =>
      obtain ⟨read, hread, h⟩ := bind_eq_ok.mp h
      cases read with
      | none => exact ih h hitems
      | some notice =>
          dsimp only at h
          split at h
          · next hof =>
            obtain ⟨uid, huid, hcanonical⟩ := noticeFromEvent_workspace hread
            rw [ofWorkspace, Option.all_some, huid, Json.same_str, beq_iff_eq] at hof
            rw [hof]
            exact hcanonical
          · exact ih h hitems

/-! ## Walking through the pages -/

/-- The cursor of an item. -/
def cursorOf (workspaceUid : String) (item : String × Record) : String := encodeListCursor workspaceUid item.1

theorem nextPageCursor_eq (items : List (String × Record)) (start : ℕ) {limit : ℕ} (hlimit : 1 ≤ limit) :
    nextPageCursor items ((items.drop start).take limit) start limit workspaceUid =
      (window (cursorOf workspaceUid) limit items start).2 := by
  unfold nextPageCursor window
  by_cases hlast : items.length ≤ start + limit
  · rw [if_pos hlast, if_pos hlast]
  · rw [if_neg hlast, if_neg hlast, getLast?_shown hlimit hlast]
    cases items[start + limit - 1]? <;> rfl

/-- A page from a position on. -/
theorem pageNotices_window {cursor : Option String} {start limit : ℕ} (hlimit : 1 ≤ limit)
    (hitems : workspacePairs P activity (some workspaceUid) = .ok items)
    (hstart : pageStart P items cursor workspaceUid = .ok start) :
    pageNotices P activity workspaceUid limit cursor =
      .ok ((window (cursorOf workspaceUid) limit items start).map (List.map Prod.snd) id) := by
  rw [pageNotices, hitems, ok_bind, hstart, ok_bind]
  dsimp only
  rw [nextPageCursor_eq items start hlimit]
  rfl

/-- The cursor of an item leads to the item after it, where ids are distinct and fit cursors. -/
theorem pageStart_cursorOf {i : ℕ} {item : String × Record}
    (hcursors : ∀ item ∈ items, decodeListCursor P (cursorOf workspaceUid item) workspaceUid = .ok item.1)
    (hdistinct : (items.map Prod.fst).Nodup) (hitem : items[i]? = some item) :
    pageStart P items (some (cursorOf workspaceUid item)) workspaceUid = .ok (i + 1) := by
  have hindex : (items.map Prod.fst).idxOf? item.1 = some i :=
    idxOf?_of_getElem? hdistinct (by rw [List.getElem?_map, hitem, Option.map_some])
  rw [pageStart, hcursors item (List.mem_of_getElem? hitem), ok_bind, hindex]
  rfl

/-- For every ledger of notices that can be read, whose events have distinct ids that fit a cursor, and for every
workspace and limit: there is one walk through the pages from no cursor, and it shows the notices of the
workspace, each once, from the latest to the first. Every cursor that a page gives is the encoding of the id of
an event, and is decoded to this id. -/
theorem walk_shows_notices {limit : ℕ} (hlimit : 1 ≤ limit) {notices : List Record} {items : List (String × Record)}
    (hnotices : logNotices P activity = .ok notices)
    (hitems : workspacePairs P activity (some workspaceUid) = .ok items) (hdistinct : (items.map Prod.fst).Nodup)
    (hfits : ∀ item ∈ items, FitsCursor item.1) (huuids : CanonicalUuids P)
    (hloads : ∀ item ∈ items, P.loads (String.ofList (cursorText workspaceUid item.1)) =
      some (.obj (cursorPayloadOf workspaceUid item.1))) :
    (∃ pages, (∀ other, Walk (pageNotices P activity workspaceUid limit) none other ↔ other = pages) ∧
      pages.flatten = notices.filter (ofWorkspace (some workspaceUid))) ∧
    ∀ cursor shown next, pageNotices P activity workspaceUid limit cursor = .ok (shown, some next) →
      ∃ eventId, next = encodeListCursor workspaceUid eventId ∧
        decodeListCursor P next workspaceUid = .ok eventId := by
  have hcursors : ∀ item ∈ items, decodeListCursor P (cursorOf workspaceUid item) workspaceUid = .ok item.1 := by
    intro item hitem
    have hevents := hitems
    rw [workspacePairs_eq] at hevents
    obtain ⟨hlength, hplain⟩ := huuids workspaceUid (pairsOf_workspace hevents (List.ne_nil_of_mem hitem))
    obtain ⟨hid, hshort⟩ := hfits item hitem
    rw [cursorOf, decodeListCursor_encode hplain (plain_of_isEventId hid) (by omega) (by omega) (hloads item hitem),
      if_pos hid]
  constructor
  · obtain ⟨pages, hwalk, hpages⟩ := walk_all hlimit (pageNotices_window hlimit hitems rfl)
      (fun i item hitem ↦ pageNotices_window hlimit hitems (pageStart_cursorOf hcursors hdistinct hitem))
    refine ⟨pages, ?_, ?_⟩
    · intro other
      constructor
      · exact fun hother ↦ hother.unique hwalk
      · rintro rfl
        exact hwalk
    · rw [hpages, workspacePairs_notices hnotices hitems]
  · intro cursor shown next hpage
    obtain ⟨read, hread, hpage⟩ := bind_eq_ok.mp hpage
    rw [hitems] at hread
    cases hread
    obtain ⟨start, -, hpage⟩ := bind_eq_ok.mp hpage
    simp only [pure, Except.pure, Except.ok.injEq, Prod.mk.injEq] at hpage
    have hnext := hpage.2
    rw [nextPageCursor_eq items start hlimit, window] at hnext
    dsimp only at hnext
    split at hnext
    · cases hnext
    · obtain ⟨item, hitem, hcursor⟩ := Option.map_eq_some_iff.mp hnext
      refine ⟨item.1, hcursor.symm, ?_⟩
      rw [← hcursor]
      exact hcursors item (List.mem_of_getElem? hitem)

/-! ## Ledgers with other ids -/

def longEventId : String := "E-10000000000000000000000000000000000000000000000000000000000000"

/-- The cursors that the platform of the samples reads. -/
def pagedIds : List String := ["E-2", "E-000001", "E-000002"]

def pagedTexts : List (List Char × Json) :=
  pagedIds.map (fun id ↦ (cursorText startedNotice.workspaceUid id, .obj
      (cursorPayloadOf startedNotice.workspaceUid id))) ++
    [clashNotice, intentNotice].map fun v ↦ (Json.compactText (.obj v.record), .obj v.record)

def pagedPlatform : Platform := { clientPlatform with loads := fun text ↦ pagedTexts.lookup text.toList }

theorem scanNames_loads (loads : String → Option Json) (names : List String) :
    scanNames { P with loads } names = scanNames P names := by
  induction names with
  | nil => rfl
  | cons name names ih =>
      rw [scanNames, scanNames, ih]
      rfl

/-- A notice is validated without reading JSON. -/
theorem validateNotice_loads (loads : String → Option Json) (value : Json) :
    validateNotice { P with loads } value = validateNotice P value := by
  have hfields : exactFields { P with loads } noticeFields value = exactFields P noticeFields value := by
    cases value with
    | obj record => rw [exactFields, scanNames_loads, exactFields]
    | _ => rfl
  rw [validateNotice, hfields, validateNotice]
  rfl

theorem validateNotice_paged (value : Json) : validateNotice pagedPlatform value =
    validateNotice clientPlatform value :=
  validateNotice_loads _ value

theorem pagedPlatform_loads (text : List Char) : pagedPlatform.loads (String.ofList text) = pagedTexts.lookup text := by
  change pagedTexts.lookup (String.ofList text).toList = _
  rw [String.toList_ofList]

/-- A ledger of notices under given ids, from the first to the latest. -/
def pagedActivity (entries : List (String × NoticeValues)) : Record :=
  [("activity", .arr (entries.map fun entry ↦
    .obj (noticeEvent entry.1 "2026-09-01T10:00:01Z" (.str "T-0001") (noticeBlob entry.2))))]

theorem lookup_of_ne {texts : List (List Char × Json)} {text key : List Char} {value : Json} (h : text ≠ key) :
    List.lookup text ((key, value) :: texts) = List.lookup text texts := by
  rw [List.lookup_cons, beq_false_of_ne h]

theorem lookup_self {texts : List (List Char × Json)} {text : List Char} {value : Json} :
    List.lookup text ((text, value) :: texts) = some value := by
  rw [List.lookup_cons, beq_self_eq_true]

theorem loads_cursor : ∀ id ∈ pagedIds, pagedPlatform.loads (String.ofList (cursorText startedNotice.workspaceUid id)) =
    some (.obj (cursorPayloadOf startedNotice.workspaceUid id)) := by
  simp only [pagedIds, List.forall_mem_cons, pagedPlatform_loads, pagedTexts, List.map_cons, List.cons_append]
  refine ⟨lookup_self, ?_, ?_, fun _ h ↦ absurd h List.not_mem_nil⟩
  · rw [lookup_of_ne (by decide), lookup_self]
  · rw [lookup_of_ne (by decide), lookup_of_ne (by decide), lookup_self]

/-- A notice that the platform of the samples reads back. -/
structure PagedNotice (v : NoticeValues) : Prop where
  valid : validateNotice pagedPlatform (.obj v.record) = .ok v.record
  loads : pagedPlatform.loads (noticeBlob v) = some (.obj v.record)
  short : 1 ≤ (noticeBlob v).length ∧ (noticeBlob v).length ≤ 8192
  workspace : ofWorkspace (some startedNotice.workspaceUid) v.record = true

theorem lookup_cursors {text : List Char}
    (h : ∀ id ∈ pagedIds, text ≠ cursorText startedNotice.workspaceUid id) :
    pagedTexts.lookup text =
      ([clashNotice, intentNotice].map fun v ↦ (Json.compactText (.obj v.record), Json.obj v.record)).lookup text := by
  simp only [pagedIds, List.forall_mem_cons] at h
  obtain ⟨h₁, h₂, h₃, -⟩ := h
  simp only [pagedTexts, pagedIds, List.map_cons, List.cons_append]
  rw [lookup_of_ne h₁, lookup_of_ne h₂, lookup_of_ne h₃]
  rfl

theorem pagedNotice_clash : PagedNotice clashNotice where
  valid := (validateNotice_paged _).trans validateNotice_clash
  loads := by
    rw [noticeBlob, pagedPlatform_loads, lookup_cursors (by decide), List.map_cons, lookup_self]
  short := clientNotice_clash.short
  workspace := Json.same_str_left.mpr rfl

theorem pagedNotice_intent : PagedNotice intentNotice where
  valid := (validateNotice_paged _).trans validateNotice_intent
  loads := by
    rw [noticeBlob, pagedPlatform_loads, lookup_cursors (by decide), List.map_cons,
      lookup_of_ne (by decide +kernel), List.map_cons, lookup_self]
  short := clientNotice_intent.short
  workspace := Json.same_str_left.mpr rfl

theorem PagedNotice.read {v : NoticeValues} (h : PagedNotice v) (id : String) :
    noticeFromEvent pagedPlatform (.obj (noticeEvent id "2026-09-01T10:00:01Z" (.str "T-0001") (noticeBlob v))) =
      .ok (some v.record) :=
  noticeFromEvent_of_parse rfl rfl h.short (parseNotice_serialized (serializeNotice_of_valid h.valid) h.loads)

variable {entries : List (String × NoticeValues)}

/-- The items and the notices of a ledger of the samples. -/
theorem pairsOf_paged (h : ∀ entry ∈ entries, PagedNotice entry.2) :
    pairsOf pagedPlatform (some startedNotice.workspaceUid) (entries.map fun entry ↦
      .obj (noticeEvent entry.1 "2026-09-01T10:00:01Z" (.str "T-0001") (noticeBlob entry.2))) =
        .ok (entries.map fun entry ↦ (entry.1, entry.2.record)) := by
  induction entries with
  | nil => rfl
  | cons entry entries ih =>
      obtain ⟨hentry, hrest⟩ := List.forall_mem_cons.mp h
      rw [List.map_cons, pairsOf, hentry.read, ok_bind]
      dsimp only
      rw [if_pos hentry.workspace, ih hrest]
      rfl

theorem noticesOf_paged (h : ∀ entry ∈ entries, PagedNotice entry.2) :
    noticesOf pagedPlatform (entries.map fun entry ↦
      .obj (noticeEvent entry.1 "2026-09-01T10:00:01Z" (.str "T-0001") (noticeBlob entry.2))) =
        .ok (entries.map fun entry ↦ entry.2.record) := by
  induction entries with
  | nil => rfl
  | cons entry entries ih =>
      obtain ⟨hentry, hrest⟩ := List.forall_mem_cons.mp h
      rw [List.map_cons, noticesOf, hentry.read, ok_bind]
      dsimp only
      rw [ih hrest]
      rfl

theorem workspacePairs_paged (h : ∀ entry ∈ entries, PagedNotice entry.2) :
    workspacePairs pagedPlatform (pagedActivity entries) (some startedNotice.workspaceUid) =
      .ok (entries.reverse.map fun entry ↦ (entry.1, entry.2.record)) := by
  rw [← pairsOf_paged (fun entry hentry ↦ h entry (List.mem_reverse.mp hentry)), List.map_reverse]
  rfl

theorem startedNotice_plain : ∀ c ∈ startedNotice.workspaceUid.toList, c ∈ plainChars :=
  forall_of_all (by decide)

/-- The pager loses or repeats notices of other ledgers. Under an id outside the grammar, or a long one, the page
after the first is refused; under one id for all, the second page leads to itself and the third notice is never
shown. -/
theorem pages_lost_or_repeated :
    (∃ cursor, pageNotices pagedPlatform (pagedActivity [("E-1", clashNotice), ("E-2", intentNotice)])
        startedNotice.workspaceUid 1 none = .ok ([intentNotice.record], some cursor) ∧
      pageNotices pagedPlatform (pagedActivity [("E-1", clashNotice), ("E-2", intentNotice)])
        startedNotice.workspaceUid 1 (some cursor) = queryInvalid) ∧
    (∃ cursor, pageNotices pagedPlatform (pagedActivity [("E-000001", clashNotice), (longEventId, intentNotice)])
        startedNotice.workspaceUid 1 none = .ok ([intentNotice.record], some cursor) ∧
      pageNotices pagedPlatform (pagedActivity [("E-000001", clashNotice), (longEventId, intentNotice)])
        startedNotice.workspaceUid 1 (some cursor) = queryInvalid) ∧
    ∃ cursor, pageNotices pagedPlatform
        (pagedActivity [("E-000001", clashNotice), ("E-000001", intentNotice), ("E-000001", intentNotice)])
          startedNotice.workspaceUid 1 none = .ok ([intentNotice.record], some cursor) ∧
      pageNotices pagedPlatform
        (pagedActivity [("E-000001", clashNotice), ("E-000001", intentNotice), ("E-000001", intentNotice)])
          startedNotice.workspaceUid 1 (some cursor) = .ok ([intentNotice.record], some cursor) := by
  have hpair {first latest : String} : workspacePairs pagedPlatform
      (pagedActivity [(first, clashNotice), (latest, intentNotice)]) (some startedNotice.workspaceUid) =
        .ok [(latest, intentNotice.record), (first, clashNotice.record)] := by
    apply workspacePairs_paged
    simp only [List.forall_mem_cons]
    exact ⟨pagedNotice_clash, pagedNotice_intent, fun _ h ↦ absurd h List.not_mem_nil⟩
  have hthree : workspacePairs pagedPlatform
      (pagedActivity [("E-000001", clashNotice), ("E-000001", intentNotice), ("E-000001", intentNotice)])
        (some startedNotice.workspaceUid) = .ok [("E-000001", intentNotice.record), ("E-000001", intentNotice.record),
          ("E-000001", clashNotice.record)] := by
    apply workspacePairs_paged
    simp only [List.forall_mem_cons]
    exact ⟨pagedNotice_clash, pagedNotice_intent, pagedNotice_intent, fun _ h ↦ absurd h List.not_mem_nil⟩
  have hshort : decodeListCursor pagedPlatform (encodeListCursor startedNotice.workspaceUid "E-2")
      startedNotice.workspaceUid = queryInvalid := by
    rw [decodeListCursor_encode startedNotice_plain (forall_of_all (by decide)) (by decide) (by decide)
      (loads_cursor "E-2" (by decide))]
    rfl
  have hlong : decodeListCursor pagedPlatform (encodeListCursor startedNotice.workspaceUid longEventId)
      startedNotice.workspaceUid = queryInvalid := by
    rw [decodeListCursor,
      cursorBytes_of_long startedNotice_plain (forall_of_all (by decide)) (by decide)]
    rfl
  have hfits : decodeListCursor pagedPlatform (encodeListCursor startedNotice.workspaceUid "E-000001")
      startedNotice.workspaceUid = .ok "E-000001" := by
    rw [decodeListCursor_encode startedNotice_plain (forall_of_all (by decide)) (by decide) (by decide)
      (loads_cursor "E-000001" (by decide))]
    rfl
  refine ⟨⟨encodeListCursor startedNotice.workspaceUid "E-2", ?_, ?_⟩,
    ⟨encodeListCursor startedNotice.workspaceUid longEventId, ?_, ?_⟩,
    ⟨encodeListCursor startedNotice.workspaceUid "E-000001", ?_, ?_⟩⟩
  · rw [pageNotices, hpair]
    rfl
  · rw [pageNotices, hpair, ok_bind, pageStart, hshort]
    rfl
  · rw [pageNotices, hpair]
    rfl
  · rw [pageNotices, hpair, ok_bind, pageStart, hlong]
    rfl
  · rw [pageNotices, hthree]
    rfl
  · rw [pageNotices, hthree, ok_bind, pageStart, hfits]
    rfl

/-- The platform of the samples reads UUIDs as they are documented. -/
theorem canonicalUuids_paged : CanonicalUuids pagedPlatform := by
  intro text htext
  have hshape : fitsShape (fun c ↦ c.isDigit || ('a' ≤ c && c ≤ 'f')) "dddddddd-dddd-dddd-dddd-dddddddddddd".toList
      text.toList = true := by
    by_contra hother
    have hnone : pagedPlatform.uuid text = none := if_neg hother
    rw [Platform.isRfc4122Uuid, hnone] at htext
    cases htext
  obtain ⟨hlength, hall⟩ := of_fitsShape hshape
  refine ⟨hlength, ?_⟩
  intro c hc
  rcases hall c hc with hdigit | hmem
  · rcases Bool.or_eq_true_iff.mp hdigit with hdigit | hletter
    · exact plain_of_isDigit hdigit
    · obtain ⟨hlow, hhigh⟩ := Bool.and_eq_true_iff.mp hletter
      have hlow' : 97 ≤ c.toNat := of_decide_eq_true hlow
      have hhigh' : c.toNat ≤ 102 := of_decide_eq_true hhigh
      have hletters : ∀ n : Fin 6, Char.ofNat (97 + n.val) ∈ plainChars := by decide
      exact plain_of_between hlow' (by omega) hletters
  · have hshapes : ∀ c ∈ "dddddddd-dddd-dddd-dddd-dddddddddddd".toList, c ∈ plainChars :=
      forall_of_all (by decide)
    exact hshapes c hmem

theorem pagedActivity_walk : ∃ pages,
    (∀ other, Walk (pageNotices pagedPlatform (pagedActivity [("E-000001", clashNotice), ("E-000002", intentNotice)])
      startedNotice.workspaceUid 1) none other ↔ other = pages) ∧
    pages.flatten = [intentNotice.record, clashNotice.record] := by
  have hnotices : logNotices pagedPlatform (pagedActivity [("E-000001", clashNotice), ("E-000002", intentNotice)]) =
      .ok [intentNotice.record, clashNotice.record] := by
    have hread : ∀ entry ∈ [("E-000002", intentNotice), ("E-000001", clashNotice)], PagedNotice entry.2 := by
      simp only [List.forall_mem_cons]
      exact ⟨pagedNotice_intent, pagedNotice_clash, fun _ h ↦ absurd h List.not_mem_nil⟩
    exact noticesOf_paged hread
  have hread : ∀ entry ∈ [("E-000001", clashNotice), ("E-000002", intentNotice)], PagedNotice entry.2 := by
    simp only [List.forall_mem_cons]
    exact ⟨pagedNotice_clash, pagedNotice_intent, fun _ h ↦ absurd h List.not_mem_nil⟩
  have hitems := workspacePairs_paged hread
  have hids : ∀ item ∈ [("E-000002", intentNotice.record), ("E-000001", clashNotice.record)], item.1 ∈ pagedIds := by
    simp only [List.forall_mem_cons]
    exact ⟨by decide, by decide, fun _ h ↦ absurd h List.not_mem_nil⟩
  have hfits : ∀ item ∈ [("E-000002", intentNotice.record), ("E-000001", clashNotice.record)], FitsCursor item.1 := by
    simp only [List.forall_mem_cons]
    exact ⟨⟨by decide, by decide⟩, ⟨by decide, by decide⟩,
      fun _ h ↦ absurd h List.not_mem_nil⟩
  have hloads := fun item hitem ↦ loads_cursor _ (hids item hitem)
  obtain ⟨⟨pages, hwalk, hpages⟩, -⟩ := walk_shows_notices (Nat.le_refl 1) hnotices hitems
    (by decide) hfits canonicalUuids_paged hloads
  refine ⟨pages, hwalk, ?_⟩
  rw [hpages, List.filter_cons, if_pos pagedNotice_intent.workspace, List.filter_cons, if_pos pagedNotice_clash.workspace]
  rfl

end WorkStack.Service
