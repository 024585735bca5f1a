import WorkStack.Reports.ReportPages
import WorkStack.Reports.ReportRuns
import WorkStack.Streams.Relink

/-!
# The pages of a document

A walk through the pages of reports shows each report that the filter wants once, in the order of the list, and a
cursor is accepted exactly when it is the one that is written for its update and its uid.
-/

open WorkStack.Python WorkStack.Effect.Refusing WorkStack.Effect.Paging

namespace WorkStack.Reports

variable {L : Library}

/-! ## Cursors that are read back -/

/-- What is documented of stamps: `\d` matches no ASCII character but the digits, and where a month has two
characters, `%m` reads `01` to `12`. -/
structure ReadsStamps (L : Library) : Prop where
  digits : ∀ c, (L.digit c).isSome = true → c.toNat < 128 → c.isDigit = true
  months : ∀ text time, isStamp L.toInterpreter text = true → L.strptime text = some time →
    ∀ c ∈ (text.toList.drop 5).take 2, c.isDigit = true

/-- `json.loads` of the text of a cursor. -/
def ReadsCursors (L : Library) : Prop :=
  ∀ binding uid updatedAt, isBinding binding = true → isUuid4 uid = true → isStamp L.toInterpreter updatedAt = true →
    L.loads (String.ofList (Json.compactText (.obj (cursorPayload binding uid updatedAt)))) =
      some (.obj (cursorPayload binding uid updatedAt))

variable {text : String}

/-- A text that fits a run of tests for plain characters has one of them for each test. -/
theorem plain_of_fits {tests : List (Char → Bool)} (h : Streams.fits tests text.toList = true)
    (hplain : ∀ test ∈ tests, ∀ c, test c = true → Json.IsPlain c) :
    text.toList.length = tests.length ∧ ∀ c ∈ text.toList, Json.IsPlain c := by
  obtain ⟨hlength, hall⟩ := Streams.of_fits h
  refine ⟨hlength, ?_⟩
  intro c hc
  obtain ⟨test, htest, hc⟩ := hall c hc
  exact hplain test htest c hc

theorem plain_of_isHexRun (n : ℕ) : ∀ test ∈ Streams.isHexRun n, ∀ c, test c = true → Json.IsPlain c := by
  intro test htest c hc
  rw [List.eq_of_mem_replicate htest] at hc
  exact Streams.isPlain_of_isLowerHex hc

theorem plain_of_isBinding (h : isBinding text = true) :
    text.toList.length = 64 ∧ ∀ c ∈ text.toList, Json.IsPlain c :=
  plain_of_fits h (plain_of_isHexRun 64)

theorem plain_of_isUuid4 (h : isUuid4 text = true) :
    text.toList.length = 36 ∧ ∀ c ∈ text.toList, Json.IsPlain c := by
  refine plain_of_fits h ?_
  have hdash : ∀ c, Streams.isDash c = true → Json.IsPlain c := by
    intro c hc
    rw [eq_of_beq hc]
    decide
  have hfour : ∀ c, (c == '4') = true → Json.IsPlain c := by
    intro c hc
    rw [eq_of_beq hc]
    decide
  have hvariant : ∀ c, "89ab".toList.contains c = true → Json.IsPlain c := by
    have hall : ∀ c ∈ "89ab".toList, Json.IsPlain c := forall_of_all (by decide)
    exact fun c hc ↦ hall c (by simpa using hc)
  simp only [List.forall_mem_append, List.forall_mem_cons]
  exact ⟨⟨⟨⟨plain_of_isHexRun 8, hdash, plain_of_isHexRun 4⟩, hdash, hfour, plain_of_isHexRun 3⟩, hdash, hvariant,
    plain_of_isHexRun 3⟩, hdash, plain_of_isHexRun 12⟩

/-- A plain text takes a byte for each of its characters, and two for its quotes. -/
theorem size_of_plain {n : ℕ} (h : text.toList.length = n ∧ ∀ c ∈ text.toList, Json.IsPlain c) :
    (Json.str text).size = n + 2 := by
  rw [Json.size_str_of_plain h.2, ← String.length_toList, h.1]

variable {binding uid updatedAt : String}

/-- The bytes of the payload of a cursor. -/
theorem length_cursorPayload (hbinding : isBinding binding = true) (huid : isUuid4 uid = true) :
    (Json.compactJson (.obj (cursorPayload binding uid updatedAt))).length = 143 + (Json.str updatedAt).size := by
  have hsize := Json.size_obj (cursorPayload binding uid updatedAt)
  have hkeys : (Json.utf8 (Json.quoted "binding")).length = 9 ∧ (Json.utf8 (Json.quoted "uid")).length = 5 ∧
      (Json.utf8 (Json.quoted "updated_at")).length = 12 ∧ (Json.utf8 (Json.quoted "v")).length = 3 ∧
      (Json.int cursorVersion).size = 1 := by decide
  obtain ⟨h₁, h₂, h₃, h₄, h₅⟩ := hkeys
  simp only [cursorPayload, List.map_cons, List.map_nil, List.sum_cons, List.sum_nil, Json.fieldSize, h₁, h₂, h₃, h₄,
    h₅, size_of_plain (plain_of_isBinding hbinding), size_of_plain (plain_of_isUuid4 huid)] at hsize
  change (Json.obj (cursorPayload binding uid updatedAt)).size = _
  rw [cursorPayload, hsize]
  omega

/-- The binding of a cursor is a digest. -/
theorem isBinding_bindingOf (owner state : String) : isBinding (bindingOf L owner state) = true := by
  obtain ⟨hlength, hall⟩ := (L.sha256 (Json.compactJson (.obj [("state", .str state),
    ("workspace_uid", .str owner)]))).wellFormed
  rw [isBinding, bindingOf, Streams.isHexRun, ← hlength, ← String.length_toList]
  exact Streams.fits_of_forall (List.all_eq_true.mp hall)

/-- Objects with the same fields are encoded alike, in whatever order they hold them. -/
theorem encodePayload_eq {payload : Dict String Json} (hkeys : hasKeys cursorKeys payload = true)
    (hversion : item payload "v" = .int cursorVersion) (hbinding : item payload "binding" = .str binding)
    (huid : item payload "uid" = .str uid) (hupdated : item payload "updated_at" = .str updatedAt) :
    encodePayload payload = encodePayload (cursorPayload binding uid updatedAt) := by
  simp only [hasKeys, Bool.and_eq_true, decide_eq_true_eq, List.all_eq_true, List.contains_iff_mem] at hkeys
  obtain ⟨⟨hnodup, hsubset⟩, hall⟩ := hkeys
  have hget (key : String) (hkey : key ∈ cursorKeys) : Dict.get payload key = some (item payload key) := by
    obtain ⟨value, hvalue⟩ := Option.isSome_iff_exists.mp ((Dict.mem_keys payload key).mp (hall key hkey))
    rw [item, hvalue, Option.getD_some]
  have hnone (key : String) (hkey : key ∉ cursorKeys) : Dict.get payload key = none := by
    rw [← Option.not_isSome_iff_eq_none, ← Dict.mem_keys]
    exact fun hmem ↦ hkey (hsubset key hmem)
  have hsame : ∀ key, Dict.get payload key = Dict.get (cursorPayload binding uid updatedAt) key := by
    intro key
    by_cases hkey : key ∈ cursorKeys
    · rw [hget key hkey]
      simp only [cursorKeys, List.mem_cons, List.not_mem_nil, or_false] at hkey
      rcases hkey with rfl | rfl | rfl | rfl
      · rw [hbinding]; rfl
      · rw [huid]; rfl
      · rw [hupdated]; rfl
      · rw [hversion]; rfl
    · rw [hnone key hkey]
      have hother : key ∉ Dict.keys (cursorPayload binding uid updatedAt) := hkey
      rw [Dict.mem_keys, Option.not_isSome_iff_eq_none] at hother
      exact hother.symm
  have hbytes := @Streams.Event.bytes_eq ⟨payload, hnodup⟩
    ⟨cursorPayload binding uid updatedAt, (by decide : cursorKeys.Nodup)⟩ hsame
  exact congrArg (fun bytes ↦ String.ofList (Base64.encode bytes)) hbytes

theorem payloadFields_eq_ok {payload : Dict String Json} (h : payloadFields L payload = .ok (binding, uid, updatedAt)) :
    (item payload "v" = .int cursorVersion ∧ item payload "binding" = .str binding ∧ item payload "uid" = .str uid ∧
      item payload "updated_at" = .str updatedAt) ∧
    isBinding binding = true ∧ isUuid4 uid = true ∧ isStamp L.toInterpreter updatedAt = true := by
  unfold payloadFields at h
  split at h
  · rename_i version binding' uid' updatedAt' hv hb hu hs
    split at h
    · rename_i hfields
      obtain ⟨rfl, hbinding, huid, hstamp⟩ := hfields
      obtain ⟨rfl, rfl, rfl⟩ : binding' = binding ∧ uid' = uid ∧ updatedAt' = updatedAt := by
        simpa using Except.ok.inj h
      exact ⟨⟨hv, hb, hu, hs⟩, hbinding, huid, hstamp⟩
    · cases h
  · cases h

theorem cursorBytes_eq_ok {cursor : String} {raw : Bytes} (h : cursorBytes cursor = .ok raw) :
    Base64.decode cursor.toList = some raw ∧ raw.length ≤ maxCursorBytes := by
  unfold cursorBytes at h
  split at h
  · cases h
  split at h
  · cases h
  cases hraw : Base64.decode cursor.toList with
  | none =>
      rw [hraw] at h
      cases h
  | some found =>
      rw [hraw] at h
      dsimp only at h
      split at h
      · rename_i hlength
        cases h
        exact ⟨rfl, hlength.2⟩
      · cases h

/-- A cursor that is not too long has bytes. -/
theorem cursorBytes_encode (hbinding : isBinding binding = true) (huid : isUuid4 uid = true)
    (hsize : (Json.str updatedAt).size ≤ 49) :
    cursorBytes (encodePayload (cursorPayload binding uid updatedAt)) =
      .ok (Json.compactJson (.obj (cursorPayload binding uid updatedAt))) := by
  have hbytes := @length_cursorPayload _ _ updatedAt hbinding huid
  have hchars : (encodePayload (cursorPayload binding uid updatedAt)).length =
      (4 * (Json.compactJson (.obj (cursorPayload binding uid updatedAt))).length + 2) / 3 := by
    rw [encodePayload, String.length_ofList, Base64.length_encode]
  have hlist : (encodePayload (cursorPayload binding uid updatedAt)).toList =
      Base64.encode (Json.compactJson (.obj (cursorPayload binding uid updatedAt))) := String.toList_ofList
  have hallowed : (encodePayload (cursorPayload binding uid updatedAt)).toList.all (Base64.alphabet.contains ·) = true := by
    rw [hlist, List.all_eq_true]
    exact fun c hc ↦ List.contains_iff_mem.mpr (Base64.mem_alphabet_of_mem_encode hc)
  unfold cursorBytes
  rw [if_neg, if_neg (by simp only [hallowed, not_true_eq_false, not_false_eq_true]), hlist, Base64.decode_encode]
  · exact if_pos ⟨by omega, by rw [maxCursorBytes]; omega⟩
  · rw [minCursorChars, maxCursorChars]
    omega

/-- A cursor is accepted for an update and a uid exactly when it is the one that is written for them. -/
theorem decodeCursor_eq_ok (hloads : ReadsCursors L) {cursor owner state updatedAt uid : String} :
    decodeCursor L cursor owner state = .ok (updatedAt, uid) ↔
      cursor = encodeCursor L owner state updatedAt uid ∧ isUuid4 uid = true ∧
        isStamp L.toInterpreter updatedAt = true ∧ (Json.str updatedAt).size ≤ 49 := by
  constructor
  · intro h
    obtain ⟨⟨binding, uid', updatedAt'⟩, hadmit, h⟩ := bind_eq_ok.mp h
    dsimp only at h
    split at h
    · rename_i hbound
      obtain ⟨rfl, rfl⟩ : updatedAt' = updatedAt ∧ uid' = uid := by simpa using pure_eq_ok.mp h
      obtain ⟨raw, hraw, hadmit⟩ := bind_eq_ok.mp hadmit
      obtain ⟨payload, hpayload, hadmit⟩ := bind_eq_ok.mp hadmit
      obtain ⟨fields, hfields, hadmit⟩ := bind_eq_ok.mp hadmit
      split at hadmit
      · rename_i hcursor
        rw [pure_eq_ok.mp hadmit] at hfields
        obtain ⟨⟨hv, hb, hu, hs⟩, hbinding, huid, hstamp⟩ := payloadFields_eq_ok hfields
        have hkeys : hasKeys cursorKeys payload = true := by
          unfold payloadFromRaw at hpayload
          split at hpayload
          · split at hpayload
            · rename_i hkeys
              rw [← Except.ok.inj hpayload]
              exact hkeys
            · cases hpayload
          · cases hpayload
        have hsame := encodePayload_eq hkeys hv hb hu hs
        obtain ⟨hdecode, hlength⟩ := cursorBytes_eq_ok hraw
        rw [← hcursor, hsame, encodePayload, String.toList_ofList, Base64.decode_encode, Option.some.injEq] at hdecode
        rw [← hdecode, length_cursorPayload hbinding huid, maxCursorBytes] at hlength
        refine ⟨?_, huid, hstamp, by omega⟩
        rw [← hcursor, hsame, encodeCursor, hbound]
      · cases hadmit
    · cases h
  · rintro ⟨rfl, huid, hstamp, hsize⟩
    have hbinding := isBinding_bindingOf (L := L) owner state
    have hread := hloads _ _ _ hbinding huid hstamp
    have hpayload : payloadFromRaw L (Json.compactJson (.obj (cursorPayload (bindingOf L owner state) uid updatedAt))) =
        .ok (cursorPayload (bindingOf L owner state) uid updatedAt) := by
      rw [payloadFromRaw, Json.compactJson, Base64.decodeUtf8_utf8, Option.bind_some, hread]
      exact if_pos (by decide : hasKeys cursorKeys (cursorPayload "" "" "") = true)
    have hfields : payloadFields L (cursorPayload (bindingOf L owner state) uid updatedAt) =
        .ok (bindingOf L owner state, uid, updatedAt) := if_pos ⟨rfl, hbinding, huid, hstamp⟩
    have hadmit : admitCursor L (encodeCursor L owner state updatedAt uid) =
        .ok (bindingOf L owner state, uid, updatedAt) :=
      bind_eq_ok.mpr ⟨_, cursorBytes_encode hbinding huid hsize, bind_eq_ok.mpr ⟨_, hpayload,
        bind_eq_ok.mpr ⟨_, hfields, if_pos rfl⟩⟩⟩
    exact bind_eq_ok.mpr ⟨_, hadmit, if_pos rfl⟩

/-! ## Stamps fit cursors -/

/-- What a character takes in a JSON text. -/
def weight (c : Char) : ℕ := (Json.utf8 (Json.escapeChar c)).length

def totalWeight (text : List Char) : ℕ := (text.map weight).sum

theorem size_str_eq (text : String) : (Json.str text).size = 2 + totalWeight text.toList := by
  have hquote : (String.utf8EncodeChar '"').length = 1 ∧ (Json.utf8 ['"']).length = 1 := by decide
  have hsum (text : List Char) : (Json.utf8 (text.flatMap Json.escapeChar)).length = totalWeight text := by
    induction text with
    | nil => rfl
    | cons c text ih =>
        rw [List.flatMap_cons, Json.utf8_append, List.length_append, ih, totalWeight, totalWeight, List.map_cons,
          List.sum_cons, weight]
  have htext : Json.compactText (.str text) = Json.quoted text := by simp [Json.compactText, Json.leaf]
  rw [Json.size, htext, Json.quoted, Json.utf8_append, Json.utf8_cons, List.length_append, List.length_append, hsum,
    hquote.1, hquote.2]
  omega

theorem weight_of_isPlain {c : Char} (h : Json.IsPlain c) : weight c = 1 := by
  rw [weight, Json.escapeChar_of_plain h]
  exact Json.length_utf8_of_plain (by simpa using h)

theorem weight_of_isDigit {c : Char} (h : c.isDigit = true) : weight c = 1 := weight_of_isPlain (Json.isPlain_of_isDigit h)

theorem weight_le_four {c : Char} (hdigits : c.toNat < 128 → c.isDigit = true) : weight c ≤ 4 := by
  by_cases hlow : c.toNat < 128
  · rw [weight_of_isDigit (hdigits hlow)]
    omega
  · have hne : ∀ d : Char, d.toNat < 128 → c ≠ d := by
      rintro d hd rfl
      exact hlow hd
    have hself : Json.escapeChar c = [c] := by
      unfold Json.escapeChar
      rw [if_neg (hne _ (by decide)), if_neg (hne _ (by decide)), if_neg (hne _ (by decide)), if_neg (hne _ (by decide)),
        if_neg (hne _ (by decide)), if_neg (by omega), if_neg (by omega), if_neg (by omega)]
    rw [weight, hself, Json.utf8_cons, List.length_append, String.length_utf8EncodeChar]
    exact Char.utf8Size_le_four c

theorem totalWeight_append (text rest : List Char) : totalWeight (text ++ rest) = totalWeight text + totalWeight rest := by
  rw [totalWeight, List.map_append, List.sum_append, totalWeight, totalWeight]

theorem totalWeight_of_digits {text : List Char} (h : ∀ c ∈ text, c.isDigit = true) : totalWeight text = text.length := by
  induction text with
  | nil => rfl
  | cons c text ih =>
      obtain ⟨hc, htext⟩ := List.forall_mem_cons.mp h
      have hrest := ih htext
      rw [totalWeight] at hrest
      rw [totalWeight, List.map_cons, List.sum_cons, hrest, weight_of_isDigit hc, List.length_cons, Nat.add_comm]

/-- A text of a shape takes at most four bytes for each of its digits. -/
theorem totalWeight_of_fitsShape (hread : ReadsStamps L) {shape text : List Char}
    (h : fitsShape (isAnyDigit L.toInterpreter) shape text = true) :
    totalWeight text ≤ (shape.map fun s ↦ if s = 'd' then 4 else weight s).sum := by
  induction shape generalizing text with
  | nil =>
      cases text with
      | nil => exact Nat.le_refl 0
      | cons c text => cases h
  | cons s shape ih =>
      cases text with
      | nil => cases h
      | cons c text =>
          obtain ⟨hc, hrest⟩ := Bool.and_eq_true_iff.mp h
          have htail := ih hrest
          have hhead : weight c ≤ if s = 'd' then 4 else weight s := by
            split at hc
            · rename_i hs
              rw [if_pos hs]
              exact weight_le_four (hread.digits c hc)
            · rename_i hs
              rw [if_neg hs, ← eq_of_beq hc]
          rw [totalWeight] at htail
          rw [totalWeight, List.map_cons, List.sum_cons, List.map_cons, List.sum_cons]
          omega

theorem fitsShape_append {isDigit : Char → Bool} {shape rest text : List Char}
    (h : fitsShape isDigit (shape ++ rest) text = true) :
    fitsShape isDigit shape (text.take shape.length) = true ∧ fitsShape isDigit rest (text.drop shape.length) = true := by
  induction shape generalizing text with
  | nil => exact ⟨by rw [List.length_nil, List.take_zero]; rfl, h⟩
  | cons s shape ih =>
      cases text with
      | nil => cases h
      | cons c text =>
          obtain ⟨hc, hrest⟩ := Bool.and_eq_true_iff.mp h
          obtain ⟨hfirst, hlast⟩ := ih hrest
          exact ⟨Bool.and_eq_true_iff.mpr ⟨hc, hfirst⟩, hlast⟩

theorem isDigit_of_between {c d : Char} (hlow : '0' ≤ c) (hhigh : c ≤ d) (hd : d.toNat ≤ 57) : c.isDigit = true := by
  have hlow' : 48 ≤ c.toNat := hlow
  have hhigh' : c.toNat ≤ d.toNat := hhigh
  have hhigh'' : c.toNat ≤ 57 := hhigh'.trans hd
  exact Bool.and_eq_true_iff.mpr ⟨decide_eq_true hlow', decide_eq_true hhigh''⟩

theorem weight_of_isAnyDigit (hread : ReadsStamps L) {c : Char} (h : isAnyDigit L.toInterpreter c = true) :
    weight c ≤ 4 :=
  weight_le_four (hread.digits c h)

/-- Hours and minutes take at most eleven bytes. -/
theorem totalWeight_of_isHourMinute (hread : ReadsStamps L) {text : List Char}
    (h : isHourMinute L.toInterpreter text = true) : totalWeight text ≤ 11 := by
  unfold isHourMinute at h
  split at h
  · rename_i a b c d
    simp only [Bool.and_eq_true, Bool.or_eq_true, beq_iff_eq, decide_eq_true_eq] at h
    obtain ⟨⟨⟨hhour, hc⟩, hc'⟩, hd⟩ := h
    have hcolon : weight ':' = 1 := by decide
    have hminute : weight c = 1 := weight_of_isDigit (isDigit_of_between hc hc' (by decide))
    have hlast := weight_of_isAnyDigit hread hd
    have hfirst : weight a = 1 ∧ weight b ≤ 4 := by
      rcases hhour with ⟨rfl | rfl, hb⟩ | ⟨⟨rfl, hb⟩, hb'⟩
      · exact ⟨by decide, weight_of_isAnyDigit hread hb⟩
      · exact ⟨by decide, weight_of_isAnyDigit hread hb⟩
      · exact ⟨by decide, by rw [weight_of_isDigit (isDigit_of_between hb hb' (by decide))]; omega⟩
    simp only [totalWeight, List.map_cons, List.map_nil, List.sum_cons, List.sum_nil, hcolon, hminute, hfirst.1]
    omega
  · cases h

/-- A stamp that `strptime` reads leaves room for the rest of a cursor. -/
theorem size_of_stamp (hread : ReadsStamps L) {time : ℤ} (hstamp : isStamp L.toInterpreter text = true)
    (htime : L.strptime text = some time) : (Json.str text).size ≤ 49 := by
  obtain ⟨hshape, hlast⟩ := Bool.and_eq_true_iff.mp hstamp
  obtain ⟨hshape, hsecond⟩ := Bool.and_eq_true_iff.mp hshape
  obtain ⟨hdate, htimes⟩ := Bool.and_eq_true_iff.mp hshape
  obtain ⟨hyear, hrest⟩ := @fitsShape_append _ "dddd-".toList "dd-ddT".toList _ hdate
  obtain ⟨-, hday⟩ := @fitsShape_append _ "dd".toList "-ddT".toList _ hrest
  have hmonths : ∀ c ∈ (((text.toList.take 19).take 11).drop 5).take 2, c.isDigit = true := by
    have hsame : (((text.toList.take 19).take 11).drop 5).take 2 = (text.toList.drop 5).take 2 := by
      simp [List.take_take, List.drop_take]
    rw [hsame]
    exact hread.months text time hstamp htime
  have hyears : totalWeight (((text.toList.take 19).take 11).take 5) ≤ 17 := totalWeight_of_fitsShape hread hyear
  have hdays : totalWeight ((((text.toList.take 19).take 11).drop 5).drop 2) ≤ 10 := totalWeight_of_fitsShape hread hday
  have hmonth := totalWeight_of_digits hmonths
  have htwo : ((((text.toList.take 19).take 11).drop 5).take 2).length ≤ 2 := List.length_take_le ..
  have hminutes := totalWeight_of_isHourMinute hread htimes
  have hseconds : totalWeight ((text.toList.take 19).drop 16) ≤ 6 := by
    split at hsecond
    · rename_i a b hab
      simp only [Bool.and_eq_true, decide_eq_true_eq] at hsecond
      have hcolon : weight ':' = 1 := by decide
      have ha : weight a = 1 := weight_of_isDigit (isDigit_of_between hsecond.1.1 hsecond.1.2 (by decide))
      have hb := weight_of_isAnyDigit hread hsecond.2
      rw [hab]
      simp only [totalWeight, List.map_cons, List.map_nil, List.sum_cons, List.sum_nil, hcolon, ha]
      omega
    · cases hsecond
  have hz : totalWeight (text.toList.drop 19) = 1 := by
    rw [eq_of_beq hlast]
    decide
  have hsplit : totalWeight text.toList = totalWeight (((text.toList.take 19).take 11).take 5) +
      (totalWeight ((((text.toList.take 19).take 11).drop 5).take 2) +
        totalWeight ((((text.toList.take 19).take 11).drop 5).drop 2)) +
      (totalWeight (((text.toList.take 19).drop 11).take 5) + totalWeight ((text.toList.take 19).drop 16)) +
      totalWeight (text.toList.drop 19) := by
    rw [← totalWeight_append, List.take_append_drop, ← totalWeight_append, List.take_append_drop, ← totalWeight_append,
      show (text.toList.take 19).drop 16 = ((text.toList.take 19).drop 11).drop 5 by rw [List.drop_drop],
      List.take_append_drop, ← totalWeight_append, List.take_append_drop, ← totalWeight_append, List.take_append_drop]
  rw [size_str_eq]
  omega

end WorkStack.Reports
