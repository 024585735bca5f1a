import WorkStack.Json

/-!
# Base64 in the alphabet of URLs

`base64.urlsafe_b64encode` with its padding stripped, and `base64.urlsafe_b64decode` of a text of the alphabet
that is padded again. Three bytes are written as four digits, and one or two bytes at the end as two or three.
The spare bits of the last digit are not read.
-/

namespace WorkStack.Python.Base64

open Json

def alphabet : List Char := "ABCDEFGHIJKLMNOPQRSTUVWXYZabcdefghijklmnopqrstuvwxyz0123456789-_".toList

def digit (n : ℕ) : Char := alphabet.getD n 'A'

def encode : Bytes → List Char
  | a :: b :: c :: rest =>
      digit (a.toNat / 4) :: digit (a.toNat % 4 * 16 + b.toNat / 16) :: digit (b.toNat % 16 * 4 + c.toNat / 64) ::
        digit (c.toNat % 64) :: encode rest
  | [a, b] => [digit (a.toNat / 4), digit (a.toNat % 4 * 16 + b.toNat / 16), digit (b.toNat % 16 * 4)]
  | [a] => [digit (a.toNat / 4), digit (a.toNat % 4 * 16)]
  | [] => []

/-- The bytes that digits stand for; one digit left over is none. -/
def bytesOf : List ℕ → Option Bytes
  | a :: b :: c :: d :: rest => do
      let bytes ← bytesOf rest
      pure (UInt8.ofNat (a * 4 + b / 16) :: UInt8.ofNat (b % 16 * 16 + c / 4) :: UInt8.ofNat (c % 4 * 64 + d) :: bytes)
  | [a, b, c] => some [UInt8.ofNat (a * 4 + b / 16), UInt8.ofNat (b % 16 * 16 + c / 4)]
  | [a, b] => some [UInt8.ofNat (a * 4 + b / 16)]
  | [_] => none
  | [] => some []

def decode (text : List Char) : Option Bytes := do
  let digits ← text.mapM (alphabet.idxOf? ·)
  bytesOf digits

/-! ## Round trip -/

theorem idxOf_digit {n : ℕ} (h : n < 64) : alphabet.idxOf? (digit n) = some n := by
  have hall : ∀ n : Fin 64, alphabet.idxOf? (digit n) = some n.val := by decide +kernel
  exact hall ⟨n, h⟩

theorem digit_mem (n : ℕ) : digit n ∈ alphabet := by
  rw [digit, List.getD_eq_getElem?_getD]
  cases h : alphabet[n]? with
  | none => decide
  | some c => exact List.mem_of_getElem? h

theorem ofNat_of_toNat {a : UInt8} {n : ℕ} (h : n = a.toNat) : UInt8.ofNat n = a := by
  rw [h, UInt8.ofNat_toNat]

theorem decode_encode (bytes : Bytes) : decode (encode bytes) = some bytes := by
  unfold decode
  induction bytes using encode.induct with
  | case1 a b c rest ih =>
      have ha := a.toNat_lt
      have hb := b.toNat_lt
      have hc := c.toNat_lt
      cases hdigits : (encode rest).mapM (alphabet.idxOf? ·) with
      | none =>
          rw [hdigits] at ih
          cases ih
      | some digits =>
          rw [hdigits] at ih
          simp only [encode, List.mapM_cons, hdigits, idxOf_digit (show a.toNat / 4 < 64 by omega),
            idxOf_digit (show a.toNat % 4 * 16 + b.toNat / 16 < 64 by omega),
            idxOf_digit (show b.toNat % 16 * 4 + c.toNat / 64 < 64 by omega),
            idxOf_digit (show c.toNat % 64 < 64 by omega)]
          change (bytesOf digits >>= fun bytes ↦ pure (_ :: _ :: _ :: bytes)) = _
          rw [show bytesOf digits = some rest from ih]
          change some (_ :: _ :: _ :: rest) = _
          rw [ofNat_of_toNat (a := a) (by omega), ofNat_of_toNat (a := b) (by omega), ofNat_of_toNat (a := c)
              (by omega)]
  | case2 a b =>
      have ha := a.toNat_lt
      have hb := b.toNat_lt
      simp only [encode, List.mapM_cons, List.mapM_nil, idxOf_digit (show a.toNat / 4 < 64 by omega),
        idxOf_digit (show a.toNat % 4 * 16 + b.toNat / 16 < 64 by omega),
        idxOf_digit (show b.toNat % 16 * 4 < 64 by omega)]
      change some [_, _] = _
      rw [ofNat_of_toNat (a := a) (by omega), ofNat_of_toNat (a := b) (by omega)]
  | case3 a =>
      have ha := a.toNat_lt
      simp only [encode, List.mapM_cons, List.mapM_nil, idxOf_digit (show a.toNat / 4 < 64 by omega),
        idxOf_digit (show a.toNat % 4 * 16 < 64 by omega)]
      change some [_] = _
      rw [ofNat_of_toNat (a := a) (by omega)]
  | case4 => rfl

theorem length_encode (bytes : Bytes) : (encode bytes).length = (4 * bytes.length + 2) / 3 := by
  induction bytes using encode.induct with
  | case1 a b c rest ih =>
      simp only [encode, List.length_cons, ih]
      omega
  | case2 a b => simp only [encode, List.length_cons, List.length_nil]
  | case3 a => simp only [encode, List.length_cons, List.length_nil]
  | case4 => rfl

theorem mem_alphabet_of_mem_encode {bytes : Bytes} {c : Char} (h : c ∈ encode bytes) : c ∈ alphabet := by
  induction bytes using encode.induct with
  | case1 a b c' rest ih =>
      simp only [encode, List.mem_cons] at h
      rcases h with rfl | rfl | rfl | rfl | h
      · exact digit_mem _
      · exact digit_mem _
      · exact digit_mem _
      · exact digit_mem _
      · exact ih h
  | case2 a b =>
      simp only [encode, List.mem_cons, List.not_mem_nil, or_false] at h
      rcases h with rfl | rfl | rfl
      · exact digit_mem _
      · exact digit_mem _
      · exact digit_mem _
  | case3 a =>
      simp only [encode, List.mem_cons, List.not_mem_nil, or_false] at h
      rcases h with rfl | rfl
      · exact digit_mem _
      · exact digit_mem _
  | case4 => cases h

/-! ## UTF-8 -/

/-- `bytes.decode("utf-8")` -/
def decodeUtf8 (bytes : Bytes) : Option String := String.fromUTF8? bytes.toByteArray

theorem decodeUtf8_utf8 (text : List Char) : decodeUtf8 (utf8 text) = some (String.ofList text) := by
  have hvalid : (utf8 text).toByteArray.IsValidUTF8 := ByteArray.isValidUTF8_utf8Encode
  rw [decodeUtf8, String.fromUTF8?, dif_pos hvalid]
  rfl

end WorkStack.Python.Base64
