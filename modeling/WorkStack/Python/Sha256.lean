import WorkStack.Store.Layout

/-!
# SHA-256

The digest of the store, as `hashlib.sha256` computes it. Proofs about the store never look inside:
they hold for every digest function, and this one makes their statements concrete.
-/

namespace WorkStack.Python.Sha256

def rotr (n x : ℕ) : ℕ := (x >>> n ||| x <<< (32 - n)) % 4294967296

def roundConstants : List ℕ := [
  0x428a2f98, 0x71374491, 0xb5c0fbcf, 0xe9b5dba5, 0x3956c25b, 0x59f111f1, 0x923f82a4, 0xab1c5ed5,
  0xd807aa98, 0x12835b01, 0x243185be, 0x550c7dc3, 0x72be5d74, 0x80deb1fe, 0x9bdc06a7, 0xc19bf174,
  0xe49b69c1, 0xefbe4786, 0x0fc19dc6, 0x240ca1cc, 0x2de92c6f, 0x4a7484aa, 0x5cb0a9dc, 0x76f988da,
  0x983e5152, 0xa831c66d, 0xb00327c8, 0xbf597fc7, 0xc6e00bf3, 0xd5a79147, 0x06ca6351, 0x14292967,
  0x27b70a85, 0x2e1b2138, 0x4d2c6dfc, 0x53380d13, 0x650a7354, 0x766a0abb, 0x81c2c92e, 0x92722c85,
  0xa2bfe8a1, 0xa81a664b, 0xc24b8b70, 0xc76c51a3, 0xd192e819, 0xd6990624, 0xf40e3585, 0x106aa070,
  0x19a4c116, 0x1e376c08, 0x2748774c, 0x34b0bcb5, 0x391c0cb3, 0x4ed8aa4a, 0x5b9cca4f, 0x682e6ff3,
  0x748f82ee, 0x78a5636f, 0x84c87814, 0x8cc70208, 0x90befffa, 0xa4506ceb, 0xbef9a3f7, 0xc67178f2]

def initial : List ℕ := [
  0x6a09e667, 0xbb67ae85, 0x3c6ef372, 0xa54ff53a, 0x510e527f, 0x9b05688c, 0x1f83d9ab, 0x5be0cd19]

/-- Evaluate a number before it is used. -/
def force {α : Type} (n : ℕ) (f : ℕ → α) : α :=
  match n with
  | 0 => f 0
  | n + 1 => f (n + 1)

def round (state : List ℕ) (kw : ℕ) : List ℕ :=
  match state with
  | [a, b, c, d, e, f, g, h] =>
      force ((h + (rotr 6 e ^^^ rotr 11 e ^^^ rotr 25 e) + (e &&& f ^^^ (4294967295 - e) &&& g) + kw) %
        4294967296) fun t1 ↦
      force ((rotr 2 a ^^^ rotr 13 a ^^^ rotr 22 a) + (a &&& b ^^^ a &&& c ^^^ b &&& c)) fun t2 ↦
      force ((d + t1) % 4294967296) fun e' ↦
      force ((t1 + t2) % 4294967296) fun a' ↦
        [a', a, b, c, e', e, f, g]
  | _ => state

def extend (window : List ℕ) : List ℕ :=
  match window with
  | [w0, w1, w2, w3, w4, w5, w6, w7, w8, w9, w10, w11, w12, w13, w14, w15] =>
      force (((rotr 17 w14 ^^^ rotr 19 w14 ^^^ w14 >>> 10) + w9 +
        (rotr 7 w1 ^^^ rotr 18 w1 ^^^ w1 >>> 3) + w0) % 4294967296) fun w16 ↦
        [w1, w2, w3, w4, w5, w6, w7, w8, w9, w10, w11, w12, w13, w14, w15, w16]
  | _ => window

def rounds : List ℕ → List ℕ → List ℕ → List ℕ
  | [], _, state => state
  | k :: ks, window, state => rounds ks (extend window) (round state (k + window.headD 0))

def compress (state block : List ℕ) : List ℕ :=
  List.zipWith (fun x y ↦ (x + y) % 4294967296) state (rounds roundConstants block state)

def words : List ℕ → List ℕ
  | a :: b :: c :: d :: rest => (((a * 256 + b) * 256 + c) * 256 + d) :: words rest
  | _ => []

def blocks : ℕ → List ℕ → List ℕ → List ℕ
  | 0, _, state => state
  | n + 1, ws, state => blocks n (ws.drop 16) (compress state (ws.take 16))

def pad (bytes : List ℕ) : List ℕ :=
  let length := bytes.length
  bytes ++ 128 :: List.replicate ((119 - length % 64) % 64) 0 ++
    (List.range 8).map fun index ↦ (8 * length) >>> (8 * (7 - index)) % 256

def hexDigit (n : ℕ) : Char := if n < 10 then Char.ofNat (48 + n) else Char.ofNat (87 + n)

def hexWord (word : ℕ) : List Char :=
  (List.range 8).map fun index ↦ hexDigit (word >>> (4 * (7 - index)) % 16)

def hexdigest (body : Bytes) : List Char :=
  let ws := words (pad (body.map UInt8.toNat))
  (blocks (ws.length / 16) ws initial).flatMap hexWord

/-- `"sha256:" + hashlib.sha256(body).hexdigest()` -/
def digest (body : Bytes) : Store.Digest :=
  if h : (String.ofList (hexdigest body)).length = 64 ∧
      (String.ofList (hexdigest body)).toList.all Store.isLowerHex then
    ⟨String.ofList (hexdigest body), h⟩
  else ⟨String.ofList (List.replicate 64 '0'), by decide⟩

set_option maxRecDepth 4000 in
example : hexdigest [97, 98, 99] =
    "ba7816bf8f01cfea414140de5dae2223b00361a396177a9cb410ff61f20015ad".toList := by decide

end WorkStack.Python.Sha256
