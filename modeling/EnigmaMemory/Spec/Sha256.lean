import Mathlib.Algebra.Group.Nat.Defs
import EnigmaMemory.Spec.JsString

/-!
# SHA-256 and HMAC-SHA-256

What `createHash('sha256')` and `createHmac('sha256', key)` of `node:crypto`
compute: FIPS 180-4 on 32-bit words (natural numbers below `2 ^ 32`) and RFC 2104
over it. `sha256Hex` and `hmacSha256Hex` are the two entry points of
`packages/core`; a string is hashed as its UTF-8 bytes. A digest is 64 lower case
hexadecimal digits (`isHash_sha256Hex`), and nothing else is ever proved about
the values: where a result needs two texts to hash apart it says so.
-/

namespace EnigmaMemory

namespace Sha256

def add32 (a b : ℕ) : ℕ := (a + b) % 2 ^ 32

def rotr (n x : ℕ) : ℕ := (x >>> n) ||| ((x <<< (32 - n)) % 2 ^ 32)

/-- The eight working variables. -/
structure State where
  a : ℕ
  b : ℕ
  c : ℕ
  d : ℕ
  e : ℕ
  f : ℕ
  g : ℕ
  h : ℕ

def init : State :=
  ⟨0x6a09e667, 0xbb67ae85, 0x3c6ef372, 0xa54ff53a, 0x510e527f, 0x9b05688c, 0x1f83d9ab, 0x5be0cd19⟩

def constants : List ℕ := [
  0x428a2f98, 0x71374491, 0xb5c0fbcf, 0xe9b5dba5, 0x3956c25b, 0x59f111f1, 0x923f82a4, 0xab1c5ed5,
  0xd807aa98, 0x12835b01, 0x243185be, 0x550c7dc3, 0x72be5d74, 0x80deb1fe, 0x9bdc06a7, 0xc19bf174,
  0xe49b69c1, 0xefbe4786, 0x0fc19dc6, 0x240ca1cc, 0x2de92c6f, 0x4a7484aa, 0x5cb0a9dc, 0x76f988da,
  0x983e5152, 0xa831c66d, 0xb00327c8, 0xbf597fc7, 0xc6e00bf3, 0xd5a79147, 0x06ca6351, 0x14292967,
  0x27b70a85, 0x2e1b2138, 0x4d2c6dfc, 0x53380d13, 0x650a7354, 0x766a0abb, 0x81c2c92e, 0x92722c85,
  0xa2bfe8a1, 0xa81a664b, 0xc24b8b70, 0xc76c51a3, 0xd192e819, 0xd6990624, 0xf40e3585, 0x106aa070,
  0x19a4c116, 0x1e376c08, 0x2748774c, 0x34b0bcb5, 0x391c0cb3, 0x4ed8aa4a, 0x5b9cca4f, 0x682e6ff3,
  0x748f82ee, 0x78a5636f, 0x84c87814, 0x8cc70208, 0x90befffa, 0xa4506ceb, 0xbef9a3f7, 0xc67178f2]

def bigSigma0 (x : ℕ) : ℕ := rotr 2 x ^^^ rotr 13 x ^^^ rotr 22 x

def bigSigma1 (x : ℕ) : ℕ := rotr 6 x ^^^ rotr 11 x ^^^ rotr 25 x

def smallSigma0 (x : ℕ) : ℕ := rotr 7 x ^^^ rotr 18 x ^^^ (x >>> 3)

def smallSigma1 (x : ℕ) : ℕ := rotr 17 x ^^^ rotr 19 x ^^^ (x >>> 10)

/-- The next `n` words of the message schedule, from the last sixteen (oldest first). -/
def schedule : ℕ → List ℕ → List ℕ
  | 0, _ => []
  | n + 1, w =>
    w.headD 0 :: schedule n (w.tail ++ [add32 (add32 (smallSigma1 (w.getD 14 0)) (w.getD 9 0))
      (add32 (smallSigma0 (w.getD 1 0)) (w.headD 0))])

def round (s : State) (kw : ℕ × ℕ) : State :=
  let ch := (s.e &&& s.f) ^^^ ((0xffffffff ^^^ s.e) &&& s.g)
  let maj := (s.a &&& s.b) ^^^ (s.a &&& s.c) ^^^ (s.b &&& s.c)
  let t1 := (s.h + bigSigma1 s.e + ch + kw.1 + kw.2) % 2 ^ 32
  let t2 := (bigSigma0 s.a + maj) % 2 ^ 32
  ⟨add32 t1 t2, s.a, s.b, s.c, add32 s.d t1, s.e, s.f, s.g⟩

/-- One block of sixteen words. -/
def compress (s : State) (block : List ℕ) : State :=
  let r := (constants.zip (schedule 64 block)).foldl round s
  ⟨add32 s.a r.a, add32 s.b r.b, add32 s.c r.c, add32 s.d r.d, add32 s.e r.e, add32 s.f r.f,
    add32 s.g r.g, add32 s.h r.h⟩

/-- Big-endian 32-bit words. -/
def words : List ℕ → List ℕ
  | a :: b :: c :: d :: rest => (((a * 256 + b) * 256 + c) * 256 + d) :: words rest
  | _ => []

def blocks : ℕ → List ℕ → List (List ℕ)
  | 0, _ => []
  | n + 1, w => if w.isEmpty then [] else w.take 16 :: blocks n (w.drop 16)

/-- The `n` low bytes of `x`, big-endian. -/
def beBytes : ℕ → ℕ → List ℕ
  | 0, _ => []
  | n + 1, x => beBytes n (x / 256) ++ [x % 256]

/-- The message, a one bit, zeros up to eight bytes short of a block, the bit length. -/
def pad (m : List ℕ) : List ℕ :=
  m ++ 0x80 :: List.replicate ((119 - m.length % 64) % 64) 0 ++ beBytes 8 (8 * m.length)

def digest (m : Bytes) : State :=
  let w := words (pad (m.map Fin.val))
  (blocks w.length w).foldl compress init

def State.words (s : State) : List ℕ := [s.a, s.b, s.c, s.d, s.e, s.f, s.g, s.h]

/-- The eight hexadecimal digits of a word. -/
def hexWord (x : ℕ) : JsString :=
  [x / 2 ^ 28 % 16, x / 2 ^ 24 % 16, x / 2 ^ 20 % 16, x / 2 ^ 16 % 16, x / 2 ^ 12 % 16,
    x / 2 ^ 8 % 16, x / 2 ^ 4 % 16, x % 16].map hexDigit

def hex (s : State) : JsString := s.words.flatMap hexWord

/-- The 32 bytes of a digest. -/
def bytes (s : State) : Bytes := s.words.flatMap fun x => (beBytes 4 x).map (Fin.ofNat 256)

/-- The key of an HMAC as one block: hashed when longer than a block, then zero filled. -/
def hmacBlock (key : Bytes) : Bytes :=
  let k := if key.length > 64 then bytes (digest key) else key
  k ++ List.replicate (64 - k.length) 0

def hmac (key message : Bytes) : State :=
  let k := hmacBlock key
  let inner := bytes (digest (k.map (fun b => Fin.ofNat 256 (b.val ^^^ 0x36)) ++ message))
  digest (k.map (fun b => Fin.ofNat 256 (b.val ^^^ 0x5c)) ++ inner)

end Sha256

/-- `sha256Hex(value)` for a string. -/
@[irreducible]
def sha256Hex (value : JsString) : JsString := Sha256.hex (Sha256.digest (utf8 value))

/-- `hmacSha256Hex({ key, value })` for a key buffer and a string. -/
@[irreducible]
def hmacSha256Hex (key : Bytes) (value : JsString) : JsString :=
  Sha256.hex (Sha256.hmac key (utf8 value))

example : sha256Hex (js "abc") = js "ba7816bf8f01cfea414140de5dae2223b00361a396177a9cb410ff61f20015ad" := by
  decide +kernel

/-! ## The shape of digests and roots -/

/-- `HASH_RE`: 64 lower case hexadecimal digits. -/
def isHash (s : JsString) : Bool := s.length == 64 && s.all isHexDigit

def sha256Prefix : JsString := js "sha256:"

/-- `ROOT_RE`: a digest after `sha256:`. -/
def isRoot (s : JsString) : Bool := sha256Prefix.isPrefixOf s && isHash (s.drop 7)

/-- `prefixedSha256`, `asSha256`. -/
def prefixedSha256 (value : JsString) : JsString := sha256Prefix ++ sha256Hex value

theorem isHexDigit_hexDigit {n : ℕ} (h : n < 16) : isHexDigit (hexDigit n) = true := by
  have key : ∀ m < 16, isHexDigit (hexDigit m) = true := by decide
  exact key n h

theorem Sha256.all_hexWord (x : ℕ) : (Sha256.hexWord x).all isHexDigit = true := by
  simp only [Sha256.hexWord, List.all_map, List.all_cons, List.all_nil, Function.comp, Bool.and_true,
    Bool.and_eq_true]
  refine ⟨?_, ?_, ?_, ?_, ?_, ?_, ?_, ?_⟩ <;> exact isHexDigit_hexDigit (Nat.mod_lt _ (by decide))

theorem Sha256.isHash_hex (s : Sha256.State) : isHash (Sha256.hex s) = true := by
  simp only [isHash, Sha256.hex, Sha256.State.words, List.flatMap_cons, List.flatMap_nil,
    List.all_append, Sha256.all_hexWord, List.all_nil, Bool.and_true, beq_iff_eq]
  simp [Sha256.hexWord]

/-- **A digest is 64 hexadecimal digits.** -/
theorem isHash_sha256Hex (s : JsString) : isHash (sha256Hex s) = true := by
  unfold sha256Hex; exact Sha256.isHash_hex _

theorem isHash_hmacSha256Hex (k : Bytes) (s : JsString) : isHash (hmacSha256Hex k s) = true := by
  unfold hmacSha256Hex; exact Sha256.isHash_hex _

theorem isRoot_append {s : JsString} (h : isHash s = true) : isRoot (sha256Prefix ++ s) = true := by
  have hd : (sha256Prefix ++ s).drop 7 = s := List.drop_left' (by decide)
  rw [isRoot, hd, h, Bool.and_true, List.isPrefixOf_iff_prefix]
  exact List.prefix_append _ _

theorem isRoot_prefixedSha256 (s : JsString) : isRoot (prefixedSha256 s) = true :=
  isRoot_append (isHash_sha256Hex s)

/-- No two different texts of `D` have the same SHA-256 digest. This is the form in
which results assume SHA-256 to be injective: only on the texts that a run hashes. -/
def CollisionFree (D : Set JsString) : Prop := Set.InjOn sha256Hex D

theorem CollisionFree.mono {D D' : Set JsString} (h : CollisionFree D') (hs : D ⊆ D') : CollisionFree D :=
  Set.InjOn.mono hs h

/-- Texts whose digests have been computed and differ. -/
theorem collisionFree_of_nodup (texts : List JsString) (h : (texts.map sha256Hex).Nodup) :
    CollisionFree { x | x ∈ texts } :=
  fun _ hx _ hy heq => List.inj_on_of_nodup_map h hx hy heq

theorem prefixedSha256_inj {D : Set JsString} (h : CollisionFree D) {s t : JsString} (hs : s ∈ D)
    (ht : t ∈ D) (heq : prefixedSha256 s = prefixedSha256 t) : s = t :=
  h hs ht (List.append_cancel_left heq)

end EnigmaMemory
