import EnigmaMemory.Spec.Json

/-!
# The platform

What the packages take from Node and the engine: dates, Ed25519, AES-256-GCM, base64,
key derivation and `JSON.parse`. None of it is modelled; a `Platform` gives the
functions, and the laws that results rely on are named here (`SigningKey`,
`Platform.Lawful`) or are fields of the structure.

Time, identifiers and random bytes differ from call to call: an `Ambient` lists what
one call of the library sees, in the order in which it asks.
-/

namespace EnigmaMemory

/-- The units of a date in ISO format. -/
def isIsoUnit (c : CodeUnit) : Bool :=
  decide (48 ≤ c ∧ c ≤ 57) || c == 43 || c == 45 || c == 46 || c == 58 || c == 84 || c == 90

/-- A symmetric key. -/
abbrev Key := { b : Bytes // b.length = 32 }

/-- The four keys derived from a passphrase. -/
structure DerivedKeys where
  kek : Key
  vaultKey : Key
  addressKey : Key
  signingSeed : Key

structure Platform extends NumberFormat where
  /-- `date.toISOString()` of a time value. -/
  isoText : ℤ → JsString
  /-- The time value of `new Date(text)`; `none` is an invalid date. -/
  parseDate : JsString → Option ℤ
  /-- An Ed25519 signature in base64url by a private key (PEM text). -/
  sign : JsString → JsString → Except JsError JsString
  verify : JsString → JsString → JsString → Bool
  /-- The public key of a private key, both as PEM text. -/
  publicOf : JsString → Except JsError JsString
  /-- The public and the private key (PEM) of an Ed25519 seed. -/
  pairOfSeed : Key → JsString × JsString
  /-- AES-256-GCM: key, iv, additional data, plaintext; gives ciphertext and tag. -/
  encrypt : Key → Bytes → Bytes → Bytes → Bytes × Bytes
  /-- key, iv, additional data, ciphertext, tag. -/
  decrypt : Key → Bytes → Bytes → Bytes → Bytes → Except JsError Bytes
  /-- The 128 bytes that scrypt derives from a passphrase and a salt. -/
  stretch : Bytes → Bytes → DerivedKeys
  base64 : Bytes → JsString
  ofBase64 : JsString → Bytes
  ofUtf8 : Bytes → JsString
  parseJson : JsString → Except JsError Json
  /-- `Number(value)`, when finite. -/
  toNumber : Json → Option ℚ
  /-- `a.localeCompare(b) <= 0`. -/
  localeLe : JsString → JsString → Bool
  isoText_parse : ∀ t, parseDate (isoText t) = some t
  isoText_ne : ∀ t, isoText t ≠ []
  isoText_units : ∀ t, ∀ c ∈ isoText t, isIsoUnit c = true
  ofBase64_base64 : ∀ b, ofBase64 (base64 b) = b

/-- Ed25519 is correct for a key pair: what the private key signs, the public key verifies. -/
def SigningKey (P : Platform) (publicKey privateKey : JsString) : Prop :=
  ∀ text signature, P.sign privateKey text = .ok signature → P.verify publicKey text signature = true

/-- The object with the given string fields. -/
def stringObject (fs : List (JsString × JsString)) : Json := .obj (fs.map fun f => (f.1, .str f.2))

/-- What results about contents rely on: AES-256-GCM opens what it sealed and nothing else in
its place, UTF-8 keeps well-formed strings, and `JSON.parse` reads back an object of strings
(a key that looks like an array index would change its place). -/
structure Platform.Lawful (P : Platform) : Prop where
  decrypt_encrypt : ∀ key iv aad plaintext, P.decrypt key iv aad (P.encrypt key iv aad plaintext).1
    (P.encrypt key iv aad plaintext).2 = .ok plaintext
  authentic : ∀ key key' iv aad plaintext opened, P.decrypt key' iv aad (P.encrypt key iv aad plaintext).1
    (P.encrypt key iv aad plaintext).2 = .ok opened → opened = plaintext
  ofUtf8_utf8 : ∀ s, isWellFormed s = true → P.ofUtf8 (utf8 s) = s
  parseJson_strings : ∀ fs : List (JsString × JsString), (fs.map Prod.fst).Nodup →
    (∀ f ∈ fs, ∃ c ∈ f.1, ¬ (48 ≤ c ∧ c ≤ 57)) →
    P.parseJson ((stringObject fs).stringify P.toNumberFormat) = .ok (stringObject fs)

/-- What one call sees of the clock and of the random generator. -/
structure Ambient where
  clock : ℕ → ℤ
  uuid : ℕ → JsString
  /-- `randomBytes(n)`, the first argument counting the requests. -/
  random : ℕ → ℕ → Bytes
  /-- A fresh Ed25519 key pair: public and private PEM text. -/
  keyPair : JsString × JsString
  random_length : ∀ i n, (random i n).length = n

/-- Zero bytes, whichever request they answer. -/
theorem length_zeros (_ n : ℕ) : (List.replicate n (0 : Fin 256)).length = n := List.length_replicate

/-- What is left of an `Ambient` after `n` requests of each kind. -/
def Ambient.drop (env : Ambient) (n : ℕ) : Ambient where
  clock i := env.clock (n + i)
  uuid i := env.uuid (n + i)
  random i := env.random (n + i)
  keyPair := env.keyPair
  random_length i := env.random_length (n + i)

/-- The `now` argument: a `Date` (with its time value, if it is valid), a string, or
anything else. -/
inductive Now where
  | absent
  | date (time : Option ℤ)
  | text (s : JsString)

def invalidTime : JsError := ⟨.rangeError, js "Invalid time value"⟩

/-- `nowIso(now)`, `time` being the clock. -/
def nowIso (P : Platform) (time : ℤ) : Now → Except JsError JsString
  | .absent => .ok (P.isoText time)
  | .date (some t) => .ok (P.isoText t)
  | .date none => .error invalidTime
  | .text s =>
    match P.parseDate s with
    | some t => .ok (P.isoText t)
    | none => .error invalidTime

end EnigmaMemory
