import EnigmaMemory.Lib.Result
import EnigmaMemory.Spec.SessionData

/-!
# What the node reads of an account

* `decoders_exact_iff`: a session is read as it is stored; a capability with a scope of at most 64 bytes
  is, exactly when the scope has 64 bytes or there is nothing after it but zeros.
-/

namespace EnigmaMemory.Cortex

open Wire

variable {d : Discriminator} {lossy : List UInt8 → JsString}

/-! ## Numbers -/

theorem roundToDouble_eq {m : ℕ} (h : m < 2 ^ 53) : roundToDouble m = m := by
  have hlog : Nat.log2 m - 52 = 0 := by
    rcases Nat.eq_zero_or_pos m with rfl | hm
    · rfl
    · have := (Nat.log2_lt hm.ne').2 h
      omega
  simp [roundToDouble, hlog, Nat.mod_one]

theorem le_roundToDouble {m : ℕ} (h : 2 ^ 53 ≤ m) : 2 ^ 53 ≤ roundToDouble m := by
  have hm : m ≠ 0 := by omega
  have hlog : 53 ≤ Nat.log2 m := (Nat.le_log2 hm).2 h
  obtain ⟨e, he⟩ : ∃ e, Nat.log2 m = e + 53 := ⟨Nat.log2 m - 53, by omega⟩
  have hself := Nat.log2_self_le hm
  rw [he] at hself
  have hunit : Nat.log2 m - 52 = e + 1 := by omega
  have hq : 2 ^ 52 ≤ m / 2 ^ (e + 1) := by
    rw [Nat.le_div_iff_mul_le (Nat.pow_pos Nat.two_pos), ← Nat.pow_add]
    have hexp : 52 + (e + 1) = e + 53 := by omega
    rwa [hexp]
  have hunit2 : 2 ≤ 2 ^ (e + 1) := by
    rw [pow_succ]
    exact Nat.le_mul_of_pos_left 2 (Nat.pow_pos Nat.two_pos)
  unfold roundToDouble
  dsimp only
  rw [hunit]
  have hrounded : ∀ q, 2 ^ 52 ≤ q → 2 ^ 53 ≤ q * 2 ^ (e + 1) := fun q hle => Nat.mul_le_mul hle hunit2
  refine hrounded _ ?_
  split <;> omega

theorem bigIntToNumber_eq {n : ℤ} (h : n.natAbs < 2 ^ 53) : bigIntToNumber n = n := by
  rw [bigIntToNumber, roundToDouble_eq h, Int.sign_mul_natAbs]

/-- A BigInt that is no exact number keeps its sign and stays large. -/
theorem bigIntToNumber_large {n : ℤ} (h : 2 ^ 53 ≤ n.natAbs) :
    2 ^ 53 ≤ n ∧ 2 ^ 53 ≤ bigIntToNumber n ∨ n ≤ -2 ^ 53 ∧ bigIntToNumber n ≤ -2 ^ 53 := by
  have hlarge : (2 : ℤ) ^ 53 ≤ roundToDouble n.natAbs := by exact_mod_cast le_roundToDouble h
  unfold bigIntToNumber
  rcases Int.lt_trichotomy n 0 with hn | rfl | hn
  · rw [Int.sign_eq_neg_one_of_neg hn]
    exact .inr ⟨by omega, by omega⟩
  · omega
  · rw [Int.sign_eq_one_of_pos hn]
    exact .inl ⟨by omega, by omega⟩

theorem bigIntToNumber_eq_iff {n t : ℤ} (h : t.natAbs < 2 ^ 53) : bigIntToNumber n = t ↔ n = t := by
  rcases Nat.lt_or_ge n.natAbs (2 ^ 53) with hn | hn
  · rw [bigIntToNumber_eq hn]
  · have := bigIntToNumber_large hn
    constructor <;> intro heq <;> omega

/-! ## Fields -/

theorem readOr_ok {w offset n : ℕ} {b : List UInt8} : readOr w b offset = .ok n ↔ readLE w b offset = some n := by
  unfold readOr
  cases readLE w b offset <;> simp

theorem readLE64_ok {b : List UInt8} {offset : ℕ} {n : UInt64} :
    readLE64 b offset = .ok n ↔ offset + 8 ≤ b.length ∧ b.extract offset (offset + 8) = borshU64 n := by
  have hn : n.toNat < 256 ^ 8 := n.toNat_lt
  rw [readLE64, Except.map_eq_ok]
  constructor
  · rintro ⟨m, hm, rfl⟩
    obtain ⟨hlt, hle, heq⟩ := readLE_eq_some.1 (readOr_ok.1 hm)
    refine ⟨hle, heq.trans ?_⟩
    rw [borshU64, UInt64.toNat_ofNat_of_lt' hlt]
  · rintro ⟨hle, heq⟩
    exact ⟨n.toNat, readOr_ok.2 (readLE_eq_some.2 ⟨hn, hle, heq⟩), UInt64.ofNat_toNat⟩

theorem readLE32_ok {b : List UInt8} {offset : ℕ} {n : UInt32} :
    readLE32 b offset = .ok n ↔ offset + 4 ≤ b.length ∧ b.extract offset (offset + 4) = borshU32 n := by
  have hn : n.toNat < 256 ^ 4 := n.toNat_lt
  rw [readLE32, Except.map_eq_ok]
  constructor
  · rintro ⟨m, hm, rfl⟩
    obtain ⟨hlt, hle, heq⟩ := readLE_eq_some.1 (readOr_ok.1 hm)
    refine ⟨hle, heq.trans ?_⟩
    rw [borshU32, UInt32.toNat_ofNat_of_lt' hlt]
  · rintro ⟨hle, heq⟩
    exact ⟨n.toNat, readOr_ok.2 (readLE_eq_some.2 ⟨hn, hle, heq⟩), UInt32.ofNat_toNat⟩

theorem readLEI64_ok {b : List UInt8} {offset : ℕ} {n : Int64} :
    readLEI64 b offset = .ok n ↔ offset + 8 ≤ b.length ∧ b.extract offset (offset + 8) = borshI64 n := by
  rw [readLEI64, Except.map_eq_ok, borshI64, ← readLE64_ok]
  constructor
  · rintro ⟨m, hm, rfl⟩
    exact hm
  · intro h
    exact ⟨n.toUInt64, h, rfl⟩

@[simp] theorem length_borshU64 (n : UInt64) : (borshU64 n).length = 8 := length_toLE ..

@[simp] theorem length_borshU32 (n : UInt32) : (borshU32 n).length = 4 := length_toLE ..

@[simp] theorem length_borshI64 (n : Int64) : (borshI64 n).length = 8 := length_toLE ..

@[simp] theorem length_borshBool (b : Bool) : (borshBool b).length = 1 := rfl

theorem borshI64_inj {m n : Int64} (h : borshI64 m = borshI64 n) : m = n := by
  have hnat := toLE_inj m.toUInt64.toNat_lt n.toUInt64.toNat_lt h
  have hwords : m.toUInt64 = n.toUInt64 := UInt64.toNat_inj.1 hnat
  rw [← m.toInt64_toUInt64, hwords, n.toInt64_toUInt64]

@[simp] theorem publicKeyOf_toList (k : Pubkey) : publicKeyOf k.toList = k := by
  have hlength : k.toList.length = 32 := k.length_toList
  refine Vector.toArray_inj.1 ?_
  simp only [publicKeyOf, List.leftpad, List.take_of_length_le hlength.le, hlength, Nat.sub_self, List.replicate_zero,
    List.nil_append]
  rfl

theorem length_stringBytes (s : String) : (stringBytes s).length = s.utf8ByteSize := rfl

/-- The bytes of a string are read back as that string. -/
theorem utf8Text_stringBytes (s : String) : utf8Text lossy (stringBytes s) = js s := by
  have harray : (⟨(stringBytes s).toArray⟩ : ByteArray) = s.toByteArray := rfl
  rw [utf8Text, harray, String.fromUTF8?, dif_pos s.isValidUTF8]
  rfl

/-! ## Sessions -/

/-- A session with its fields as the node has them. -/
def storedSession (s : Session Pubkey) : DecodedSession where
  owner := s.owner
  sessionKey := s.session_key
  nonce := s.nonce
  ownerNonce := s.owner_nonce
  scope := s.scope
  categoriesHash := s.categories_hash.toList
  maxSpendPerTx := s.max_spend_per_tx
  maxSpendPerDay := s.max_spend_per_day
  spentToday := s.spent_today
  maxOpsPerDay := s.max_ops_per_day
  opsToday := s.ops_today
  windowStart := bigIntToNumber s.window_start.toInt
  expiresAt := bigIntToNumber s.expires_at.toInt
  revoked := s.revoked
  bump := some s.bump

/-- The fields of the account with the discriminator before and the zeros after them. -/
theorem anchorData_eq (size : ℕ) (fields : List (List UInt8)) :
    anchorData d size fields = (d.toList :: (fields ++ [List.replicate (size - fields.flatten.length) 0])).flatten := by
  simp [anchorData]

variable {fields : List (List UInt8)} {i k : ℕ}

theorem readLE64_field {n : UInt64} (k : ℕ) (hk : fields[k]? = some (borshU64 n)) (hi : (fields.take k).flatten.length = i) :
    readLE64 fields.flatten i = .ok n :=
  readLE64_ok.2 (extract_flatten hk hi (by rw [length_borshU64]))

theorem readLE32_field {n : UInt32} (k : ℕ) (hk : fields[k]? = some (borshU32 n)) (hi : (fields.take k).flatten.length = i) :
    readLE32 fields.flatten i = .ok n :=
  readLE32_ok.2 (extract_flatten hk hi (by rw [length_borshU32]))

theorem readLEI64_field {n : Int64} (k : ℕ) (hk : fields[k]? = some (borshI64 n)) (hi : (fields.take k).flatten.length = i) :
    readLEI64 fields.flatten i = .ok n :=
  readLEI64_ok.2 (extract_flatten hk hi (by rw [length_borshI64]))

theorem getElem?_field {b : UInt8} (k : ℕ) (hk : fields[k]? = some [b]) (hi : (fields.take k).flatten.length = i) :
    fields.flatten[i]? = some b := by
  have h := (extract_flatten hk hi rfl).2
  have hhead := congrArg List.head? h
  simpa [List.extract_eq_take_drop, List.head?_take, List.head?_drop] using hhead

/-- Every field of a session is at the offset where the node reads it. -/
theorem decodeSession_data (s : Session Pubkey) : decodeSession (sessionData d s) = .ok (storedSession s) := by
  rw [sessionData, anchorData_eq]
  generalize hfields : d.toList :: _ = fields
  have hnonce : readLE64 fields.flatten 72 = .ok s.nonce := readLE64_field 3 (hfields ▸ rfl) (by simp [← hfields])
  have hownerNonce : readLE64 fields.flatten 80 = .ok s.owner_nonce := readLE64_field 4 (hfields ▸ rfl) (by simp [← hfields])
  have hscope : readLE32 fields.flatten 88 = .ok s.scope := readLE32_field 5 (hfields ▸ rfl) (by simp [← hfields])
  have hperTx : readLE64 fields.flatten 124 = .ok s.max_spend_per_tx := readLE64_field 7 (hfields ▸ rfl) (by simp [← hfields])
  have hperDay : readLE64 fields.flatten 132 = .ok s.max_spend_per_day := readLE64_field 8 (hfields ▸ rfl) (by simp [← hfields])
  have hspent : readLE64 fields.flatten 140 = .ok s.spent_today := readLE64_field 9 (hfields ▸ rfl) (by simp [← hfields])
  have hmaxOps : readLE32 fields.flatten 148 = .ok s.max_ops_per_day := readLE32_field 10 (hfields ▸ rfl) (by simp [← hfields])
  have hops : readLE32 fields.flatten 152 = .ok s.ops_today := readLE32_field 11 (hfields ▸ rfl) (by simp [← hfields])
  have hstart : readLEI64 fields.flatten 156 = .ok s.window_start := readLEI64_field 12 (hfields ▸ rfl) (by simp [← hfields])
  have hexpires : readLEI64 fields.flatten 164 = .ok s.expires_at := readLEI64_field 13 (hfields ▸ rfl) (by simp [← hfields])
  have howner : fields.flatten.extract 8 40 = s.owner.toList :=
    (extract_flatten (k := 1) (hfields ▸ rfl) (by simp [← hfields]) (by simp)).2
  have hkey : fields.flatten.extract 40 72 = s.session_key.toList :=
    (extract_flatten (k := 2) (hfields ▸ rfl) (by simp [← hfields]) (by simp)).2
  have hhash : fields.flatten.extract 92 124 = s.categories_hash.toList :=
    (extract_flatten (k := 6) (hfields ▸ rfl) (by simp [← hfields]) (by simp)).2
  have hrevoked : fields.flatten[172]? = some (if s.revoked then 1 else 0) :=
    getElem?_field 14 (hfields ▸ rfl) (by simp [← hfields])
  have hbump : fields.flatten[173]? = some s.bump := getElem?_field 15 (hfields ▸ rfl) (by simp [← hfields])
  have hflag : ((some (if s.revoked then 1 else 0) : Option UInt8) != some 0) = s.revoked := by
    cases s.revoked <;> rfl
  unfold decodeSession
  rw [hnonce, hownerNonce, hscope, hperTx, hperDay, hspent, hmaxOps, hops, hstart, hexpires, howner, hkey, hhash, hrevoked, hbump,
    hflag, publicKeyOf_toList, publicKeyOf_toList]
  rfl

/-! ## Capabilities -/

/-- A capability with its fields as the node is to have them. -/
def storedCapability (cap : Capability Pubkey) : DecodedCapability where
  owner := cap.owner
  grantedTo := cap.granted_to
  scope := js cap.scope
  expiresAt := cap.expires_at.toInt
  createdAt := cap.created_at.toInt
  bump := some cap.bump

/-- The fields after the scope. -/
def capabilityTail (cap : Capability Pubkey) : List UInt8 := borshI64 cap.expires_at ++ (borshI64 cap.created_at ++ [cap.bump])

theorem length_capabilityTail (cap : Capability Pubkey) : (capabilityTail cap).length = 17 := by simp [capabilityTail]

theorem capabilityTail_eq_zero {cap : Capability Pubkey} :
    capabilityTail cap = List.replicate 17 0 ↔ cap.expires_at = 0 ∧ cap.created_at = 0 ∧ cap.bump = 0 := by
  constructor
  · intro h
    have hzero : List.replicate 17 (0 : UInt8) = borshI64 0 ++ (borshI64 0 ++ [0]) := rfl
    rw [hzero, capabilityTail] at h
    obtain ⟨hexpires, h⟩ := List.append_inj h rfl
    obtain ⟨hcreated, hbump⟩ := List.append_inj h rfl
    exact ⟨borshI64_inj hexpires, borshI64_inj hcreated, List.singleton_inj.1 hbump⟩
  · rintro ⟨hexpires, hcreated, hbump⟩
    rw [capabilityTail, hexpires, hcreated, hbump]
    rfl

variable {cap : Capability Pubkey}

theorem capabilityData_eq (d : Discriminator) (cap : Capability Pubkey) :
    capabilityData d cap = [d.toList, cap.owner.toList, cap.granted_to.toList,
      borshU32 (UInt32.ofNat (stringBytes cap.scope).length)].flatten ++
        (stringBytes cap.scope ++ (capabilityTail cap ++ List.replicate (64 - (stringBytes cap.scope).length) 0)) := by
  have hpadding : capabilitySize - [cap.owner.toList, cap.granted_to.toList,
      borshU32 (UInt32.ofNat (stringBytes cap.scope).length), stringBytes cap.scope, borshI64 cap.expires_at,
      borshI64 cap.created_at, [cap.bump]].flatten.length = 64 - (stringBytes cap.scope).length := by
    simp [capabilitySize]
    omega
  rw [capabilityData, anchorData, hpadding]
  simp [capabilityTail]

/-- What the node reads from offset 140 on: the fields after the scope, too far on by what the scope is short of 64 bytes. -/
theorem drop_capabilityData (h : (stringBytes cap.scope).length ≤ 64) : (capabilityData d cap).drop 140 =
    (capabilityTail cap ++ List.replicate (64 - (stringBytes cap.scope).length) 0).drop (64 - (stringBytes cap.scope).length) := by
  have hfront : [d.toList, cap.owner.toList, cap.granted_to.toList,
      borshU32 (UInt32.ofNat (stringBytes cap.scope).length)].flatten.length = 76 := by simp
  rw [capabilityData_eq, List.drop_append, List.drop_eq_nil_of_le (by omega), List.nil_append, hfront, List.drop_append,
    List.drop_eq_nil_of_le (by omega), List.nil_append]

theorem length_capabilityData (h : (stringBytes cap.scope).length ≤ 64) : (capabilityData d cap).length = 157 := by
  rw [capabilityData_eq]
  simp [length_capabilityTail]
  omega

/-- The fields up to the scope are read as they are stored. -/
theorem decodeCapability_data (lossy : List UInt8 → JsString) (h : (stringBytes cap.scope).length ≤ 64) :
    decodeCapability lossy (capabilityData d cap) = (do
      let expiresAt ← readLEI64 (capabilityData d cap) 140
      let createdAt ← readLEI64 (capabilityData d cap) 148
      return { owner := cap.owner, grantedTo := cap.granted_to, scope := js cap.scope,
               expiresAt := bigIntToNumber expiresAt.toInt, createdAt := bigIntToNumber createdAt.toInt,
               bump := (capabilityData d cap)[156]? }) := by
  have hlength : (UInt32.ofNat (stringBytes cap.scope).length).toNat = (stringBytes cap.scope).length :=
    UInt32.toNat_ofNat_of_lt' (lt_of_le_of_lt h (by decide))
  generalize hdata : capabilityData d cap = data
  rw [capabilityData, anchorData_eq] at hdata
  generalize hfields : d.toList :: _ = fields at hdata
  have howner : data.extract 8 40 = cap.owner.toList :=
    hdata ▸ (extract_flatten (k := 1) (hfields ▸ rfl) (by simp [← hfields]) (by simp)).2
  have hgranted : data.extract 40 72 = cap.granted_to.toList :=
    hdata ▸ (extract_flatten (k := 2) (hfields ▸ rfl) (by simp [← hfields]) (by simp)).2
  have hscopeLen : readLE32 data 72 = .ok (UInt32.ofNat (stringBytes cap.scope).length) :=
    hdata ▸ readLE32_field 3 (hfields ▸ rfl) (by simp [← hfields])
  have hscope : data.extract 76 (76 + (stringBytes cap.scope).length) = stringBytes cap.scope :=
    hdata ▸ (extract_flatten (k := 4) (hfields ▸ rfl) (by simp [← hfields]) (by simp)).2
  unfold decodeCapability
  rw [hscopeLen, howner, hgranted, publicKeyOf_toList, publicKeyOf_toList]
  simp only [bind, Except.bind, hlength, hscope, utf8Text_stringBytes]

theorem drop_140 {data : List UInt8} (h : data.length = 157) :
    data.drop 140 = data.extract 140 148 ++ (data.extract 148 156 ++ data[156]?.toList) := by
  have hlast : data.drop 156 = data[156]?.toList := by
    rw [List.drop_eq_getElem_cons (by omega), List.drop_eq_nil_of_le (by omega), List.getElem?_eq_getElem (by omega)]
    rfl
  rw [← hlast, List.extract_eq_take_drop, List.extract_eq_take_drop, ← List.drop_drop (i := 8) (j := 148),
    List.take_append_drop, ← List.drop_drop (i := 8) (j := 140), List.take_append_drop]

/-- What is read after the scope is what is stored, exactly when the bytes are. -/
theorem decodeCapability_eq_stored_iff (hscope : (stringBytes cap.scope).length ≤ 64)
    (hexpires : cap.expires_at.toInt.natAbs < 2 ^ 53) (hcreated : cap.created_at.toInt.natAbs < 2 ^ 53) :
    decodeCapability lossy (capabilityData d cap) = .ok (storedCapability cap) ↔
      (capabilityData d cap).drop 140 = capabilityTail cap := by
  have hlength := length_capabilityData (d := d) hscope
  rw [decodeCapability_data lossy hscope, drop_140 hlength, capabilityTail]
  generalize capabilityData d cap = data at hlength
  simp only [Except.bind_eq_ok, Except.pure_eq_ok, readLEI64_ok, storedCapability, DecodedCapability.mk.injEq,
    bigIntToNumber_eq_iff hexpires, bigIntToNumber_eq_iff hcreated, Int64.toInt_inj, true_and]
  constructor
  · rintro ⟨e, ⟨-, he⟩, t, ⟨-, ht⟩, rfl, rfl, hbump⟩
    rw [he, ht, hbump]
    rfl
  · intro h
    have hlast : ∃ b, data[156]? = some b := ⟨data[156], List.getElem?_eq_getElem (by omega)⟩
    obtain ⟨b, hb⟩ := hlast
    obtain ⟨he, h⟩ := List.append_inj h (by rw [length_extract (by omega), length_borshI64])
    obtain ⟨ht, hbump⟩ := List.append_inj h (by rw [length_extract (by omega), length_borshI64])
    rw [hb, Option.toList_some, List.singleton_inj] at hbump
    exact ⟨_, ⟨by omega, he⟩, _, ⟨by omega, ht⟩, rfl, rfl, hbump ▸ hb⟩

theorem decodeCapability_exact_iff (hscope : cap.scope.utf8ByteSize ≤ 64) (hexpires : cap.expires_at.toInt.natAbs < 2 ^ 53)
    (hcreated : cap.created_at.toInt.natAbs < 2 ^ 53) :
    decodeCapability lossy (capabilityData d cap) = .ok (storedCapability cap) ↔
      cap.scope.utf8ByteSize = 64 ∨ cap.expires_at = 0 ∧ cap.created_at = 0 ∧ cap.bump = 0 := by
  rw [← length_stringBytes] at hscope ⊢
  rw [decodeCapability_eq_stored_iff hscope hexpires hcreated, drop_capabilityData hscope, drop_padded_eq_iff,
    length_capabilityTail, capabilityTail_eq_zero]
  refine or_congr_left ?_
  omega

/-- **What the decoders invert.** A session is always read as it is stored. A capability is, exactly when its scope fills the 64
bytes that the account has for it, or when its times and its bump are zero. -/
theorem decoders_exact_iff (d : Discriminator) (lossy : List UInt8 → JsString) :
    (∀ cap : Capability Pubkey, cap.scope.utf8ByteSize ≤ 64 → cap.expires_at.toInt.natAbs < 2 ^ 53 →
      cap.created_at.toInt.natAbs < 2 ^ 53 →
      (decodeCapability lossy (capabilityData d cap) = .ok
          { owner := cap.owner, grantedTo := cap.granted_to, scope := js cap.scope, expiresAt := cap.expires_at.toInt,
            createdAt := cap.created_at.toInt, bump := some cap.bump } ↔
        cap.scope.utf8ByteSize = 64 ∨ cap.expires_at = 0 ∧ cap.created_at = 0 ∧ cap.bump = 0)) ∧
    ∀ s : Session Pubkey, s.window_start.toInt.natAbs < 2 ^ 53 → s.expires_at.toInt.natAbs < 2 ^ 53 →
      decodeSession (sessionData d s) = .ok
        { owner := s.owner, sessionKey := s.session_key, nonce := s.nonce, ownerNonce := s.owner_nonce, scope := s.scope,
          categoriesHash := s.categories_hash.toList, maxSpendPerTx := s.max_spend_per_tx, maxSpendPerDay := s.max_spend_per_day,
          spentToday := s.spent_today, maxOpsPerDay := s.max_ops_per_day, opsToday := s.ops_today,
          windowStart := s.window_start.toInt, expiresAt := s.expires_at.toInt, revoked := s.revoked, bump := some s.bump } := by
  refine ⟨fun cap => decodeCapability_exact_iff, fun s hstart hexpires => ?_⟩
  have h := decodeSession_data (d := d) s
  rwa [storedSession, bigIntToNumber_eq hstart, bigIntToNumber_eq hexpires] at h

/-- A capability whose scope has 64 bytes. -/
def fullScope : Capability Pubkey where
  owner := Vector.replicate 32 1
  granted_to := Vector.replicate 32 2
  scope := "memory:create,memory:update,memory:delete,budget:spend,note:read"
  expires_at := 1900000000
  created_at := 1800000000
  bump := 254

/-- A new session. -/
def freshSession : Session Pubkey :=
  newSession ⟨Vector.replicate 32 1, Vector.replicate 32 2, Vector.replicate 32 3, Vector.replicate 32 4, 15, zeroHash, 10, 100, 5,
    1900000000⟩ 7 1800000000 255

theorem decoders_exact_full :
    decodeCapability (fun _ => []) (capabilityData (Vector.replicate 8 0) fullScope) = .ok
      { owner := fullScope.owner, grantedTo := fullScope.granted_to, scope := js fullScope.scope, expiresAt := 1900000000,
        createdAt := 1800000000, bump := some 254 } ∧
    (decodeSession (sessionData (Vector.replicate 8 0) freshSession)).map DecodedSession.expiresAt = .ok 1900000000 := by
  have hcapability := ((decoders_exact_iff (Vector.replicate 8 0) fun _ => []).1 fullScope (by decide) (by decide)
    (by decide)).2 (.inl (by decide))
  have hsession := (decoders_exact_iff (Vector.replicate 8 0) fun _ => []).2 freshSession (by decide) (by decide)
  exact ⟨hcapability, congrArg (Except.map DecodedSession.expiresAt) hsession⟩

/-- A capability for the memory that expires: its times are read from the zeros behind them. -/
theorem capability_read_too_far : ¬ ∀ cap : Capability Pubkey, cap.scope.utf8ByteSize ≤ 64 → ∀ lossy d,
    decodeCapability lossy (capabilityData d cap) = .ok
      { owner := cap.owner, grantedTo := cap.granted_to, scope := js cap.scope, expiresAt := cap.expires_at.toInt,
        createdAt := cap.created_at.toInt, bump := some cap.bump } := by
  intro hall
  have hread := hall ⟨Vector.replicate 32 1, Vector.replicate 32 2, "memory", 1900000000, 1800000000, 0⟩ (by decide)
    (fun _ => []) (Vector.replicate 8 0)
  have h := (decodeCapability_exact_iff (by decide) (by decide) (by decide)).1 hread
  exact absurd h (by decide)

end EnigmaMemory.Cortex
