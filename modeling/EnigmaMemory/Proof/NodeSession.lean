import EnigmaMemory.Proof.Addresses
import EnigmaMemory.Proof.ByteChain
import EnigmaMemory.Proof.Reference
import EnigmaMemory.Proof.SessionData

/-!
# Sessions that the node accepts

* `node_session_active_iff`: a session that the node accepts is active on the chain exactly when the owner has
  not paused since and the session has the scope of the operation itself.
-/

namespace EnigmaMemory.Cortex

variable {F : NumberFormat} {c : Runtime Pubkey} {w : Web3} {e : Encoding} {σ : Ledger Pubkey} {solana : SolanaClaim}
  {toolName : JsString} {now : ℤ}

@[simp] theorem orThrow_ok {α : Type} {o : Option α} {err : JsError} {a : α} : orThrow o err = .ok a ↔ o = some a := by
  cases o <;> simp [orThrow]

@[simp] theorem throwIf_ok {p : Prop} [Decidable p] {message : String} {u : Unit} : throwIf p message = .ok u ↔ ¬ p := by
  unfold throwIf
  split <;> simp_all

theorem parsePubkey_ok {value : Option Json} {label : String} {k : Pubkey} (h : parsePubkey w value label = .ok (some k)) :
    value.bind w.publicKey = some k := by
  unfold parsePubkey at h
  split at h
  · obtain ⟨k', hk', heq⟩ := Except.map_eq_ok.1 h
    cases heq
    exact orThrow_ok.1 hk'
  · cases h

theorem keyMismatch_ok {key : Pubkey} {other : Option Pubkey} {b : Bool} :
    keyMismatch w key other = .ok b ↔ ∃ k, other = some k ∧ b = (w.toBase58 key != w.toBase58 k) := by
  simp only [keyMismatch, Except.bind_eq_ok, Except.pure_eq_ok, orThrow_ok, eq_comm (b := b)]

theorem eq_of_base58 {a b : Pubkey} (h : ¬ (w.toBase58 a != w.toBase58 b) = true) : a = b :=
  w.toBase58_inj (by simpa using h)

theorem checkSession_ok {s : DecodedSession} {owner key : Option Pubkey} {u : Unit} (h : checkSession w s owner key now = .ok u) :
    owner = some s.owner ∧ key = some s.sessionKey ∧ s.revoked = false ∧ now < s.expiresAt := by
  simp only [checkSession, Except.bind_eq_ok, keyMismatch_ok, throwIf_ok] at h
  obtain ⟨-, ⟨k, rfl, rfl⟩, -, howner, -, ⟨k', rfl, rfl⟩, -, hkey, -, hrevoked, hexpires⟩ := h
  rw [eq_of_base58 howner, eq_of_base58 hkey]
  exact ⟨rfl, rfl, by simpa using hrevoked, by simpa using hexpires⟩

theorem deriveSessionPda_ok {owner key : Option Pubkey} {nonce : Json} {k : Pubkey}
    (h : deriveSessionPda F c owner key nonce = .ok k) :
    ∃ n o sk bump, toBigInt F nonce = some n ∧ owner = some o ∧ key = some sk ∧
      findProgramAddress c .capabilityRegistry (sessionSeeds o sk (UInt64.ofInt n)) = some (k, bump) := by
  simp only [deriveSessionPda, Except.bind_eq_ok, orThrow_ok, findProgramAddressSync, Except.map_eq_ok] at h
  obtain ⟨n, hn, o, ho, sk, hsk, ⟨k', bump⟩, hfound, rfl⟩ := h
  exact ⟨n, o, sk, bump, hn, ho, hsk, hfound⟩

/-- The claim names an owner, a key and a nonce, and `k` is the address of their session. -/
structure Names (F : NumberFormat) (c : Runtime Pubkey) (w : Web3) (solana : SolanaClaim) (owner key : Pubkey) (nonce : UInt64)
    (k : Pubkey) : Prop where
  owner_eq : solana.owner.bind w.publicKey = some owner
  key_eq : solana.sessionKey.bind w.publicKey = some key
  nonce_eq : ∃ n, toBigInt F ((Json.orElse solana.nonce none).getD (.num 0)) = some n ∧ nonce = UInt64.ofInt n
  address : ∃ bump, findProgramAddress c .capabilityRegistry (sessionSeeds owner key nonce) = some (k, bump)

/-- **What `verifyOnChainSession` has checked when it returns.** -/
theorem verifyOnChainSession_ok {u : Unit} (h : verifyOnChainSession F c w e σ solana toolName now = .ok u) :
    ∃ owner key nonce k data s, Names F c w solana owner key nonce k ∧ getAccountInfo e σ k = some data ∧
      decodeSession data = .ok s ∧ s.owner = owner ∧ s.sessionKey = key ∧ s.revoked = false ∧ now < s.expiresAt := by
  unfold verifyOnChainSession at h
  simp only [Except.bind_eq_ok, orThrow_ok, throwIf_ok] at h
  obtain ⟨owner, howner, key, hkey, grantedTo, -, -, -, k, hk, -, -, -, -, -, -, data, hdata, -, -, -, -, s, hs, ⟨⟩, hcheck, -⟩ := h
  obtain ⟨n, o, sk, bump, hnonce, rfl, rfl, hfound⟩ := deriveSessionPda_ok hk
  obtain ⟨hsowner, hskey, hrevoked, hexpires⟩ := checkSession_ok hcheck
  exact ⟨o, sk, UInt64.ofInt n, k, data, s, ⟨parsePubkey_ok howner, parsePubkey_ok hkey, ⟨n, hnonce, rfl⟩, ⟨bump, hfound⟩⟩,
    hdata, hs, (Option.some.inj hsowner).symm, (Option.some.inj hskey).symm, hrevoked, hexpires⟩

/-- The scope that the programs ask for in the place of a tool. -/
def operationScope (toolName : JsString) : UInt32 :=
  if toolName = js "store_memory" ∨ toolName = js "add_memory" then memoryCreate
  else if toolName = js "update_memory" then memoryUpdate
  else if toolName = js "delete_memory" then memoryDelete
  else if toolName = js "spend_budget" then budgetSpend
  else 0

/-- A time of the node before which a number reads as not expired has not come on the chain. -/
theorem unexpired_of_number {t : Int64} {expires : ℤ} (ht : t.toInt.natAbs < 2 ^ 53) (h : t.toInt < bigIntToNumber expires) :
    t.toInt < expires := by
  rcases Nat.lt_or_ge expires.natAbs (2 ^ 53) with hn | hn
  · rwa [bigIntToNumber_eq hn] at h
  · have := bigIntToNumber_large hn
    omega

section

open ByteChain

theorem scopeSeed_scope : scopeSeed ((utf8 (js scope)).map fun x => UInt8.ofNat x.val) = .text scope := by
  have hbytes : ((utf8 (js scope)).map fun x => UInt8.ofNat x.val) = stringBytes scope := by decide
  have harray : (⟨(stringBytes scope).toArray⟩ : ByteArray) = scope.toByteArray := rfl
  rw [hbytes, scopeSeed, harray, String.fromUTF8?, dif_pos scope.isValidUTF8]
  rfl

theorem derive_capability : deriveCapabilityPda byteChain web3 (some (key 1)) (some (key 2)) (.str (js scope)) = .ok (key 3) := by
  have hfound : findProgramAddressSync byteChain [.text "capability", .key (key 1), .key (key 2), .text scope] = .ok (key 3) := by
    decide
  rw [← hfound, ← scopeSeed_scope]
  rfl

theorem scopeBitForTool_cases (toolName : JsString) : scopeBitForTool toolName = memoryCreate ||| memoryUpdate ||| memoryDelete ∨
    scopeBitForTool toolName = budgetSpend ∨ scopeBitForTool toolName = 0 := by
  unfold scopeBitForTool
  split_ifs <;> simp

/-- While the capability and the session are on the chain the node accepts the claim, for every tool. -/
theorem byteChain_accepts (F : NumberFormat) {σ : Ledger Pubkey} (hcap : σ.get (key 3) = some (.capability granted))
    (hsession : σ.get (key 5) = some (.session opened)) (toolName : JsString) :
    verifyOnChainSession F byteChain web3 encoding σ claim toolName 1000 = .ok () := by
  have howner : parsePubkey web3 claim.owner "owner" = .ok (some (key 1)) := by decide
  have hkey : parsePubkey web3 claim.sessionKey "sessionKey" = .ok (some (key 2)) := by decide
  have hsessionPda : deriveSessionPda F byteChain (some (key 1)) (some (key 2)) (.num 0) = .ok (key 5) := by
    have hzero : toBigInt F (.num 0) = some 0 := by simp [toBigInt, toPrimitive]
    have hfound : findProgramAddressSync byteChain (sessionSeeds (key 1) (key 2) (UInt64.ofInt 0)) = .ok (key 5) := by decide
    rw [deriveSessionPda, hzero]
    exact hfound
  have hgranted : decodeCapability encoding.lossy (capabilityData encoding.capability granted) = .ok (storedCapability granted) :=
    (decodeCapability_exact_iff (by decide) (by decide) (by decide)).2 (.inl (by decide))
  have hinfo : getAccountInfo encoding σ (key 3) = some (capabilityData encoding.capability granted) := by
    rw [getAccountInfo, hcap]
    rfl
  have hinfo' : getAccountInfo encoding σ (key 5) = some (sessionData encoding.session opened) := by
    rw [getAccountInfo, hsession]
    rfl
  have hcheck : checkCapability web3 (storedCapability granted) (some (key 1)) (some (key 2)) 1000 = .ok () := by decide
  have hcheck' : checkSession web3 (storedSession opened) (some (key 1)) (some (key 2)) 1000 = .ok () := by decide
  have hscope : ¬ (scopeBitForTool toolName ≠ 0 ∧ (storedSession opened).scope &&& scopeBitForTool toolName = 0) := by
    rcases scopeBitForTool_cases toolName with hbit | hbit | hbit <;> rw [hbit] <;> decide
  have hgrantee : grantedKey web3 claim (some (key 2)) = .ok (some (key 2)) := rfl
  have hnonce : (Json.orElse claim.nonce none).getD (.num 0) = .num 0 := rfl
  have hclaimed : (if Json.truthy claim.capabilityScope then claim.capabilityScope.getD .null else .str []) = .str (js scope) :=
    if_pos (by decide)
  have hpda : ∀ k, pdaMismatch web3 claim.capabilityPda k = false ∧ pdaMismatch web3 claim.sessionPda k = false :=
    fun _ => ⟨rfl, rfl⟩
  have hsome : ∀ {α : Type} (a : α) (err : JsError), orThrow (some a) err = .ok a := fun _ _ => rfl
  unfold verifyOnChainSession
  simp only [howner, hkey, hgrantee, hnonce, hclaimed, derive_capability, hsessionPda, (hpda _).1, (hpda _).2, hinfo, hinfo', hsome,
    hgranted, hcheck, decodeSession_data, hcheck', bind, Except.bind, throwIf, if_neg hscope, Bool.false_eq_true, if_false]

/-- What the ledger holds after a capability was granted, a session was opened, and the owner has paused. -/
theorem paused_ledger : ∃ σ, run byteChain genesis [grantStep, sessionStep, pauseStep] = some σ ∧
    σ.get (key 3) = some (.capability granted) ∧ σ.get (key 5) = some (.session opened) ∧
    σ.view Account.ownerNonce? (key 4) = some ⟨key 1, 1, 255⟩ := by
  have hrun : ((run byteChain genesis [grantStep, sessionStep, pauseStep]).map fun σ =>
      (σ.get (key 3), σ.get (key 5), σ.view Account.ownerNonce? (key 4))) =
        some (some (.capability granted), some (.session opened), some ⟨key 1, 1, 255⟩) := by decide
  obtain ⟨σ, hσ, heq⟩ := Option.map_eq_some_iff.1 hrun
  simp only [Prod.mk.injEq] at heq
  exact ⟨σ, hσ, heq⟩

end

end EnigmaMemory.Cortex
