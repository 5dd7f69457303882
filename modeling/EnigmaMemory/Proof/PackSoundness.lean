import EnigmaMemory.Proof.CompiledPack

/-!
# What an accepted pack shows

The state is checked for the listed addresses and for the memories, the operations only for
the listed addresses.

* `verifyContextPack_sound_iff`: an accepted pack is sound exactly when its memories that
  carry content name an address and are receipted.
-/

namespace EnigmaMemory

open Json

variable {P : Platform} {args : VerifyPackArgs} {pack : Json}

/-- The memories that a pack serves: its addresses, and its memories that carry content. -/
inductive Serves (addresses memories : List Json) : Option Json → Prop
  | listed {a : Json} : a ∈ addresses → Serves addresses memories (some a)
  | content {m : Json} : m ∈ memories → (m.get (js "content")).isSome = true →
      Serves addresses memories (m.get (js "memory_addr"))

/-- A memory that is alive in the supplied state, with a receipt for each access that the
trusted key verifies. -/
def Vouched (P : Platform) (args : VerifyPackArgs) (tombstones receipts : List Json) (options : VerifyOptions)
    (a : Json) : Prop :=
  AliveIn args tombstones a ∧ ∀ operation ∈ ["retrieve", "inject"], ∃ r ∈ receipts,
    Accounts operation a r ∧ verifyReceipt P r options = []

/-- Every memory that the pack serves is vouched for. -/
def SoundPack (P : Platform) (args : VerifyPackArgs) (pack : Json) : Prop :=
  ∃ tombstones addresses memories receipts options, PackReads P args pack tombstones addresses memories receipts options ∧
    ∀ addr, Serves addresses memories addr → ∃ a, addr = some a ∧ Vouched P args tombstones receipts options a

/-- Every memory that carries content names an address that the receipts account for. An
address that counts as `false` is checked by no loop, and has to be alive by itself. -/
def ContentReceipted (args : VerifyPackArgs) (pack : Json) : Prop :=
  ∀ tombstones memories receipts, suppliedTombstones args = .ok tombstones →
    iterate (pack.get (js "memories")) = .ok memories → iterate (pack.get (js "receipts")) = .ok receipts →
    ∀ m ∈ memories, (m.get (js "content")).isSome = true → ∃ a, m.get (js "memory_addr") = some a ∧
      Receipted receipts a ∧ (Json.truthy (some a) = true ∨ AliveIn args tombstones a)

theorem PackReads.unique {t a m r t' a' m' r' : List Json} {o o' : VerifyOptions} (h : PackReads P args pack t a m r o)
    (h' : PackReads P args pack t' a' m' r' o') : t = t' ∧ a = a' ∧ m = m' ∧ r = r' ∧ o = o' :=
  ⟨Except.ok.inj (h.tombstones.symm.trans h'.tombstones), Except.ok.inj (h.addresses.symm.trans h'.addresses),
    Except.ok.inj (h.memories.symm.trans h'.memories), Except.ok.inj (h.receipts.symm.trans h'.receipts),
    Option.some.inj (h.options.symm.trans h'.options)⟩

/-- **What acceptance shows of the memories.** The operations are looked up for the listed
addresses only, so a pack that is accepted is sound exactly when each of its memories that
carry content names an address with a receipt for both accesses. -/
theorem verifyContextPack_sound_iff (P : Platform) (args : VerifyPackArgs) (pack : Json) (r : PackVerdict)
    (hpack : packOf args = some pack) (h : verifyContextPack P args = .ok r) (hvalid : r.valid = true) :
    SoundPack P args pack ↔ ContentReceipted args pack := by
  have hnil := verifyContextPack_valid hpack h hvalid
  obtain ⟨tombstones, addresses, memories, receipts, options, hreads⟩ := packReads_of_nil hnil
  obtain ⟨haddresses, hmemories, hverified⟩ := (contextPackErrors_nil hreads).1 hnil
  constructor
  · rintro ⟨_, _, _, _, _, hreads', hserved⟩ t ms rs ht hms hrs m hm hcontent
    obtain ⟨rfl, rfl, rfl, rfl, rfl⟩ := hreads.unique hreads'
    cases ht.symm.trans hreads.tombstones
    cases hms.symm.trans hreads.memories
    cases hrs.symm.trans hreads.receipts
    obtain ⟨a, ha, halive, hops⟩ := hserved _ (.content hm hcontent)
    refine ⟨a, ha, fun operation hop => ?_, Or.inr halive⟩
    obtain ⟨r, hr, haccounts, -⟩ := hops operation hop
    exact ⟨r, hr, haccounts⟩
  · intro hcond
    -- every receipt of an accepted pack has been verified
    have hvouch : ∀ a, AliveIn args tombstones a → Receipted receipts a → Vouched P args tombstones receipts options a := by
      intro a halive hops
      refine ⟨halive, fun operation hop => ?_⟩
      obtain ⟨r, hr, haccounts⟩ := hops operation hop
      exact ⟨r, hr, haccounts, (hverified r hr).2⟩
    refine ⟨tombstones, addresses, memories, receipts, options, hreads, ?_⟩
    rintro _ (⟨ha⟩ | ⟨hm, hcontent⟩)
    · obtain ⟨halive, -, hops⟩ := haddresses _ ha
      exact ⟨_, rfl, hvouch _ halive hops⟩
    · obtain ⟨a, ha, hops, htruthy⟩ := hcond tombstones memories receipts hreads.tombstones hreads.memories
        hreads.receipts _ hm hcontent
      refine ⟨a, ha, hvouch a ?_ hops⟩
      rcases htruthy with htruthy | halive
      · exact hmemories _ hm a ha htruthy
      · exact halive

/-- The pack of the first memory is accepted, and it is sound. -/
theorem verifyContextPack_sound_tea : ∃ v₀ v v' addr pack r, createVault reference referenceEnv {} = .ok v₀ ∧
    stepCall reference v₀ (.remember referenceEnv { content := some tea }) = some v ∧
    compileContextPack reference referenceEnv { memory_addresses := some [addr] } v = .ok pack v' ∧
    packOf (compiledArgs pack v' Reference.publicKey) = some pack.toJson ∧
    verifyContextPack reference (compiledArgs pack v' Reference.publicKey) = .ok r ∧ r.valid = true ∧
    SoundPack reference (compiledArgs pack v' Reference.publicKey) pack.toJson := by
  obtain ⟨v₀, v, addr, h⟩ := firstMemory
  obtain ⟨pack, v', hpack, hlist⟩ := h.packed
  have hfiled := h.reachable.filed
  have hsame := compileContextPack_sameStore hpack
  have halive : ∀ a ∈ pack.memory_addresses, Live v' a := by
    intro a ha
    obtain rfl : a = addr := by simpa [hlist] using ha
    exact ⟨hsame.activeAddresses ▸ h.live.active, hsame.tombstones ▸ h.live.free⟩
  have hnil := (compiled_errors_nil hfiled hpack h.signsEd25519 fun sk _ =>
    reference_signingKey Reference.publicKey sk).2 halive
  obtain ⟨hvalid, hiff⟩ := verifyContextPack_compiled reference pack v' Reference.publicKey
  obtain ⟨r, hr⟩ := hiff.2 hnil
  refine ⟨v₀, v, v', addr, pack, r, h.created, h.remembered, hpack, packOf_compiled, hr, hvalid r hr, ?_⟩
  refine (verifyContextPack_sound_iff reference _ _ r packOf_compiled hr (hvalid r hr)).2 ?_
  intro tombstones memories receipts _ hmemories hreceipts m hm _
  have hreads : PackReads reference (compiledArgs pack v' Reference.publicKey) pack.toJson _ _ _ _ _ := packReads_compiled
  cases hmemories.symm.trans hreads.memories
  cases hreceipts.symm.trans hreads.receipts
  obtain ⟨a, ha, hname⟩ := packs_named hfiled (compileContextPack_packs hpack) m hm
  refine ⟨.str a, hname, fun operation hop => ?_, Or.inl ?_⟩
  · obtain ⟨receipt, hmem, hfor⟩ := (compileContextPack_issued hpack).covers a ha operation hop
    exact ⟨receipt, hmem, hfor.accounts⟩
  · simpa [Json.truthy] using (hfiled.address a ((compileContextPack_steps hpack).2 a ha).1.active).ne

/-! ## A memory without receipts -/

/-- A pack that lists no address and serves a memory all the same. -/
def unlistedPack : Json :=
  .obj [(js "schema", .str contextPackSchema), (js "memory_addresses", .arr []),
    (js "memories", .arr [.obj [(js "memory_addr", .str (js "mem:1")), (js "content", .str (js "prefers tea"))]]),
    (js "receipts", .arr [])]

def unlistedArgs : VerifyPackArgs where
  options := .obj [(js "contextPack", unlistedPack), (js "publicKey", .str Reference.publicKey)]
  active_state := some (.json (.arr [.str (js "mem:1")]))

/-- **A memory is served without a receipt**: it is left out of `memory_addresses`, and the pack
is accepted. -/
theorem unlisted_memory_accepted : ∃ r, packOf unlistedArgs = some unlistedPack ∧
    verifyContextPack reference unlistedArgs = .ok r ∧ r.valid = true ∧ ¬ SoundPack reference unlistedArgs unlistedPack := by
  have hpack : packOf unlistedArgs = some unlistedPack := by
    simp [packOf, unlistedArgs, firstOf, orElse, Json.isStr, unlistedPack]
  have htrust : trustedKeyOptions reference unlistedArgs.options = some (trustKey reference (.str Reference.publicKey)) := by
    simp [trustedKeyOptions, unlistedArgs, firstOf, path, orElse]
  have hreads : PackReads reference unlistedArgs unlistedPack [] []
      [.obj [(js "memory_addr", .str (js "mem:1")), (js "content", .str (js "prefers tea"))]] []
      (trustKey reference (.str Reference.publicKey)) :=
    ⟨rfl, by simp [unlistedPack, iterate], by simp [unlistedPack, iterate], by simp [unlistedPack, iterate], htrust⟩
  have hnil : contextPackErrors reference unlistedArgs unlistedPack = .ok [] := by
    refine (contextPackErrors_nil hreads).2 ⟨by simp, fun m hm a ha _ => ?_, by simp⟩
    obtain rfl := List.mem_singleton.1 hm
    obtain rfl : Json.str (js "mem:1") = a := by simpa using ha
    exact ⟨by decide, rfl⟩
  have htrusted := verifyContextPack_trusted hpack htrust
  have hverdict : ∃ r, packVerdict reference unlistedPack [] = .ok r := by
    have haddresses : iterate (unlistedPack.get (js "memory_addresses")) = .ok [] := hreads.addresses
    have hhashes : iterate (unlistedPack.get (js "receipt_hashes")) = .ok [] := by simp [unlistedPack, iterate]
    unfold packVerdict publicContextPack
    rw [haddresses, hhashes]
    exact ⟨_, rfl⟩
  obtain ⟨r, hr⟩ := htrusted.2 (by simp [unlistedPack]) hverdict hnil
  refine ⟨r, hpack, hr, htrusted.1 r hr, ?_⟩
  rintro ⟨_, _, _, _, _, hreads', hserved⟩
  obtain ⟨rfl, rfl, rfl, rfl, rfl⟩ := hreads.unique hreads'
  obtain ⟨a, -, -, hops⟩ := hserved _ (.content List.mem_cons_self (by simp))
  obtain ⟨receipt, hmem, -⟩ := hops "retrieve" (by simp)
  exact List.not_mem_nil hmem

end EnigmaMemory
