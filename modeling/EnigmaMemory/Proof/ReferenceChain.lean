import EnigmaMemory.Proof.Ledger

/-!
# A runtime to run the programs in

Keys are lists of numbers: a wallet is zero and a number, and a derived address is the text of its
program, its bump and its seeds, so that no two derivations meet. A Token-2022 mint withholds one
hundredth of a transfer.
-/

namespace EnigmaMemory.Cortex

namespace ReferenceChain

abbrev Address := List ℕ

def programCode : Program → ℕ
  | .capabilityRegistry => 0
  | .budgetEscrow => 1
  | .memoryRegistry => 2
  | .royaltyRouter => 3
  | .cortexToken => 4
  | .spl .token => 5
  | .spl .token2022 => 6
  | .associatedToken => 7

theorem programCode_inj {p q : Program} (h : programCode p = programCode q) : p = q := by
  rcases p with _ | _ | _ | _ | _ | ⟨_ | _⟩ | _ <;> rcases q with _ | _ | _ | _ | _ | ⟨_ | _⟩ | _ <;> first | rfl | cases h

def seedKind : Seed Address → ℕ
  | .text _ => 0
  | .key _ => 1
  | .program _ => 2
  | .u64 _ => 3
  | .bytes _ => 4

def seedText : Seed Address → List ℕ
  | .text s => s.toList.map Char.toNat
  | .key k => k
  | .program p => [programCode p]
  | .u64 n => [n.toNat]
  | .bytes b => b.map UInt8.toNat

theorem seed_inj {s t : Seed Address} (hkind : seedKind s = seedKind t) (htext : seedText s = seedText t) : s = t := by
  cases s with
  | text s =>
    cases t <;> cases hkind
    have hchars := List.map_injective_iff.2 (fun a b hab => Char.toNat_inj.1 hab) htext
    exact congrArg _ (String.toList_inj.1 hchars)
  | key k =>
    cases t <;> cases hkind
    exact congrArg _ htext
  | program p =>
    cases t <;> cases hkind
    exact congrArg _ (programCode_inj (List.cons.inj htext).1)
  | u64 n =>
    cases t <;> cases hkind
    exact congrArg _ (UInt64.toNat_inj.1 (List.cons.inj htext).1)
  | bytes b =>
    cases t <;> cases hkind
    have hbytes := List.map_injective_iff.2 (fun a b hab => UInt8.toNat_inj.1 hab) htext
    exact congrArg _ hbytes

/-- A seed, its kind and its length in front. -/
def encodeSeed (s : Seed Address) : List ℕ := seedKind s :: (seedText s).length :: seedText s

/-- The text of a seed ends where it says. -/
theorem encodeSeed_append {s t : Seed Address} {xs ys : List ℕ} (h : encodeSeed s ++ xs = encodeSeed t ++ ys) : s = t ∧ xs = ys := by
  simp only [encodeSeed, List.cons_append, List.cons.injEq] at h
  obtain ⟨hkind, hlength, h⟩ := h
  obtain ⟨htext, hrest⟩ := List.append_inj h hlength
  exact ⟨seed_inj hkind htext, hrest⟩

theorem encodeSeed_ne (s : Seed Address) : encodeSeed s ≠ [] := List.cons_ne_nil _ _

theorem encodeSeeds_inj : ∀ s t : List (Seed Address), s.flatMap encodeSeed = t.flatMap encodeSeed → s = t := by
  intro s
  induction s with
  | nil =>
    intro t h
    cases t with
    | nil => rfl
    | cons y t => exact absurd (List.append_eq_nil_iff.1 h.symm).1 (encodeSeed_ne y)
  | cons x s ih =>
    intro t h
    cases t with
    | nil => exact absurd (List.append_eq_nil_iff.1 h).1 (encodeSeed_ne x)
    | cons y t =>
      obtain ⟨rfl, hrest⟩ := encodeSeed_append h
      rw [ih t hrest]

def createProgramAddress (p : Program) (seeds : List (Seed Address)) (bump : UInt8) : Option Address :=
  some (1 :: programCode p :: bump.toNat :: seeds.flatMap encodeSeed)

def wallet (n : ℕ) : Address := [0, n]

end ReferenceChain

open ReferenceChain in
def referenceChain : Runtime Address where
  createProgramAddress := createProgramAddress
  wallet k := k.head? == some 0
  default := []
  transferFee _ _ amount := amount / 100
  createProgramAddress_inj h h' := by
    cases h
    simp only [createProgramAddress, Option.some.injEq, List.cons.injEq, true_and] at h'
    obtain ⟨hp, hb, hs⟩ := h'
    exact ⟨(programCode_inj hp).symm, (encodeSeeds_inj _ _ hs).symm, (UInt8.toNat_inj.1 hb).symm⟩
  wallet_derived h := by
    cases h
    rfl
  wallet_default := rfl
  transferFee_le _ _ amount := by
    rw [UInt64.le_iff_toNat_le, UInt64.toNat_div]
    exact Nat.div_le_self _ _

namespace ReferenceChain

/-- The address that is found for seeds. -/
def address (p : Program) (seeds : List (Seed Address)) : Address := 1 :: programCode p :: 255 :: seeds.flatMap encodeSeed

/-- A step that one wallet signs. -/
def signedBy (n : ℕ) (now : Int64) (i : Instruction Address) : Step referenceChain where
  tx := ⟨now, [wallet n], by simp [referenceChain, wallet]⟩
  instruction := i

/-! ## An owner with a session -/

def owner : Address := wallet 1

def sessionKey : Address := wallet 2

def ownerNonceKey : Address := address .capabilityRegistry (ownerNonceSeeds owner)

/-- The session that is created while the owner's nonce is `nonce`. -/
def sessionAt (nonce : UInt64) : Address := address .capabilityRegistry (sessionSeeds owner sessionKey nonce)

def budgetKey : Address := address .budgetEscrow (budgetSeeds owner)

/-- A session for everything, with a limit of 10 per spend and per day. -/
def openSession (scope : UInt32) (nonce : UInt64) : Step referenceChain :=
  signedBy 1 1000 (.capability (.createSession
    { owner := owner
      session_key := sessionKey
      owner_nonce := ownerNonceKey
      session := sessionAt nonce
      scope := scope
      categories_hash := zeroHash
      max_spend_per_tx := 10
      max_spend_per_day := 10
      max_ops_per_day := 100
      expires_at := 1000000 }))

def pause : Step referenceChain := signedBy 1 1000 (.capability (.pauseAllSessions ⟨owner, ownerNonceKey⟩))

def openBudget : Step referenceChain := signedBy 1 1000 (.budget (.createBudget ⟨owner, budgetKey, 100⟩))

/-- The accounts of an instruction by the session. -/
def bySession : SessionAccounts Address := ⟨sessionKey, owner, sessionAt 0, ownerNonceKey, 0⟩

/-! ## Wallets with tokens -/

/-- The associated token account of a wallet; mints are wallets too. -/
def ata (program : TokenProgram) (w m : ℕ) : Address := address .associatedToken (associatedSeeds program (wallet w) (wallet m))

/-- A new mint, and an amount of it in the account of a wallet. -/
def issue (program : TokenProgram) (w m : ℕ) (amount : UInt64) : List (Step referenceChain) :=
  [signedBy m 1000 (.spl (.initializeMint ⟨program, wallet m, wallet m, 0⟩)),
    signedBy w 1000 (.spl (.createAssociated ⟨program, wallet w, wallet m, ata program w m⟩)),
    signedBy m 1000 (.spl (.mintTo ⟨program, wallet m, ata program w m, wallet m, amount⟩))]

end ReferenceChain

end EnigmaMemory.Cortex
