import EnigmaMemory.Lib.Result
import EnigmaMemory.Proof.JsString
import EnigmaMemory.Proof.Reference
import EnigmaMemory.Spec.AutoSave

/-!
# What becomes of the facts of a turn

* `processCandidate_accounts`: every candidate that is looked at enters one list, and the store gains a record
  exactly when that list is the one of saved facts.
* `facts_accounted`: so the facts up to the limit of the policy are accounted for.
-/

namespace EnigmaMemory.AutoSave

variable {V : Type}

/-! ## Accounts -/

inductive Fate where
  | saved
  | quarantined
  | blocked
  deriving DecidableEq

/-- The texts in the list of a fate. -/
def Progress.texts (p : Progress V) : Fate → List JsString
  | .saved => p.saved.map fun item => item.text
  | .quarantined => p.quarantined.map Item.text
  | .blocked => p.blocked.map Item.text

/-- The record that a saved item names. -/
def Names (item : Saved) (record : JsString × Json) : Prop :=
  record.1 = item.key ∧ record.2.get (js "id") = some (.str item.id) ∧ record.2.get (js "text") = some (.str item.text)

/-- Records put one after the other. -/
def putAll (records : OrdMap JsString Json) (written : List (JsString × Json)) : OrdMap JsString Json :=
  written.foldl (fun m e => m.set (toWellFormed e.1) e.2) records

/-- Each fact, in order, has one fate and is listed under it, and the records are those from before with the ones that
the saved items name put there. -/
structure Accounts (facts : List JsString) (before : EncryptedStore V) (p : Progress V) : Prop where
  fates : ∃ fates : List (JsString × Fate), fates.map Prod.fst = facts ∧
    ∀ fate, p.texts fate = (fates.filter fun f => f.2 = fate).map Prod.fst
  records : p.store.records = putAll before.records p.written
  named : List.Forall₂ Names p.saved p.written

theorem Accounts.start (store : EncryptedStore V) : Accounts [] store ⟨store, [], [], [], []⟩ where
  fates := ⟨[], rfl, by rintro (- | - | -) <;> rfl⟩
  records := rfl
  named := .nil

/-- What is listed after one more fact has met its fate. -/
theorem fates_snoc (fate : Fate) {facts : List JsString} {p q : Progress V} {fact : JsString}
    (h : ∃ fates : List (JsString × Fate), fates.map Prod.fst = facts ∧
      ∀ fate, p.texts fate = (fates.filter fun f => f.2 = fate).map Prod.fst)
    (hq : ∀ k, q.texts k = p.texts k ++ if k = fate then [fact] else []) :
    ∃ fates : List (JsString × Fate), fates.map Prod.fst = facts ++ [fact] ∧
      ∀ fate, q.texts fate = (fates.filter fun f => f.2 = fate).map Prod.fst := by
  obtain ⟨fates, rfl, htexts⟩ := h
  refine ⟨fates ++ [(fact, fate)], by simp, fun k => ?_⟩
  rw [hq k, htexts k, List.filter_append, List.map_append]
  by_cases hk : k = fate
  · simp [hk]
  · simp [hk, Ne.symm hk]

/-! ## One candidate -/

variable (E : Engine V)

/-- The embedding changes no record. -/
theorem embedMemory_records (store : EncryptedStore V) (key text : JsString) : (embedMemory E store key text).records = store.records := by
  unfold embedMemory
  split
  · split
    · split
      · rename_i h
        obtain ⟨row, -, rfl⟩ := Except.map_eq_ok.1 h
        rfl
      · rfl
    · rfl
  · rfl

theorem makeMemoryKey_ne (candidate : Candidate) : makeMemoryKey candidate ≠ [] := List.cons_ne_nil _ _

/-- A put fails where storage does, and nowhere else. -/
theorem putMemory_ok {place : ℕ} {store after : EncryptedStore V} {candidate : Candidate} {memory : Json} :
    putMemory E place store (makeMemoryKey candidate) memory = .ok after ↔ E.fault place = none ∧
      { store with records := store.records.set (toWellFormed (makeMemoryKey candidate)) memory } = after := by
  have hrow : EncryptedStore.rowOf (some (.str (makeMemoryKey candidate))) = .ok (toWellFormed (makeMemoryKey candidate)) := by
    unfold EncryptedStore.rowOf
    exact if_neg (makeMemoryKey_ne candidate)
  unfold putMemory
  cases E.fault place with
  | some e => exact iff_of_false (fun h => nomatch h) fun h => nomatch h.1
  | none =>
    simp only [EncryptedStore.put, hrow, Except.map, Except.ok.injEq, true_and]

theorem evaluate_candidate (F : NumberFormat) (policy : Policy) (candidate : Candidate) :
    (evaluate F policy candidate).candidate.toCandidate = candidate := by
  simp only [evaluate]
  split
  · rfl
  · split
    · rfl
    · split <;> rfl

/-- **One more candidate is accounted for.** -/
theorem processCandidate_accounts {facts : List JsString} {before : EncryptedStore V} {p : Progress V} (h : Accounts facts before p)
    (env : Ambient) (entry : Candidate × ℕ) : Accounts (facts ++ [entry.1.text]) before (processCandidate E env p entry) := by
  obtain ⟨candidate, place⟩ := entry
  have hcandidate := evaluate_candidate E.format E.policy candidate
  have htext : (itemOf (evaluate E.format E.policy candidate)).text = candidate.text := by rw [itemOf, hcandidate]
  unfold processCandidate
  simp only
  split
  · split
    · rename_i hput
      obtain ⟨-, rfl⟩ := (putMemory_ok E).1 hput
      refine ⟨fates_snoc .saved h.fates ?_, ?_, ?_⟩
      · rintro (- | - | -) <;> simp [Progress.texts, htext]
      · rw [embedMemory_records, h.records, putAll, putAll, List.foldl_append]
        rfl
      · refine List.rel_append h.named (.cons ⟨rfl, rfl, rfl⟩ .nil)
    · refine ⟨fates_snoc .blocked h.fates ?_, h.records, h.named⟩
      rintro (- | - | -) <;> simp [Progress.texts, htext]
  · refine ⟨fates_snoc .quarantined h.fates ?_, h.records, h.named⟩
    rintro (- | - | -) <;> simp [Progress.texts, htext]
  · refine ⟨fates_snoc .blocked h.fates ?_, h.records, h.named⟩
    rintro (- | - | -) <;> simp [Progress.texts, htext]

/-- A run over candidates accounts for each of them. -/
theorem run_accounts {facts : List JsString} {before : EncryptedStore V} (env : Ambient) (entries : List (Candidate × ℕ)) :
    ∀ {p : Progress V}, Accounts facts before p →
      Accounts (facts ++ entries.map fun entry => entry.1.text) before (entries.foldl (processCandidate E env) p) := by
  induction entries generalizing facts with
  | nil => simp
  | cons entry rest ih =>
    intro p h
    have hrest := ih (processCandidate_accounts E h env entry)
    rwa [List.append_assoc] at hrest

/-! ## Turns -/

theorem sliceTo_length {α : Type} {limit : ℤ} (h : 0 ≤ limit) (items : List α) : ((sliceTo limit items).length : ℤ) ≤ limit := by
  rw [sliceTo, if_pos h, List.length_take]
  omega

theorem fates_length (fates : List (JsString × Fate)) : (fates.filter fun f => f.2 = .saved).length +
    (fates.filter fun f => f.2 = .quarantined).length + (fates.filter fun f => f.2 = .blocked).length = fates.length := by
  induction fates with
  | nil => rfl
  | cons f rest ih =>
    obtain ⟨fact, fate⟩ := f
    cases fate <;> simp <;> omega

/-- The lists hold as many items as there are facts. -/
theorem Accounts.length {facts : List JsString} {before : EncryptedStore V} {p : Progress V} (h : Accounts facts before p) :
    p.saved.length + p.quarantined.length + p.blocked.length = facts.length := by
  obtain ⟨fates, rfl, htexts⟩ := h.fates
  have hlength : ∀ fate, (p.texts fate).length = (fates.filter fun f => f.2 = fate).length := by
    intro fate
    rw [htexts, List.length_map]
  have hsaved := hlength .saved
  have hquarantined := hlength .quarantined
  have hblocked := hlength .blocked
  simp only [Progress.texts, List.length_map] at hsaved hquarantined hblocked
  rw [hsaved, hquarantined, hblocked, List.length_map, fates_length]

theorem processTurn_accounts {env : Ambient} {store : EncryptedStore V} {turn : Json} {p : Progress V}
    (h : processTurn E env store turn = .ok p) : Accounts (factsOf E turn) store p := by
  obtain ⟨owner, -, h⟩ := Except.bind_eq_ok.1 h
  obtain rfl := Except.pure_eq_ok.1 h
  have hrun := run_accounts E env (((factsOf E turn).map (candidateOf turn owner)).zipIdx) (Accounts.start store)
  have htexts : (((factsOf E turn).map (candidateOf turn owner)).zipIdx.map fun entry => entry.1.text) = factsOf E turn := by
    have hfst := congrArg (List.map Candidate.text) (List.zipIdx_map_fst 0 ((factsOf E turn).map (candidateOf turn owner)))
    rw [List.map_map, List.map_map] at hfst
    exact hfst.trans (List.map_id _)
  rwa [htexts] at hrun

/-- **The facts up to the limit are accounted for**, and of the store no record changes but those that the saved items name. -/
theorem facts_accounted {env : Ambient} {store : EncryptedStore V} {turn : Json} {p : Progress V}
    (h : processTurn E env store turn = .ok p) : Accounts (factsOf E turn) store p ∧
      (0 ≤ E.policy.maxSavesPerTurn → (p.saved.length : ℤ) ≤ E.policy.maxSavesPerTurn) := by
  have haccounts := processTurn_accounts E h
  refine ⟨haccounts, fun hlimit => ?_⟩
  have hlength := haccounts.length
  have hslice := sliceTo_length hlimit (extractFacts E.format (turn.get (js "text")))
  rw [factsOf] at hlength
  omega

/-- An engine with the default policy, without embeddings and storage faults. -/
def plainEngine : Engine Unit := ⟨decimalFormat, DEFAULT_POLICY, none, fun _ => none⟩

def turnOf (text : String) (tags : List String) : Json :=
  .obj [(js "owner", .str (js "alice")), (js "text", .str (js text)), (js "tags", .arr (tags.map fun tag => .str (js tag)))]

theorem facts_accounted_blue : ∃ p, processTurn plainEngine referenceEnv .empty (turnOf "My favorite color is blue." []) = .ok p ∧
    Accounts (factsOf plainEngine (turnOf "My favorite color is blue." [])) .empty p ∧ (0 ≤ (8 : ℤ) → (p.saved.length : ℤ) ≤ 8) :=
  ⟨_, rfl, facts_accounted plainEngine rfl⟩

/-- Of nine facts one leaves no trace. -/
theorem ninth_fact_dropped : ¬ ∀ (turn : Json) (p : Progress Unit), processTurn plainEngine referenceEnv .empty turn = .ok p →
    Accounts (extractFacts decimalFormat (turn.get (js "text"))) .empty p := by
  intro h
  have hturn : processTurn plainEngine referenceEnv .empty (turnOf "A. A. A. A. A. A. A. A. A." []) = .ok _ := rfl
  have hall := (h _ _ hturn).length
  have hslice := (processTurn_accounts plainEngine hturn).length
  have hnine : (extractFacts decimalFormat ((turnOf "A. A. A. A. A. A. A. A. A." []).get (js "text"))).length = 9 := by
    decide +kernel
  have height : ((factsOf plainEngine (turnOf "A. A. A. A. A. A. A. A. A." [])).length : ℤ) ≤ 8 := sliceTo_length (by decide) _
  omega

end EnigmaMemory.AutoSave
