import EnigmaMemory.Lib.Run

/-!
# Tickets that are issued and redeemed

A system keeps a value for every open ticket. A step may issue a ticket, in place of an open one of
the same name, or redeem an open one; no other step opens, changes or closes any.

* `open_issued`: an open ticket was issued, and nothing has touched its name since.
* `redeemed_stems`, `Stems.unique`, `Stems.once`: every redemption belongs to exactly one issue, and
  an issue to at most one redemption.
-/

namespace Ticket

open Run

variable {σ ι κ ν : Type*} (step : σ → ι → Option σ)

/-- What steps do to open tickets. -/
structure Laws (held : σ → κ → Option ν) (issues : σ → ι → κ → ν → Prop) (redeems : σ → ι → κ → Prop) : Prop where
  issued : ∀ s i t k v, step s i = some t → issues s i k v → held t k = some v
  redeemed : ∀ s i t k, step s i = some t → redeems s i k → (∃ v, held s k = some v) ∧ held t k = none
  kept : ∀ s i t k, step s i = some t → (∀ v, ¬ issues s i k v) → ¬ redeems s i k → held t k = held s k

section At

variable (issues : σ → ι → κ → ν → Prop) (redeems : σ → ι → κ → Prop) (s : σ) (inputs : List ι)

/-- The `n`-th step of the run issues a ticket. -/
def IssuedAt (n : ℕ) (k : κ) (v : ν) : Prop :=
  ∃ u i, run step s (inputs.take n) = some u ∧ inputs[n]? = some i ∧ issues u i k v

/-- The `n`-th step of the run redeems a ticket. -/
def RedeemedAt (n : ℕ) (k : κ) : Prop := ∃ u i, run step s (inputs.take n) = some u ∧ inputs[n]? = some i ∧ redeems u i k

/-- No step strictly between two has to do with the name. -/
def Untouched (m n : ℕ) (k : κ) : Prop :=
  ∀ j, m < j → j < n → (∀ v, ¬ IssuedAt step issues s inputs j k v) ∧ ¬ RedeemedAt step redeems s inputs j k

/-- The redemption belongs to the issue. -/
structure Stems (m n : ℕ) (k : κ) (v : ν) : Prop where
  before : m < n
  issue : IssuedAt step issues s inputs m k v
  redemption : RedeemedAt step redeems s inputs n k
  between : Untouched step issues redeems s inputs m n k

end At

variable {step} {held : σ → κ → Option ν} {issues : σ → ι → κ → ν → Prop} {redeems : σ → ι → κ → Prop} {s : σ}

theorem issuedAt_append {l m : List ι} {n : ℕ} {k : κ} {v : ν} (h : n < l.length) :
    IssuedAt step issues s (l ++ m) n k v ↔ IssuedAt step issues s l n k v := by
  rw [IssuedAt, IssuedAt, List.take_append_of_le_length h.le, List.getElem?_append_left h]

theorem redeemedAt_append {l m : List ι} {n : ℕ} {k : κ} (h : n < l.length) :
    RedeemedAt step redeems s (l ++ m) n k ↔ RedeemedAt step redeems s l n k := by
  rw [RedeemedAt, RedeemedAt, List.take_append_of_le_length h.le, List.getElem?_append_left h]

theorem issuedAt_length {l : List ι} {i : ι} {u : σ} {k : κ} {v : ν} (hu : run step s l = some u) :
    IssuedAt step issues s (l ++ [i]) l.length k v ↔ issues u i k v := by
  simp [IssuedAt, hu]

theorem redeemedAt_length {l : List ι} {i : ι} {u : σ} {k : κ} (hu : run step s l = some u) :
    RedeemedAt step redeems s (l ++ [i]) l.length k ↔ redeems u i k := by
  simp [RedeemedAt, hu]

theorem untouched_append {l m : List ι} {a b : ℕ} {k : κ} (h : b ≤ l.length) :
    Untouched step issues redeems s (l ++ m) a b k ↔ Untouched step issues redeems s l a b k := by
  refine forall_congr' fun j => forall_congr' fun _ => ?_
  constructor
  · intro hj hjb
    obtain ⟨hissued, hredeemed⟩ := hj hjb
    exact ⟨fun v hv => hissued v ((issuedAt_append (by omega)).2 hv), fun hr => hredeemed ((redeemedAt_append (by omega)).2 hr)⟩
  · intro hj hjb
    obtain ⟨hissued, hredeemed⟩ := hj hjb
    exact ⟨fun v hv => hissued v ((issuedAt_append (by omega)).1 hv), fun hr => hredeemed ((redeemedAt_append (by omega)).1 hr)⟩

/-- **An open ticket was issued**, and no later step has to do with it. -/
theorem open_issued (laws : Laws step held issues redeems) (hs : ∀ k, held s k = none) (inputs : List ι) : ∀ t,
    run step s inputs = some t → ∀ k v, held t k = some v → ∃ m, m < inputs.length ∧ IssuedAt step issues s inputs m k v ∧
      Untouched step issues redeems s inputs m inputs.length k := by
  refine run_history (I := fun inputs t => ∀ k v, held t k = some v → ∃ m, m < inputs.length ∧
    IssuedAt step issues s inputs m k v ∧ Untouched step issues redeems s inputs m inputs.length k) ?_ ?_ inputs
  · intro k v hv
    rw [hs] at hv
    cases hv
  intro l u i w hu ih hw k v hv
  by_cases hissues : ∃ v', issues u i k v'
  · -- the last step issued it
    obtain ⟨v', hv'⟩ := hissues
    obtain rfl : v' = v := Option.some.inj ((laws.issued u i w k v' hw hv').symm.trans hv)
    refine ⟨l.length, by simp, (issuedAt_length hu).2 hv', ?_⟩
    intro j hj hjl
    rw [List.length_append, List.length_singleton] at hjl
    omega
  · have hnone : ∀ v, ¬ issues u i k v := not_exists.1 hissues
    have hredeems : ¬ redeems u i k := by
      intro hr
      rw [(laws.redeemed u i w k hw hr).2] at hv
      cases hv
    rw [laws.kept u i w k hw hnone hredeems] at hv
    obtain ⟨m, hm, hissued, huntouched⟩ := ih k v hv
    refine ⟨m, by rw [List.length_append]; omega, (issuedAt_append hm).2 hissued, ?_⟩
    intro j hmj hj
    rw [List.length_append, List.length_singleton] at hj
    rcases Nat.lt_or_eq_of_le (Nat.lt_succ_iff.1 hj) with hjl | rfl
    · exact (untouched_append le_rfl).2 huntouched j hmj hjl
    · exact ⟨fun v hv => hnone v ((issuedAt_length hu).1 hv), fun hr => hredeems ((redeemedAt_length hu).1 hr)⟩

variable {inputs : List ι}

/-- **Every redemption belongs to an issue.** -/
theorem redeemed_stems (laws : Laws step held issues redeems) (hs : ∀ k, held s k = none) {t : σ} (hrun : run step s inputs = some t)
    {n : ℕ} {k : κ} (h : RedeemedAt step redeems s inputs n k) :
    ∃ m v u, Stems step issues redeems s inputs m n k v ∧ run step s (inputs.take n) = some u ∧ held u k = some v := by
  obtain ⟨u, i, hu, hi, hr⟩ := h
  have hn : n < inputs.length := (List.getElem?_eq_some_iff.1 hi).1
  have hsplit : inputs = inputs.take n ++ i :: inputs.drop (n + 1) := by
    rw [← (List.getElem?_eq_some_iff.1 hi).2, List.getElem_cons_drop, List.take_append_drop]
  obtain ⟨w, hw⟩ : ∃ w, step u i = some w := by
    rw [hsplit, run_append, hu, Option.bind_some, run] at hrun
    obtain ⟨w, hw, -⟩ := Option.bind_eq_some_iff.1 hrun
    exact ⟨w, hw⟩
  obtain ⟨v, hv⟩ := (laws.redeemed u i w k hw hr).1
  obtain ⟨m, hm, hissued, huntouched⟩ := open_issued laws hs (inputs.take n) u hu k v hv
  have hlen : (inputs.take n).length = n := by rw [List.length_take]; omega
  rw [hlen] at hm huntouched
  refine ⟨m, v, u, ⟨hm, ?_, ⟨u, i, hu, hi, hr⟩, ?_⟩, hu, hv⟩
  · rw [hsplit]
    exact (issuedAt_append (by omega)).2 hissued
  · rw [hsplit]
    exact (untouched_append (by omega)).2 huntouched

/-- Only one issue is the one of a redemption. -/
theorem Stems.unique {m m' n : ℕ} {k : κ} {v v' : ν} (h : Stems step issues redeems s inputs m n k v)
    (h' : Stems step issues redeems s inputs m' n k v') : m = m' := by
  rcases Nat.lt_trichotomy m m' with hlt | heq | hgt
  · exact absurd h'.issue ((h.between m' hlt h'.before).1 v')
  · exact heq
  · exact absurd h.issue ((h'.between m hgt h.before).1 v)

/-- **No issue is redeemed twice.** -/
theorem Stems.once {m n n' : ℕ} {k : κ} {v v' : ν} (h : Stems step issues redeems s inputs m n k v)
    (h' : Stems step issues redeems s inputs m n' k v') : n = n' := by
  rcases Nat.lt_trichotomy n n' with hlt | heq | hgt
  · exact absurd h.redemption (h'.between n h.before hlt).2
  · exact heq
  · exact absurd h'.redemption (h.between n' h'.before hgt).2

end Ticket
