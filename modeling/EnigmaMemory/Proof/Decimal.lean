import Mathlib.Data.Nat.Digits.Defs
import EnigmaMemory.Spec.Json

/-!
# A number format

`decimalFormat` prints integers in decimal, as the engine does below `10 ^ 21`. A
number that is no integer is printed by numerator and denominator, which keeps the
texts apart but is not what the engine prints. Concrete instances of the results use
it on integers only.
-/

namespace EnigmaMemory

def digitUnit (d : ℕ) : CodeUnit := Fin.ofNat 65536 (48 + d)

/-- A natural number in decimal. -/
def decimalDigits (n : ℕ) : JsString :=
  if n = 0 then [digitUnit 0] else (Nat.digits 10 n).reverse.map digitUnit

/-- What follows the numerator: nothing for an integer. -/
def decimalTail (den : ℕ) : JsString := if den = 1 then [] else 46 :: decimalDigits den

def decimalText (q : ℚ) : JsString :=
  (if q.num < 0 then [45] else []) ++ (decimalDigits q.num.natAbs ++ decimalTail q.den)

theorem digitUnit_val {d : ℕ} (h : d < 10) : (digitUnit d).val = 48 + d := by
  rw [digitUnit, Fin.val_ofNat, Nat.mod_eq_of_lt (by omega)]

theorem mem_decimalDigits {n : ℕ} {c : CodeUnit} (h : c ∈ decimalDigits n) : ∃ d < 10, c = digitUnit d := by
  unfold decimalDigits at h
  split at h
  · exact ⟨0, by decide, List.mem_singleton.1 h⟩
  · obtain ⟨d, hd, rfl⟩ := List.mem_map.1 h
    exact ⟨d, Nat.digits_lt_base (by decide) (List.mem_reverse.1 hd), rfl⟩

theorem decimalDigits_ne_nil (n : ℕ) : decimalDigits n ≠ [] := by
  unfold decimalDigits
  split
  · exact List.cons_ne_nil _ _
  · rename_i hn
    simpa using Nat.digits_ne_nil_iff_ne_zero.2 hn

theorem map_digitUnit_inj {l l' : List ℕ} (hl : ∀ d ∈ l, d < 10) (hl' : ∀ d ∈ l', d < 10)
    (h : l.map digitUnit = l'.map digitUnit) : l = l' := by
  induction l generalizing l' with
  | nil => exact (List.map_eq_nil_iff.1 h.symm).symm
  | cons d l ih =>
    cases l' with
    | nil => exact absurd h (by simp)
    | cons d' l' =>
      rw [List.map_cons, List.map_cons, List.cons.injEq] at h
      have hv := congrArg Fin.val h.1
      rw [digitUnit_val (hl d List.mem_cons_self), digitUnit_val (hl' d' List.mem_cons_self)] at hv
      have ht := ih (fun x hx => hl x (List.mem_cons_of_mem _ hx)) (fun x hx => hl' x (List.mem_cons_of_mem _ hx)) h.2
      rw [ht, show d = d' by omega]

theorem decimalDigits_inj {m n : ℕ} (h : decimalDigits m = decimalDigits n) : m = n := by
  -- the printed digits, most significant first
  let ds : ℕ → List ℕ := fun n => if n = 0 then [0] else (Nat.digits 10 n).reverse
  have hval : ∀ n : ℕ, decimalDigits n = (ds n).map digitUnit := by
    intro n; simp only [ds, decimalDigits]; split <;> rfl
  have hlt : ∀ n : ℕ, ∀ d ∈ ds n, d < 10 := by
    intro n d hd
    simp only [ds] at hd
    split at hd
    · rw [List.mem_singleton.1 hd]; decide
    · exact Nat.digits_lt_base (by decide) (List.mem_reverse.1 hd)
  have hof : ∀ n : ℕ, Nat.ofDigits 10 (ds n).reverse = n := by
    intro n
    simp only [ds]
    split
    · rename_i h0; rw [h0]; rfl
    · rw [List.reverse_reverse, Nat.ofDigits_digits]
  rw [hval, hval] at h
  rw [← hof m, ← hof n, map_digitUnit_inj (hlt m) (hlt n) h]

/-- A digit is neither a sign nor a point. -/
theorem ne_of_mem_decimalDigits {n : ℕ} {c : CodeUnit} (hc : c ∈ decimalDigits n) : c ≠ 45 ∧ c ≠ 46 := by
  obtain ⟨d, hd, rfl⟩ := mem_decimalDigits hc
  have hv := digitUnit_val hd
  constructor
  · intro h; rw [h] at hv; exact absurd hv (by change ¬ 45 = 48 + d; omega)
  · intro h; rw [h] at hv; exact absurd hv (by change ¬ 46 = 48 + d; omega)

theorem takeWhile_decimalDigits (n den : ℕ) :
    (decimalDigits n ++ decimalTail den).takeWhile (· ≠ 46) = decimalDigits n := by
  rw [List.takeWhile_append_of_pos (fun c hc => by simpa using (ne_of_mem_decimalDigits hc).2)]
  unfold decimalTail
  split
  · rw [List.takeWhile_nil, List.append_nil]
  · rw [List.takeWhile_cons_of_neg (by simp), List.append_nil]

theorem decimalTail_inj {m n : ℕ} (h : decimalTail m = decimalTail n) : m = n := by
  unfold decimalTail at h
  split at h <;> split at h
  · rename_i h1 h2; rw [h1, h2]
  · exact absurd h (List.cons_ne_nil _ _).symm
  · exact absurd h (List.cons_ne_nil _ _)
  · exact decimalDigits_inj (List.cons.inj h).2

theorem decimalDigits_tail_inj {m n d e : ℕ} (h : decimalDigits m ++ decimalTail d = decimalDigits n ++ decimalTail e) :
    m = n ∧ d = e := by
  have hd := congrArg (List.takeWhile (· ≠ 46)) h
  rw [takeWhile_decimalDigits, takeWhile_decimalDigits] at hd
  rw [hd] at h
  exact ⟨decimalDigits_inj hd, decimalTail_inj (List.append_cancel_left h)⟩

/-- An unsigned text does not start with a sign. -/
theorem decimalDigits_ne_sign {n : ℕ} {x y : JsString} : decimalDigits n ++ x ≠ 45 :: y := by
  intro h
  obtain ⟨c, l, hc⟩ := List.exists_cons_of_ne_nil (decimalDigits_ne_nil n)
  have hne := ne_of_mem_decimalDigits (hc ▸ List.mem_cons_self : c ∈ decimalDigits n)
  rw [hc, List.cons_append, List.cons.injEq] at h
  exact hne.1 h.1

theorem decimalText_inj : Function.Injective decimalText := by
  intro q r h
  unfold decimalText at h
  have key : (q.num < 0 ↔ r.num < 0) ∧ q.num.natAbs = r.num.natAbs ∧ q.den = r.den := by
    by_cases hq : q.num < 0 <;> by_cases hr : r.num < 0
    · rw [if_pos hq, if_pos hr] at h
      exact ⟨iff_of_true hq hr, decimalDigits_tail_inj (List.append_cancel_left h)⟩
    · rw [if_pos hq, if_neg hr] at h
      exact absurd h.symm decimalDigits_ne_sign
    · rw [if_neg hq, if_pos hr] at h
      exact absurd h decimalDigits_ne_sign
    · rw [if_neg hq, if_neg hr] at h
      exact ⟨iff_of_false hq hr, decimalDigits_tail_inj (List.append_cancel_left h)⟩
  obtain ⟨hs, hn, hd⟩ := key
  exact Rat.ext (by omega) hd

theorem decimalText_units (q : ℚ) : ∀ c ∈ decimalText q, isNumberUnit c = true := by
  have hdigits : ∀ n : ℕ, ∀ c ∈ decimalDigits n, isNumberUnit c = true := by
    intro n c hc
    obtain ⟨d, hd, rfl⟩ := mem_decimalDigits hc
    have key : ∀ d < 10, isNumberUnit (digitUnit d) = true := by decide
    exact key d hd
  intro c hc
  rw [decimalText, List.mem_append, List.mem_append] at hc
  rcases hc with hc | hc | hc
  · split at hc
    · rw [List.mem_singleton.1 hc]; decide
    · exact absurd hc List.not_mem_nil
  · exact hdigits _ c hc
  · unfold decimalTail at hc
    split at hc
    · exact absurd hc List.not_mem_nil
    · rcases List.mem_cons.1 hc with rfl | hc
      · decide
      · exact hdigits _ c hc

def decimalFormat : NumberFormat where
  numberText := decimalText
  numberText_inj := decimalText_inj
  numberText_ne q h := decimalDigits_ne_nil q.num.natAbs (List.append_eq_nil_iff.1 (List.append_eq_nil_iff.1 h).2).1
  numberText_units := decimalText_units

example : decimalFormat.numberText 120 = js "120" := by decide

end EnigmaMemory
