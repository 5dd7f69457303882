import Mathlib.Data.List.Basic
import Mathlib.Tactic.Ring

/-!
# Bytes on the wire

Little-endian words of any width, records whose fields stand one after another, and what is read
from them at an offset.

* `readLE_eq_some`: a word is read where it was written.
* `extract_flatten`: a field is read back at the sum of the lengths before it.
* `drop_padded_eq_iff`: bytes that are read further on than they were written, in zeros, come out right
  only if there is no shift or nothing but zeros.
-/

namespace EnigmaMemory.Wire

variable {α : Type}

/-! ## Words -/

/-- The `w` little-endian bytes of a number; what is above is dropped. -/
def toLE : ℕ → ℕ → List UInt8
  | 0, _ => []
  | w + 1, n => UInt8.ofNat n :: toLE w (n / 256)

/-- The number of little-endian bytes. -/
def ofLE : List UInt8 → ℕ
  | [] => 0
  | b :: rest => b.toNat + 256 * ofLE rest

@[simp] theorem length_toLE (w n : ℕ) : (toLE w n).length = w := by
  induction w generalizing n with
  | zero => rfl
  | succ w ih => rw [toLE, List.length_cons, ih]

theorem ofLE_toLE {w n : ℕ} (h : n < 256 ^ w) : ofLE (toLE w n) = n := by
  induction w generalizing n with
  | zero =>
    rw [pow_zero] at h
    rw [toLE, ofLE]
    omega
  | succ w ih =>
    have hrest : n / 256 < 256 ^ w := by
      rw [pow_succ] at h
      omega
    rw [toLE, ofLE, ih hrest, UInt8.toNat_ofNat']
    omega

theorem ofLE_lt (b : List UInt8) : ofLE b < 256 ^ b.length := by
  induction b with
  | nil => simp [ofLE]
  | cons x b ih =>
    have hx := x.toNat_lt
    rw [ofLE, List.length_cons, pow_succ]
    omega

theorem toLE_ofLE (b : List UInt8) : toLE b.length (ofLE b) = b := by
  induction b with
  | nil => rfl
  | cons x b ih =>
    have hx := x.toNat_lt
    have hdiv : (x.toNat + 256 * ofLE b) / 256 = ofLE b := by omega
    rw [List.length_cons, toLE, ofLE, hdiv, ih]
    congr 1
    refine UInt8.toNat_inj.1 ?_
    rw [UInt8.toNat_ofNat']
    omega

theorem toLE_inj {w n m : ℕ} (hn : n < 256 ^ w) (hm : m < 256 ^ w) (h : toLE w n = toLE w m) : n = m := by
  rw [← ofLE_toLE hn, h, ofLE_toLE hm]

/-! ## Fields -/

/-- The number in the `w` bytes at an offset; bytes past the end are an error. -/
def readLE (w : ℕ) (b : List UInt8) (offset : ℕ) : Option ℕ :=
  if offset + w ≤ b.length then some (ofLE (b.extract offset (offset + w))) else none

theorem length_extract {xs : List α} {i j : ℕ} (h : j ≤ xs.length) : (xs.extract i j).length = j - i := by
  rw [List.extract_eq_take_drop, List.length_take, List.length_drop]
  omega

/-- What is read is what was written there. -/
theorem readLE_eq_some {w : ℕ} {b : List UInt8} {offset n : ℕ} :
    readLE w b offset = some n ↔ n < 256 ^ w ∧ offset + w ≤ b.length ∧ b.extract offset (offset + w) = toLE w n := by
  unfold readLE
  split
  · rename_i hle
    have hlength : (b.extract offset (offset + w)).length = w := by rw [length_extract hle, Nat.add_sub_cancel_left]
    constructor
    · intro h
      cases h
      have hlt := ofLE_lt (b.extract offset (offset + w))
      have hback := toLE_ofLE (b.extract offset (offset + w))
      rw [hlength] at hlt hback
      exact ⟨hlt, hle, hback.symm⟩
    · rintro ⟨hlt, -, heq⟩
      rw [heq, ofLE_toLE hlt]
  · rename_i hlong
    exact iff_of_false (fun h => nomatch h) fun h => hlong h.2.1

theorem extract_append_left {xs ys : List α} {i j : ℕ} (h : j ≤ xs.length) : (xs ++ ys).extract i j = xs.extract i j := by
  rw [List.extract_eq_take_drop, List.extract_eq_take_drop]
  rcases Nat.lt_or_ge j i with hji | hij
  · rw [Nat.sub_eq_zero_of_le hji.le, List.take_zero, List.take_zero]
  · rw [List.drop_append_of_le_length (hij.trans h), List.take_append_of_le_length (by rw [List.length_drop]; omega)]

theorem extract_append_right (xs ys : List α) (i j : ℕ) :
    (xs ++ ys).extract (xs.length + i) (xs.length + j) = ys.extract i j := by
  rw [List.extract_eq_take_drop, List.extract_eq_take_drop, List.drop_append, List.drop_eq_nil_of_le (by omega), List.nil_append,
    Nat.add_sub_cancel_left, Nat.add_sub_add_left]

/-- The `k`-th field stands after the fields before it. -/
theorem extract_flatten {fields : List (List α)} {field : List α} {k i j : ℕ} (hk : fields[k]? = some field)
    (hi : (fields.take k).flatten.length = i) (hj : i + field.length = j) :
    j ≤ fields.flatten.length ∧ fields.flatten.extract i j = field := by
  subst hi hj
  obtain ⟨hlt, rfl⟩ := List.getElem?_eq_some_iff.1 hk
  have hsplit : fields.flatten = (fields.take k).flatten ++ (fields[k] ++ (fields.drop (k + 1)).flatten) := by
    rw [← List.flatten_cons, ← List.drop_eq_getElem_cons hlt, ← List.flatten_append, List.take_append_drop]
  refine ⟨by rw [hsplit, List.length_append, List.length_append]; omega, ?_⟩
  have h := extract_append_right (fields.take k).flatten (fields[k] ++ (fields.drop (k + 1)).flatten) 0 fields[k].length
  rw [← hsplit] at h
  refine Eq.trans h ?_
  rw [extract_append_left le_rfl, List.extract_eq_take_drop, List.drop_zero, Nat.sub_zero, List.take_length]

/-! ## Reading too far -/

/-- Bytes that are followed by zeros and read `d` too far. -/
theorem drop_padded_eq_iff {d : ℕ} {b : List UInt8} :
    (b ++ List.replicate d 0).drop d = b ↔ d = 0 ∨ b = List.replicate b.length 0 := by
  constructor
  · intro h
    rcases Nat.eq_zero_or_pos d with hd | hd
    · exact .inl hd
    refine .inr (List.eq_replicate_iff.2 ⟨rfl, ?_⟩)
    -- from the end: what is read at `i` stands at `d + i`
    have hall : ∀ n i, i < b.length → b.length - i ≤ n → b[i]? = some 0 := by
      intro n
      induction n with
      | zero =>
        intro i hi hn
        omega
      | succ n ih =>
        intro i hi hn
        have hread : b[i]? = (b ++ List.replicate d 0)[d + i]? := by rw [← List.getElem?_drop, h]
        rw [hread]
        rcases Nat.lt_or_ge (d + i) b.length with hlt | hge
        · rw [List.getElem?_append_left hlt]
          exact ih (d + i) hlt (by omega)
        · rw [List.getElem?_append_right hge, List.getElem?_replicate, if_pos (by omega)]
    intro x hx
    obtain ⟨i, hi, rfl⟩ := List.getElem_of_mem hx
    exact Option.some.inj ((List.getElem?_eq_getElem hi).symm.trans (hall _ i hi le_rfl))
  · rintro (rfl | h)
    · simp
    · rw [h, ← List.replicate_add, List.drop_replicate, Nat.add_sub_cancel]

end EnigmaMemory.Wire
