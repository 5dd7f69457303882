import Mathlib.Algebra.Group.Int.Defs
import Mathlib.Tactic.Common

/-!
# Checked arithmetic on machine integers

`checked_add` and `checked_sub`: no result where the exact one does not fit. Each is described
by one lemma in exact numbers.
-/

namespace UInt64

def checkedAdd (a b : UInt64) : Option UInt64 :=
  if h : a.toNat + b.toNat < UInt64.size then some (UInt64.ofNatLT (a.toNat + b.toNat) h) else none

def checkedSub (a b : UInt64) : Option UInt64 := if b ≤ a then some (a - b) else none

theorem checkedAdd_eq_some {a b c : UInt64} : checkedAdd a b = some c ↔ c.toNat = a.toNat + b.toNat := by
  unfold checkedAdd
  split
  · rename_i h
    rw [Option.some.injEq, ← UInt64.toNat_inj, UInt64.toNat_ofNatLT]
    exact eq_comm
  · rename_i h
    refine iff_of_false (by simp) ?_
    intro heq
    exact h (heq ▸ c.toNat_lt)

theorem checkedSub_eq_some {a b c : UInt64} : checkedSub a b = some c ↔ c.toNat + b.toNat = a.toNat := by
  unfold checkedSub
  split
  · rename_i h
    rw [Option.some.injEq, ← UInt64.toNat_inj, UInt64.toNat_sub_of_le _ _ h]
    have := UInt64.le_iff_toNat_le.1 h
    omega
  · rename_i h
    refine iff_of_false (by simp) ?_
    intro heq
    exact h (UInt64.le_iff_toNat_le.2 (by omega))

end UInt64

namespace UInt32

def checkedAdd (a b : UInt32) : Option UInt32 :=
  if h : a.toNat + b.toNat < UInt32.size then some (UInt32.ofNatLT (a.toNat + b.toNat) h) else none

theorem checkedAdd_eq_some {a b c : UInt32} : checkedAdd a b = some c ↔ c.toNat = a.toNat + b.toNat := by
  unfold checkedAdd
  split
  · rename_i h
    rw [Option.some.injEq, ← UInt32.toNat_inj, UInt32.toNat_ofNatLT]
    exact eq_comm
  · rename_i h
    refine iff_of_false (by simp) ?_
    intro heq
    exact h (heq ▸ c.toNat_lt)

end UInt32

namespace Int64

def checkedAdd (a b : Int64) : Option Int64 :=
  if -2 ^ 63 ≤ a.toInt + b.toInt ∧ a.toInt + b.toInt < 2 ^ 63 then some (Int64.ofInt (a.toInt + b.toInt)) else none

theorem checkedAdd_eq_some {a b c : Int64} : checkedAdd a b = some c ↔ c.toInt = a.toInt + b.toInt := by
  unfold checkedAdd
  split
  · rename_i h
    rw [Option.some.injEq, ← Int64.toInt_inj, Int64.toInt_ofInt_of_le h.1 h.2]
    exact eq_comm
  · rename_i h
    refine iff_of_false (by simp) ?_
    intro heq
    exact h (heq ▸ ⟨c.le_toInt, c.toInt_lt⟩)

end Int64
