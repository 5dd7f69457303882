import Mathlib.Data.Int.Log
import Mathlib.Data.Rat.Floor
import Mathlib.Tactic.Linarith
import Mathlib.Tactic.Positivity

/-!
# Double arithmetic on rationals

The result of an arithmetic operation on doubles is the exact result, rounded. A rounded result that is not
`inRange` stands for an infinite one.

* `round_natCast`: natural numbers up to 2^53 are not rounded.
* `addUp_natCast`: nor are their sums, as long as they stay below that.
-/

namespace Double

/-- The integer nearest to a number; the even one of two. -/
def nearestEven (x : ℚ) : ℤ :=
  if 2 * (x - ⌊x⌋) < 1 ∨ (2 * (x - ⌊x⌋) = 1 ∧ ⌊x⌋ % 2 = 0) then ⌊x⌋ else ⌊x⌋ + 1

/-- The distance of the doubles around a number. -/
def unit (x : ℚ) : ℚ := 2 ^ max (Int.log 2 |x| - 52) (-1074)

/-- The double nearest to a number. -/
def round (x : ℚ) : ℚ := nearestEven (x / unit x) * unit x

def inRange (x : ℚ) : Bool := decide (|x| < 2 ^ 1024)

example : round (1 / 10) = 3602879701896397 / 2 ^ 55 := by decide +kernel

/-- `start + x + y + …`, from left to right. -/
def addUp (start : ℚ) (xs : List ℚ) : ℚ := xs.foldl (fun sum x => round (sum + x)) start

theorem nearestEven_intCast (n : ℤ) : nearestEven n = n := by
  simp [nearestEven]

theorem unit_pos (x : ℚ) : 0 < unit x := zpow_pos two_pos _

/-- A multiple of the distance is a double. -/
theorem round_of_mul {x : ℚ} {n : ℤ} (h : x = n * unit x) : round x = x := by
  have hdiv : x / unit x = n := (div_eq_iff (unit_pos x).ne').2 h
  rw [round, hdiv, nearestEven_intCast, ← h]

/-- Below 2^53 the distance divides 1. -/
theorem exists_unit_mul {n : ℕ} (hpos : 0 < n) (h : n < 2 ^ 53) : ∃ k : ℕ, (k : ℚ) * unit n = 1 := by
  have hlog : Int.log 2 |(n : ℚ)| = Nat.log 2 n := by
    rw [Nat.abs_cast, Int.log_natCast]
  have hle : Nat.log 2 n ≤ 52 := Nat.lt_succ_iff.1 (Nat.log_lt_of_lt_pow hpos.ne' h)
  refine ⟨2 ^ (52 - Nat.log 2 n), ?_⟩
  have hmax : max (Int.log 2 |(n : ℚ)| - 52) (-1074) = -((52 - Nat.log 2 n : ℕ) : ℤ) := by
    rw [hlog]
    omega
  rw [unit, hmax, zpow_neg, zpow_natCast, Nat.cast_pow, Nat.cast_ofNat]
  exact mul_inv_cancel₀ (by positivity)

theorem nearestEven_nonneg {x : ℚ} (h : 0 ≤ x) : 0 ≤ nearestEven x := by
  have hfloor : 0 ≤ ⌊x⌋ := Int.floor_nonneg.2 h
  unfold nearestEven
  split
  · exact hfloor
  · omega

theorem round_nonneg {x : ℚ} (h : 0 ≤ x) : 0 ≤ round x :=
  mul_nonneg (Int.cast_nonneg (nearestEven_nonneg (div_nonneg h (unit_pos x).le))) (unit_pos x).le

theorem round_natCast {n : ℕ} (h : n < 2 ^ 53) : round n = n := by
  rcases Nat.eq_zero_or_pos n with rfl | hpos
  · simp [round, nearestEven]
  · obtain ⟨k, hk⟩ := exists_unit_mul hpos h
    refine round_of_mul (n := (n * k : ℤ)) ?_
    push_cast
    rw [mul_assoc, hk, mul_one]

/-- **Sums of natural numbers are exact** while they are below 2^53. -/
theorem addUp_natCast (xs : List ℕ) : ∀ start : ℕ, start + xs.sum < 2 ^ 53 →
    addUp start (xs.map (Nat.cast : ℕ → ℚ)) = ((start + xs.sum : ℕ) : ℚ) := by
  induction xs with
  | nil => exact fun start _ => by simp [addUp]
  | cons x xs ih =>
    intro start h
    rw [List.sum_cons] at h ⊢
    have hround : round ((start : ℚ) + x) = ((start + x : ℕ) : ℚ) := by
      rw [← Nat.cast_add]
      exact round_natCast (by omega)
    have hrest := ih (start + x) (by omega)
    rw [addUp, List.map_cons, List.foldl_cons, hround]
    rw [addUp] at hrest
    rw [hrest, Nat.add_assoc]

end Double
