import Mathlib.Data.List.Forall2
import Mathlib.Tactic.Common

/-!
# Hash-linked lists

Entries of a log, each naming the digest of the entry before it. `forall₂_of_last`: two
linked logs of one length whose last entries have one digest agree entry by entry, up to
any relation that equal digests imply and that determines the named digest. `Follows` says
from which digest on the entries follow on each other, so that a log can be appended to.
-/

namespace HashChain

variable {α δ : Type*} (hash : α → δ) (prev : α → Option δ)

/-- Every entry names the digest of its predecessor. -/
def Linked (log : List α) : Prop := ∀ i x y, log[i]? = some x → log[i + 1]? = some y → prev y = some (hash x)

variable {hash prev}

/-- **The digest of the last entry commits to the log.** -/
theorem forall₂_of_last {R : α → α → Prop} {a b : List α} (hR : ∀ x ∈ a, ∀ y ∈ b, hash x = hash y → R x y)
    (hprev : ∀ x y, R x y → prev x = prev y) (ha : Linked hash prev a) (hb : Linked hash prev b)
    (hlen : a.length = b.length) (hlast : a.getLast?.map hash = b.getLast?.map hash) : List.Forall₂ R a b := by
  -- backwards from the last position: `k` counts the positions that are already matched
  have key : ∀ k i x y, i + k + 1 = a.length → a[i]? = some x → b[i]? = some y → R x y := by
    intro k
    induction k with
    | zero =>
      intro i x y hi hx hy
      have hxl : a.getLast? = some x := by rw [List.getLast?_eq_getElem?, show a.length - 1 = i by omega, hx]
      have hyl : b.getLast? = some y := by rw [List.getLast?_eq_getElem?, show b.length - 1 = i by omega, hy]
      rw [hxl, hyl] at hlast
      exact hR x (List.mem_of_getElem? hx) y (List.mem_of_getElem? hy) (Option.some.inj hlast)
    | succ k ih =>
      intro i x y hi hx hy
      obtain ⟨x', hx'⟩ : ∃ x', a[i + 1]? = some x' := ⟨_, List.getElem?_eq_getElem (by omega)⟩
      obtain ⟨y', hy'⟩ : ∃ y', b[i + 1]? = some y' := ⟨_, List.getElem?_eq_getElem (by omega)⟩
      have hnext := hprev x' y' (ih (i + 1) x' y' (by omega) hx' hy')
      rw [ha i x x' hx hx', hb i y y' hy hy'] at hnext
      exact hR x (List.mem_of_getElem? hx) y (List.mem_of_getElem? hy) (Option.some.inj hnext)
  rw [List.forall₂_iff_get]
  refine ⟨hlen, fun i h₁ h₂ => key (a.length - 1 - i) i _ _ (by omega) ?_ ?_⟩
  · rw [List.getElem?_eq_getElem h₁, List.get_eq_getElem]
  · rw [List.getElem?_eq_getElem h₂, List.get_eq_getElem]

variable (hash prev)

/-- The first entry names a given digest, and every other that of its predecessor. -/
def Follows : δ → List α → Prop
  | _, [] => True
  | d, x :: rest => prev x = some d ∧ Follows (hash x) rest

/-- The digest that the next entry has to name. -/
def lastDigest (d : δ) (log : List α) : δ := (log.getLast?.map hash).getD d

variable {hash prev}

@[simp] theorem lastDigest_nil (d : δ) : lastDigest hash d [] = d := rfl

theorem lastDigest_cons (d : δ) (x : α) (rest : List α) : lastDigest hash d (x :: rest) = lastDigest hash (hash x) rest := by
  cases rest with
  | nil => rfl
  | cons y rest =>
    rw [lastDigest, lastDigest, List.getLast?_cons_cons]
    cases h : (y :: rest).getLast? with
    | none => simp at h
    | some z => rfl

theorem follows_snoc {d : δ} {log : List α} {x : α} :
    Follows hash prev d (log ++ [x]) ↔ Follows hash prev d log ∧ prev x = some (lastDigest hash d log) := by
  induction log generalizing d with
  | nil => simp [Follows]
  | cons y rest ih => rw [List.cons_append, Follows, Follows, ih, lastDigest_cons, and_assoc]

/-- **Entries that follow on each other are linked.** -/
theorem Follows.linked {d : δ} {log : List α} (h : Follows hash prev d log) : Linked hash prev log := by
  induction log generalizing d with
  | nil => exact fun i x y hx => absurd hx (by simp)
  | cons z rest ih =>
    intro i x y hx hy
    cases i with
    | succ i => exact ih h.2 i x y hx hy
    | zero =>
      obtain rfl : z = x := by simpa using hx
      cases rest with
      | nil => simp at hy
      | cons w rest =>
        obtain rfl : w = y := by simpa using hy
        exact h.2.1

theorem Follows.head {d : δ} {log : List α} (h : Follows hash prev d log) {x : α} (hx : log.head? = some x) : prev x = some d := by
  cases log with
  | nil => cases hx
  | cons y rest =>
    obtain rfl : y = x := Option.some.inj hx
    exact h.1

end HashChain
