import Mathlib.Tactic.Common

/-!
# Computations that may fail

Inversion of a bind in `Except` and in `EStateM`, where a failed computation keeps the
state it has reached. A function written with `do` is taken apart by these one statement
at a time.
-/

universe u v

namespace Except

variable {ε : Type u} {α β : Type v}

theorem bind_eq_ok {m : Except ε α} {next : α → Except ε β} {r : β} :
    m >>= next = .ok r ↔ ∃ a, m = .ok a ∧ next a = .ok r := by
  rcases m with e | a
  · exact ⟨fun h => (nomatch h), fun ⟨_, h, _⟩ => (nomatch h)⟩
  · exact ⟨fun h => ⟨a, rfl, h⟩, fun ⟨_, ha, h⟩ => Except.ok.inj ha ▸ h⟩

theorem ok_bind (a : α) (next : α → Except ε β) : (.ok a >>= next) = next a := rfl

theorem check_eq_ok {γ : Type} {m : Except ε Unit} {next : Except ε γ} {r : γ} :
    (m >>= fun _ => next) = .ok r ↔ m = .ok () ∧ next = .ok r := by
  rw [bind_eq_ok]
  exact ⟨fun ⟨_, hm, hnext⟩ => ⟨hm, hnext⟩, fun ⟨hm, hnext⟩ => ⟨(), hm, hnext⟩⟩

/-- A check that throws passes when its condition does not hold. -/
theorem throw_if_eq_ok {γ : Type} {c : Prop} [Decidable c] {e : ε} {next : Unit → Except ε γ} {r : γ} :
    (if c then (throw e >>= next) else next ()) = .ok r ↔ ¬ c ∧ next () = .ok r := by
  by_cases h : c
  · rw [if_pos h]
    exact ⟨fun hr => (nomatch hr), fun hr => absurd h hr.1⟩
  · rw [if_neg h]
    exact ⟨fun hr => ⟨h, hr⟩, fun hr => hr.2⟩

theorem bind_eq_error {m : Except ε α} {next : α → Except ε β} {e : ε} :
    m >>= next = .error e ↔ m = .error e ∨ ∃ a, m = .ok a ∧ next a = .error e := by
  rcases m with e' | a
  · exact ⟨fun h => Or.inl (congrArg _ (Except.error.inj h)), fun h => by
      rcases h with h | ⟨_, h, _⟩
      · exact congrArg _ (Except.error.inj h)
      · exact nomatch h⟩
  · exact ⟨fun h => Or.inr ⟨a, rfl, h⟩, fun h => by
      rcases h with h | ⟨_, ha, h⟩
      · exact nomatch h
      · exact Except.ok.inj ha ▸ h⟩

theorem map_eq_ok {m : Except ε α} {f : α → β} {r : β} : m.map f = .ok r ↔ ∃ a, m = .ok a ∧ f a = r := by
  cases m <;> simp [Except.map]

theorem pure_eq_ok {a r : α} : (pure a : Except ε α) = .ok r ↔ a = r :=
  ⟨Except.ok.inj, congrArg _⟩

/-- A loop that collects lists collects nothing when no item gives anything. -/
theorem mapM_flatten_eq_nil {f : α → Except ε (List β)} (xs : List α) :
    (∃ ys, xs.mapM f = .ok ys ∧ ys.flatten = []) ↔ ∀ x ∈ xs, f x = .ok [] := by
  induction xs with
  | nil => exact iff_of_true ⟨[], rfl, rfl⟩ (by simp)
  | cons x xs ih =>
    rw [List.forall_mem_cons, ← ih, List.mapM_cons]
    constructor
    · rintro ⟨ys, h, hnil⟩
      obtain ⟨y, hy, h⟩ := bind_eq_ok.1 h
      obtain ⟨rest, hrest, h⟩ := bind_eq_ok.1 h
      cases pure_eq_ok.1 h
      rw [List.flatten_cons, List.append_eq_nil_iff] at hnil
      exact ⟨hnil.1 ▸ hy, rest, hrest, hnil.2⟩
    · rintro ⟨hx, rest, hrest, hnil⟩
      refine ⟨[] :: rest, ?_, by simpa using hnil⟩
      rw [hx, hrest]
      rfl

/-- A loop that succeeds gives one result for each item. -/
theorem map_of_mapM {f : α → Except ε β} (xs : List α) : ∀ ys, xs.mapM f = .ok ys → xs.map f = ys.map .ok := by
  induction xs with
  | nil =>
    intro ys h
    cases pure_eq_ok.1 h
    rfl
  | cons x xs ih =>
    intro ys h
    rw [List.mapM_cons] at h
    obtain ⟨y, hy, h⟩ := bind_eq_ok.1 h
    obtain ⟨rest, hrest, h⟩ := bind_eq_ok.1 h
    cases pure_eq_ok.1 h
    rw [List.map_cons, List.map_cons, hy, ih rest hrest]

theorem mapM_of_forall {f : α → Except ε β} {g : α → β} {xs : List α} (h : ∀ x ∈ xs, f x = .ok (g x)) :
    xs.mapM f = .ok (xs.map g) := by
  induction xs with
  | nil => rfl
  | cons x xs ih =>
    rw [List.mapM_cons, h x List.mem_cons_self, ok_bind, ih fun y hy => h y (List.mem_cons_of_mem _ hy)]
    rfl

theorem length_of_mapM {f : α → Except ε β} {xs : List α} {ys : List β} (h : xs.mapM f = .ok ys) : ys.length = xs.length := by
  have hlength := congrArg List.length (map_of_mapM xs ys h)
  rw [List.length_map, List.length_map] at hlength
  exact hlength.symm

theorem exists_of_mem_mapM {f : α → Except ε β} {xs : List α} {ys : List β} {y : β} (h : xs.mapM f = .ok ys)
    (hy : y ∈ ys) : ∃ x ∈ xs, f x = .ok y := by
  have hmem := List.mem_map_of_mem (f := (Except.ok : β → Except ε β)) hy
  rw [← map_of_mapM xs ys h] at hmem
  exact List.mem_map.1 hmem

/-- What a loop that collects lists has collected came from one of its items. -/
theorem mem_flatten_of_mapM {f : α → Except ε (List β)} {b : β} (xs : List α) (ys : List (List β)) (h : xs.mapM f = .ok ys)
    (hb : b ∈ ys.flatten) : ∃ x ∈ xs, ∃ y, f x = .ok y ∧ b ∈ y := by
  obtain ⟨y, hy, hmem⟩ := List.mem_flatten.1 hb
  obtain ⟨x, hx, hfx⟩ := exists_of_mem_mapM h hy
  exact ⟨x, hx, y, hfx, hmem⟩

theorem exists_of_mapM_mem {f : α → Except ε β} {xs : List α} {ys : List β} {x : α} (h : xs.mapM f = .ok ys)
    (hx : x ∈ xs) : ∃ y ∈ ys, f x = .ok y := by
  have hmem := List.mem_map_of_mem (f := f) hx
  rw [map_of_mapM xs ys h] at hmem
  obtain ⟨y, hy, heq⟩ := List.mem_map.1 hmem
  exact ⟨y, hy, heq.symm⟩

end Except

namespace EStateM

variable {ε σ α β : Type u}

theorem bind_eq_ok {x : EStateM ε σ α} {f : α → EStateM ε σ β} {s s' : σ} {b : β} :
    (x >>= f) s = .ok b s' ↔ ∃ a t, x s = .ok a t ∧ f a t = .ok b s' := by
  simp only [bind, EStateM.bind]
  cases x s with
  | ok a t => simp
  | error e t => simp

theorem bind_eq_error {x : EStateM ε σ α} {f : α → EStateM ε σ β} {s s' : σ} {e : ε} :
    (x >>= f) s = .error e s' ↔ x s = .error e s' ∨ ∃ a t, x s = .ok a t ∧ f a t = .error e s' := by
  simp only [bind, EStateM.bind]
  cases x s with
  | ok a t => simp
  | error e t => simp

theorem bind_of_ok {x : EStateM ε σ α} {f : α → EStateM ε σ β} {s t : σ} {a : α} (h : x s = .ok a t) :
    (x >>= f) s = f a t := by
  simp only [bind, EStateM.bind, h]

/-- The state that a computation leaves behind, whether it fails or not. -/
def after (x : EStateM ε σ α) (s : σ) : σ :=
  match x s with
  | .ok _ t => t
  | .error _ t => t

/-- A relation between the states before and after, for every outcome. -/
def Keeps (R : σ → σ → Prop) (x : EStateM ε σ α) : Prop := ∀ s, R s (x.after s)

theorem keeps_bind {R : σ → σ → Prop} (htrans : ∀ a b c, R a b → R b c → R a c) {x : EStateM ε σ α}
    {f : α → EStateM ε σ β} (hx : Keeps R x) (hf : ∀ a, Keeps R (f a)) : Keeps R (x >>= f) := by
  intro s
  have h := hx s
  simp only [after, bind, EStateM.bind] at h ⊢
  cases hs : x s with
  | ok a t =>
    rw [hs] at h
    exact htrans _ _ _ h (hf a t)
  | error e t =>
    rw [hs] at h
    exact h

theorem keeps_pure {R : σ → σ → Prop} (hrefl : ∀ a, R a a) (a : α) : Keeps R (pure a : EStateM ε σ α) := hrefl

theorem keeps_get {R : σ → σ → Prop} (hrefl : ∀ a, R a a) : Keeps R (get : EStateM ε σ σ) := hrefl

theorem keeps_modify {R : σ → σ → Prop} {f : σ → σ} (h : ∀ s, R s (f s)) :
    Keeps R (modify f : EStateM ε σ PUnit) := h

theorem pure_eq_ok {a b : α} {s s' : σ} : (pure a : EStateM ε σ α) s = .ok b s' ↔ a = b ∧ s = s' := by
  simp [pure, EStateM.pure]

end EStateM
