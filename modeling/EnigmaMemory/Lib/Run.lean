import Mathlib.Data.List.Infix
import Mathlib.Tactic.Common

/-!
# Runs of partial step functions

A system takes inputs one at a time; a step may fail. `run` is the state after a list of
inputs that all succeed.

* `run_induction`: a property of the start that every step keeps holds after a run.
* `forall_prefix_iff`: if every step from a good state ends in a good state exactly when
  the input meets a condition there, then all states of a run are good exactly when all
  its inputs meet the condition.
-/

namespace Run

variable {σ ι : Type*} (step : σ → ι → Option σ)

def run : σ → List ι → Option σ
  | s, [] => some s
  | s, i :: rest => (step s i).bind fun t => run t rest

/-- Inputs that all meet a condition, each in the state in which it is taken. -/
def All (C : σ → ι → Prop) (s : σ) (inputs : List ι) : Prop :=
  ∀ l i t, l ++ [i] <+: inputs → run step s l = some t → C t i

variable {step}

@[simp] theorem run_nil (s : σ) : run step s [] = some s := rfl

theorem run_append (s : σ) (l m : List ι) : run step s (l ++ m) = (run step s l).bind fun t => run step t m := by
  induction l generalizing s with
  | nil => rfl
  | cons i l ih =>
    simp only [List.cons_append, run]
    cases step s i with
    | none => rfl
    | some t => exact ih t

theorem run_snoc {s t : σ} {l : List ι} {i : ι} (h : run step s l = some t) : run step s (l ++ [i]) = step t i := by
  rw [run_append, h]
  simp only [Option.bind_some, run]
  cases step t i <;> rfl

theorem exists_of_run_snoc {s t : σ} {l : List ι} {i : ι} (h : run step s (l ++ [i]) = some t) :
    ∃ u, run step s l = some u ∧ step u i = some t := by
  rw [run_append] at h
  obtain ⟨u, hu, -⟩ := Option.bind_eq_some_iff.1 h
  rw [← run_append, run_snoc hu] at h
  exact ⟨u, hu, h⟩

theorem All.nil (C : σ → ι → Prop) (s : σ) : All step C s [] := by
  intro l i t hl
  exact absurd (List.prefix_nil.1 hl) (by simp)

theorem all_cons {C : σ → ι → Prop} {s t : σ} {i : ι} {rest : List ι} (hs : step s i = some t) :
    All step C s (i :: rest) ↔ C s i ∧ All step C t rest := by
  constructor
  · intro h
    refine ⟨h [] i s (by simp) rfl, ?_⟩
    intro l j u hl hu
    refine h (i :: l) j u ?_ (by rw [run, hs]; exact hu)
    rw [List.cons_append]
    exact List.cons_prefix_cons.2 ⟨rfl, hl⟩
  · rintro ⟨hi, h⟩ l j u hl hu
    cases l with
    | nil =>
      obtain rfl : j = i := (List.cons_prefix_cons.1 hl).1
      obtain rfl : s = u := Option.some.inj hu
      exact hi
    | cons k l =>
      rw [List.cons_append] at hl
      obtain ⟨hk, hl'⟩ := List.cons_prefix_cons.1 hl
      rw [run, hk, hs] at hu
      exact h l j u hl' hu

/-- The inputs behind the first ones. -/
theorem All.of_append {C : σ → ι → Prop} {s t : σ} {l m : List ι} (h : All step C s (l ++ m)) (ht : run step s l = some t) :
    All step C t m := by
  intro l' i u hl' hu
  refine h (l ++ l') i u ?_ (by rw [run_append, ht, Option.bind_some, hu])
  rw [List.append_assoc]
  exact List.prefix_append_right_inj l |>.2 hl'

/-- A condition on the inputs alone. -/
theorem all_const {P : ι → Prop} {inputs : List ι} {s t : σ} (h : run step s inputs = some t) :
    All step (fun _ i => P i) s inputs ↔ ∀ i ∈ inputs, P i := by
  constructor
  · intro hall i hi
    obtain ⟨l, m, rfl⟩ := List.append_of_mem hi
    rw [run_append] at h
    obtain ⟨u, hu, -⟩ := Option.bind_eq_some_iff.1 h
    refine hall l i u ?_ hu
    exact ⟨m, by simp⟩
  · intro hall l i t hl _
    exact hall i (hl.subset (by simp))

/-- **The invariant rule**, for steps that meet a condition. -/
theorem run_induction {I : σ → Prop} {C : σ → ι → Prop} (hstep : ∀ s i t, I s → C s i → step s i = some t → I t)
    (inputs : List ι) : ∀ s t, I s → All step C s inputs → run step s inputs = some t → I t := by
  induction inputs with
  | nil =>
    intro s t hs _ h
    exact Option.some.inj h ▸ hs
  | cons i rest ih =>
    intro s t hs hall h
    rw [run] at h
    obtain ⟨u, hu, h⟩ := Option.bind_eq_some_iff.1 h
    obtain ⟨hi, hrest⟩ := (all_cons hu).1 hall
    exact ih u t (hstep s i u hs hi hu) hrest h

/-- The invariant rule with no condition on the steps. -/
theorem run_invariant {I : σ → Prop} (hstep : ∀ s i t, I s → step s i = some t → I t) {inputs : List ι} {s t : σ}
    (hs : I s) (h : run step s inputs = some t) : I t :=
  run_induction (C := fun _ _ => True) (fun s i t hs _ h => hstep s i t hs h) inputs s t hs (fun _ _ _ _ _ => trivial) h

/-- The invariant rule for a property that also reads the inputs taken so far. -/
theorem run_history {I : List ι → σ → Prop} {s : σ} (hs : I [] s)
    (hstep : ∀ l u i w, run step s l = some u → I l u → step u i = some w → I (l ++ [i]) w) (inputs : List ι) :
    ∀ t, run step s inputs = some t → I inputs t := by
  induction inputs using List.reverseRecOn with
  | nil =>
    intro t ht
    exact Option.some.inj ht ▸ hs
  | append_singleton l i ih =>
    intro w hw
    obtain ⟨u, hu, hone⟩ := exists_of_run_snoc hw
    exact hstep l u i w hu (ih u hu) hone

/-- **All states of a run are good exactly when all its steps are.** -/
theorem forall_prefix_iff {I : σ → Prop} {C : σ → ι → Prop}
    (hstep : ∀ s i t, I s → step s i = some t → (I t ↔ C s i)) (inputs : List ι) : ∀ s t, I s →
      run step s inputs = some t →
      ((∀ l u, l <+: inputs → run step s l = some u → I u) ↔ All step C s inputs) := by
  induction inputs with
  | nil =>
    intro s t hs _
    refine iff_of_true ?_ (All.nil C s)
    intro l u hl hu
    obtain rfl := List.prefix_nil.1 hl
    exact Option.some.inj hu ▸ hs
  | cons i rest ih =>
    intro s t hs h
    obtain ⟨w, hw, h⟩ := Option.bind_eq_some_iff.1 (by rw [run] at h; exact h)
    rw [all_cons hw]
    have hone : I w ↔ C s i := hstep s i w hs hw
    constructor
    · intro hall
      have hIw : I w := hall [i] w (by simp) (by rw [run, hw]; rfl)
      refine ⟨hone.1 hIw, (ih w t hIw h).1 ?_⟩
      intro l u hl hu
      exact hall (i :: l) u (List.cons_prefix_cons.2 ⟨rfl, hl⟩) (by rw [run, hw]; exact hu)
    · rintro ⟨hi, hall⟩ l u hl hu
      cases l with
      | nil => exact Option.some.inj hu ▸ hs
      | cons j l =>
        obtain ⟨hj, hl'⟩ := List.cons_prefix_cons.1 hl
        rw [run, hj, hw] at hu
        exact (ih w t (hone.2 hi) h).2 hall l u hl' hu

/-- `forall_prefix_iff` for a property that also reads the inputs taken so far. -/
theorem forall_history_iff {I : List ι → σ → Prop} {C : σ → ι → Prop} {s t : σ} {inputs : List ι} (hs : I [] s)
    (hstep : ∀ l u i w, l ++ [i] <+: inputs → run step s l = some u → I l u → step u i = some w → (I (l ++ [i]) w ↔ C u i))
    (h : run step s inputs = some t) :
    (∀ l u, l <+: inputs → run step s l = some u → I l u) ↔ All step C s inputs := by
  constructor
  · intro hall l i u hl hu
    obtain ⟨w, hw⟩ : ∃ w, run step s (l ++ [i]) = some w := by
      obtain ⟨m, rfl⟩ := hl
      rw [run_append] at h
      obtain ⟨w, hw, -⟩ := Option.bind_eq_some_iff.1 h
      exact ⟨w, hw⟩
    have hbefore : I l u := hall l u ((List.prefix_append l [i]).trans hl) hu
    exact (hstep l u i w hl hu hbefore ((run_snoc hu).symm.trans hw)).1 (hall _ w hl hw)
  · intro hall l
    induction l using List.reverseRecOn with
    | nil =>
      intro u _ hu
      exact Option.some.inj hu ▸ hs
    | append_singleton l i ih =>
      intro w hl hw
      obtain ⟨u, hu, hone⟩ := exists_of_run_snoc hw
      exact (hstep l u i w hl hu (ih u ((List.prefix_append l [i]).trans hl) hu) hone).2 (hall l i u hl hu)

end Run
