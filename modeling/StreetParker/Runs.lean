import Mathlib

/-!
# StreetParker.Runs

Machines with a partial step function `step : σ → ε → Option σ`: an event
that is not enabled in a state has no successor.  Nothing here names the
application; the module is the induction that every run-level result of the
development goes through.

* `run` — the state after a list of events, if every one of them was enabled;
* `Meets` — every event of the run meets a condition on the state before it;
* `inv_of_run` — an invariant kept by the steps that meet the condition holds
  at the end of every run whose steps all meet it;
* `countP_le_of_run` — a potential bounds how often a run can spend;
* `rel_of_run` — a reflexive and transitive relation between the states
  before and after a step relates the ends of a run.
-/

namespace Runs

variable {σ ε : Type*} (step : σ → ε → Option σ)

/-- The state after a list of events. -/
def run : σ → List ε → Option σ
  | s, [] => some s
  | s, e :: es => match step s e with
    | some s' => run s' es
    | none => none

/-- Every event of the run meets the condition `C` on the state before it. -/
def Meets (C : σ → ε → Prop) : σ → List ε → Prop
  | _, [] => True
  | s, e :: es => C s e ∧ match step s e with
    | some s' => Meets C s' es
    | none => True

instance decidableMeets (C : σ → ε → Prop) [∀ s e, Decidable (C s e)] :
    (s : σ) → (es : List ε) → Decidable (Meets step C s es)
  | _, [] => inferInstanceAs (Decidable True)
  | s, e :: es => by
      unfold Meets
      cases step s e with
      | none => exact inferInstance
      | some s' =>
          have := decidableMeets C s' es
          exact inferInstance

variable {step}

theorem run_cons_of_step {s s' : σ} {e : ε} (h : step s e = some s') (es : List ε) :
    run step s (e :: es) = run step s' es := by
  simp only [run, h]

/-- The first step of a non-empty run, and the run that is left. -/
theorem run_cons {s t : σ} {e : ε} {es : List ε} (h : run step s (e :: es) = some t) :
    ∃ s', step s e = some s' ∧ run step s' es = some t := by
  cases hs : step s e with
  | none => simp only [run, hs] at h; contradiction
  | some s' => exact ⟨s', rfl, by rwa [run_cons_of_step hs] at h⟩

/-- Two runs, one after the other. -/
theorem run_append {s m t : σ} {es es' : List ε} (h : run step s es = some m)
    (h' : run step m es' = some t) : run step s (es ++ es') = some t := by
  induction es generalizing s with
  | nil => cases h; exact h'
  | cons e es ih =>
      obtain ⟨s', hs, hr⟩ := run_cons h
      rw [List.cons_append, run_cons_of_step hs]
      exact ih hr

/-- A run in two parts. -/
theorem exists_of_run_append {s t : σ} {es es' : List ε} (h : run step s (es ++ es') = some t) :
    ∃ m, run step s es = some m ∧ run step m es' = some t := by
  induction es generalizing s with
  | nil => exact ⟨s, rfl, h⟩
  | cons e es ih =>
      obtain ⟨s', hs, hr⟩ := run_cons h
      obtain ⟨m, hm, hr'⟩ := ih hr
      exact ⟨m, by rw [run_cons_of_step hs, hm], hr'⟩

/-- What is left of a condition on a run after its first step. -/
theorem Meets.tail {C : σ → ε → Prop} {s s' : σ} {e : ε} {es : List ε}
    (h : Meets step C s (e :: es)) (hs : step s e = some s') : Meets step C s' es := by
  have h' := h.2
  rwa [hs] at h'

/-- A weaker condition is met by the same runs. -/
theorem Meets.mono {C C' : σ → ε → Prop} (hC : ∀ s e, C s e → C' s e) {s : σ} {es : List ε}
    (h : Meets step C s es) : Meets step C' s es := by
  induction es generalizing s with
  | nil => trivial
  | cons e es ih =>
      refine ⟨hC s e h.1, ?_⟩
      cases hs : step s e with
      | none => trivial
      | some s' => exact ih (h.tail hs)

/-- Two conditions at once. -/
theorem Meets.and {C C' : σ → ε → Prop} {s : σ} {es : List ε} (h : Meets step C s es)
    (h' : Meets step C' s es) : Meets step (fun s e => C s e ∧ C' s e) s es := by
  induction es generalizing s with
  | nil => trivial
  | cons e es ih =>
      refine ⟨⟨h.1, h'.1⟩, ?_⟩
      cases hs : step s e with
      | none => trivial
      | some s' => exact ih (h.tail hs) (h'.tail hs)

/-- A condition on the events alone. -/
theorem meets_of_forall {E : ε → Prop} {es : List ε} (h : ∀ e ∈ es, E e) (s : σ) :
    Meets step (fun _ e => E e) s es := by
  induction es generalizing s with
  | nil => trivial
  | cons e es ih =>
      obtain ⟨he, hes⟩ := List.forall_mem_cons.mp h
      refine ⟨he, ?_⟩
      cases step s e with
      | none => trivial
      | some s' => exact ih hes s'

/-- What the condition says of the events holds of all of them. -/
theorem forall_of_meets {C : σ → ε → Prop} {E : ε → Prop} (hC : ∀ s e, C s e → E e) {s t : σ}
    {es : List ε} (h : run step s es = some t) (hm : Meets step C s es) : ∀ e ∈ es, E e := by
  induction es generalizing s with
  | nil => exact fun e he => absurd he List.not_mem_nil
  | cons e es ih =>
      obtain ⟨s', hs, hr⟩ := run_cons h
      exact List.forall_mem_cons.mpr ⟨hC s e hm.1, ih hr (hm.tail hs)⟩

/-- **Invariant rule**: what a step that meets `C` keeps, a run whose steps all
meet `C` keeps. -/
theorem inv_of_run {C : σ → ε → Prop} {P : σ → Prop}
    (hstep : ∀ s e s', P s → C s e → step s e = some s' → P s') {s t : σ} {es : List ε}
    (h : run step s es = some t) (hC : Meets step C s es) (hP : P s) : P t := by
  induction es generalizing s with
  | nil => cases h; exact hP
  | cons e es ih =>
      obtain ⟨s', hs, hr⟩ := run_cons h
      exact ih hr (hC.tail hs) (hstep s e s' hP hC.1 hs)

/-- The invariant rule without a condition on the steps. -/
theorem inv_of_run' {P : σ → Prop} (hstep : ∀ s e s', P s → step s e = some s' → P s')
    {s t : σ} {es : List ε} (h : run step s es = some t) (hP : P s) : P t := by
  induction es generalizing s with
  | nil => cases h; exact hP
  | cons e es ih =>
      obtain ⟨s', hs, hr⟩ := run_cons h
      exact ih hr (hstep s e s' hP hs)

/-- **Potential rule**: if every spending step takes from a potential `m` to which
no step adds more than `n`, and that only a gaining one, the spending steps of
a run are bounded by what was there and what was gained. -/
theorem countP_le_of_run {spends gains : ε → Bool} {n : ℕ} {m : σ → ℕ}
    (hstep : ∀ s e s', step s e = some s' →
      m s' + (if spends e then 1 else 0) ≤ m s + if gains e then n else 0)
    {s t : σ} {es : List ε} (h : run step s es = some t) :
    es.countP spends + m t ≤ m s + n * es.countP gains := by
  induction es generalizing s with
  | nil => cases h; simp
  | cons e es ih =>
      obtain ⟨s', hs, hr⟩ := run_cons h
      have hfirst := hstep s e s' hs
      have hrest := ih hr
      rw [List.countP_cons, List.countP_cons, Nat.mul_add, mul_ite, mul_one, mul_zero]
      omega

/-- **Two-state rule**: a reflexive and transitive relation kept by every step
relates the two ends of a run. -/
theorem rel_of_run {R : σ → σ → Prop} (hrefl : ∀ s, R s s)
    (htrans : ∀ s m t, R s m → R m t → R s t)
    (hstep : ∀ s e s', step s e = some s' → R s s') {s t : σ} {es : List ε}
    (h : run step s es = some t) : R s t := by
  induction es generalizing s with
  | nil => cases h; exact hrefl _
  | cons e es ih =>
      obtain ⟨s', hs, hr⟩ := run_cons h
      exact htrans s s' t (hstep s e s' hs) (ih hr)

end Runs
