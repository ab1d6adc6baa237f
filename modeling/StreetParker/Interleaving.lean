import Mathlib

/-!
# StreetParker.Interleaving

Programs of many clients run one operation at a time.  A schedule is a list
of `(client, operation)` pairs; it interleaves the clients' programs when
picking out one client's operations gives that client's program.  The module
names nothing of the application.

* `view_exec` — what one client's view of the state ends up as depends only on
  that client's operations, if the others do not touch it;
* `exec_refines` — a schedule of concrete operations is simulated by the same
  schedule of abstract ones, given an invariant that may look at what is still
  to be run;
* `interleaves_serial` — running the clients one after another is one of the
  interleavings.
-/

namespace Interleaving

variable {ι α σ τ : Type*}

/-! ## schedules -/

/-- Run a schedule. -/
def exec (act : ι → α → σ → σ) (l : List (ι × α)) (s : σ) : σ :=
  l.foldl (fun s p => act p.1 p.2 s) s

@[simp] theorem exec_cons (act : ι → α → σ → σ) (p : ι × α) (l : List (ι × α)) (s : σ) :
    exec act (p :: l) s = exec act l (act p.1 p.2 s) := rfl

section Programs

variable [DecidableEq ι]

/-- The operations of client `i` in a schedule, in order. -/
def ofClient (i : ι) (l : List (ι × α)) : List α :=
  l.filterMap fun p => if p.1 = i then some p.2 else none

/-- A schedule of the programs `prog`: each client's operations in program
order, and nothing else. -/
def Interleaves (prog : ι → List α) (l : List (ι × α)) : Prop :=
  ∀ i, ofClient i l = prog i

/-- The clients one after another. -/
def serial (prog : ι → List α) (order : List ι) : List (ι × α) :=
  order.flatMap fun i => (prog i).map fun a => (i, a)

theorem ofClient_append (i : ι) (l l' : List (ι × α)) :
    ofClient i (l ++ l') = ofClient i l ++ ofClient i l' := by
  simp [ofClient]

theorem ofClient_cons_self (i : ι) (a : α) (l : List (ι × α)) :
    ofClient i ((i, a) :: l) = a :: ofClient i l := by
  simp [ofClient]

theorem ofClient_cons_of_ne {i j : ι} (h : j ≠ i) (a : α) (l : List (ι × α)) :
    ofClient i ((j, a) :: l) = ofClient i l := by
  simp [ofClient, h]

theorem ofClient_map_self (i : ι) (as : List α) :
    ofClient i (as.map fun a => (i, a)) = as := by
  induction as with
  | nil => rfl
  | cons a as ih => rw [List.map_cons, ofClient_cons_self, ih]

theorem ofClient_map_of_ne {i j : ι} (h : j ≠ i) (as : List α) :
    ofClient i (as.map fun a => (j, a)) = [] := by
  induction as with
  | nil => rfl
  | cons a as ih => rw [List.map_cons, ofClient_cons_of_ne h, ih]

theorem ofClient_serial_of_not_mem (prog : ι → List α) {i : ι} {order : List ι}
    (h : i ∉ order) : ofClient i (serial prog order) = [] := by
  induction order with
  | nil => rfl
  | cons j order ih =>
      simp only [List.mem_cons, not_or] at h
      rw [serial, List.flatMap_cons, ofClient_append, ofClient_map_of_ne (Ne.symm h.1)]
      exact ih h.2

/-- One client after another is an interleaving, in whatever order the clients
come. -/
theorem interleaves_serial (prog : ι → List α) {order : List ι} (hnd : order.Nodup)
    (hall : ∀ i, prog i ≠ [] → i ∈ order) : Interleaves prog (serial prog order) := by
  intro i
  by_cases hi : i ∈ order
  · clear hall
    induction order with
    | nil => exact absurd hi List.not_mem_nil
    | cons j order ih =>
        obtain ⟨hj, hnd⟩ := List.nodup_cons.mp hnd
        rw [serial, List.flatMap_cons, ofClient_append]
        by_cases hji : j = i
        · subst hji
          rw [ofClient_map_self, ← serial, ofClient_serial_of_not_mem prog hj,
            List.append_nil]
        · rw [ofClient_map_of_ne hji, List.nil_append]
          refine ih hnd ?_
          exact (List.mem_cons.mp hi).resolve_left fun h => hji h.symm
  · rw [ofClient_serial_of_not_mem prog hi]
    by_contra hne
    exact hi (hall i fun h => hne h.symm)

/-- **View rule**: a part of the state that only client `i` touches ends up as
`i`'s own operations leave it. -/
theorem view_exec {act : ι → α → σ → σ} {V : σ → τ} {F : α → τ → τ} {i : ι}
    (hown : ∀ a s, V (act i a s) = F a (V s))
    (hother : ∀ j a s, j ≠ i → V (act j a s) = V s) (l : List (ι × α)) (s : σ) :
    V (exec act l s) = (ofClient i l).foldl (fun v a => F a v) (V s) := by
  induction l generalizing s with
  | nil => rfl
  | cons p l ih =>
      obtain ⟨j, a⟩ := p
      rw [exec_cons, ih]
      by_cases hj : j = i
      · subst hj
        rw [ofClient_cons_self, List.foldl_cons, hown]
      · rw [ofClient_cons_of_ne hj, hother j a s hj]

end Programs

/-- **Refinement rule**: if, under an invariant of the state and the rest of
the schedule, every concrete operation does to the abstraction what the
abstract operation does, the whole schedule does. -/
theorem exec_refines {act : ι → α → σ → σ} {abs : σ → τ} {absAct : ι → α → τ → τ}
    {I : List (ι × α) → σ → Prop}
    (hstep : ∀ i a l s, I ((i, a) :: l) s →
      abs (act i a s) = absAct i a (abs s) ∧ I l (act i a s))
    {l : List (ι × α)} {s : σ} (h : I l s) :
    abs (exec act l s) = exec absAct l (abs s) ∧ I [] (exec act l s) := by
  induction l generalizing s with
  | nil => exact ⟨rfl, h⟩
  | cons p l ih =>
      obtain ⟨i, a⟩ := p
      obtain ⟨habs, hinv⟩ := hstep i a l s h
      rw [exec_cons, exec_cons, ← habs]
      exact ih hinv

end Interleaving
