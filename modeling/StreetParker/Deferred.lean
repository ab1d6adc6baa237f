import StreetParker.Runs

/-!
# StreetParker.Deferred

Queues of deferred blocks.  A block runs at once when nothing is queued, and
else when the block before it is done; a block is done when its completion has
run, which may be at once or at any time later.  A block may also be called
without being queued, and its completion takes a block off the queue all the
same.  Nothing here names the application.

* `ranQueued_append_pending` — blocks run once each and in the order in which
  they were queued, whatever else is called and whenever completions come;
* `Orderly` — the uses in which no two blocks overlap;
* `Serial`, `serial_of_run` — an orderly run comes to the state that the same
  blocks, run one after the other, come to.
-/

namespace Deferred

/-- Where a block that has been run stops. -/
inductive Stop (κ : Type*) where
  /-- Its completion runs before it returns. -/
  | now (completion : κ)
  /-- Its completion was handed on, to be run later. -/
  | later (completion : κ)
  /-- It has no completion: someone else has to take it off the queue. -/
  | held

/-- What blocks, completions and other actions do to the state. -/
structure Blocks (σ β κ α : Type*) where
  run : β → σ → σ × Stop κ
  complete : κ → σ → σ
  act : α → σ → σ

/-- What was run: a block of the queue, a block called directly, an action. -/
inductive Ran (β α : Type*) where
  | queued (block : β)
  | called (block : β)
  | acted (action : α)

/-- The state, the queue (its head is the block in progress), the completions
that have not run, and a record of everything that was run. -/
structure Queue (σ β κ α : Type*) where
  state : σ
  queue : List β
  inFlight : List κ
  history : List (Ran β α)

/-- What can be done with a queue. -/
inductive Op (β α : Type*) where
  | enqueue (block : β)
  | dequeue
  | call (block : β)
  | act (action : α)
  | finish (i : Nat)

variable {σ β κ α : Type*}

/-- What is queued or called with an operation. -/
def Op.block : Op β α → Option β
  | .enqueue b => some b
  | .dequeue => none
  | .call b => some b
  | .act _ => none
  | .finish _ => none

/-- The queue with `r` added to its record. -/
def Queue.log (r : Ran β α) (m : Queue σ β κ α) : Queue σ β κ α :=
  { m with history := m.history ++ [r] }

namespace Blocks

variable (B : Blocks σ β κ α)

/-! ## running blocks -/

/-- Runs the blocks of `queue` from its head, until one is not done at once. -/
def drive : List β → Queue σ β κ α → Queue σ β κ α
  | [], m => { m with queue := [] }
  | b :: queue, m =>
      match B.run b m.state with
      | (s, .now c) => drive queue { m.log (.queued b) with state := B.complete c s }
      | (s, .later c) =>
          { m.log (.queued b) with
            state := s, queue := b :: queue, inFlight := m.inFlight ++ [c] }
      | (s, .held) => { m.log (.queued b) with state := s, queue := b :: queue }

/-- Takes the head off the queue and runs the next block, if there is one. -/
def dequeue (m : Queue σ β κ α) : Queue σ β κ α := B.drive m.queue.tail m

/-- Defers a block until the queue is empty, or runs it right away. -/
def enqueue (b : β) (m : Queue σ β κ α) : Queue σ β κ α :=
  match m.queue with
  | [] => B.drive [b] m
  | _ :: _ => { m with queue := m.queue ++ [b] }

/-- Runs a block that is not in the queue; its completion dequeues. -/
def call (b : β) (m : Queue σ β κ α) : Queue σ β κ α :=
  match B.run b m.state with
  | (s, .now c) => B.dequeue { m.log (.called b) with state := B.complete c s }
  | (s, .later c) => { m.log (.called b) with state := s, inFlight := m.inFlight ++ [c] }
  | (s, .held) => { m.log (.called b) with state := s }

/-- Runs a completion that is in flight. -/
def finish (i : Nat) (m : Queue σ β κ α) : Option (Queue σ β κ α) :=
  m.inFlight[i]?.map fun c =>
    B.dequeue { m with state := B.complete c m.state, inFlight := m.inFlight.eraseIdx i }

def exec (m : Queue σ β κ α) : Op β α → Option (Queue σ β κ α)
  | .enqueue b => some (B.enqueue b m)
  | .dequeue => some (B.dequeue m)
  | .call b => some (B.call b m)
  | .act a => some { m.log (.acted a) with state := B.act a m.state }
  | .finish i => B.finish i m

/-! ## first in, first out -/

/-- The blocks of the queue that have been run. -/
def ranQueued (m : Queue σ β κ α) : List β :=
  m.history.filterMap fun
    | .queued b => some b
    | .called _ => none
    | .acted _ => none

/-- The blocks that were queued by a list of operations. -/
def enqueued (ops : List (Op β α)) : List β :=
  ops.filterMap fun
    | .enqueue b => some b
    | .dequeue => none
    | .call _ => none
    | .act _ => none
    | .finish _ => none

theorem ranQueued_drive (queue : List β) (m : Queue σ β κ α) :
    ranQueued (B.drive queue m) ++ (B.drive queue m).queue.tail = ranQueued m ++ queue := by
  induction queue generalizing m with
  | nil => simp [drive, ranQueued]
  | cons b queue ih =>
      unfold drive
      split
      · rw [ih]
        simp [ranQueued, Queue.log]
      · simp [ranQueued, Queue.log]
      · simp [ranQueued, Queue.log]

theorem ranQueued_call (b : β) (m : Queue σ β κ α) :
    ranQueued (B.call b m) ++ (B.call b m).queue.tail = ranQueued m ++ m.queue.tail := by
  unfold call
  split
  · rw [dequeue, ranQueued_drive]
    simp [ranQueued, Queue.log]
  · simp [ranQueued, Queue.log]
  · simp [ranQueued, Queue.log]

/-- What one operation adds to the blocks that were or will be run. -/
theorem ranQueued_exec {m m' : Queue σ β κ α} {o : Op β α} (h : B.exec m o = some m') :
    ranQueued m' ++ m'.queue.tail = ranQueued m ++ m.queue.tail ++ enqueued [o] := by
  cases o with
  | enqueue b =>
      cases h
      unfold enqueue
      split
      · next hq => simp [ranQueued_drive, hq, enqueued]
      · next hq => simp [hq, enqueued, ranQueued]
  | dequeue =>
      cases h
      simp [dequeue, ranQueued_drive, enqueued]
  | call b =>
      cases h
      simp [ranQueued_call, enqueued]
  | act a =>
      cases h
      simp [ranQueued, Queue.log, enqueued]
  | finish i =>
      obtain ⟨c, -, rfl⟩ := Option.map_eq_some_iff.mp h
      rw [dequeue, ranQueued_drive]
      simp [enqueued, ranQueued]

/-- **First in, first out**: the blocks run so far and those that wait are the
blocks that were queued, once each and in order. -/
theorem ranQueued_append_pending {m m' : Queue σ β κ α} {ops : List (Op β α)}
    (h : Runs.run B.exec m ops = some m') :
    ranQueued m' ++ m'.queue.tail = ranQueued m ++ m.queue.tail ++ enqueued ops := by
  induction ops generalizing m with
  | nil => cases h; simp [enqueued]
  | cons o ops ih =>
      obtain ⟨s, hs, hr⟩ := Runs.run_cons h
      rw [ih hr, ranQueued_exec B hs]
      simp only [enqueued, List.append_assoc, ← List.filterMap_append, List.singleton_append]

theorem acted_mem_drive {a : α} (queue : List β) (m : Queue σ β κ α) :
    .acted a ∈ (B.drive queue m).history ↔ .acted a ∈ m.history := by
  induction queue generalizing m with
  | nil => rfl
  | cons b queue ih =>
      unfold drive
      split
      · rw [ih]
        simp [Queue.log]
      · simp [Queue.log]
      · simp [Queue.log]

/-- Only an action is recorded as one. -/
theorem acted_mem_exec {m m' : Queue σ β κ α} {o : Op β α} {a : α} (hop : o ≠ .act a)
    (h : B.exec m o = some m') : .acted a ∈ m'.history ↔ .acted a ∈ m.history := by
  cases o with
  | enqueue b =>
      cases h
      unfold enqueue
      split
      · exact acted_mem_drive B _ _
      · rfl
  | dequeue =>
      cases h
      exact acted_mem_drive B _ _
  | call b =>
      cases h
      unfold call
      split
      · rw [dequeue, acted_mem_drive]
        simp [Queue.log]
      · simp [Queue.log]
      · simp [Queue.log]
  | act a' =>
      cases h
      have ha : a ≠ a' := fun ha => hop (ha ▸ rfl)
      simp [Queue.log, ha]
  | finish i =>
      obtain ⟨c, -, rfl⟩ := Option.map_eq_some_iff.mp h
      exact acted_mem_drive B _ _

theorem acted_mem_run {m m' : Queue σ β κ α} {ops : List (Op β α)} {a : α}
    (hops : ∀ o ∈ ops, o ≠ .act a) (h : Runs.run B.exec m ops = some m') :
    .acted a ∈ m'.history ↔ .acted a ∈ m.history := by
  induction ops generalizing m with
  | nil => cases h; rfl
  | cons o ops ih =>
      obtain ⟨hop, hops⟩ := List.forall_mem_cons.mp hops
      obtain ⟨s, hs, hr⟩ := Runs.run_cons h
      rw [ih hops hr, acted_mem_exec B hop hs]

/-! ## orderly use -/

/-- A block with its completion. -/
def once (b : β) (s : σ) : σ :=
  match B.run b s with
  | (s, .now c) => B.complete c s
  | (s, .later c) => B.complete c s
  | (s, .held) => s

/-- What is recorded, with each block done at once. -/
def replay (s : σ) : Ran β α → σ
  | .queued b => B.once b s
  | .called b => B.once b s
  | .acted a => B.act a s

/-- The state once the completions in flight have run. -/
def outcome (m : Queue σ β κ α) : σ := m.inFlight.foldl (fun s c => B.complete c s) m.state

/-- No two blocks overlap: an empty queue with a completion in flight takes no
block, nothing is called or dequeued while a completion is in flight, and what
is done meanwhile does not get in its way. -/
def Orderly (m : Queue σ β κ α) : Op β α → Prop
  | .enqueue _ => m.queue = [] → m.inFlight = []
  | .dequeue => m.inFlight = []
  | .call _ => m.inFlight = []
  | .act a => ∀ c ∈ m.inFlight, ∀ s, B.complete c (B.act a s) = B.act a (B.complete c s)
  | .finish _ => True

variable {B} {m m' : Queue σ β κ α}

theorem outcome_of_idle (hf : m.inFlight = []) : B.outcome m = m.state := by
  simp [outcome, hf]

/-- What is done while a completion is in flight can as well be done after it. -/
theorem outcome_act {a : α} (ha : B.Orderly m (.act a)) :
    B.outcome { m.log (.acted a) with state := B.act a m.state } = B.act a (B.outcome m) := by
  simp only [outcome, Queue.log]
  generalize m.state = s
  revert ha
  unfold Orderly
  induction m.inFlight generalizing s with
  | nil => exact fun _ => rfl
  | cons c inFlight ih =>
      intro ha
      obtain ⟨hc, hcs⟩ := List.forall_mem_cons.mp ha
      rw [List.foldl_cons, List.foldl_cons, hc, ih _ hcs]

theorem inFlight_drive (hf : m.inFlight = []) (queue : List β) :
    (B.drive queue m).inFlight.length ≤ 1 := by
  induction queue generalizing m with
  | nil => simp [drive, hf]
  | cons b queue ih =>
      unfold drive
      split
      · exact ih hf
      · simp [hf]
      · simp [hf, Queue.log]

/-- A completion that comes is the only one there is. -/
theorem inFlight_eq (hl : m.inFlight.length ≤ 1) {i : Nat} {c : κ} (hc : m.inFlight[i]? = some c) :
    m.inFlight = [c] ∧ m.inFlight.eraseIdx i = [] := by
  obtain ⟨hlt, hd⟩ := List.getElem?_eq_some_iff.mp hc
  obtain ⟨d, hf⟩ := List.length_eq_one_iff.mp (le_antisymm hl (by omega))
  have h0 : i = 0 := by simpa [hf] using hlt
  subst h0
  have hd : d = c := by simpa [hf] using hd
  simp [hf, hd]

/-- In orderly use at most one completion is in flight. -/
theorem inFlight_exec {o : Op β α} (hl : m.inFlight.length ≤ 1) (hop : B.Orderly m o)
    (h : B.exec m o = some m') : m'.inFlight.length ≤ 1 := by
  cases o with
  | enqueue b =>
      cases h
      unfold enqueue
      split
      · next hq => exact inFlight_drive (hop hq) _
      · exact hl
  | dequeue =>
      cases h
      exact inFlight_drive hop _
  | call b =>
      cases h
      unfold call
      split
      · exact inFlight_drive (m := { m.log _ with state := _ }) hop _
      · simp [show m.inFlight = [] from hop]
      · exact hl
  | act a =>
      cases h
      exact hl
  | finish i =>
      obtain ⟨c, hc, rfl⟩ := Option.map_eq_some_iff.mp h
      exact inFlight_drive (inFlight_eq hl hc).2 _

/-! ## invariants -/

/-- `J`, about the outcome, the record and the blocks that wait. -/
def Holds (B : Blocks σ β κ α) (J : σ → List (Ran β α) → List β → Prop) (m : Queue σ β κ α) :
    Prop :=
  J (B.outcome m) m.history m.queue.tail

/-- `J` is kept when the first of the blocks that wait is run. -/
def Keeps (B : Blocks σ β κ α) (J : σ → List (Ran β α) → List β → Prop) : Prop :=
  ∀ b queue s history, J s history (b :: queue) → J (B.once b s) (history ++ [.queued b]) queue

/-- What an operation must keep by itself for `J` to be kept. -/
def Admits (B : Blocks σ β κ α) (J : σ → List (Ran β α) → List β → Prop) (m : Queue σ β κ α) :
    Op β α → Prop
  | .enqueue b => J (B.outcome m) m.history (m.queue.tail ++ [b])
  | .dequeue => True
  | .call b => J (B.once b (B.outcome m)) (m.history ++ [.called b]) m.queue.tail
  | .act a => J (B.act a (B.outcome m)) (m.history ++ [.acted a]) m.queue.tail
  | .finish _ => True

variable {J : σ → List (Ran β α) → List β → Prop}

theorem Keeps.drive (hJ : B.Keeps J) (hf : m.inFlight = []) {queue : List β}
    (h : J m.state m.history queue) : B.Holds J (B.drive queue m) := by
  induction queue generalizing m with
  | nil => simpa [Holds, Blocks.drive, Blocks.outcome, hf] using h
  | cons b queue ih =>
      have hn := hJ b queue m.state m.history h
      unfold Blocks.drive
      split
      · next s c hb => exact ih hf (by simpa [once, hb, Queue.log] using hn)
      · next s c hb => simpa [Holds, Blocks.outcome, hf, Queue.log, once, hb] using hn
      · next s hb => simpa [Holds, Blocks.outcome, hf, Queue.log, once, hb] using hn

theorem Keeps.call (hJ : B.Keeps J) (hf : m.inFlight = []) {b : β}
    (h : J (B.once b m.state) (m.history ++ [.called b]) m.queue.tail) :
    B.Holds J (B.call b m) := by
  unfold Blocks.call
  split
  · next s c hb =>
    refine hJ.drive (m := { m.log (.called b) with state := B.complete c s }) hf ?_
    simpa [once, hb, Queue.log] using h
  · next s c hb => simpa [Holds, Blocks.outcome, hf, Queue.log, once, hb] using h
  · next s hb => simpa [Holds, Blocks.outcome, hf, Queue.log, once, hb] using h

/-- **Step rule**: an orderly operation that admits `J` keeps it. -/
theorem Keeps.exec (hJ : B.Keeps J) {o : Op β α} (hl : m.inFlight.length ≤ 1)
    (hop : B.Orderly m o) (ha : B.Holds J m → B.Admits J m o) (h : B.exec m o = some m')
    (hm : B.Holds J m) : B.Holds J m' := by
  have ha := ha hm
  cases o with
  | enqueue b =>
      cases h
      unfold Blocks.enqueue
      split
      · next hq =>
        refine hJ.drive (hop hq) ?_
        simpa [Admits, hq, outcome_of_idle (hop hq)] using ha
      · next b' queue hq => simpa [Holds, Admits, hq, Blocks.outcome] using ha
  | dequeue =>
      cases h
      refine hJ.drive hop ?_
      rwa [Holds, outcome_of_idle hop] at hm
  | call b =>
      cases h
      refine hJ.call hop ?_
      rwa [Admits, outcome_of_idle hop] at ha
  | act a =>
      cases h
      rw [Holds, outcome_act hop]
      exact ha
  | finish i =>
      obtain ⟨c, hc, rfl⟩ := Option.map_eq_some_iff.mp h
      obtain ⟨hf, hi⟩ := inFlight_eq hl hc
      refine hJ.drive hi ?_
      simpa [Holds, Blocks.outcome, hf] using hm

/-- **Run rule** for invariants of queued blocks. -/
theorem Keeps.run (hJ : B.Keeps J) {ops : List (Op β α)} (h : Runs.run B.exec m ops = some m')
    (hops : Runs.Meets B.exec (fun m o => B.Orderly m o ∧ (B.Holds J m → B.Admits J m o)) m ops)
    (hl : m.inFlight.length ≤ 1) (hm : B.Holds J m) :
    m'.inFlight.length ≤ 1 ∧ B.Holds J m' := by
  refine Runs.inv_of_run (P := fun m => m.inFlight.length ≤ 1 ∧ B.Holds J m) ?_ h hops ⟨hl, hm⟩
  intro m o m' hs hop h
  exact ⟨inFlight_exec hs.1 hop.1 h, hJ.exec hs.1 hop.1 hop.2 h hs.2⟩

/-- What a block keeps it also keeps before further blocks. -/
theorem Keeps.append (hJ : B.Keeps J) (rest : List β) :
    B.Keeps fun s history queue => J s history (queue ++ rest) :=
  fun b queue s history h => hJ b (queue ++ rest) s history h

/-- Nothing is in flight when nothing is queued. -/
def Undisturbed (m : Queue σ β κ α) : Prop := m.queue = [] → m.inFlight = []

theorem undisturbed_drive (hf : m.inFlight = []) (queue : List β) :
    Undisturbed (B.drive queue m) := by
  induction queue generalizing m with
  | nil => exact fun _ => hf
  | cons b queue ih =>
      unfold drive
      split
      · exact ih hf
      · exact fun h => absurd h (List.cons_ne_nil _ _)
      · exact fun h => absurd h (List.cons_ne_nil _ _)

theorem undisturbed_enqueue (hu : Undisturbed m) (b : β) : Undisturbed (B.enqueue b m) := by
  unfold enqueue
  split
  · next hq => exact undisturbed_drive (hu hq) _
  · exact fun h => absurd h (by simp)

theorem orderly_enqueueAll (hu : Undisturbed m) (blocks : List β) :
    Runs.Meets B.exec B.Orderly m (blocks.map .enqueue) := by
  induction blocks generalizing m with
  | nil => trivial
  | cons b blocks ih => exact ⟨hu, ih (undisturbed_enqueue hu b)⟩

/-- **Queueing several blocks** keeps `J` when it holds with all of them waiting. -/
theorem Keeps.enqueueAll (hJ : B.Keeps J) {blocks : List β} (hl : m.inFlight.length ≤ 1)
    (hu : Undisturbed m) (hm : J (B.outcome m) m.history (m.queue.tail ++ blocks))
    (h : Runs.run B.exec m (blocks.map .enqueue) = some m') :
    m'.inFlight.length ≤ 1 ∧ Undisturbed m' ∧ B.Holds J m' := by
  induction blocks generalizing m with
  | nil =>
      cases h
      exact ⟨hl, hu, by simpa [Holds] using hm⟩
  | cons b blocks ih =>
      obtain ⟨m₁, hm₁, hr⟩ := Runs.run_cons h
      have hop : B.Orderly m (.enqueue b) := hu
      have hl₁ := inFlight_exec hl hop hm₁
      cases hm₁
      refine ih hl₁ (undisturbed_enqueue hu b) ?_ hr
      unfold enqueue
      split
      · next hq =>
        refine (hJ.append blocks).drive (hu hq) ?_
        simpa [hq, outcome_of_idle (hu hq)] using hm
      · next b' queue hq => simpa [hq, Blocks.outcome] using hm

/-- Behind a block in progress blocks only wait. -/
theorem enqueueAll_of_busy {blocks : List β} (hq : m.queue ≠ []) :
    Runs.run B.exec m (blocks.map .enqueue) = some { m with queue := m.queue ++ blocks } := by
  induction blocks generalizing m with
  | nil => simp [Runs.run]
  | cons b blocks ih =>
      have hb : B.exec m (.enqueue b) = some { m with queue := m.queue ++ [b] } := by
        show some (B.enqueue b m) = _
        unfold enqueue
        split
        · next hq' => exact absurd hq' hq
        · rfl
      rw [List.map_cons, Runs.run_cons_of_step hb, ih (by simp)]
      simp

/-- **Calling blocks that are done at once**, with nothing queued. -/
theorem callAll {blocks : List β} (hq : m.queue = []) (hf : m.inFlight = [])
    (hnow : ∀ b ∈ blocks, ∀ s, ∃ s' c, B.run b s = (s', .now c))
    (h : Runs.run B.exec m (blocks.map .call) = some m') :
    m'.queue = [] ∧ m'.inFlight = [] ∧
      m'.state = blocks.foldl (fun s b => B.once b s) m.state ∧
      m'.history = m.history ++ blocks.map .called := by
  induction blocks generalizing m with
  | nil =>
      cases h
      exact ⟨hq, hf, rfl, by simp⟩
  | cons b blocks ih =>
      obtain ⟨hb, hblocks⟩ := List.forall_mem_cons.mp hnow
      obtain ⟨m₁, hm₁, hr⟩ := Runs.run_cons h
      obtain ⟨s', c, hs'⟩ := hb m.state
      have h₁ : m₁.queue = [] ∧ m₁.inFlight = [] ∧ m₁.state = B.once b m.state ∧
          m₁.history = m.history ++ [.called b] := by
        cases hm₁
        simp [call, hs', dequeue, drive, Queue.log, hq, hf, once]
      obtain ⟨hq₁, hf₁, hs₁, hh₁⟩ := h₁
      obtain ⟨h₁, h₂, h₃, h₄⟩ := ih hq₁ hf₁ hblocks hr
      exact ⟨h₁, h₂, by rw [h₃, hs₁, List.foldl_cons], by simp [h₄, hh₁]⟩

theorem orderly_callAll {blocks : List β} (hf : m.inFlight = [])
    (hnow : ∀ b ∈ blocks, ∀ s, ∃ s' c, B.run b s = (s', .now c)) (hq : m.queue = []) :
    Runs.Meets B.exec B.Orderly m (blocks.map .call) := by
  induction blocks generalizing m with
  | nil => trivial
  | cons b blocks ih =>
      obtain ⟨hb, hblocks⟩ := List.forall_mem_cons.mp hnow
      obtain ⟨s', c, hs'⟩ := hb m.state
      refine ⟨hf, ih ?_ hblocks ?_⟩
      · simp [call, hs', dequeue, drive, Queue.log, hq, hf]
      · simp [call, hs', dequeue, drive, Queue.log, hq]

/-! ## the state and the blocks that wait -/

/-- `P` of the state, and `Q` of the blocks of the queue. -/
def Steady (P : σ → Prop) (Q : β → Prop) (m : Queue σ β κ α) : Prop :=
  P m.state ∧ ∀ b ∈ m.queue, Q b

/-- What an operation must keep by itself for `P` and `Q` to be kept. -/
def Suits (B : Blocks σ β κ α) (P : σ → Prop) (Q : β → Prop) (m : Queue σ β κ α) :
    Op β α → Prop
  | .enqueue b => Q b
  | .dequeue => True
  | .call b => P (B.run b m.state).1
  | .act a => P (B.act a m.state)
  | .finish _ => True

section

variable {P : σ → Prop} {Q : β → Prop} (hrun : ∀ b s, Q b → P s → P (B.run b s).1)
  (hcomplete : ∀ c s, P s → P (B.complete c s))

include hrun hcomplete

theorem steady_drive {queue : List β} (hq : ∀ b ∈ queue, Q b) (h : P m.state) :
    Steady P Q (B.drive queue m) := by
  induction queue generalizing m with
  | nil => exact ⟨h, by simp [drive]⟩
  | cons b queue ih =>
      obtain ⟨hb, hqueue⟩ := List.forall_mem_cons.mp hq
      have hs := hrun b m.state hb h
      unfold drive
      split
      · next s c he => exact ih hqueue (hcomplete c s (by simpa [he] using hs))
      · next s c he => exact ⟨by simpa [he] using hs, hq⟩
      · next s he => exact ⟨by simpa [he] using hs, hq⟩

theorem steady_call {b : β} (h : P (B.run b m.state).1) (hq : ∀ b ∈ m.queue, Q b) :
    Steady P Q (B.call b m) := by
  unfold call
  split
  · next s c he =>
    exact steady_drive hrun hcomplete (fun b hb => hq b (List.mem_of_mem_tail hb))
      (hcomplete c s (by simpa [he] using h))
  · next s c he => exact ⟨by simpa [he] using h, hq⟩
  · next s he => exact ⟨by simpa [he] using h, hq⟩

/-- What blocks and completions keep of the state, the queue keeps. -/
theorem steady_exec {o : Op β α} (hop : B.Suits P Q m o) (h : B.exec m o = some m')
    (hm : Steady P Q m) : Steady P Q m' := by
  have htail : ∀ b ∈ m.queue.tail, Q b := fun b hb => hm.2 b (List.mem_of_mem_tail hb)
  cases o with
  | enqueue b =>
      cases h
      unfold enqueue
      split
      · exact steady_drive hrun hcomplete (List.forall_mem_singleton.mpr hop) hm.1
      · refine ⟨hm.1, fun b' hb' => ?_⟩
        rcases List.mem_append.mp hb' with hb' | hb'
        · exact hm.2 b' hb'
        · exact List.mem_singleton.mp hb' ▸ hop
  | dequeue =>
      cases h
      exact steady_drive hrun hcomplete htail hm.1
  | call b =>
      cases h
      exact steady_call hrun hcomplete hop hm.2
  | act a =>
      cases h
      exact ⟨hop, hm.2⟩
  | finish i =>
      obtain ⟨c, hc, rfl⟩ := Option.map_eq_some_iff.mp h
      exact steady_drive hrun hcomplete htail (hcomplete c _ hm.1)

theorem steady_enqueueAll {blocks : List β} (hblocks : ∀ b ∈ blocks, Q b)
    (h : Runs.run B.exec m (blocks.map .enqueue) = some m') (hm : Steady P Q m) :
    Steady P Q m' := by
  induction blocks generalizing m with
  | nil =>
      cases h
      exact hm
  | cons b blocks ih =>
      obtain ⟨hb, hblocks⟩ := List.forall_mem_cons.mp hblocks
      obtain ⟨m₁, hm₁, hr⟩ := Runs.run_cons h
      exact ih hblocks hr (steady_exec (o := .enqueue b) hrun hcomplete hb hm₁ hm)

end

/-! ## nothing gets stuck -/

/-- A block that comes to an end by itself, at once or when its completion runs. -/
def Ends (B : Blocks σ β κ α) (b : β) : Prop := ∀ s, (B.run b s).2 ≠ .held

/-- While something is queued a completion is on its way. -/
def Lively (m : Queue σ β κ α) : Prop := m.queue ≠ [] → m.inFlight ≠ []

theorem lively_drive {queue : List β} (hq : ∀ b ∈ queue, B.Ends b) :
    Lively (B.drive queue m) := by
  induction queue generalizing m with
  | nil => exact fun h => absurd rfl h
  | cons b queue ih =>
      obtain ⟨hb, hqueue⟩ := List.forall_mem_cons.mp hq
      unfold drive
      split
      · exact ih hqueue
      · exact fun _ => by simp
      · next s he => exact absurd (congrArg Prod.snd he) (hb m.state)

theorem lively_call {b : β} (hb : B.Ends b) (hq : ∀ b ∈ m.queue.tail, B.Ends b) :
    Lively (B.call b m) := by
  unfold call
  split
  · exact lively_drive hq
  · exact fun _ => by simp
  · next s he => exact absurd (congrArg Prod.snd he) (hb m.state)

theorem lively_exec {o : Op β α} (hop : ∀ b, o.block = some b → B.Ends b)
    (hq : ∀ b ∈ m.queue.tail, B.Ends b) (h : B.exec m o = some m') (hm : Lively m) :
    Lively m' := by
  cases o with
  | enqueue b =>
      cases h
      unfold enqueue
      split
      · exact lively_drive (by simpa using hop b rfl)
      · next hqueue => exact fun _ => hm (by simp [hqueue])
  | dequeue =>
      cases h
      exact lively_drive hq
  | call b =>
      cases h
      exact lively_call (hop b rfl) hq
  | act a =>
      cases h
      exact hm
  | finish i =>
      obtain ⟨c, -, rfl⟩ := Option.map_eq_some_iff.mp h
      exact lively_drive hq

/-- The state once everything that waits has been done. -/
def final (B : Blocks σ β κ α) (m : Queue σ β κ α) : σ :=
  m.queue.tail.foldl (fun s b => B.once b s) (B.outcome m)

theorem keeps_final (t : σ) :
    B.Keeps fun s _ queue => queue.foldl (fun s b => B.once b s) s = t :=
  fun _ _ _ _ h => h

theorem final_enqueueAll {blocks : List β} (hl : m.inFlight.length ≤ 1) (hu : Undisturbed m)
    (h : Runs.run B.exec m (blocks.map .enqueue) = some m') :
    B.final m' = blocks.foldl (fun s b => B.once b s) (B.final m) :=
  ((keeps_final _).enqueueAll hl hu List.foldl_append h).2.2

theorem final_call {b : β} (hf : m.inFlight = []) :
    B.final (B.call b m) = m.queue.tail.foldl (fun s b => B.once b s) (B.once b m.state) :=
  (keeps_final _).call hf rfl

theorem final_finish {i : Nat} (hl : m.inFlight.length ≤ 1) (h : B.finish i m = some m') :
    B.final m' = B.final m :=
  (keeps_final (B.final m)).exec (o := .finish i) hl trivial (fun _ => trivial) h rfl

/-- What drives the queue takes at least as many blocks off it as it puts on. -/
theorem drive_suffix (queue : List β) (m : Queue σ β κ α) :
    (B.drive queue m).queue <:+ queue := by
  induction queue generalizing m with
  | nil => exact List.suffix_refl _
  | cons b queue ih =>
      unfold drive
      split
      · exact (ih _).trans (List.suffix_cons b queue)
      · exact List.suffix_refl _
      · exact List.suffix_refl _

/-- What has not been done: the completions in flight and the blocks in the queue. -/
def pending (m : Queue σ β κ α) : Nat := m.inFlight.length + m.queue.length

theorem pending_drive (queue : List β) (m : Queue σ β κ α) :
    pending (B.drive queue m) ≤ m.inFlight.length + queue.length + 1 := by
  induction queue generalizing m with
  | nil => simp [drive, pending]
  | cons b queue ih =>
      unfold drive
      split
      · refine (ih _).trans ?_
        simp only [Queue.log, List.length_cons]
        omega
      · simp only [pending, List.length_append, List.length_cons, List.length_nil]
        omega
      · simp only [pending, Queue.log, List.length_cons]
        omega

/-- Each completion leaves less to be done. -/
theorem pending_finish {i : Nat} (h : B.finish i m = some m') : pending m' < pending m := by
  obtain ⟨c, hc, rfl⟩ := Option.map_eq_some_iff.mp h
  obtain ⟨hi, -⟩ := List.getElem?_eq_some_iff.mp hc
  have he := List.length_eraseIdx_of_lt hi
  unfold dequeue
  rcases hq : m.queue with _ | ⟨b, queue⟩
  · simp only [List.tail_nil, drive, pending, he, hq]
    omega
  · refine (pending_drive _ _).trans_lt ?_
    simp only [pending, he, hq, List.length_cons, List.tail_cons]
    omega

theorem tail_exec {Q : β → Prop} {o : Op β α} (hop : ∀ b, o = .enqueue b → Q b)
    (h : B.exec m o = some m') (hm : ∀ b ∈ m.queue.tail, Q b) : ∀ b ∈ m'.queue.tail, Q b := by
  have hdrive {m : Queue σ β κ α} {queue : List β} (hq : ∀ b ∈ queue, Q b) :
      ∀ b ∈ (B.drive queue m).queue.tail, Q b :=
    fun b hb => hq b ((B.drive_suffix queue m).subset (List.mem_of_mem_tail hb))
  cases o with
  | enqueue b =>
      cases h
      unfold enqueue
      split
      · exact hdrive (List.forall_mem_singleton.mpr (hop b rfl))
      · next b' queue hq =>
        rw [hq] at hm
        intro b'' hb''
        have hb'' : b'' ∈ queue ++ [b] := by simpa [hq] using hb''
        rcases List.mem_append.mp hb'' with hb'' | hb''
        · exact hm b'' hb''
        · exact List.mem_singleton.mp hb'' ▸ hop b rfl
  | dequeue =>
      cases h
      exact hdrive hm
  | call b =>
      cases h
      unfold call
      split
      · exact hdrive hm
      · exact hm
      · exact hm
  | act a =>
      cases h
      exact hm
  | finish i =>
      obtain ⟨c, -, rfl⟩ := Option.map_eq_some_iff.mp h
      exact hdrive hm

/-- **Nothing gets stuck**: when blocks end by themselves, completions can come
until nothing is left, and no more of them than what was left. -/
theorem drained_of_run {is : List Nat} (h : Runs.run B.exec m (is.map .finish) = some m')
    (hm : Lively m) (hq : ∀ b ∈ m.queue.tail, B.Ends b) :
    is.length + pending m' ≤ pending m ∧ Lively m' := by
  induction is generalizing m with
  | nil =>
      cases h
      exact ⟨by simp, hm⟩
  | cons i is ih =>
      obtain ⟨m₁, hm₁, hr⟩ := Runs.run_cons h
      have hlt := pending_finish hm₁
      obtain ⟨hle, hl⟩ := ih hr (lively_exec (o := .finish i) (by simp [Op.block]) hq hm₁ hm)
        (tail_exec (o := .finish i) (by simp) hm₁ hq)
      exact ⟨by rw [List.length_cons]; omega, hl⟩

theorem final_of_finishes {is : List Nat} (h : Runs.run B.exec m (is.map .finish) = some m')
    (hl : m.inFlight.length ≤ 1) : B.final m' = B.final m := by
  induction is generalizing m with
  | nil =>
      cases h
      rfl
  | cons i is ih =>
      obtain ⟨m₁, hm₁, hr⟩ := Runs.run_cons h
      rw [ih hr (inFlight_exec (o := .finish i) hl trivial hm₁), final_finish hl hm₁]

theorem final_of_rest (hq : m.queue = []) (hf : m.inFlight = []) : B.final m = m.state := by
  simp [final, hq, outcome, hf]

/-! ## one after the other -/

/-- The outcome is what the record replays to, each block being done before the
next begins. -/
def Serial (B : Blocks σ β κ α) (s₀ : σ) (s : σ) (history : List (Ran β α)) (_ : List β) : Prop :=
  s = history.foldl B.replay s₀

theorem keeps_serial (s₀ : σ) : B.Keeps (B.Serial s₀) := by
  intro b queue s history h
  rw [Serial, List.foldl_append, ← h]
  rfl

theorem admits_serial {s₀ : σ} (hm : B.Holds (B.Serial s₀) m) (o : Op β α) :
    B.Admits (B.Serial s₀) m o := by
  have hm : B.outcome m = m.history.foldl B.replay s₀ := hm
  cases o with
  | enqueue b => exact hm
  | dequeue => trivial
  | call b =>
      rw [Admits, Serial, List.foldl_append, ← hm]
      rfl
  | act a =>
      rw [Admits, Serial, List.foldl_append, ← hm]
      rfl
  | finish i => trivial

/-- **One after the other**: an orderly run comes to what its blocks and actions
come to when each is done before the next begins. -/
theorem serial_of_run {s₀ : σ} {ops : List (Op β α)} (h : Runs.run B.exec m ops = some m')
    (hops : Runs.Meets B.exec B.Orderly m ops) (hl : m.inFlight.length ≤ 1)
    (hm : B.Holds (B.Serial s₀) m) :
    m'.inFlight.length ≤ 1 ∧ B.Holds (B.Serial s₀) m' :=
  (keeps_serial s₀).run h
    (hops.mono fun _ o hop => ⟨hop, fun hm => admits_serial hm o⟩) hl hm

end Blocks

end Deferred
