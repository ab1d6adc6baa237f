import StreetParker.RevealRuns

/-!
# StreetParker.RevealFlow

What holds of every run of the reveal controller, whatever is asked of it and
whenever animations end.

* `Serves`, `serves_of_mem` — what is done on each event;
* `requests_of_run` — requests are served once each and in order;
* `rests_of_run` — nothing gets stuck.
-/

namespace StreetParker

namespace Reveal

variable {V K : Type*} [Field K] [LinearOrder K] [Rounding K] {m m' : RevealMachine V K}
  {e : RevealEvent V K} {op : Deferred.Op (RevealBlock V K) (RevealAction K)}

/-! ## what an event does -/

/-- The replacements an event asks for. -/
def Replaces : RevealEvent V K → SWRevealControllerOperation → Option V → Prop
  | .loadView storyboard, operation, new =>
      ∃ segues, storyboard = some segues ∧ segues operation.container = new
  | .setViewController operation' new' _, operation, new => operation = operation' ∧ new = new'
  | .pushFrontViewController new' _, operation, new =>
      operation = .replaceFrontController ∧ new = new'
  | _, _, _ => False

/-- What is queued, called or done on an event. -/
def Serves (m : RevealMachine V K) (e : RevealEvent V K) :
    Deferred.Op (RevealBlock V K) (RevealAction K) → Prop
  | .enqueue (.setFrontViewPosition _ _) => True
  | .enqueue (.performTransitionOperation operation new _) => Replaces e operation new
  | .enqueue .dummy => ∃ translation xLocation width, e = .panBegan translation xLocation width
  | .enqueue _ => False
  | .dequeue => e = .panCancelled
  | .call (.performTransitionOperation operation new _) => Replaces e operation new
  | .call .loadView => ∃ storyboard, e = .loadView storyboard
  | .call .handleTapGesture => e = .tap
  | .call (.handleRevealGestureStateEnded velocity) => e = .panEnded velocity
  | .call _ => False
  | .act (.setPositions p) =>
      m.state.isViewLoaded = false ∧ ops m e = some [.act (.setPositions p)]
  | .act .handleRevealGestureStateBegan =>
      ∃ translation xLocation width, e = .panBegan translation xLocation width
  | .act (.handleRevealGestureStateChanged translation) => e = .panChanged translation
  | .act .handleRevealGestureStateCancelled => e = .panCancelled
  | .act .layoutSubviews => e = .layoutSubviews
  | .act .viewDidAppear => e = .viewDidAppear
  | .finish i => e = .completion i

theorem serves_setFrontViewPositionOps {m : RevealMachine V K} {e : RevealEvent V K}
    {p : FrontViewPosition} {animated : Bool}
    (he : ops m e = some (m.state.setFrontViewPositionOps p animated)) :
    ∀ op ∈ m.state.setFrontViewPositionOps p animated, Serves m e op := by
  revert he
  unfold setFrontViewPositionOps
  split
  · exact fun _ => List.forall_mem_singleton.mpr trivial
  · next hs => exact fun he => List.forall_mem_singleton.mpr ⟨by simpa using hs, he⟩

theorem serves_segueBlocks (m : RevealMachine V K) (segues : RevealContainer → Option V) :
    ∀ b ∈ segueBlocks (K := K) segues, Serves m (.loadView (some segues)) (.call b) := by
  intro b hb
  obtain ⟨operation, -, hb⟩ := List.mem_filterMap.mp hb
  obtain ⟨v, hv, rfl⟩ := Option.map_eq_some_iff.mp hb
  exact ⟨segues, rfl, hv⟩

theorem Serves.ne_dummy (h : Serves m e op)
    (he : ¬∃ translation xLocation width, e = .panBegan translation xLocation width)
    (b : RevealBlock V K) (hb : op.block = some b) : b ≠ .dummy := by
  rintro rfl
  cases op with
  | enqueue b =>
      cases hb
      exact he h
  | dequeue => contradiction
  | call b =>
      cases hb
      exact h
  | act a => contradiction
  | finish i => contradiction

/-- **Inversion**: an event does what it serves, and nothing else. -/
theorem serves_of_mem {e : RevealEvent V K}
    {l : List (Deferred.Op (RevealBlock V K) (RevealAction K))} (hl : ops m e = some l) :
    ∀ op ∈ l, Serves m e op := by
  cases e with
  | loadView storyboard =>
      simp only [ops] at hl
      split at hl
      · contradiction
      · cases hl
        intro op hop
        obtain ⟨b, hb, rfl⟩ := List.mem_map.mp hop
        rcases List.mem_append.mp hb with hb | hb
        · unfold loadStoryboardControllers at hb
          split at hb
          · exact serves_segueBlocks m _ b hb
          · contradiction
        · rw [List.mem_singleton.mp hb]
          exact ⟨storyboard, rfl⟩
  | setFrontViewPosition position animated =>
      cases hl
      exact serves_setFrontViewPositionOps rfl
  | revealToggle animated =>
      cases hl
      exact serves_setFrontViewPositionOps rfl
  | rightRevealToggle animated =>
      cases hl
      exact serves_setFrontViewPositionOps rfl
  | setViewController operation new animated =>
      simp only [ops] at hl
      split at hl <;> cases hl <;> exact List.forall_mem_singleton.mpr ⟨rfl, rfl⟩
  | pushFrontViewController new animated =>
      simp only [ops] at hl
      split at hl <;> cases hl
      · unfold pushFrontViewController
        cases animated
        · exact List.forall_mem_singleton.mpr ⟨rfl, rfl⟩
        · simp [Serves, Replaces]
      · exact List.forall_mem_singleton.mpr ⟨rfl, rfl⟩
  | panBegan translation xLocation width =>
      simp only [ops] at hl
      split at hl
      · cases hl
        simp [Serves]
      · contradiction
  | panChanged translation =>
      simp only [ops] at hl
      split at hl
      · cases hl
        simp [Serves]
      · contradiction
  | panEnded velocity =>
      simp only [ops] at hl
      split at hl
      · cases hl
        simp [Serves]
      · contradiction
  | panCancelled =>
      simp only [ops] at hl
      split at hl
      · cases hl
        simp [Serves]
      · contradiction
  | tap =>
      simp only [ops] at hl
      split at hl
      · cases hl
        simp [Serves]
      · contradiction
  | completion i =>
      cases hl
      simp [Serves]
  | layoutSubviews =>
      simp only [ops] at hl
      split at hl
      · cases hl
        simp [Serves]
      · contradiction
  | viewDidAppear =>
      simp only [ops] at hl
      split at hl
      · cases hl
        simp [Serves]
      · contradiction

variable [DecidableEq V]

/-! ## requests -/

/-- The blocks that a run of events queues. -/
def requested : RevealMachine V K → List (RevealEvent V K) → List (RevealBlock V K)
  | _, [] => []
  | m, e :: es => match step m e with
    | some m' => Deferred.Blocks.enqueued ((ops m e).getD []) ++ requested m' es
    | none => []

/-- **Requests are served once each and in order**: whatever taps, drags and
animations come between, the blocks that were run off the queue and those that
wait are the blocks that were requested. -/
theorem requests_of_run {es : List (RevealEvent V K)} (hr : Runs.run step m es = some m') :
    Deferred.Blocks.ranQueued m' ++ m'.queue.tail =
      Deferred.Blocks.ranQueued m ++ m.queue.tail ++ requested m es := by
  induction es generalizing m with
  | nil =>
      cases hr
      simp [requested]
  | cons e es ih =>
      obtain ⟨m₁, hm₁, hr⟩ := Runs.run_cons hr
      have hstep := hm₁
      obtain ⟨l, hl, hm₁⟩ := Option.bind_eq_some_iff.mp hm₁
      rw [ih hr, Deferred.Blocks.ranQueued_append_pending _ hm₁]
      simp [requested, hstep, hl]

/-- Two requests behind a drag. -/
theorem requests_of_run_main :
    ∃ m, Runs.run step mainRevealController
        [.loadView (some mainStoryboard), .panBegan 10 20 375, .revealToggle true,
          .setViewController .replaceRearController none false] = some m ∧
      Deferred.Blocks.ranQueued m ++ m.queue.tail =
        Deferred.Blocks.ranQueued mainRevealController ++ mainRevealController.queue.tail ++
          requested mainRevealController
            [.loadView (some mainStoryboard), .panBegan 10 20 375, .revealToggle true,
              .setViewController .replaceRearController none false] := by
  obtain ⟨m, hm, -⟩ := Option.map_eq_some_iff.mp
    (show (Runs.run step mainRevealController
        [.loadView (some mainStoryboard), .panBegan 10 20 375, .revealToggle true,
          .setViewController .replaceRearController none false]).map (fun _ => ()) = some () by
      decide +kernel)
  exact ⟨m, hm, requests_of_run hm⟩

/-! ## nothing gets stuck -/

/-- All blocks but that of a drag end by themselves. -/
theorem ends_of_ne {b : RevealBlock V K} (hb : b ≠ .dummy) : (revealBlocks V K).Ends b := by
  have hset (s : Reveal V K) (p : FrontViewPosition) (duration : K) :
      (s.setFrontViewPosition p duration).2 ≠ .held := by
    simp only [setFrontViewPosition]
    split <;> simp
  intro s
  cases b with
  | setFrontViewPosition p duration => exact hset s p duration
  | performTransitionOperation operation new animated =>
      simp only [revealBlocks, runBlock, performTransitionOperation]
      split <;> simp
  | dummy => exact absurd rfl hb
  | loadView => exact hset _ _ _
  | handleTapGesture => exact hset _ _ _
  | handleRevealGestureStateEnded velocity => exact hset _ _ _

/-- What waits ends by itself, and a completion is on its way while something is
queued, but in the middle of a drag. -/
structure Flowing (m : RevealMachine V K) : Prop where
  ends : ∀ b ∈ m.queue.tail, (revealBlocks V K).Ends b
  lively : m.state.panning = false → Deferred.Blocks.Lively m

theorem Flowing.exec {op : Deferred.Op (RevealBlock V K) (RevealAction K)} (h : Flowing m)
    (hop : ∀ b, op.block = some b → b ≠ .dummy)
    (hact : ∀ a, op = .act a → (m.state.act a).panning = false → m.state.panning = false)
    (hr : (revealBlocks V K).exec m op = some m') : Flowing m' := by
  have hends : ∀ b, op.block = some b → (revealBlocks V K).Ends b :=
    fun b hb => ends_of_ne (hop b hb)
  refine ⟨Deferred.Blocks.tail_exec (fun b hb => hends b (by rw [hb]; rfl)) hr h.ends,
    fun hp' => ?_⟩
  by_cases hp : m.state.panning = false
  · exact Deferred.Blocks.lively_exec hends h.ends hr (h.lively hp)
  cases op with
  | enqueue b =>
      cases hr
      unfold Deferred.Blocks.enqueue at hp' ⊢
      split
      · exact Deferred.Blocks.lively_drive (List.forall_mem_singleton.mpr (hends b rfl))
      · next hq =>
        rw [hq] at hp'
        exact absurd hp' hp
  | dequeue =>
      cases hr
      exact Deferred.Blocks.lively_drive h.ends
  | call b =>
      cases hr
      exact Deferred.Blocks.lively_call (hends b rfl) h.ends
  | act a =>
      cases hr
      exact absurd (hact a rfl hp') hp
  | finish i =>
      obtain ⟨c, -, rfl⟩ := Option.map_eq_some_iff.mp hr
      exact Deferred.Blocks.lively_drive h.ends

/-- Only the cancelling of a drag is an action that ends it. -/
theorem Serves.panning {a : RevealAction K} (h : Serves m e (.act a)) (he : e ≠ .panCancelled)
    (s : Reveal V K) (hs : (s.act a).panning = false) : s.panning = false := by
  cases a with
  | setPositions p => exact hs
  | handleRevealGestureStateBegan => exact absurd (show true = false from hs) (by decide)
  | handleRevealGestureStateChanged translation => rwa [panning_changed] at hs
  | handleRevealGestureStateCancelled => exact absurd h he
  | layoutSubviews => exact (samePhase_layoutSubviews s).panning.symm.trans hs
  | viewDidAppear => exact hs

/-- No event holds the queue up for longer than a drag. -/
theorem Flowing.step {e : RevealEvent V K} (h : Flowing m) (hr : Reveal.step m e = some m') :
    Flowing m' := by
  obtain ⟨l, hl, hr⟩ := Option.bind_eq_some_iff.mp hr
  by_cases hb : ∃ translation xLocation width, e = .panBegan translation xLocation width
  · obtain ⟨translation, xLocation, width, rfl⟩ := hb
    simp only [ops] at hl
    split at hl
    · next hg =>
      cases hl
      have hq : m.queue = [] := by simpa using hg.2.2.1
      obtain ⟨m₁, h₁, h₂⟩ := Runs.run_cons hr
      cases h₂
      cases h₁
      refine ⟨?_, fun hp => absurd (show true = false from hp) (by decide)⟩
      simp [Deferred.Blocks.enqueue, hq, Deferred.Blocks.drive, revealBlocks, runBlock,
        Deferred.Queue.log]
    · contradiction
  by_cases hc : e = .panCancelled
  · subst hc
    simp only [ops] at hl
    split at hl
    · cases hl
      obtain ⟨m₁, h₁, h₂⟩ := Runs.run_cons hr
      obtain ⟨m₂, h₃, h₄⟩ := Runs.run_cons h₂
      cases h₁
      cases h₄
      have hends := Deferred.Blocks.tail_exec (o := .dequeue) (by simp) h₃ h.ends
      cases h₃
      exact ⟨hends, fun _ => Deferred.Blocks.lively_drive h.ends⟩
    · contradiction
  refine Runs.inv_of_run (P := Flowing) (fun m' _ _ hm hop hs => ?_) hr
    (Runs.meets_of_forall (serves_of_mem hl) m) h
  exact hm.exec (hop.ne_dummy hb) (fun a ha => Serves.panning (ha ▸ hop) hc m'.state) hs

theorem flowing_initWithCoder (properties : RevealProperties K) :
    Flowing (initWithCoder (V := V) properties) :=
  ⟨by simp [initWithCoder], fun _ hq => absurd rfl hq⟩

theorem step_completion (m : RevealMachine V K) (i : Nat) :
    Reveal.step m (.completion i) = (revealBlocks V K).exec m (.finish i) := by
  simp only [Reveal.step, ops, Option.bind_some, Runs.run]
  cases (revealBlocks V K).exec m (.finish i) <;> rfl

theorem run_completions (m : RevealMachine V K) (is : List Nat) :
    Runs.run step m (is.map .completion) =
      Runs.run (revealBlocks V K).exec m (is.map .finish) := by
  induction is generalizing m with
  | nil => rfl
  | cons i is ih => simp only [List.map_cons, Runs.run, step_completion, ih]

/-- **Nothing gets stuck**: after every run, when no drag is under way, no more
animations end than there are in flight and blocks in the queue, and as long as a
block is queued one is in flight. -/
theorem rests_of_run {properties : RevealProperties K} {es : List (RevealEvent V K)}
    (hr : Runs.run step (initWithCoder properties) es = some m) (hpan : m.state.panning = false)
    {is : List Nat} (hr' : Runs.run step m (is.map .completion) = some m') :
    is.length + Deferred.Blocks.pending m' ≤ Deferred.Blocks.pending m ∧
      (m'.queue ≠ [] → m'.inFlight ≠ []) := by
  have hm := Runs.inv_of_run' (fun m e m' h hr => Flowing.step h hr) hr
    (flowing_initWithCoder properties)
  exact Deferred.Blocks.drained_of_run (run_completions m is ▸ hr') (hm.lively hpan) hm.ends

/-- Two requests, and the end of the first animation. -/
theorem rests_of_run_main :
    ∃ m m', Runs.run step mainRevealController
        [.loadView (some mainStoryboard), .revealToggle true, .revealToggle true] = some m ∧
      Runs.run step m ([0].map .completion) = some m' ∧
      [0].length + Deferred.Blocks.pending m' ≤ Deferred.Blocks.pending m ∧
        (m'.queue ≠ [] → m'.inFlight ≠ []) := by
  obtain ⟨m', hm', -⟩ := Option.map_eq_some_iff.mp
    (show (Runs.run step mainRevealController
        ([.loadView (some mainStoryboard), .revealToggle true, .revealToggle true] ++
          [0].map .completion)).map (fun _ => ()) = some () by decide +kernel)
  obtain ⟨m, hm, hr⟩ := Runs.exists_of_run_append hm'
  have hpan : (Runs.run step mainRevealController
      [.loadView (some mainStoryboard), .revealToggle true, .revealToggle true]).map
        (fun m => m.state.panning) = some false := by decide +kernel
  rw [hm] at hpan
  exact ⟨m, m', hm, hr, rests_of_run hm (by simpa using hpan) hr⟩

end Reveal

end StreetParker
