import StreetParker.RevealBlocks

/-!
# StreetParker.RevealRuns

Runs of the reveal controller: requests, drags, taps and animations in any order.

* `Fair` — what may be asked of the controller, and when;
* `Sound` — what holds between two events;
* `Sound.step`, `sound_of_run` — one fair event keeps it, and so does a run.
-/

namespace StreetParker

namespace Reveal

variable {V K : Type*} {m m' : RevealMachine V K} {s : Reveal V K} {p : FrontViewPosition}
  {cancelled : Prop} {queue : List (RevealBlock V K)} {b : RevealBlock V K}

/-! ## what may be asked -/

/-- A controller that is neither in the controller nor waits to be. -/
def Unused (m : RevealMachine V K) (new : Option V) : Prop :=
  ∀ v, new = some v →
    (∀ c, m.state.controller c ≠ some v) ∧ v ∉ m.queue.tail.filterMap installs

/-- Nothing is asked of the controller that it cannot keep in order: positions
are positions, new controllers are new, and while the animation of a tap runs
nothing is requested and no gesture begins. -/
def Fair (m : RevealMachine V K) : RevealEvent V K → Prop
  | .loadView storyboard => ∀ segues, storyboard = some segues →
      (∀ c, m.state.Fresh (segues c)) ∧
        ∀ v c c', segues c = some v → segues c' = some v → c = c'
  | .setFrontViewPosition position _ => position ≠ .none ∧ Deferred.Blocks.Undisturbed m
  | .revealToggle _ => Deferred.Blocks.Undisturbed m
  | .rightRevealToggle _ => Deferred.Blocks.Undisturbed m
  | .setViewController _ new _ => Unused m new ∧ Deferred.Blocks.Undisturbed m
  | .pushFrontViewController new _ => Unused m new ∧ Deferred.Blocks.Undisturbed m
  | .panBegan _ _ _ => Deferred.Blocks.Undisturbed m
  | .panChanged _ => True
  | .panEnded _ => True
  | .panCancelled => True
  | .tap => Deferred.Blocks.Undisturbed m
  | .completion _ => True
  | .layoutSubviews => True
  | .viewDidAppear => True

/-- A replacement without animation. -/
def Plain (b : RevealBlock V K) : Prop :=
  ∃ operation new, b = .performTransitionOperation operation new false

theorem plain_loadStoryboardControllers (s : Reveal V K)
    (storyboard : Option (RevealContainer → Option V)) :
    ∀ b ∈ s.loadStoryboardControllers storyboard, Plain b := by
  unfold Reveal.loadStoryboardControllers
  split
  · intro b hb
    obtain ⟨operation, -, ho⟩ := List.mem_filterMap.mp hb
    obtain ⟨v, -, rfl⟩ := Option.map_eq_some_iff.mp ho
    exact ⟨operation, some v, rfl⟩
  · simp

variable [Field K]

/-- A controller with its content view, before its views are deployed. -/
theorem Tidy.unplaced (h : s.Tidy queue) (hs : s.isViewLoaded = false) :
    s.unplaced.Tidy queue := by
  have hn (v : V) : s.superview v = none :=
    h.consistent.elsewhere v fun hs' => absurd (hs.symm.trans hs') (by decide)
  refine ⟨?_, ?_, h.nodup, h.fresh, h.interaction⟩
  · constructor
    · intro _ v c _
      have hc : c.isShown (s.unplaced.position c) = false := by cases c <;> rfl
      rw [hc]
      exact ⟨.inl (hn v), fun hf => absurd hf (by decide), fun _ _ => hn v⟩
    · exact fun v _ => hn v
    · have hr := h.consistent.rearView
      rw [hs] at hr
      exact hr
    · have hr := h.consistent.rightView
      rw [hs] at hr
      exact hr
    · exact h.consistent.isChild
    · exact h.consistent.injective
  · intro b hb
    have hq := h.queueable b hb
    cases b with
    | setFrontViewPosition p d => exact ⟨hq.1, rfl⟩
    | performTransitionOperation operation new animated => trivial
    | dummy => exact hq
    | loadView => exact hq
    | handleTapGesture => exact hq
    | handleRevealGestureStateEnded v => exact hq

/-- Loading the controllers of a storyboard is fair. -/
theorem fair_loadView (properties : RevealProperties K) {segues : RevealContainer → Option V}
    (hsegues : ∀ v c c', segues c = some v → segues c' = some v → c = c') :
    Fair (initWithCoder properties) (.loadView (some segues)) := by
  rintro _ ⟨⟩
  refine ⟨fun c v _ c' => ?_, hsegues⟩
  cases c' <;> simp [controller, initWithCoder]

theorem mainStoryboard_injective {v : RevealScene} {c c' : RevealContainer}
    (h : mainStoryboard c = some v) (h' : mainStoryboard c' = some v) : c = c' := by
  cases c <;> cases c' <;> simp_all [mainStoryboard]
  all_goals simp [← h] at h'

variable [LinearOrder K] [Rounding K]

/-- The blocks of the segues are fit to be run. -/
theorem Ready.loadStoryboardControllers (h : s.Ready cancelled [])
    {storyboard : Option (RevealContainer → Option V)}
    (hstoryboard : ∀ segues, storyboard = some segues → (∀ c, s.Fresh (segues c)) ∧
      ∀ v c c', segues c = some v → segues c' = some v → c = c') :
    s.Ready cancelled (s.loadStoryboardControllers storyboard) := by
  have hplain := s.plain_loadStoryboardControllers storyboard
  revert hplain
  unfold Reveal.loadStoryboardControllers
  split
  · next segues hrear =>
    intro hplain
    obtain ⟨hfresh, hinj⟩ := hstoryboard segues rfl
    have hinstalls : (segueBlocks (K := K) segues).filterMap installs =
        segueOperations.filterMap fun operation => segues operation.container := by
      rw [segueBlocks, List.filterMap_filterMap]
      congr 1
      funext operation
      cases segues operation.container <;> rfl
    refine ⟨⟨h.consistent, ?_, ?_, ?_, h.interaction⟩, h.position, h.settled⟩
    · intro b hb
      obtain ⟨operation, new, rfl⟩ := hplain b hb
      trivial
    · rw [hinstalls]
      refine List.Nodup.filterMap ?_ (by decide)
      intro a a' v hv hv'
      have hc := hinj v _ _ hv hv'
      cases a <;> cases a' <;> first | rfl | cases hc
    · rw [hinstalls]
      intro v hv c
      obtain ⟨operation, -, hv⟩ := List.mem_filterMap.mp hv
      exact hfresh operation.container v hv c
  · exact fun _ => h

variable [DecidableEq V]

/-! ## between two events -/

/-- What holds between two events: the outcome is ready, nothing is under way
before the view is loaded, and during a drag only its own block is. -/
structure Sound (m : RevealMachine V K) : Prop where
  inFlight : m.inFlight.length ≤ 1
  ready : ((revealBlocks V K).outcome m).Ready (Cancelled m.history) m.queue.tail
  unloaded : m.state.isViewLoaded = false →
    m.queue = [] ∧ m.inFlight = [] ∧ m.state.panning = false
  panning : m.state.panning = true → m.queue ≠ [] ∧ m.inFlight = []

/-- Completions leave the phase and the controllers alone. -/
theorem outcome_frame (m : RevealMachine V K) :
    SamePhase m.state ((revealBlocks V K).outcome m) ∧
      ∀ c, ((revealBlocks V K).outcome m).controller c = m.state.controller c := by
  unfold Deferred.Blocks.outcome
  generalize m.state = s
  induction m.inFlight generalizing s with
  | nil => exact ⟨⟨rfl, rfl⟩, fun _ => rfl⟩
  | cons d inFlight ih =>
      obtain ⟨hs, hc⟩ := ih ((revealBlocks V K).complete d s)
      exact ⟨(s.samePhase_complete d).trans hs, fun c => (hc c).trans (s.controller_complete d c)⟩

/-- Blocks keep a loaded controller loaded. -/
theorem isViewLoaded_exec {op : Deferred.Op (RevealBlock V K) (RevealAction K)}
    (hop : ∀ a, op = .act a → (m.state.act a).isViewLoaded = true)
    (h : (revealBlocks V K).exec m op = some m') (hm : m.state.isViewLoaded = true) :
    m'.state.isViewLoaded = true := by
  refine (Deferred.Blocks.steady_exec (P := fun s => s.isViewLoaded = true) (Q := fun _ => True)
    (fun b s _ hs => s.isViewLoaded_runBlock b hs)
    (fun d s hs => (s.samePhase_complete d).isViewLoaded.trans hs) ?_ h
    ⟨hm, fun _ _ => trivial⟩).1
  cases op with
  | enqueue b => trivial
  | dequeue => trivial
  | call b => exact m.state.isViewLoaded_runBlock b hm
  | act a => exact hop a rfl
  | finish i => trivial

/-- Blocks begin no drag. -/
theorem panning_exec {op : Deferred.Op (RevealBlock V K) (RevealAction K)}
    (hop : ∀ a, op = .act a → (m.state.act a).panning = false)
    (h : (revealBlocks V K).exec m op = some m') (hm : m.state.panning = false) :
    m'.state.panning = false := by
  refine (Deferred.Blocks.steady_exec (P := fun s => s.panning = false) (Q := fun _ => True)
    (fun b s _ hs => s.panning_runBlock b hs)
    (fun d s hs => (s.samePhase_complete d).panning.trans hs) ?_ h ⟨hm, fun _ _ => trivial⟩).1
  cases op with
  | enqueue b => trivial
  | dequeue => trivial
  | call b => exact m.state.panning_runBlock b hm
  | act a => exact hop a rfl
  | finish i => trivial

theorem isViewLoaded_call {b : RevealBlock V K} (h : (m.state.runBlock b).1.isViewLoaded = true) :
    ((revealBlocks V K).call b m).state.isViewLoaded = true :=
  (Deferred.Blocks.steady_call (B := revealBlocks V K) (P := fun s => s.isViewLoaded = true)
    (Q := fun _ => True) (fun b s _ hs => s.isViewLoaded_runBlock b hs)
    (fun d s hs => (s.samePhase_complete d).isViewLoaded.trans hs) h fun _ _ => trivial).1

theorem panning_call {b : RevealBlock V K} (h : (m.state.runBlock b).1.panning = false) :
    ((revealBlocks V K).call b m).state.panning = false :=
  (Deferred.Blocks.steady_call (B := revealBlocks V K) (P := fun s => s.panning = false)
    (Q := fun _ => True) (fun b s _ hs => s.panning_runBlock b hs)
    (fun d s hs => (s.samePhase_complete d).panning.trans hs) h fun _ _ => trivial).1

/-- A request of a loaded controller. -/
theorem Sound.enqueueAll (h : Sound m) (hs : m.state.isViewLoaded = true)
    (hu : Deferred.Blocks.Undisturbed m) {blocks : List (RevealBlock V K)}
    (hb : ((revealBlocks V K).outcome m).Ready (Cancelled m.history) (m.queue.tail ++ blocks))
    (hr : Runs.run (revealBlocks V K).exec m (blocks.map .enqueue) = some m') : Sound m' := by
  obtain ⟨hl, -, hready⟩ := keeps_ready.enqueueAll h.inFlight hu hb hr
  have hs' : m'.state.isViewLoaded = true :=
    (Deferred.Blocks.steady_enqueueAll (P := fun s => s.isViewLoaded = true) (Q := fun _ => True)
      (fun b s _ hs => s.isViewLoaded_runBlock b hs)
      (fun d s hs => (s.samePhase_complete d).isViewLoaded.trans hs) (fun _ _ => trivial) hr
      ⟨hs, fun _ _ => trivial⟩).1
  refine ⟨hl, hready, fun hf => absurd (hf.symm.trans hs') (by decide), fun hp => ?_⟩
  cases hpm : m.state.panning with
  | true =>
      obtain ⟨hq, hf⟩ := h.panning hpm
      rw [Deferred.Blocks.enqueueAll_of_busy hq] at hr
      cases hr
      exact ⟨by simp [hq], hf⟩
  | false =>
      have hpm' : m'.state.panning = false :=
        (Deferred.Blocks.steady_enqueueAll (P := fun s => s.panning = false) (Q := fun _ => True)
          (fun b s _ hs => s.panning_runBlock b hs)
          (fun d s hs => (s.samePhase_complete d).panning.trans hs) (fun _ _ => trivial) hr
          ⟨hpm, fun _ _ => trivial⟩).1
      exact absurd (hpm'.symm.trans hp) (by decide)

/-- Queueing a block of a loaded controller. -/
theorem Sound.enqueue (h : Sound m) (hs : m.state.isViewLoaded = true)
    (hu : Deferred.Blocks.Undisturbed m) {b : RevealBlock V K}
    (hb : ((revealBlocks V K).outcome m).Queueable b) (hnew : Unused m (installs b))
    (hr : Runs.run (revealBlocks V K).exec m ([b].map .enqueue) = some m') : Sound m' := by
  refine h.enqueueAll hs hu (h.ready.append hb fun v hv => ?_) hr
  simp only [(outcome_frame m).2]
  exact hnew v hv

theorem Sound.idle (h : Sound m) (hf : m.inFlight = []) :
    m.state.Ready (Cancelled m.history) m.queue.tail := by
  have hr := h.ready
  rwa [Deferred.Blocks.outcome_of_idle hf] at hr

/-- `setFrontViewPosition:animated:`, loaded or not. -/
theorem Sound.setFrontViewPosition (h : Sound m) (hu : Deferred.Blocks.Undisturbed m)
    (hp : p ≠ .none) (animated : Bool)
    (hr : Runs.run (revealBlocks V K).exec m (m.state.setFrontViewPositionOps p animated) =
      some m') : Sound m' := by
  unfold setFrontViewPositionOps at hr
  split at hr
  · next hs =>
    have hb : ((revealBlocks V K).outcome m).Queueable (.setFrontViewPosition p
        (if animated then m.state.properties.toggleAnimationDuration else 0)) :=
      ⟨hp, (outcome_frame m).1.isViewLoaded.trans hs⟩
    exact h.enqueue hs hu hb (fun v hv => absurd hv (by simp [installs])) hr
  · next hs =>
    have hs : m.state.isViewLoaded = false := by simpa using hs
    obtain ⟨hq, hf, hpan⟩ := h.unloaded hs
    cases hr
    have hc : Cancelled (m.history ++ [.acted (.setPositions p)]) ↔ Cancelled m.history := by
      simp [Cancelled]
    refine ⟨h.inFlight, ?_, fun _ => ⟨hq, hf, hpan⟩,
      fun hp => absurd (hpan.symm.trans hp) (by decide)⟩
    rw [Deferred.Blocks.outcome_of_idle (by exact hf)]
    simp only [Deferred.Queue.log, hc]
    exact (h.idle hf).setPositions hs hp

/-- Blocks that wait, run at once before others. -/
theorem Ready.foldl {rest : List (RevealBlock V K)} (h : s.Ready cancelled (queue ++ rest)) :
    (queue.foldl (fun s b => (revealBlocks V K).once b s) s).Ready cancelled rest := by
  induction queue generalizing s with
  | nil => exact h
  | cons b queue ih => exact ih h.once

theorem Plain.run {b : RevealBlock V K} (hb : Plain b) (s : Reveal V K) :
    ∃ s' d, (revealBlocks V K).run b s = (s', .now d) := by
  obtain ⟨operation, new, rfl⟩ := hb
  exact ⟨_, .transition (s.controller operation.container) new, by
    simp [revealBlocks, runBlock, performTransitionOperation]; rfl⟩

theorem samePhase_foldl {blocks : List (RevealBlock V K)} (hblocks : ∀ b ∈ blocks, Plain b)
    (s : Reveal V K) : SamePhase s (blocks.foldl (fun s b => (revealBlocks V K).once b s) s) := by
  induction blocks generalizing s with
  | nil => exact ⟨rfl, rfl⟩
  | cons b blocks ih =>
      obtain ⟨hb, hrest⟩ := List.forall_mem_cons.mp hblocks
      refine SamePhase.trans ?_ (ih hrest _)
      obtain ⟨operation, new, rfl⟩ := hb
      have ho := once_performTransitionOperation s operation new false
      show SamePhase s ((revealBlocks V K).once _ s)
      rw [ho]
      exact s.samePhase_replaced _ _

/-- Replacements in a controller that is not loaded. -/
theorem Sound.callAll (h : Sound m) (hs : m.state.isViewLoaded = false)
    {blocks : List (RevealBlock V K)} (hblocks : ∀ b ∈ blocks, Plain b)
    (hready : m.state.Ready (Cancelled m.history) blocks)
    (hr : Runs.run (revealBlocks V K).exec m (blocks.map .call) = some m') :
    Sound m' ∧ m'.state.isViewLoaded = false := by
  obtain ⟨hq, hf, hpan⟩ := h.unloaded hs
  obtain ⟨hq', hf', hs', hh'⟩ := Deferred.Blocks.callAll hq hf (fun b hb => (hblocks b hb).run) hr
  obtain ⟨hl, hp⟩ := samePhase_foldl hblocks m.state
  rw [← hs', hs] at hl
  rw [← hs', hpan] at hp
  have hc : Cancelled m'.history ↔ Cancelled m.history := by
    simp [Cancelled, hh']
  refine ⟨⟨by simp [hf'], ?_, fun _ => ⟨hq', hf', hp⟩,
    fun hp' => absurd (hp.symm.trans hp') (by decide)⟩, hl⟩
  rw [Deferred.Blocks.outcome_of_idle hf', hq', hs']
  simp only [hc]
  exact Ready.foldl (by simpa using hready)

/-- `loadView` is done at once. -/
theorem run_loadView (s : Reveal V K) :
    ∃ s' d, (revealBlocks V K).run .loadView s = (s', .now d) := by
  simp only [revealBlocks, runBlock, Reveal.loadView, Reveal.setFrontViewPosition]
  rw [if_neg (lt_irrefl (0 : K))]
  exact ⟨_, _, rfl⟩

/-- `loadView`. -/
theorem Sound.loadView (h : Sound m) (hs : m.state.isViewLoaded = false)
    {storyboard : Option (RevealContainer → Option V)}
    (hstoryboard : ∀ segues, storyboard = some segues → (∀ c, m.state.Fresh (segues c)) ∧
      ∀ v c c', segues c = some v → segues c' = some v → c = c')
    (hr : Runs.run (revealBlocks V K).exec m
      ((m.state.loadStoryboardControllers storyboard ++ [RevealBlock.loadView]).map .call) =
        some m') : Sound m' := by
  obtain ⟨hq, hf, -⟩ := h.unloaded hs
  have hready := h.idle hf
  rw [hq] at hready
  have hblocks := hready.loadStoryboardControllers hstoryboard
  have hplain := m.state.plain_loadStoryboardControllers storyboard
  rw [List.map_append] at hr
  obtain ⟨m₁, hr₁, hr₂⟩ := Runs.exists_of_run_append hr
  obtain ⟨h₁, hs₁⟩ := h.callAll hs hplain hblocks hr₁
  obtain ⟨hq₁, hf₁, hpan₁⟩ := h₁.unloaded hs₁
  have hready₁ := h₁.idle hf₁
  have hnow : ∀ b ∈ [RevealBlock.loadView (V := V) (K := K)], ∀ s, ∃ s' d,
      (revealBlocks V K).run b s = (s', .now d) := by
    intro b hb s
    rw [List.mem_singleton.mp hb]
    exact s.run_loadView
  obtain ⟨hq', hf', hs', hh'⟩ := Deferred.Blocks.callAll hq₁ hf₁ hnow hr₂
  have hc : Cancelled m'.history ↔ Cancelled m₁.history := by
    simp [Cancelled, hh']
  have hstate : m'.state = m₁.state.unplaced.moved m₁.state.frontViewPosition := by
    rw [hs', ← once_loadView hready₁.position]
    rfl
  have hready' : m'.state.Ready (Cancelled m'.history) [] := by
    rw [hstate]
    have ht := hready₁.toTidy.unplaced hs₁
    rw [hq₁] at ht
    exact ht.moved rfl hready₁.position
  obtain ⟨f, hf⟩ := (hready₁.toTidy.unplaced hs₁).consistent.moved_eq rfl m₁.state.frontViewPosition
  refine ⟨by simp [hf'], ?_, fun hl => ?_, fun hp => ?_⟩
  · rw [Deferred.Blocks.outcome_of_idle hf', hq']
    exact hready'
  · rw [hstate, hf] at hl
    exact absurd (show true = false from hl) (by decide)
  · rw [hstate, hf] at hp
    exact absurd (hpan₁.symm.trans hp) (by decide)

/-- What the beginning of a drag comes to. -/
theorem run_panBegan (hq : m.queue = []) (hf : m.inFlight = [])
    (hr : Runs.run (revealBlocks V K).exec m
      [.enqueue .dummy, .act .handleRevealGestureStateBegan] = some m') :
    m' =
      { state := m.state.act .handleRevealGestureStateBegan
        queue := [.dummy]
        inFlight := []
        history := m.history ++ [.queued .dummy] ++ [.acted .handleRevealGestureStateBegan] } := by
  obtain ⟨m₁, h₁, h₂⟩ := Runs.run_cons hr
  obtain ⟨m₂, h₃, h₄⟩ := Runs.run_cons h₂
  have hm₁ : m₁ = { m.log (.queued .dummy) with queue := [.dummy] } := by
    cases h₁
    simp [Deferred.Blocks.enqueue, hq, Deferred.Blocks.drive, revealBlocks, runBlock,
      Deferred.Queue.log]
  subst hm₁
  cases h₃
  cases h₄
  simp [Deferred.Queue.log, hf, revealBlocks]

theorem Sound.panBegan (h : Sound m) (hs : m.state.isViewLoaded = true) (hq : m.queue = [])
    (hf : m.inFlight = [])
    (hr : Runs.run (revealBlocks V K).exec m
      [.enqueue .dummy, .act .handleRevealGestureStateBegan] = some m') : Sound m' := by
  have hready := h.idle hf
  rw [run_panBegan hq hf hr]
  have hc : Cancelled (m.history ++ [.queued .dummy] ++ [.acted .handleRevealGestureStateBegan]) ↔
      Cancelled m.history := by
    simp [Cancelled]
  rw [hq] at hready
  refine ⟨by simp, ?_, fun hl => ?_, fun _ => ⟨by simp, rfl⟩⟩
  · rw [Deferred.Blocks.outcome_of_idle rfl]
    simp only [hc]
    exact hready.began
  · exact absurd (hs.symm.trans hl) (by decide)

theorem Sound.dragged (h : Sound m) (hpan : m.state.panning = true) :
    m.state.Dragged m.queue.tail := by
  have hr := h.idle (h.panning hpan).2
  refine ⟨hr.toTidy, hr.position, ?_, hpan⟩
  cases hs : m.state.isViewLoaded with
  | true => rfl
  | false => exact absurd ((h.unloaded hs).2.2.symm.trans hpan) (by decide)

theorem Sound.panChanged (h : Sound m) (hpan : m.state.panning = true) (translation : K)
    (hr : Runs.run (revealBlocks V K).exec m
      [.act (.handleRevealGestureStateChanged translation)] = some m') : Sound m' := by
  obtain ⟨hq, hf⟩ := h.panning hpan
  have hd := (h.dragged hpan).changed translation
  cases hr
  have hc : Cancelled (m.history ++ [.acted (.handleRevealGestureStateChanged translation)]) ↔
      Cancelled m.history := by
    simp [Cancelled]
  refine ⟨h.inFlight, ?_, fun hl => ?_, fun _ => ⟨hq, hf⟩⟩
  · rw [Deferred.Blocks.outcome_of_idle (by exact hf)]
    simp only [Deferred.Queue.log, hc]
    exact hd.ready
  · exact absurd (hd.isViewLoaded.symm.trans hl) (by decide)

theorem Sound.panEnded (h : Sound m) (hpan : m.state.panning = true) (velocity : K)
    (hr : Runs.run (revealBlocks V K).exec m [.call (.handleRevealGestureStateEnded velocity)] =
      some m') : Sound m' := by
  obtain ⟨hq, hf⟩ := h.panning hpan
  have hd := h.dragged hpan
  cases hr
  have hc : Cancelled (m.history ++ [.called (.handleRevealGestureStateEnded velocity)]) ↔
      Cancelled m.history := by
    simp [Cancelled]
  have hready := keeps_ready.call hf (b := .handleRevealGestureStateEnded velocity) (by
    simp only [hc]
    rw [once_handleRevealGestureStateEnded hd.isViewLoaded]
    exact hd.toTidy.released.moved hd.isViewLoaded (RevealProperties.dragTarget_ne_none _ _))
  have hl := isViewLoaded_call (m.state.isViewLoaded_runBlock
    (.handleRevealGestureStateEnded velocity) hd.isViewLoaded)
  have hp := panning_call (m := m) (b := .handleRevealGestureStateEnded velocity)
    (samePhase_setFrontViewPosition _ _ _).panning
  refine ⟨?_, hready, fun hf => absurd (hl.symm.trans hf) (by decide),
    fun ht => absurd (hp.symm.trans ht) (by decide)⟩
  exact Deferred.Blocks.inFlight_exec h.inFlight
    (o := .call (.handleRevealGestureStateEnded velocity)) hf rfl

theorem Sound.panCancelled (h : Sound m) (hpan : m.state.panning = true)
    (hr : Runs.run (revealBlocks V K).exec m [.act .handleRevealGestureStateCancelled, .dequeue] =
      some m') : Sound m' := by
  obtain ⟨hq, hf⟩ := h.panning hpan
  have hd := h.dragged hpan
  obtain ⟨m₁, h₁, h₂⟩ := Runs.run_cons hr
  obtain ⟨m₂, h₃, h₄⟩ := Runs.run_cons h₂
  cases h₄
  have hf₁ : m₁.inFlight = [] := by
    cases h₁
    exact hf
  have hready : m₁.state.Ready (Cancelled m₁.history) m₁.queue.tail := by
    cases h₁
    have hc : Cancelled (m.history ++ [.acted .handleRevealGestureStateCancelled]) := by
      simp [Cancelled]
    simp only [Deferred.Queue.log, hc]
    have hready : m.state.Ready True m.queue.tail := hd.ready
    exact hready.cancel
  have hl₁ : m₁.state.isViewLoaded = true := by
    cases h₁
    exact hd.isViewLoaded
  have hp₁ : m₁.state.panning = false := by
    cases h₁
    rfl
  have hl := isViewLoaded_exec (fun a ha => by cases ha) h₃ hl₁
  have hp := panning_exec (fun a ha => by cases ha) h₃ hp₁
  cases h₃
  refine ⟨Deferred.Blocks.inFlight_drive hf₁ _, keeps_ready.drive hf₁ hready,
    fun hf => absurd (hl.symm.trans hf) (by decide),
    fun ht => absurd (hp.symm.trans ht) (by decide)⟩

theorem Sound.tap (h : Sound m) (hs : m.state.isViewLoaded = true) (hf : m.inFlight = [])
    (hq : m.queue = [])
    (hr : Runs.run (revealBlocks V K).exec m [.call .handleTapGesture] = some m') : Sound m' := by
  have hready := h.idle hf
  have hpan : m.state.panning = false := by
    cases hp : m.state.panning with
    | true => exact absurd hq (h.panning hp).1
    | false => rfl
  cases hr
  have hc : Cancelled (m.history ++ [.called .handleTapGesture]) ↔ Cancelled m.history := by
    simp [Cancelled]
  have hready' := keeps_ready.call hf (b := .handleTapGesture) (by
    simp only [hc]
    rw [once_handleTapGesture hs]
    exact hready.toTidy.moved hs (by decide))
  have hl := isViewLoaded_call (m.state.isViewLoaded_runBlock .handleTapGesture hs)
  have hp := panning_call (m.state.panning_runBlock .handleTapGesture hpan)
  refine ⟨?_, hready', fun hf => absurd (hl.symm.trans hf) (by decide),
    fun ht => absurd (hp.symm.trans ht) (by decide)⟩
  exact Deferred.Blocks.inFlight_exec h.inFlight (o := .call .handleTapGesture) hf rfl

theorem Sound.finish (h : Sound m) (i : Nat)
    (hr : Runs.run (revealBlocks V K).exec m [.finish i] = some m') : Sound m' := by
  obtain ⟨m₁, h₁, h₂⟩ := Runs.run_cons hr
  cases h₂
  have hne : m.inFlight ≠ [] := by
    rintro hf
    simp [Deferred.Blocks.exec, Deferred.Blocks.finish, hf] at h₁
  have hs : m.state.isViewLoaded = true := by
    cases hs : m.state.isViewLoaded with
    | true => rfl
    | false => exact absurd (h.unloaded hs).2.1 hne
  have hpan : m.state.panning = false := by
    cases hp : m.state.panning with
    | true => exact absurd (h.panning hp).2 hne
    | false => rfl
  have hl := isViewLoaded_exec (fun a ha => by cases ha) h₁ hs
  have hp := panning_exec (fun a ha => by cases ha) h₁ hpan
  have hop : (revealBlocks V K).Orderly m (.finish i) := trivial
  refine ⟨Deferred.Blocks.inFlight_exec h.inFlight hop h₁,
    keeps_ready.exec h.inFlight hop (fun _ => trivial) h₁ h.ready,
    fun hf => absurd (hl.symm.trans hf) (by decide),
    fun ht => absurd (hp.symm.trans ht) (by decide)⟩

/-- A replacement before the view is loaded. -/
theorem Sound.replaceUnloaded (h : Sound m) (hs : m.state.isViewLoaded = false)
    {operation : SWRevealControllerOperation} {new : Option V} (hnew : Unused m new)
    (hr : Runs.run (revealBlocks V K).exec m
      [.call (.performTransitionOperation operation new false)] = some m') : Sound m' := by
  obtain ⟨hq, hf, -⟩ := h.unloaded hs
  have hready := h.idle hf
  rw [hq] at hready
  have hb := hready.append (b := .performTransitionOperation operation new false) trivial
    fun v hv => ⟨(hnew v hv).1, by simp⟩
  have hplain : ∀ b ∈ [RevealBlock.performTransitionOperation (K := K) operation new false],
      Plain b := fun b hb => ⟨operation, new, List.mem_singleton.mp hb⟩
  exact (h.callAll hs hplain hb hr).1

/-- The blocks of `pushFrontViewController:animated:` may wait. -/
theorem Sound.ready_push (h : Sound m) (hs : m.state.isViewLoaded = true) {new : Option V}
    (hnew : Unused m new) (animated : Bool) :
    ((revealBlocks V K).outcome m).Ready (Cancelled m.history)
      (m.queue.tail ++ m.state.pushFrontViewController new animated) := by
  have hl := (outcome_frame m).1.isViewLoaded.trans hs
  have hinstalls {p : FrontViewPosition} {d : K} {P : V → Prop} :
      ∀ v, installs (RevealBlock.setFrontViewPosition (V := V) p d) = some v → P v :=
    fun v hv => absurd hv (by simp [installs])
  have hnew' : ∀ v, new = some v →
      (∀ c, ((revealBlocks V K).outcome m).controller c ≠ some v) ∧
        v ∉ m.queue.tail.filterMap installs := by
    simp only [(outcome_frame m).2]
    exact hnew
  have hp : m.state.preReplacementPosition ≠ .none := by
    unfold preReplacementPosition
    repeat' split
    all_goals decide
  unfold pushFrontViewController
  extract_lets duration initialPosDif firstDuration
  cases animated with
  | false =>
      exact h.ready.append (b := .performTransitionOperation .replaceFrontController new false)
        trivial hnew'
  | true =>
      have h₁ := h.ready.append (b := .setFrontViewPosition m.state.preReplacementPosition
        firstDuration) ⟨hp, hl⟩ hinstalls
      have h₂ := h₁.append (b := .performTransitionOperation .replaceFrontController new false)
        trivial (by simpa [installs] using hnew')
      have h₃ := h₂.append (b := .setFrontViewPosition .left duration) ⟨by decide, hl⟩ hinstalls
      simpa only [List.append_assoc, List.cons_append, List.nil_append, if_true] using h₃

/-- What does not get in the way of a completion may be done at any time. -/
theorem Sound.act (h : Sound m) (hs : m.state.isViewLoaded = true) {a : RevealAction K}
    (ha : a ≠ .handleRevealGestureStateCancelled)
    (hcomm : ∀ (s : Reveal V K) d, (s.act a).complete d = (s.complete d).act a)
    (hphase : SamePhase m.state (m.state.act a))
    (hready : ∀ {s : Reveal V K} {cancelled : Prop} {queue : List (RevealBlock V K)},
      s.Ready cancelled queue → (s.act a).Ready cancelled queue)
    (hr : Runs.run (revealBlocks V K).exec m [.act a] = some m') : Sound m' := by
  have hop : (revealBlocks V K).Orderly m (.act a) := fun d _ s => hcomm s d
  have ho := Deferred.Blocks.outcome_act hop
  cases hr
  have hc : Cancelled (m.history ++ [.acted a]) ↔ Cancelled m.history := by
    simp [Cancelled, ha.symm]
  refine ⟨h.inFlight, ?_, fun hl => ?_, fun hp => h.panning (hphase.panning.symm.trans hp)⟩
  · rw [ho]
    simp only [Deferred.Queue.log, hc]
    exact hready h.ready
  · exact absurd ((hphase.isViewLoaded.trans hs).symm.trans hl) (by decide)

/-- **One event**, if it is fair, keeps the controller sound. -/
theorem Sound.step (h : Sound m) {e : RevealEvent V K} (he : Fair m e)
    (hr : Reveal.step m e = some m') : Sound m' := by
  obtain ⟨ops, hops, hr⟩ := Option.bind_eq_some_iff.mp hr
  cases e with
  | loadView storyboard =>
      simp only [Reveal.ops] at hops
      split at hops
      · contradiction
      · next hs =>
        cases hops
        exact h.loadView (by simpa using hs) he hr
  | setFrontViewPosition position animated =>
      cases hops
      exact h.setFrontViewPosition he.2 he.1 animated hr
  | revealToggle animated =>
      cases hops
      refine h.setFrontViewPosition he ?_ animated hr
      unfold toggledPosition
      split <;> decide
  | rightRevealToggle animated =>
      cases hops
      refine h.setFrontViewPosition he ?_ animated hr
      unfold rightToggledPosition
      split <;> decide
  | setViewController operation new animated =>
      simp only [Reveal.ops] at hops
      split at hops
      · next hs =>
        cases hops
        exact h.enqueue hs he.2 (b := .performTransitionOperation operation new animated) trivial
          he.1 hr
      · next hs =>
        cases hops
        exact h.replaceUnloaded (by simpa using hs) he.1 hr
  | pushFrontViewController new animated =>
      simp only [Reveal.ops] at hops
      split at hops
      · next hs =>
        cases hops
        exact h.enqueueAll hs he.2 (h.ready_push hs he.1 animated) hr
      · next hs =>
        cases hops
        exact h.replaceUnloaded (by simpa using hs) he.1 hr
  | panBegan translation xLocation width =>
      simp only [Reveal.ops] at hops
      split at hops
      · next hg =>
        cases hops
        have hq : m.queue = [] := by simpa using hg.2.2.1
        exact h.panBegan hg.1 hq (he hq) hr
      · contradiction
  | panChanged translation =>
      simp only [Reveal.ops] at hops
      split at hops
      · next hp =>
        cases hops
        exact h.panChanged hp translation hr
      · contradiction
  | panEnded velocity =>
      simp only [Reveal.ops] at hops
      split at hops
      · next hp =>
        cases hops
        exact h.panEnded hp velocity hr
      · contradiction
  | panCancelled =>
      simp only [Reveal.ops] at hops
      split at hops
      · next hp =>
        cases hops
        exact h.panCancelled hp hr
      · contradiction
  | tap =>
      simp only [Reveal.ops] at hops
      split at hops
      · next hg =>
        cases hops
        have hq : m.queue = [] := by simpa using hg.2.1
        exact h.tap hg.1 (he hq) hq hr
      · contradiction
  | completion i =>
      cases hops
      exact h.finish i hr
  | layoutSubviews =>
      simp only [Reveal.ops] at hops
      split at hops
      · next hs =>
        cases hops
        exact h.act hs (by simp) complete_layoutSubviews (samePhase_layoutSubviews _)
          Ready.layoutSubviews hr
      · contradiction
  | viewDidAppear =>
      simp only [Reveal.ops] at hops
      split at hops
      · next hs =>
        cases hops
        exact h.act hs (by simp) complete_viewDidAppear ⟨rfl, rfl⟩ Ready.viewDidAppear hr
      · contradiction

/-! ## runs -/

/-- As it is launched the controller is sound. -/
theorem sound_initWithCoder (properties : RevealProperties K) :
    Sound (initWithCoder (V := V) properties) := by
  refine ⟨by simp [initWithCoder], ?_, fun _ => ⟨rfl, rfl, rfl⟩, fun hp => ?_⟩
  · rw [Deferred.Blocks.outcome_of_idle rfl]
    have hn (c : RevealContainer) :
        (initWithCoder (V := V) properties).state.controller c = none := by
      cases c <;> rfl
    refine ⟨⟨⟨?_, fun _ _ => rfl, rfl, rfl, ?_, ?_⟩, ?_, ?_, ?_, fun _ => ⟨rfl, rfl⟩⟩, ?_, ?_⟩
    · intro hs
      exact absurd (show false = true from hs) (by decide)
    · intro v
      simp [hn]
      rfl
    · simp [hn]
    · simp [initWithCoder]
    · simp [initWithCoder]
    · simp [initWithCoder]
    · simp [initWithCoder]
    · intro _ hs
      exact absurd (show false = true from hs) (by decide)
  · exact absurd (show false = true from hp) (by decide)

/-- **Every fair run** keeps the controller sound. -/
theorem sound_of_run {es : List (RevealEvent V K)} (hr : Runs.run step m es = some m')
    (hes : Runs.Meets step Fair m es) (h : Sound m) : Sound m' :=
  Runs.inv_of_run (fun _ _ _ h he hr => h.step he hr) hr hes h

/-- A toggle leaves nothing in flight that is not queued. -/
theorem undisturbed_revealToggle {animated : Bool} (hu : Deferred.Blocks.Undisturbed m)
    (h : step m (.revealToggle animated) = some m') : Deferred.Blocks.Undisturbed m' := by
  obtain ⟨l, hl, hr⟩ := Option.bind_eq_some_iff.mp h
  cases hl
  unfold setFrontViewPositionOps at hr
  split at hr
  · cases hr
    exact Deferred.Blocks.undisturbed_enqueue hu _
  · cases hr
    exact hu

/-- Toggles are fair, however quickly they follow each other. -/
theorem meets_fair_toggles (hu : Deferred.Blocks.Undisturbed m) (animated : List Bool) :
    Runs.Meets step Fair m (animated.map .revealToggle) := by
  induction animated generalizing m with
  | nil => trivial
  | cons a animated ih =>
      refine ⟨hu, ?_⟩
      split
      · next m' hm' => exact ih (undisturbed_revealToggle hu hm')
      · trivial

/-- The storyboard is loaded, and the menu toggled. -/
theorem meets_fair_main (animated : List Bool) :
    Runs.Meets step Fair mainRevealController
      (.loadView (some mainStoryboard) :: animated.map .revealToggle) := by
  refine ⟨fair_loadView _ fun _ _ _ => mainStoryboard_injective, ?_⟩
  split
  · next m hm =>
    have hf : (step mainRevealController (.loadView (some mainStoryboard))).map
        (fun m => m.inFlight.isEmpty) = some true := by decide +kernel
    rw [hm] at hf
    exact meets_fair_toggles (fun _ => by simpa using hf) animated
  · trivial

end Reveal

end StreetParker
