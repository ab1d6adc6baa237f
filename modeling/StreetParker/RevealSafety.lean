import StreetParker.RevealFlow

/-!
# StreetParker.RevealSafety

What the reveal controller guarantees over whole runs, and what it does not.
-/

namespace StreetParker

namespace Reveal

variable {V K : Type*} [DecidableEq V] [Field K] [LinearOrder K] [Rounding K]

variable {m m' : RevealMachine V K}

/-! ## one block after the other -/

/-- A move, requested or done at once. -/
theorem Sound.orderly_setFrontViewPosition (h : Sound m) (hu : Deferred.Blocks.Undisturbed m)
    (p : FrontViewPosition) (animated : Bool) :
    Runs.Meets (revealBlocks V K).exec (revealBlocks V K).Orderly m
      (m.state.setFrontViewPositionOps p animated) := by
  unfold setFrontViewPositionOps
  split
  · exact Deferred.Blocks.orderly_enqueueAll hu [_]
  · next hs =>
    have hf := (h.unloaded (by simpa using hs)).2.1
    exact ⟨fun d hd => absurd hd (by simp [hf]), trivial⟩

/-- What is done at once before the view is loaded. -/
theorem Sound.orderly_call (h : Sound m) (hs : ¬m.state.isViewLoaded = true)
    {blocks : List (RevealBlock V K)}
    (hblocks : ∀ b ∈ blocks, ∀ s, ∃ s' d, (revealBlocks V K).run b s = (s', .now d)) :
    Runs.Meets (revealBlocks V K).exec (revealBlocks V K).Orderly m (blocks.map .call) := by
  obtain ⟨hq, hf, -⟩ := h.unloaded (by simpa using hs)
  exact Deferred.Blocks.orderly_callAll hf hblocks hq

/-- A replacement before the view is loaded. -/
theorem Sound.orderly_replace (h : Sound m) (hs : ¬m.state.isViewLoaded = true)
    (operation : SWRevealControllerOperation) (new : Option V) :
    Runs.Meets (revealBlocks V K).exec (revealBlocks V K).Orderly m
      [.call (.performTransitionOperation operation new false)] := by
  have hplain : ∀ b ∈ [RevealBlock.performTransitionOperation (K := K) operation new false],
      Plain b := fun _ hb => ⟨operation, new, List.mem_singleton.mp hb⟩
  exact h.orderly_call hs fun b hb => (hplain b hb).run

/-- A gesture begins on an empty queue, so its block is run at once. -/
theorem orderly_panBegan (hq : m.queue = []) (hf : m.inFlight = []) :
    Runs.Meets (revealBlocks V K).exec (revealBlocks V K).Orderly m
      [.enqueue .dummy, .act .handleRevealGestureStateBegan] := by
  refine ⟨fun _ => hf, fun d hd => absurd hd ?_, trivial⟩
  simp [Deferred.Blocks.enqueue, hq, Deferred.Blocks.drive, revealBlocks, runBlock, hf,
    Deferred.Queue.log]

/-- In a sound controller a fair event does only what is orderly. -/
theorem Sound.orderly (h : Sound m) {e : RevealEvent V K} (he : Fair m e)
    {l : List (Deferred.Op (RevealBlock V K) (RevealAction K))} (hl : ops m e = some l) :
    Runs.Meets (revealBlocks V K).exec (revealBlocks V K).Orderly m l := by
  have hact {a : RevealAction K} (hcomm : ∀ d ∈ m.inFlight, ∀ s : Reveal V K,
      (s.act a).complete d = (s.complete d).act a) :
      Runs.Meets (revealBlocks V K).exec (revealBlocks V K).Orderly m [.act a] :=
    ⟨hcomm, trivial⟩
  cases e with
  | loadView storyboard =>
      simp only [ops] at hl
      split at hl
      · contradiction
      · next hs =>
        cases hl
        refine h.orderly_call hs fun b hb s => ?_
        rcases List.mem_append.mp hb with hb | hb
        · exact (m.state.plain_loadStoryboardControllers storyboard b hb).run s
        · rw [List.mem_singleton.mp hb]
          exact s.run_loadView
  | setFrontViewPosition position animated =>
      cases hl
      exact h.orderly_setFrontViewPosition he.2 _ _
  | revealToggle animated =>
      cases hl
      exact h.orderly_setFrontViewPosition he _ _
  | rightRevealToggle animated =>
      cases hl
      exact h.orderly_setFrontViewPosition he _ _
  | setViewController operation new animated =>
      simp only [ops] at hl
      split at hl
      · cases hl
        exact Deferred.Blocks.orderly_enqueueAll he.2 [_]
      · next hs =>
        cases hl
        exact h.orderly_replace hs operation new
  | pushFrontViewController new animated =>
      simp only [ops] at hl
      split at hl
      · cases hl
        exact Deferred.Blocks.orderly_enqueueAll he.2 _
      · next hs =>
        cases hl
        exact h.orderly_replace hs .replaceFrontController new
  | panBegan translation xLocation width =>
      simp only [ops] at hl
      split at hl
      · next hg =>
        cases hl
        have hq : m.queue = [] := by simpa using hg.2.2.1
        exact orderly_panBegan hq (he hq)
      · contradiction
  | panChanged translation =>
      simp only [ops] at hl
      split at hl
      · next hp =>
        cases hl
        exact hact fun d hd => absurd hd (by simp [(h.panning hp).2])
      · contradiction
  | panEnded velocity =>
      simp only [ops] at hl
      split at hl
      · next hp =>
        cases hl
        exact ⟨(h.panning hp).2, trivial⟩
      · contradiction
  | panCancelled =>
      simp only [ops] at hl
      split at hl
      · next hp =>
        cases hl
        have hf := (h.panning hp).2
        exact ⟨fun d hd => absurd hd (by simp [hf]), hf, trivial⟩
      · contradiction
  | tap =>
      simp only [ops] at hl
      split at hl
      · next hg =>
        cases hl
        have hq : m.queue = [] := by simpa using hg.2.1
        exact ⟨he hq, trivial⟩
      · contradiction
  | completion i =>
      cases hl
      refine ⟨trivial, ?_⟩
      cases (revealBlocks V K).exec m (.finish i) <;> trivial
  | layoutSubviews =>
      simp only [ops] at hl
      split at hl
      · cases hl
        exact hact fun d _ s => complete_layoutSubviews s d
      · contradiction
  | viewDidAppear =>
      simp only [ops] at hl
      split at hl
      · cases hl
        exact hact fun d _ s => complete_viewDidAppear s d
      · contradiction

/-- **Animations do not overlap**: after every fair run at most one is in flight,
and what the controller comes to when it has ended is what the blocks and actions
so far come to when each is done before the next begins. -/
theorem one_by_one_of_run {properties : RevealProperties K} {es : List (RevealEvent V K)}
    (hr : Runs.run step (initWithCoder properties) es = some m)
    (hes : Runs.Meets step Fair (initWithCoder properties) es) :
    m.inFlight.length ≤ 1 ∧
      (revealBlocks V K).outcome m =
        m.history.foldl (revealBlocks V K).replay (initWithCoder properties).state := by
  have hinv := Runs.inv_of_run
    (P := fun m => Sound m ∧
      (revealBlocks V K).Holds ((revealBlocks V K).Serial (initWithCoder properties).state) m)
    ?_ hr hes ⟨sound_initWithCoder properties, rfl⟩
  · exact ⟨hinv.1.inFlight, hinv.2⟩
  · intro m e m' hm he hstep
    refine ⟨hm.1.step he hstep, ?_⟩
    obtain ⟨l, hl, hrun⟩ := Option.bind_eq_some_iff.mp hstep
    exact (Deferred.Blocks.serial_of_run hrun (hm.1.orderly he hl) hm.1.inFlight hm.2).2

/-- The menu is toggled twice: the second toggle waits for the first. -/
theorem one_by_one_of_run_main :
    ∃ m, Runs.run step mainRevealController
        (.loadView (some mainStoryboard) :: [true, true].map .revealToggle) = some m ∧
      m.inFlight.length = 1 ∧ m.queue.length = 2 ∧
      m.inFlight.length ≤ 1 ∧
        (revealBlocks RevealScene ℚ).outcome m =
          m.history.foldl (revealBlocks RevealScene ℚ).replay mainRevealController.state := by
  obtain ⟨m, hm, hl⟩ := Option.map_eq_some_iff.mp
    (show (Runs.run step mainRevealController
        (.loadView (some mainStoryboard) :: [true, true].map .revealToggle)).map
      (fun m => (m.inFlight.length, m.queue.length)) = some (1, 2) by decide +kernel)
  obtain ⟨hf, hq⟩ := Prod.mk.inj hl
  exact ⟨m, hm, hf, hq, one_by_one_of_run hm (meets_fair_main [true, true])⟩

/-! ## the view hierarchy -/

/-- **The hierarchy follows the positions**: after every fair run, when no
animation is in flight, the view of a controller is in a side container exactly
when it is the controller of that side and the front view stands so that the
container is seen; and so for the front container, when the front view is not
removed. -/
theorem superview_iff_of_run {properties : RevealProperties K} {es : List (RevealEvent V K)}
    (hr : Runs.run step (initWithCoder properties) es = some m)
    (hes : Runs.Meets step Fair (initWithCoder properties) es) (hf : m.inFlight = [])
    {c : RevealContainer} (hc : c ≠ .frontView ∨ c.isShown (m.state.position c) = true) (v : V) :
    m.state.superview v = some c ↔
      m.state.isViewLoaded = true ∧ c.isShown (m.state.position c) = true ∧
        m.state.controller c = some v := by
  have hcons := ((sound_of_run hr hes (sound_initWithCoder properties)).idle hf).consistent
  cases hs : m.state.isViewLoaded with
  | false =>
      rw [hcons.elsewhere v fun hs' => absurd (hs.symm.trans hs') (by decide)]
      simp
  | true =>
      by_cases hshown : c.isShown (m.state.position c) = true
      · rw [hcons.superview_iff hs hshown]
        simp [hshown]
      · have hn : c ≠ .frontView := hc.resolve_right hshown
        have hshown : c.isShown (m.state.position c) = false := by simpa using hshown
        simp [hshown, hcons.superview_ne hs hshown hn]

/-- The menu is behind the tabs once it is opened. -/
theorem superview_iff_of_run_main :
    ∃ m, Runs.run step mainRevealController
        [.loadView (some mainStoryboard), .revealToggle false] = some m ∧
      (m.state.superview .burgerMenuVC = some .rearView ↔
        m.state.isViewLoaded = true ∧
          RevealContainer.rearView.isShown (m.state.position .rearView) = true ∧
          m.state.controller .rearView = some .burgerMenuVC) := by
  obtain ⟨m, hm, hf⟩ := Option.map_eq_some_iff.mp
    (show (Runs.run step mainRevealController
        [.loadView (some mainStoryboard), .revealToggle false]).map
          (fun m => m.inFlight.isEmpty) = some true by decide +kernel)
  exact ⟨m, hm, superview_iff_of_run hm (meets_fair_main [false]) (by simpa using hf)
    (.inl (by decide)) _⟩

/-- No event but a cancelled drag is recorded as one. -/
theorem cancelled_step {e : RevealEvent V K} (he : e ≠ .panCancelled) (h : step m e = some m') :
    Cancelled m'.history ↔ Cancelled m.history := by
  obtain ⟨l, hl, hrun⟩ := Option.bind_eq_some_iff.mp h
  refine Deferred.Blocks.acted_mem_run _ (fun op hop => ?_) hrun
  rintro rfl
  exact he (serves_of_mem hl _ hop)

theorem not_cancelled_of_run {properties : RevealProperties K} {es : List (RevealEvent V K)}
    (hr : Runs.run step (initWithCoder properties) es = some m)
    (hes : RevealEvent.panCancelled ∉ es) : ¬Cancelled m.history := by
  refine Runs.inv_of_run (P := fun m => ¬Cancelled m.history) ?_ hr
    (Runs.meets_of_forall (E := fun e => e ≠ .panCancelled) ?_ _) ?_
  · exact fun m e m' hm he h => (cancelled_step he h).not.mpr hm
  · exact fun e he he' => hes (he' ▸ he)
  · simp [initWithCoder, Cancelled]

/-- **The sides follow the front view**: after every fair run in which no drag was
cancelled, when no animation is in flight and no drag is under way, a side is
open exactly when the front view stands to its side of the middle, the front
view is where its position says, and touches are handled as they were stored. -/
theorem settled_of_run {properties : RevealProperties K} {es : List (RevealEvent V K)}
    (hr : Runs.run step (initWithCoder properties) es = some m)
    (hes : Runs.Meets step Fair (initWithCoder properties) es)
    (hcancelled : RevealEvent.panCancelled ∉ es) (hf : m.inFlight = [])
    (hs : m.state.isViewLoaded = true) (hpan : m.state.panning = false) :
    m.state.Settled ∧ m.state.userInteractionEnabled = m.state.userInteractionStore ∧
      m.state.disableLayout = false := by
  have hready := (sound_of_run hr hes (sound_initWithCoder properties)).idle hf
  exact ⟨hready.settled (not_cancelled_of_run hr hcancelled) hs hpan, hready.interaction hpan⟩

/-- The menu is open after a toggle. -/
theorem settled_of_run_main :
    ∃ m, Runs.run step mainRevealController
        [.loadView (some mainStoryboard), .revealToggle false] = some m ∧
      m.state.Settled ∧ m.state.userInteractionEnabled = m.state.userInteractionStore ∧
        m.state.disableLayout = false := by
  obtain ⟨m, hm, hf⟩ := Option.map_eq_some_iff.mp
    (show (Runs.run step mainRevealController
        [.loadView (some mainStoryboard), .revealToggle false]).map
          (fun m => (m.inFlight.isEmpty, m.state.isViewLoaded, m.state.panning)) =
            some (true, true, false) by decide +kernel)
  simp only [Prod.mk.injEq, List.isEmpty_iff] at hf
  exact ⟨m, hm, settled_of_run hm (meets_fair_main [false]) (by simp) hf.1 hf.2.1 hf.2.2⟩

/-! ## pushing a front controller -/

/-- What a controller comes to when a new front controller is pushed. -/
theorem Sound.final_push (h : Sound m) (hs : m.state.isViewLoaded = true)
    (hu : Deferred.Blocks.Undisturbed m) {new : Option V} (hnew : Unused m new)
    (hr : Runs.run (revealBlocks V K).exec m ((m.state.pushFrontViewController new true).map
      .enqueue) = some m') :
    ∃ s : Reveal V K, s.Consistent ∧ s.isViewLoaded = true ∧ s.frontViewController = new ∧
      (revealBlocks V K).final m' = s.moved .left := by
  have hready := h.ready_push hs hnew true
  rw [Deferred.Blocks.final_enqueueAll h.inFlight hu hr]
  unfold Deferred.Blocks.final
  revert hready
  unfold pushFrontViewController
  extract_lets duration initialPosDif firstDuration
  intro hready
  have h₃ := hready.foldl.once.once
  have hq := h₃.queueable _ List.mem_cons_self
  refine ⟨_, h₃.consistent, hq.2, ?_, once_setFrontViewPosition hq.2 hq.1 duration⟩
  rw [once_performTransitionOperation]
  exact controller_replaced _ .frontView new .frontView

/-- **Pushing a front controller** after whatever waits, animated: when the
animations have ended the front view is back in the middle, the new view is in
front and no other is, and the sides are closed; only a controller that presents
the front view hierarchically keeps the rear side. -/
theorem push_of_run {properties : RevealProperties K} {es : List (RevealEvent V K)}
    (hr : Runs.run step (initWithCoder properties) es = some m)
    (hes : Runs.Meets step Fair (initWithCoder properties) es) (hs : m.state.isViewLoaded = true)
    {new : V} (hnew : Fair m (.pushFrontViewController (some new) true)) {is : List Nat}
    (hr' : Runs.run step m (.pushFrontViewController (some new) true :: is.map .completion) =
      some m')
    (hq : m'.queue = []) (hf : m'.inFlight = []) :
    m'.state.frontViewPosition = .left ∧
      (∀ v, m'.state.superview v = some .frontView ↔ v = new) ∧
      (∀ v, m'.state.superview v ≠ some .rightView) ∧
      (m'.state.properties.presentFrontViewHierarchically = false →
        ∀ v, m'.state.superview v ≠ some .rearView) := by
  have h := sound_of_run hr hes (sound_initWithCoder properties)
  obtain ⟨m₁, hm₁, hr₁⟩ := Runs.run_cons hr'
  have h₁ := h.step hnew hm₁
  obtain ⟨l, hl, hm₁⟩ := Option.bind_eq_some_iff.mp hm₁
  simp only [ops, hs, if_true, Option.some.injEq] at hl
  subst hl
  obtain ⟨s, hc, hs', hnew', hfinal⟩ := h.final_push hs hnew.2 hnew.1 hm₁
  have hm' : m'.state = s.moved .left := by
    rw [← Deferred.Blocks.final_of_rest hq hf,
      Deferred.Blocks.final_of_finishes (run_completions m₁ is ▸ hr₁) h₁.inFlight, hfinal]
  have hc' := hc.moved hs' .left
  obtain ⟨f, hf⟩ := hc.moved_eq hs' .left
  rw [hm']
  have hp (c : RevealContainer) : (s.moved .left).position c = s.target .left c := by
    rw [hf]
    cases c <;> rfl
  have hl' : (s.moved .left).isViewLoaded = true := by
    rw [hf]
    exact hs'
  have hfront : (s.moved .left).position .frontView = .left := by
    rw [hp]
    simp [target, FrontViewPosition.lt_def]
  have hright : (s.moved .left).position .rightView = .left := by
    rw [hp]
    simp [target, FrontViewPosition.lt_def]
  refine ⟨hfront, fun v => ?_, fun v => ?_, fun hhier v => ?_⟩
  · rw [hc'.superview_iff hl' (by rw [hfront]; rfl)]
    show (s.moved .left).frontViewController = some v ↔ _
    rw [hf]
    simp [hnew', eq_comm]
  · exact hc'.superview_ne hl' (by rw [hright]; rfl) (by decide)
  · have hrear : (s.moved .left).position .rearView = .left := by
      rw [hf] at hhier
      rw [hp]
      simp [target, show s.properties.presentFrontViewHierarchically = false from hhier,
        FrontViewPosition.lt_def]
    exact hc'.superview_ne hl' (by rw [hrear]; rfl) (by decide)

/-- The storyboard, with a controller beside its own that can be pushed. -/
def pushableStoryboard (c : RevealContainer) : Option (Option RevealScene) :=
  (mainStoryboard c).map some

/-- The menu is open when a new controller is pushed in front of the tabs. -/
theorem push_of_run_main :
    ∃ m m', Runs.run step (initWithCoder (.initDefaultProperties (375 : ℚ)))
        [.loadView (some pushableStoryboard), .revealToggle false] = some m ∧
      m.state.superview (some .burgerMenuVC) = some .rearView ∧
      Runs.run step m (.pushFrontViewController (some none) true ::
        [0, 0].map .completion) = some m' ∧
      m'.state.frontViewPosition = .left ∧
        (∀ v, m'.state.superview v = some .frontView ↔ v = none) ∧
        (∀ v, m'.state.superview v ≠ some .rightView) ∧
        (m'.state.properties.presentFrontViewHierarchically = false →
          ∀ v, m'.state.superview v ≠ some .rearView) := by
  obtain ⟨m', hm', hrest⟩ := Option.map_eq_some_iff.mp
    (show (Runs.run step (initWithCoder (.initDefaultProperties (375 : ℚ)))
        ([.loadView (some pushableStoryboard), .revealToggle false] ++
          (.pushFrontViewController (some none) true :: [0, 0].map .completion))).map
        (fun m => (m.queue.isEmpty, m.inFlight.isEmpty)) = some (true, true) by
      decide +kernel)
  obtain ⟨m, hm, hr⟩ := Runs.exists_of_run_append hm'
  have hidle : (Runs.run step (initWithCoder (.initDefaultProperties (375 : ℚ)))
      [.loadView (some pushableStoryboard), .revealToggle false]).map
        (fun m => (m.state.isViewLoaded, m.inFlight.isEmpty, m.queue.isEmpty,
          m.state.superview (some .burgerMenuVC))) =
      some (true, true, true, some .rearView) := by
    decide +kernel
  have hnone : (Runs.run step (initWithCoder (.initDefaultProperties (375 : ℚ)))
      [.loadView (some pushableStoryboard), .revealToggle false]).map
        (fun m => decide (∀ c ∈ [RevealContainer.rearView, .frontView, .rightView],
          m.state.controller c ≠ some none)) = some true := by
    decide +kernel
  rw [hm] at hidle hnone
  simp only [Option.map_some, Option.some.injEq, Prod.mk.injEq, List.isEmpty_iff,
    decide_eq_true_eq] at hidle hrest hnone
  obtain ⟨hs, hf, hq, hmenu⟩ := hidle
  refine ⟨m, m', hm, hmenu, hr, push_of_run hm ?_ hs ⟨?_, fun _ => hf⟩ hr hrest.1 hrest.2⟩
  · refine ⟨fair_loadView _ fun v c c' h h' => ?_, ?_⟩
    · obtain ⟨w, hw, rfl⟩ := Option.map_eq_some_iff.mp h
      obtain ⟨w', hw', hww⟩ := Option.map_eq_some_iff.mp h'
      exact mainStoryboard_injective hw (by rwa [Option.some.inj hww] at hw')
    · split
      · next m₁ hm₁ =>
        have hf₁ : (step (initWithCoder (.initDefaultProperties (375 : ℚ)))
            (.loadView (some pushableStoryboard))).map (fun m => m.inFlight.isEmpty) =
              some true := by decide +kernel
        rw [hm₁] at hf₁
        exact meets_fair_toggles (fun _ => by simpa using hf₁) [false]
      · trivial
  · rintro _ ⟨⟩
    exact ⟨fun c => hnone c (by cases c <;> simp), by simp [hq]⟩

end Reveal

end StreetParker
