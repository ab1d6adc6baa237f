import StreetParker.RevealFlow

/-!
# StreetParker.RevealRight

A reveal controller without a right controller, which is how `Main.storyboard`
sets it up: the menu behind, the tabs in front, and nothing to the right.

* `RightClosed` — the right side is closed, and the front view at the middle or
  to the right of it;
* `rightClosed_of_run` — every run keeps it so.
-/

namespace StreetParker

open Rounding

namespace Reveal

variable {V K : Type*} {m m' : RevealMachine V K} {s t : Reveal V K}

/-! ## without a right controller -/

/-- A deployment puts nothing in another container. -/
theorem deployment_frame [DecidableEq V] (s : Reveal V K) (o : Option V) (c : RevealContainer)
    (appear disappear : Bool) :
    ∃ f, (s.deployment o c appear disappear).1 = { s with superview := f } ∧
      ∀ v, f v = s.superview v ∨ f v = some c := by
  unfold Reveal.deployment Reveal.deploy
  repeat' split
  all_goals first
    | exact ⟨s.superview, rfl, fun v => .inl rfl⟩
    | (refine ⟨_, rfl, fun v => ?_⟩
       rw [Function.update_apply]
       split
       · exact .inr rfl
       · exact .inl rfl)

variable [Field K] [LinearOrder K] [Rounding K]

/-- What holds of a controller that was never given a right controller. -/
structure RightClosed (s : Reveal V K) : Prop where
  properties : s.properties.Exact
  rightViewController : s.rightViewController = none
  rightView : s.rightView = false
  superview : ∀ v, s.superview v ≠ some .rightView
  rightViewPosition : s.isViewLoaded = true → .left ≤ s.rightViewPosition
  frontViewPosition : s.isViewLoaded = true → .left ≤ s.frontViewPosition
  xLocation : s.isViewLoaded = true →
    0 ≤ s.xLocation ∧ s.xLocation ≤ s.properties.frontLocationForPosition .rightMost

/-- A block that gives the controller no right controller. -/
def NoRight : RevealBlock V K → Prop
  | .performTransitionOperation .replaceRightController new _ => new = none
  | _ => True

/-- What is put in another container does not matter here. -/
theorem RightClosed.of_superview {f : V → Option RevealContainer} (h : s.RightClosed)
    (hf : ∀ v, f v = s.superview v ∨ f v ≠ some .rightView) :
    RightClosed { s with superview := f } :=
  { h with
    superview := by
      intro v
      show f v ≠ _
      rcases hf v with hv | hv
      · rw [hv]
        exact h.superview v
      · exact hv }

theorem frontLocationForPosition_mem [IsStrictOrderedRing K] [LawfulRounding K]
    {c : RevealProperties K} (h : c.Exact) {p : FrontViewPosition} (hp : .left ≤ p) :
    0 ≤ c.frontLocationForPosition p ∧
      c.frontLocationForPosition p ≤ c.frontLocationForPosition .rightMost := by
  have hle := RevealProperties.frontLocationForPosition_mono h hp
  rw [RevealProperties.frontLocationForPosition_left] at hle
  refine ⟨hle, ?_⟩
  by_cases hmost : p ≤ .rightMost
  · exact RevealProperties.frontLocationForPosition_mono h hmost
  · have hout : .left < p ∧ p ≠ .right := by
      revert hmost
      cases p <;> decide
    rw [RevealProperties.frontLocationForPosition_of_gt (p := .rightMost) (by decide),
      RevealProperties.frontLocationForPosition_of_gt hout.1, if_neg hout.2, if_neg (by decide)]

theorem RightClosed.layoutSubviews [IsStrictOrderedRing K] [LawfulRounding K]
    (h : s.RightClosed) : s.layoutSubviews.RightClosed := by
  unfold Reveal.layoutSubviews
  split
  · exact h
  · exact
      { h with
        xLocation := fun hs => frontLocationForPosition_mem h.properties (h.frontViewPosition hs) }

variable [DecidableEq V]

theorem RightClosed.rearViewDeployment (h : s.RightClosed) (p : FrontViewPosition) :
    (s.rearViewDeployment p).1.RightClosed := by
  unfold Reveal.rearViewDeployment
  extract_lets q q' appear disappear t
  obtain ⟨f, ht, hf⟩ := t.deployment_frame t.rearViewController .rearView appear disappear
  rw [ht]
  have htc : t.RightClosed := { h with }
  exact htc.of_superview fun v => (hf v).imp_right fun hv => by rw [hv]; decide

/-- Where no controller is to the right, no move goes to the left. -/
theorem left_le_of_isNone {p : FrontViewPosition} {noRight : Bool} (h : noRight = true) :
    .left ≤ if noRight = true ∧ p < .left then FrontViewPosition.left else p := by
  by_cases hp : p < .left
  · rw [if_pos ⟨h, hp⟩]
    decide
  · rw [if_neg (fun hn => hp hn.2)]
    exact FrontViewPosition.not_lt.mp hp

theorem RightClosed.rightViewDeployment (h : s.RightClosed) (p : FrontViewPosition) :
    (s.rightViewDeployment p).1.RightClosed := by
  unfold Reveal.rightViewDeployment
  extract_lets q appear disappear t
  have hn : s.rightViewController.isNone = true := by
    rw [h.rightViewController]
    rfl
  have hq : .left ≤ q := left_le_of_isNone hn
  have ha : appear = false := by
    have hlt : ¬q < .left := FrontViewPosition.not_lt.mpr hq
    simp [appear, hlt]
  have htc : t.RightClosed :=
    { h with
      rightView := by simp [t, ha, h.rightView]
      rightViewPosition := fun _ => hq }
  unfold Reveal.deployment
  rw [ha]
  split
  · contradiction
  · split <;> exact htc

theorem RightClosed.frontViewDeployment (h : s.RightClosed) (p : FrontViewPosition) :
    (s.frontViewDeployment p).1.RightClosed := by
  unfold Reveal.frontViewDeployment
  extract_lets q appear disappear t
  have hq : .left ≤ q := by
    unfold q
    rw [h.rightViewController]
    by_cases hp : p < .left
    · rw [if_pos (.inl ⟨rfl, hp⟩)]
      decide
    · split
      · decide
      · exact FrontViewPosition.not_lt.mp hp
  obtain ⟨f, ht, hf⟩ := t.deployment_frame t.frontViewController .frontView appear disappear
  rw [ht]
  have htc : t.RightClosed := { h with frontViewPosition := fun _ => hq }
  exact htc.of_superview fun v => (hf v).imp_right fun hv => by rw [hv]; decide

theorem RightClosed.complete (h : s.RightClosed) (d : RevealCompletion V) :
    (s.complete d).RightClosed := by
  have hu {t : Reveal V K} (ht : t.RightClosed) (o : Option V) : (t.undeployed o).RightClosed := by
    unfold undeployed
    split
    · exact ht
    · refine ht.of_superview fun v => ?_
      rw [Function.update_apply]
      split
      · exact .inr (by simp)
      · exact .inl rfl
  have he {t : Reveal V K} (ht : t.RightClosed) (c : RevealContainer) :
      (t.emptied c).RightClosed := by
    refine ht.of_superview fun v => ?_
    split
    · exact .inr (by simp)
    · exact .inl rfl
  cases d with
  | deployments rear right front =>
      have h₁ : (s.rearViewDeployed rear).RightClosed := by
        unfold rearViewDeployed
        split
        · exact { he (hu h rear.controller) .rearView with }
        · exact h
      have h₂ : ((s.rearViewDeployed rear).rightViewDeployed right).RightClosed := by
        unfold rightViewDeployed
        split
        · exact { he (hu h₁ right.controller) .rightView with rightView := rfl }
        · exact h₁
      show (((s.rearViewDeployed rear).rightViewDeployed right).frontViewDeployed
        front).RightClosed
      unfold frontViewDeployed
      split
      · exact hu h₂ front.controller
      · exact h₂
  | transition fromController toController =>
      show (s.transitioned fromController toController).RightClosed
      unfold transitioned
      split
      · exact h
      · cases fromController with
        | none => exact h
        | some v => exact { hu h (some v) with }

theorem RightClosed.performTransitionOperation (h : s.RightClosed)
    {operation : SWRevealControllerOperation} {new : Option V}
    (hnew : operation = .replaceRightController → new = none) (animated : Bool) :
    (s.performTransitionOperation operation new animated).1.RightClosed := by
  have hdeploy {t : Reveal V K} (ht : t.RightClosed) (o : Option V) {c : RevealContainer}
      (hc : c ≠ .rightView) : (t.deploy o c).RightClosed := by
    unfold deploy
    split
    · exact ht
    · next v =>
      split
      · refine ht.of_superview fun w => ?_
        rw [Function.update_apply]
        split
        · exact .inr (by simpa using hc)
        · exact .inl rfl
      · exact ht
  have htransition {t : Reveal V K} (ht : t.RightClosed) (old : Option V) {c : RevealContainer}
      (hc : c ≠ .rightView) : (t.transition old new c).RightClosed := by
    unfold transition
    split
    · exact ht
    · refine hdeploy ?_ new hc
      cases new <;> exact { ht with }
  cases operation with
  | replaceRearController =>
      exact htransition (t := { s with rearViewController := new }) { h with } _ (by decide)
  | replaceFrontController =>
      exact htransition (t := { s with frontViewController := new }) { h with } _ (by decide)
  | replaceRightController =>
      have hold : s.rightViewController = new := by rw [h.rightViewController, hnew rfl]
      show ((s.setController new .rightView).transition s.rightViewController new
        .rightView).RightClosed
      rw [transition, if_pos hold]
      exact { h with rightViewController := hnew rfl }

theorem RightClosed.setPositions (h : s.RightClosed) (hs : s.isViewLoaded = false)
    (p : FrontViewPosition) : (s.act (.setPositions p)).RightClosed :=
  { h with
    rightViewPosition := fun hs' => absurd (hs.symm.trans hs') (by decide)
    frontViewPosition := fun hs' => absurd (hs.symm.trans hs') (by decide)
    xLocation := fun hs' => absurd (hs.symm.trans hs') (by decide) }

variable [IsStrictOrderedRing K] [LawfulRounding K]

theorem RightClosed.setFrontViewPosition (h : s.RightClosed) (p : FrontViewPosition)
    (duration : K) : (s.setFrontViewPosition p duration).1.RightClosed := by
  exact (((h.rearViewDeployment p).rightViewDeployment p).frontViewDeployment p).layoutSubviews

theorem RightClosed.runBlock (h : s.RightClosed) {b : RevealBlock V K} (hb : NoRight b) :
    (s.runBlock b).1.RightClosed := by
  cases b with
  | setFrontViewPosition p duration => exact h.setFrontViewPosition p duration
  | performTransitionOperation operation new animated =>
      refine h.performTransitionOperation (fun ho => ?_) animated
      subst ho
      exact hb
  | dummy => exact h
  | loadView =>
      have ht : s.unplaced.RightClosed :=
        { h with
          rightViewPosition := fun _ => show FrontViewPosition.left ≤ .none by decide
          frontViewPosition := fun _ => show FrontViewPosition.left ≤ .none by decide
          xLocation := fun _ =>
            ⟨le_rfl, (frontLocationForPosition_mem h.properties (p := .rightMost) (by decide)).1⟩ }
      exact ht.setFrontViewPosition s.frontViewPosition 0
  | handleTapGesture => exact h.setFrontViewPosition _ _
  | handleRevealGestureStateEnded velocity =>
      have ht : s.released.RightClosed := { h with }
      exact ht.setFrontViewPosition _ _

theorem RightClosed.changed (h : s.RightClosed) (translation : K) :
    (s.act (.handleRevealGestureStateChanged translation)).RightClosed := by
  have hsides {t : Reveal V K} (ht : t.RightClosed) (p : FrontViewPosition) :
      (t.deploySides p).RightClosed := by
    have h₁ := (ht.rightViewDeployment p).complete
      (.deployments ⟨false, none⟩ (t.rightViewDeployment p).2 ⟨false, none⟩)
    have h₂ := h₁.rearViewDeployment p
    exact h₂.complete (.deployments _ ⟨false, none⟩ ⟨false, none⟩)
  have hleft {t : Reveal V K} (ht : t.RightClosed) (x : K) :
      (t.draggedLeft x).1.RightClosed ∧ 0 ≤ (t.draggedLeft x).2 := by
    unfold draggedLeft
    split
    · rw [ht.rightViewController]
      exact ⟨hsides ht _, le_rfl⟩
    · next hx => exact ⟨ht, not_lt.mp hx⟩
  have hright {t : Reveal V K} (ht : t.RightClosed) {x : K} (hx : 0 ≤ x) :
      (t.draggedRight x).1.RightClosed ∧ 0 ≤ (t.draggedRight x).2 := by
    unfold draggedRight
    split
    · refine ⟨hsides ht _, ?_⟩
      simp only
      split
      · exact le_rfl
      · exact hx
    · exact ⟨ht, hx⟩
  obtain ⟨h₁, hx₁⟩ := hleft h
    (fl (s.properties.frontLocationForPosition s.panInitialFrontPosition + translation))
  obtain ⟨h₂, hx₂⟩ := hright h₁ hx₁
  refine { h₂ with xLocation := fun _ => ⟨?_, ?_⟩ }
  · exact RevealProperties.adjustedDragLocation_nonneg h₂.properties.roomy _ hx₂
  · exact (RevealProperties.adjustedDragLocation_mem h₂.properties _ _).2

theorem suits_of_serves {e : RevealEvent V K} {op : Deferred.Op (RevealBlock V K) (RevealAction K)}
    (he : ∀ new, Replaces e .replaceRightController new → new = none) (h : Serves m e op)
    (hop : ∀ p, op ≠ .act (.setPositions p))
    (hm' : Deferred.Blocks.Steady RightClosed NoRight m') :
    (revealBlocks V K).Suits RightClosed NoRight m' op := by
  cases op with
  | enqueue b =>
      show NoRight b
      cases b with
      | performTransitionOperation operation new animated =>
          cases operation with
          | replaceRightController => exact he new h
          | replaceRearController => trivial
          | replaceFrontController => trivial
      | _ => trivial
  | dequeue => trivial
  | call b =>
      refine hm'.1.runBlock (?_ : NoRight b)
      cases b with
      | performTransitionOperation operation new animated =>
          cases operation with
          | replaceRightController => exact he new h
          | replaceRearController => trivial
          | replaceFrontController => trivial
      | _ => trivial
  | act a =>
      have hr := hm'.1
      cases a with
      | setPositions p => exact absurd rfl (hop p)
      | handleRevealGestureStateBegan => exact { hr with }
      | handleRevealGestureStateChanged translation => exact hr.changed translation
      | handleRevealGestureStateCancelled => exact { hr with }
      | layoutSubviews => exact hr.layoutSubviews
      | viewDidAppear => exact { hr with }
  | finish i => trivial

theorem rightClosed_step {e : RevealEvent V K}
    (he : ∀ new, Replaces e .replaceRightController new → new = none)
    (hm : Deferred.Blocks.Steady RightClosed NoRight m) (hr : Reveal.step m e = some m') :
    Deferred.Blocks.Steady RightClosed NoRight m' := by
  obtain ⟨l, hl, hr⟩ := Option.bind_eq_some_iff.mp hr
  by_cases hpos : ∃ p, .act (.setPositions p) ∈ l
  · obtain ⟨p, hp⟩ := hpos
    obtain ⟨hs, hp⟩ := serves_of_mem hl _ hp
    rw [hl] at hp
    cases hp
    cases hr
    exact ⟨hm.1.setPositions hs p, hm.2⟩
  · refine Runs.inv_of_run (P := Deferred.Blocks.Steady RightClosed NoRight) ?_ hr
      (Runs.meets_of_forall (E := fun op => Serves m e op ∧ ∀ p, op ≠ .act (.setPositions p)) ?_ m)
      hm
    · intro m₁ op m₂ hm₁ hop h
      exact Deferred.Blocks.steady_exec (fun b s hb hs => hs.runBlock hb)
        (fun d s hs => hs.complete d) (suits_of_serves he hop.1 hop.2 hm₁) h hm₁
    · exact fun op hop => ⟨serves_of_mem hl op hop, fun p hp => hpos ⟨p, hp ▸ hop⟩⟩

/-- **One side only**: in every run in which the controller is given no right
controller the right side is never opened, the front view stands at the middle or
to the right of it, and no drag takes it beyond its outermost position.  Without
exact widths a drag can end one number of the format beyond it. -/
theorem rightClosed_of_run {properties : RevealProperties K} (hproperties : properties.Exact)
    {es : List (RevealEvent V K)}
    (hes : ∀ e ∈ es, ∀ new, Replaces e .replaceRightController new → new = none)
    (hr : Runs.run step (initWithCoder properties) es = some m)
    (hs : m.state.isViewLoaded = true) :
    .left ≤ m.state.frontViewPosition ∧
      (0 ≤ m.state.xLocation ∧
        m.state.xLocation ≤ m.state.properties.frontLocationForPosition .rightMost) ∧
      m.state.rightView = false ∧ ∀ v, m.state.superview v ≠ some .rightView := by
  have hinit : Deferred.Blocks.Steady RightClosed NoRight (initWithCoder (V := V) properties) := by
    refine ⟨⟨hproperties, rfl, rfl, fun _ => by simp [initWithCoder], ?_, ?_, ?_⟩,
      by simp [initWithCoder]⟩
    all_goals exact fun hs => absurd (show false = true from hs) (by decide)
  obtain ⟨h, -⟩ := Runs.inv_of_run (fun _ _ _ hm he hr => rightClosed_step he hm hr) hr
    (Runs.meets_of_forall hes _) hinit
  exact ⟨h.frontViewPosition hs, h.xLocation hs, h.rightView, h.superview⟩

/-- The controller of the storyboard, dragged to the left. -/
theorem rightClosed_of_run_main :
    ∃ m, Runs.run step mainRevealController
        [.loadView (some mainStoryboard), .panBegan 10 20 375, .panChanged (-40)] = some m ∧
      .left ≤ m.state.frontViewPosition ∧
        (0 ≤ m.state.xLocation ∧
          m.state.xLocation ≤ m.state.properties.frontLocationForPosition .rightMost) ∧
        m.state.rightView = false ∧ ∀ v, m.state.superview v ≠ some .rightView := by
  obtain ⟨m, hm, hs⟩ := Option.map_eq_some_iff.mp
    (show (Runs.run step mainRevealController
        [.loadView (some mainStoryboard), .panBegan 10 20 375, .panChanged (-40)]).map
          (fun m => m.state.isViewLoaded) = some true by decide +kernel)
  refine ⟨m, hm, rightClosed_of_run (RevealProperties.exact_initDefaultProperties 375) ?_ hm hs⟩
  simp [Replaces, mainStoryboard, SWRevealControllerOperation.container]

end Reveal

end StreetParker
