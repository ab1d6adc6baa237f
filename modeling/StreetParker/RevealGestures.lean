import StreetParker.RevealSafety

/-!
# StreetParker.RevealGestures

What whole gestures come to, and two ways in which a gesture loses the menu.

* `drag_of_run` — which drags open the menu;
* `panCancelled_loses` — a drag that is cancelled can leave the menu closed while
  the front view's position says that it is open;
* `tap_loses` — so can a tap, when something moves the front view before the
  animation of the tap has ended.
-/

namespace StreetParker

open Rounding

namespace Reveal

variable {V K : Type*} {m m' : RevealMachine V K} {s t : Reveal V K}

/-! ## drags -/

/-- A loaded controller at rest. -/
structure AtRest (m : RevealMachine V K) : Prop where
  isViewLoaded : m.state.isViewLoaded = true
  queue : m.queue = []
  inFlight : m.inFlight = []
  panning : m.state.panning = false

/-- `t` is what drags make of `s`: the sides, the hierarchy and the place of the
front view may differ, and nothing else. -/
def DragOf (s t : Reveal V K) : Prop :=
  ∃ p₁ p₂ b₁ b₂ f x, t =
    { s with
      rearViewPosition := p₁
      rightViewPosition := p₂
      rearView := b₁
      rightView := b₂
      superview := f
      xLocation := x }

theorem DragOf.refl (s : Reveal V K) : DragOf s s :=
  ⟨s.rearViewPosition, s.rightViewPosition, s.rearView, s.rightView, s.superview, s.xLocation, rfl⟩

theorem DragOf.trans {u : Reveal V K} (h : DragOf s t) (h' : DragOf t u) : DragOf s u := by
  obtain ⟨p₁, p₂, b₁, b₂, f, x, rfl⟩ := h
  obtain ⟨q₁, q₂, c₁, c₂, g, y, rfl⟩ := h'
  exact ⟨q₁, q₂, c₁, c₂, g, y, rfl⟩

variable [DecidableEq V]

theorem dragOf_deploySides (s : Reveal V K) {p : FrontViewPosition} (hp : p ≠ .none) :
    DragOf s (s.deploySides p) := by
  obtain ⟨p₁, p₂, b₁, b₂, f, hf⟩ := s.deploySides_frame hp
  exact ⟨p₁, p₂, b₁, b₂, f, s.xLocation, hf⟩

variable [Field K] [LinearOrder K] [Rounding K]

/-- How far a drag to `x` may go with the controllers there are. -/
def reach (s : Reveal V K) (x : K) : K :=
  let x := if x < 0 ∧ s.rightViewController.isNone then 0 else x
  if x > 0 ∧ s.rearViewController.isNone then 0 else x

/-- What a move of the finger does. -/
theorem dragOf_changed (s : Reveal V K) (translation : K) :
    DragOf s (s.act (.handleRevealGestureStateChanged translation)) ∧
      (s.act (.handleRevealGestureStateChanged translation)).xLocation =
        s.properties.adjustedDragLocation s.frontViewPosition
          (s.reach (fl (s.properties.frontLocationForPosition s.panInitialFrontPosition +
            translation))) := by
  have hleft (x : K) : DragOf s (s.draggedLeft x).1 ∧
      (s.draggedLeft x).2 = if x < 0 ∧ s.rightViewController.isNone then 0 else x := by
    unfold draggedLeft
    by_cases hx : x < 0
    · simp only [hx, if_true, true_and]
      exact ⟨s.dragOf_deploySides (by decide), trivial⟩
    · simp only [hx, if_false, false_and]
      exact ⟨.refl s, trivial⟩
  have hright (t : Reveal V K) (x : K) : DragOf t (t.draggedRight x).1 ∧
      (t.draggedRight x).2 = if x > 0 ∧ t.rearViewController.isNone then 0 else x := by
    unfold draggedRight
    by_cases hx : x > 0
    · simp only [hx, if_true, true_and]
      exact ⟨t.dragOf_deploySides (by decide), trivial⟩
    · simp only [hx, if_false, false_and]
      exact ⟨.refl t, trivial⟩
  set l := s.draggedLeft (fl (s.properties.frontLocationForPosition s.panInitialFrontPosition +
    translation)) with hl
  obtain ⟨h₁, hx₁⟩ := hleft
    (fl (s.properties.frontLocationForPosition s.panInitialFrontPosition + translation))
  obtain ⟨h₂, hx₂⟩ := hright l.1 l.2
  have hsame : s.act (.handleRevealGestureStateChanged translation) =
      { (l.1.draggedRight l.2).1 with
        xLocation := (l.1.draggedRight l.2).1.properties.adjustedDragLocation
          (l.1.draggedRight l.2).1.frontViewPosition (l.1.draggedRight l.2).2 } := rfl
  have hc : l.1.rearViewController = s.rearViewController := by
    obtain ⟨p₁, p₂, b₁, b₂, f, x, hf⟩ := h₁
    rw [hl, hf]
  obtain ⟨p₁, p₂, b₁, b₂, f, x, hf⟩ := h₁.trans h₂
  rw [hsame, hf, hx₂, hc, hl, hx₁]
  exact ⟨⟨p₁, p₂, b₁, b₂, f, _, rfl⟩, rfl⟩

theorem step_panChanged {translation : K} (h : step m (.panChanged translation) = some m') :
    m.state.panning = true ∧
      m' = { m.log (.acted (.handleRevealGestureStateChanged translation)) with
        state := m.state.act (.handleRevealGestureStateChanged translation) } := by
  obtain ⟨l, hl, hr⟩ := Option.bind_eq_some_iff.mp h
  simp only [ops] at hl
  split at hl
  · next hp =>
    cases hl
    cases hr
    exact ⟨hp, rfl⟩
  · contradiction

theorem run_panChanged {translations : List K}
    (hr : Runs.run step m (translations.map .panChanged) = some m') :
    DragOf m.state m'.state ∧ m'.queue = m.queue ∧ m'.inFlight = m.inFlight := by
  induction translations generalizing m with
  | nil =>
      cases hr
      exact ⟨.refl _, rfl, rfl⟩
  | cons translation translations ih =>
      obtain ⟨m₁, hm₁, hr⟩ := Runs.run_cons hr
      obtain ⟨-, rfl⟩ := step_panChanged hm₁
      obtain ⟨hd, hq, hf⟩ := ih hr
      exact ⟨(dragOf_changed _ _).1.trans hd, hq, hf⟩

theorem step_panBegan {translation xLocation width : K} (hrest : AtRest m)
    (h : step m (.panBegan translation xLocation width) = some m') :
    m'.state = m.state.act .handleRevealGestureStateBegan ∧ m'.queue = [.dummy] ∧
      m'.inFlight = [] := by
  obtain ⟨l, hl, hr⟩ := Option.bind_eq_some_iff.mp h
  simp only [ops] at hl
  split at hl
  · cases hl
    rw [run_panBegan hrest.queue hrest.inFlight hr]
    exact ⟨rfl, rfl, rfl⟩
  · contradiction

/-- What a drag has come to when the finger was last moved by `translation`. -/
theorem run_drag {translation₀ xLocation width translation : K} {translations : List K}
    (hrest : AtRest m)
    (hr : Runs.run step m (.panBegan translation₀ xLocation width ::
      (translations.map .panChanged ++ [.panChanged translation])) = some m') :
    DragOf (m.state.act .handleRevealGestureStateBegan) m'.state ∧
      m'.queue = [.dummy] ∧ m'.inFlight = [] ∧
      m'.state.xLocation = m.state.properties.adjustedDragLocation m.state.frontViewPosition
        (m.state.reach (fl (m.state.properties.frontLocationForPosition m.state.frontViewPosition +
          translation))) := by
  obtain ⟨m₁, hm₁, hr⟩ := Runs.run_cons hr
  obtain ⟨hs₁, hq₁, hf₁⟩ := step_panBegan hrest hm₁
  obtain ⟨m₂, hr₂, hr⟩ := Runs.exists_of_run_append hr
  obtain ⟨hd, hq₂, hf₂⟩ := run_panChanged hr₂
  obtain ⟨m₃, hm₃, hr⟩ := Runs.run_cons hr
  cases hr
  obtain ⟨-, rfl⟩ := step_panChanged hm₃
  rw [hs₁] at hd
  obtain ⟨hd', hx⟩ := dragOf_changed m₂.state translation
  refine ⟨hd.trans hd', hq₂.trans hq₁, hf₂.trans hf₁, hx.trans ?_⟩
  obtain ⟨p₁, p₂, b₁, b₂, f, x, hf⟩ := hd
  rw [hf]
  rfl

/-- **A whole drag**: where the front view stands when the finger was last moved
by `translation`, let go at `velocity`, and the animation has ended. -/
theorem frontViewPosition_drag {translation₀ xLocation width translation velocity : K}
    {translations : List K} {is : List Nat} (hrest : AtRest m)
    (hr : Runs.run step m (.panBegan translation₀ xLocation width ::
      (translations.map .panChanged ++ [.panChanged translation]) ++
        .panEnded velocity :: is.map .completion) = some m')
    (hq : m'.queue = []) (hf : m'.inFlight = []) :
    m'.state.frontViewPosition = m.state.target (m.state.properties.dragTarget
      (m.state.properties.adjustedDragLocation m.state.frontViewPosition
        (m.state.reach (fl (m.state.properties.frontLocationForPosition m.state.frontViewPosition +
          translation)))) velocity).1 .frontView := by
  obtain ⟨m₁, hr₁, hr⟩ := Runs.exists_of_run_append hr
  obtain ⟨hd, hq₁, hf₁, hx⟩ := run_drag hrest hr₁
  obtain ⟨m₂, hm₂, hr⟩ := Runs.run_cons hr
  obtain ⟨l, hl, hm₂⟩ := Option.bind_eq_some_iff.mp hm₂
  simp only [ops] at hl
  split at hl
  · cases hl
    cases hm₂
    have hl₂ : ((revealBlocks V K).call (.handleRevealGestureStateEnded velocity)
        m₁).inFlight.length ≤ 1 :=
      Deferred.Blocks.inFlight_exec (m := m₁)
        (o := .call (.handleRevealGestureStateEnded velocity)) (by simp [hf₁]) hf₁ rfl
    have hloaded : m₁.state.isViewLoaded = true := by
      obtain ⟨p₁, p₂, b₁, b₂, f, x, hd⟩ := hd
      rw [hd]
      exact hrest.isViewLoaded
    have hfinal : m'.state = m₁.state.released.moved
        (m₁.state.properties.dragTarget m₁.state.xLocation velocity).1 := by
      rw [run_completions] at hr
      rw [← Deferred.Blocks.final_of_rest hq hf, Deferred.Blocks.final_of_finishes hr hl₂,
        Deferred.Blocks.final_call hf₁, hq₁, ← once_handleRevealGestureStateEnded hloaded]
      rfl
    rw [hfinal, hx]
    show ((m₁.state.released.deployed _).complete _).position .frontView = _
    rw [position_complete]
    obtain ⟨f, hf⟩ := m₁.state.released.deployed_eq (m₁.state.properties.dragTarget
      (m.state.properties.adjustedDragLocation m.state.frontViewPosition
        (m.state.reach (fl (m.state.properties.frontLocationForPosition m.state.frontViewPosition +
          translation)))) velocity).1
    rw [hf]
    obtain ⟨p₁, p₂, b₁, b₂, f, x, hd⟩ := hd
    rw [hd]
    rfl
  · contradiction

section Ordered

variable [IsStrictOrderedRing K] [LawfulRounding K]

/-- **Which drags open the menu**: with a menu, without a right controller, and
bouncing back on overdraw, a drag leaves the menu open when the front view was
flicked to the right, or let go slowly past half of the reveal width and not past
all of it; any other drag leaves it closed. -/
theorem drag_of_run {translation₀ xLocation width translation velocity : K}
    {translations : List K} {is : List Nat} (hrest : AtRest m) (hroomy : m.state.properties.Roomy)
    (hbounce : m.state.properties.bounceBackOnOverdraw = true)
    (hmenu : m.state.rearViewController.isSome = true)
    (hright : m.state.rightViewController = none)
    (hr : Runs.run step m (.panBegan translation₀ xLocation width ::
      (translations.map .panChanged ++ [.panChanged translation]) ++
        .panEnded velocity :: is.map .completion) = some m')
    (hq : m'.queue = []) (hf : m'.inFlight = []) :
    let y := fl (m.state.properties.frontLocationForPosition m.state.frontViewPosition +
      translation)
    let x := m.state.properties.adjustedDragLocation m.state.frontViewPosition
      (if y < 0 then 0 else y)
    let w := (m.state.properties.revealWidth 1).1
    m'.state.frontViewPosition =
      if m.state.properties.quickFlickVelocity < |velocity| ∧ 0 < velocity ∨
          |velocity| ≤ m.state.properties.quickFlickVelocity ∧ fl (w * (1 / 2)) < x ∧ x ≤ w then
        .right
      else .left := by
  intro y x w
  have hn : m.state.rearViewController.isNone = false := by
    rw [Option.isNone_eq_false_iff]
    exact hmenu
  have hreach : m.state.reach y = if y < 0 then 0 else y := by
    simp [reach, hright, hn]
  have hx : 0 ≤ x := by
    refine RevealProperties.adjustedDragLocation_nonneg hroomy _ ?_
    split
    · exact le_rfl
    · next hy => exact not_lt.mp hy
  rw [frontViewPosition_drag hrest hr hq hf, hreach,
    RevealProperties.dragTarget_of_bounceBack hbounce hx]
  simp only [target, hright, hn]
  split_ifs <;> first | rfl | simp_all [FrontViewPosition.lt_def, FrontViewPosition.rawValue]

/-- The menu of the storyboard is dragged open. -/
theorem drag_of_run_main :
    ∃ m m', Runs.run step mainRevealController [.loadView (some mainStoryboard)] = some m ∧
      Runs.run step m ((.panBegan 10 20 375 :: ([100].map .panChanged ++ [.panChanged 200])) ++
        .panEnded 0 :: [0].map .completion) = some m' ∧
      let y := fl (m.state.properties.frontLocationForPosition m.state.frontViewPosition + 200)
      let x := m.state.properties.adjustedDragLocation m.state.frontViewPosition
        (if y < 0 then 0 else y)
      let w := (m.state.properties.revealWidth 1).1
      m'.state.frontViewPosition =
        if m.state.properties.quickFlickVelocity < |0| ∧ (0 : ℚ) < 0 ∨
            |0| ≤ m.state.properties.quickFlickVelocity ∧ fl (w * (1 / 2)) < x ∧ x ≤ w then
          .right
        else .left := by
  obtain ⟨m', hm', hrest⟩ := Option.map_eq_some_iff.mp
    (show (Runs.run step mainRevealController ([.loadView (some mainStoryboard)] ++
        ((.panBegan 10 20 375 :: ([100].map .panChanged ++ [.panChanged 200])) ++
          .panEnded 0 :: [0].map .completion))).map
        (fun m => (m.queue.isEmpty, m.inFlight.isEmpty)) = some (true, true) by decide +kernel)
  obtain ⟨m, hm, hr⟩ := Runs.exists_of_run_append hm'
  have hstate : (Runs.run step mainRevealController [.loadView (some mainStoryboard)]).map
      (fun m => (m.state.isViewLoaded, m.queue.isEmpty, m.inFlight.isEmpty, m.state.panning)) =
        some (true, true, true, false) := by decide +kernel
  have hside : (Runs.run step mainRevealController [.loadView (some mainStoryboard)]).map
      (fun m => (m.state.rearViewController, m.state.rightViewController)) =
        some (some .burgerMenuVC, none) := by decide +kernel
  have hprop : (Runs.run step mainRevealController [.loadView (some mainStoryboard)]).map
      (fun m => m.state.properties) = some (.initDefaultProperties 375) := rfl
  rw [hm] at hstate hside hprop
  have hprop : m.state.properties = .initDefaultProperties 375 := Option.some.inj hprop
  simp only [Option.map_some, Option.some.injEq, Prod.mk.injEq, List.isEmpty_iff] at hstate hside
  simp only [Prod.mk.injEq, List.isEmpty_iff] at hrest
  obtain ⟨hloaded, hqueue, hflight, hpan⟩ := hstate
  refine ⟨m, m', hm, hr, drag_of_run ⟨hloaded, hqueue, hflight, hpan⟩ ?_ ?_ ?_ hside.2 hr
    hrest.1 hrest.2⟩
  · rw [hprop]
    exact (RevealProperties.exact_initDefaultProperties 375).roomy
  · rw [hprop]
    rfl
  · rw [hside.1]
    rfl

end Ordered

/-! ## a drag that is cancelled -/

/-- A drag past the middle without a right controller closes the rear side. -/
theorem superview_changed (h : m.state.Dragged m.queue.tail) {menu : V}
    (hmenu : m.state.rearViewController = some menu)
    (hright : m.state.rightViewController = none)
    (hhier : m.state.properties.presentFrontViewHierarchically = false) {translation : K}
    (hpast : fl (m.state.properties.frontLocationForPosition m.state.panInitialFrontPosition +
      translation) < 0) :
    (m.state.act (.handleRevealGestureStateChanged translation)).superview menu = none ∧
      (m.state.act (.handleRevealGestureStateChanged translation)).frontViewPosition =
        m.state.frontViewPosition := by
  obtain ⟨p₁, p₂, b₁, b₂, f, hf⟩ := m.state.deploySides_frame (p := .leftSide) (by decide)
  have hd := h.deploySides (p := .leftSide) (by decide)
  have hsame : m.state.act (.handleRevealGestureStateChanged translation) =
      { m.state.deploySides .leftSide with
        xLocation := (m.state.deploySides .leftSide).properties.adjustedDragLocation
          (m.state.deploySides .leftSide).frontViewPosition 0 } := by
    simp [act, handleRevealGestureStateChanged, draggedLeft, draggedRight, hpast, hright]
  rw [hsame]
  refine ⟨?_, by rw [hf]⟩
  have hpos : (m.state.deploySides .leftSide).position .rearView = .leftSide := by
    rw [deploySides_eq _ (by decide), position_sideMoved, if_pos rfl]
    obtain ⟨q₁, q₂, c₁, c₂, g, hg⟩ :=
      m.state.sideMoved_eq .leftSide (c := .rightView) (by decide)
    rw [hg]
    simp [target, hhier, FrontViewPosition.lt_def, FrontViewPosition.rawValue]
  have hcontroller : (m.state.deploySides .leftSide).controller .rearView = some menu := by
    rw [hf]
    exact hmenu
  have hin := hd.consistent.inPlace hd.isViewLoaded menu .rearView hcontroller
  rw [hpos] at hin
  exact hin.unseen (by decide) (by decide)

/-- **A cancelled drag can close the menu behind the position's back**: with the
menu open and no right controller, a drag that ends past the middle and is
cancelled leaves the front view's position where it was, and the view of the menu
in no container. -/
theorem panCancelled_loses {properties : RevealProperties K} {es : List (RevealEvent V K)}
    (hr : Runs.run step (initWithCoder properties) es = some m)
    (hes : Runs.Meets step Fair (initWithCoder properties) es) (hrest : AtRest m)
    {menu : V} (hmenu : m.state.rearViewController = some menu)
    (hright : m.state.rightViewController = none)
    (hhier : m.state.properties.presentFrontViewHierarchically = false)
    {translation₀ xLocation width translation : K} {translations : List K}
    (hpast : fl (m.state.properties.frontLocationForPosition m.state.frontViewPosition +
      translation) < 0)
    (hr' : Runs.run step m (.panBegan translation₀ xLocation width ::
      (translations.map .panChanged ++ [.panChanged translation, .panCancelled])) = some m') :
    AtRest m' ∧ m'.state.frontViewPosition = m.state.frontViewPosition ∧
      m'.state.superview menu = none := by
  have h := sound_of_run hr hes (sound_initWithCoder properties)
  obtain ⟨m₁, hm₁, hr₁⟩ := Runs.run_cons hr'
  have h₁ := h.step (e := .panBegan translation₀ xLocation width) (fun _ => hrest.inFlight) hm₁
  obtain ⟨hs₁, hq₁, hf₁⟩ := step_panBegan hrest hm₁
  obtain ⟨m₂, hr₂, hr₃⟩ := Runs.exists_of_run_append hr₁
  have h₂ : Sound m₂ := by
    refine sound_of_run hr₂ ((Runs.meets_of_forall (E := fun e => ∃ x, e = .panChanged x)
      (by simp) m₁).mono ?_) h₁
    rintro m e ⟨x, rfl⟩
    trivial
  obtain ⟨hd, hq₂, hf₂⟩ := run_panChanged hr₂
  rw [hs₁] at hd
  obtain ⟨m₃, hm₃, hr₄⟩ := Runs.run_cons hr₃
  obtain ⟨m₄, hm₄, hr₅⟩ := Runs.run_cons hr₄
  cases hr₅
  obtain ⟨hpan, rfl⟩ := step_panChanged hm₃
  have hdragged := h₂.dragged hpan
  have hchanged := hdragged.changed translation
  obtain ⟨p₁, p₂, b₁, b₂, f, x, hd⟩ := hd
  have hmenu₂ : m₂.state.rearViewController = some menu := by rw [hd]; exact hmenu
  have hpast₂ : fl (m₂.state.properties.frontLocationForPosition
      m₂.state.panInitialFrontPosition + translation) < 0 := by rw [hd]; exact hpast
  obtain ⟨hlost, hsame⟩ := superview_changed hdragged hmenu₂ (by rw [hd]; exact hright)
    (by rw [hd]; exact hhier) hpast₂
  obtain ⟨l, hl, hm₄⟩ := Option.bind_eq_some_iff.mp hm₄
  simp only [ops, hchanged.panning, if_true, Option.some.injEq] at hl
  subst hl
  obtain ⟨m₅, hm₅, hr₅⟩ := Runs.run_cons hm₄
  obtain ⟨m₆, hm₆, hr₆⟩ := Runs.run_cons hr₅
  cases hm₅
  cases hr₆
  cases hm₆
  have hq : m₂.queue.tail = [] := by rw [hq₂, hq₁]; rfl
  have hf : m₂.inFlight = [] := hf₂.trans hf₁
  simp only [Deferred.Blocks.dequeue, Deferred.Queue.log, hq, Deferred.Blocks.drive]
  refine ⟨⟨hchanged.isViewLoaded, rfl, hf, rfl⟩, ?_, hlost⟩
  exact hsame.trans (by rw [hd]; rfl)

/-- The menu of the storyboard is open, and a drag to the left is cancelled. -/
theorem panCancelled_loses_main :
    ∃ m m', Runs.run step mainRevealController
        [.loadView (some mainStoryboard), .revealToggle false] = some m ∧
      Runs.run step m (.panBegan (-10) 300 375 ::
        ([-100].map .panChanged ++ [.panChanged (-300), .panCancelled])) = some m' ∧
      AtRest m' ∧ m'.state.frontViewPosition = m.state.frontViewPosition ∧
        m'.state.superview .burgerMenuVC = none := by
  obtain ⟨m', hm', -⟩ := Option.map_eq_some_iff.mp
    (show (Runs.run step mainRevealController
        ([.loadView (some mainStoryboard), .revealToggle false] ++ (.panBegan (-10) 300 375 ::
          ([-100].map .panChanged ++ [.panChanged (-300), .panCancelled])))).map (fun _ => ()) =
        some () by decide +kernel)
  obtain ⟨m, hm, hr⟩ := Runs.exists_of_run_append hm'
  have hstate : (Runs.run step mainRevealController
      [.loadView (some mainStoryboard), .revealToggle false]).map
        (fun m => (m.state.isViewLoaded, m.queue.isEmpty, m.inFlight.isEmpty, m.state.panning)) =
      some (true, true, true, false) := by decide +kernel
  have hside : (Runs.run step mainRevealController
      [.loadView (some mainStoryboard), .revealToggle false]).map
        (fun m => (m.state.rearViewController, m.state.rightViewController,
          m.state.properties.presentFrontViewHierarchically,
          m.state.properties.frontLocationForPosition m.state.frontViewPosition)) =
      some (some .burgerMenuVC, none, false, 260) := by decide +kernel
  rw [hm] at hstate hside
  simp only [Option.map_some, Option.some.injEq, Prod.mk.injEq, List.isEmpty_iff] at hstate hside
  obtain ⟨hloaded, hqueue, hflight, hpan⟩ := hstate
  obtain ⟨hrear, hright, hhier, hlocation⟩ := hside
  refine ⟨m, m', hm, hr, panCancelled_loses hm (meets_fair_main [false])
    ⟨hloaded, hqueue, hflight, hpan⟩ hrear hright hhier ?_ hr⟩
  rw [hlocation]
  decide +kernel

/-! ## a tap that is disturbed -/

/-- While the animation of a tap is in flight. -/
def tapped (m : RevealMachine V K) : RevealMachine V K :=
  { m.log (.called .handleTapGesture) with
    state := m.state.deployed .left
    inFlight := [m.state.leavings .left] }

/-- The move a toggle asks for during it. -/
def toggleBlock (m : RevealMachine V K) : RevealBlock V K :=
  .setFrontViewPosition .right m.state.properties.toggleAnimationDuration

/-- While both are in flight. -/
def tappedToggled (m : RevealMachine V K) : RevealMachine V K :=
  { (tapped m).log (.queued (toggleBlock m)) with
    state := (m.state.deployed .left).deployed .right
    queue := [toggleBlock m]
    inFlight := [m.state.leavings .left, (m.state.deployed .left).leavings .right] }

theorem step_tap (hrest : AtRest m) (hduration : 0 < m.state.properties.toggleAnimationDuration)
    (h : step m .tap = some m') : m' = tapped m := by
  obtain ⟨l, hl, hr⟩ := Option.bind_eq_some_iff.mp h
  simp only [ops] at hl
  split at hl
  · cases hl
    cases hr
    simp only [Deferred.Blocks.call, revealBlocks, runBlock,
      setFrontViewPosition_eq _ hrest.isViewLoaded
        (show FrontViewPosition.left ≠ .none by decide), gt_iff_lt, hduration, if_true,
      Deferred.Queue.log, hrest.inFlight, List.nil_append, tapped]
  · contradiction

/-- The tap has left the front view at the middle, so a toggle opens the menu, and
the queue is empty, so it does so at once. -/
theorem step_revealToggle_tapped (hrest : AtRest m)
    (hduration : 0 < m.state.properties.toggleAnimationDuration)
    (h : step (tapped m) (.revealToggle true) = some m') : m' = tappedToggled m := by
  obtain ⟨f, hd⟩ := m.state.deployed_eq .left
  have hs : (m.state.deployed .left).isViewLoaded = true := by
    rw [hd]
    exact hrest.isViewLoaded
  have hprop : (m.state.deployed .left).properties = m.state.properties := by rw [hd]
  have htoggled : (m.state.deployed .left).toggledPosition = .right := by
    have hleft : m.state.target .left .frontView = .left := by
      simp [target, FrontViewPosition.lt_def]
    rw [hd]
    simp [toggledPosition, hleft]
    decide
  obtain ⟨l, hl, hr⟩ := Option.bind_eq_some_iff.mp h
  simp only [ops, setFrontViewPositionOps, tapped, hs, htoggled, hprop, if_true,
    Option.some.injEq] at hl
  subst hl
  cases hr
  simp only [Deferred.Blocks.enqueue, tapped, hrest.queue, Deferred.Queue.log]
  simp only [Deferred.Blocks.drive, revealBlocks, runBlock, Deferred.Queue.log,
    setFrontViewPosition_eq _ hs (show FrontViewPosition.right ≠ .none by decide), gt_iff_lt,
    hduration, if_true, List.singleton_append, tappedToggled, tapped, toggleBlock]

/-- Completions leave the front view where the toggle has put it. -/
theorem complete_tappedToggled (hrest : AtRest m)
    (hmenu : m.state.rearViewController.isSome = true) (d d' : RevealCompletion V) :
    let s := (((m.state.deployed .left).deployed .right).complete d).complete d'
    s.isViewLoaded = true ∧ s.panning = false ∧ s.frontViewPosition = .right := by
  intro s
  obtain ⟨f, hd⟩ := m.state.deployed_eq .left
  obtain ⟨g, hd'⟩ := (m.state.deployed .left).deployed_eq .right
  have hphase := (samePhase_complete ((m.state.deployed .left).deployed .right) d).trans
    (samePhase_complete _ d')
  have hpos := (position_complete (((m.state.deployed .left).deployed .right).complete d) d'
    .frontView).trans (position_complete _ d .frontView)
  refine ⟨hphase.isViewLoaded.trans ?_, hphase.panning.trans ?_, hpos.trans ?_⟩
  · rw [hd', hd]
    exact hrest.isViewLoaded
  · rw [hd', hd]
    exact hrest.panning
  · rw [hd']
    show (m.state.deployed .left).target .right .frontView = .right
    have hn := Option.isNone_eq_false_iff.mpr hmenu
    rw [hd]
    simp [target, hn, FrontViewPosition.lt_def, FrontViewPosition.rawValue]

/-- **A tap that is disturbed loses the menu**: with the menu open, a tap on the
front view begins to close it; when the front view is toggled before the
animation of the tap has ended, then in whichever order the two animations end,
the front view's position says that the menu is open, and the view of the menu
is in no container. -/
theorem tap_loses {properties : RevealProperties K} {es : List (RevealEvent V K)}
    (hr : Runs.run step (initWithCoder properties) es = some m)
    (hes : Runs.Meets step Fair (initWithCoder properties) es) (hrest : AtRest m)
    {menu : V} (hmenu : m.state.rearViewController = some menu)
    (hhier : m.state.properties.presentFrontViewHierarchically = false)
    (hduration : 0 < m.state.properties.toggleAnimationDuration) (hcancelled : .panCancelled ∉ es)
    (hopen : .left < m.state.frontViewPosition) {i : Nat}
    (hr' : Runs.run step m [.tap, .revealToggle true, .completion i, .completion 0] = some m') :
    AtRest m' ∧ m'.state.frontViewPosition = .right ∧ m'.state.superview menu = none := by
  obtain ⟨m₁, hm₁, hr₁⟩ := Runs.run_cons hr'
  obtain ⟨m₂, hm₂, hr₂⟩ := Runs.run_cons hr₁
  obtain ⟨m₃, hm₃, hr₃⟩ := Runs.run_cons hr₂
  obtain ⟨m₄, hm₄, hr₄⟩ := Runs.run_cons hr₃
  cases hr₄
  cases step_tap hrest hduration hm₁
  cases step_revealToggle_tapped hrest hduration hm₂
  have hready := (sound_of_run hr hes (sound_initWithCoder properties)).idle hrest.inFlight
  have hcloses := (hready.settled (not_cancelled_of_run hr hcancelled) hrest.isViewLoaded
    hrest.panning).disappears_rear hhier hopen
  have hsome : m.state.rearViewController.isSome = true := by rw [hmenu]; rfl
  rw [step_completion] at hm₃ hm₄
  -- the tap's animation ends first, or the toggle's
  rcases i with _ | _ | i
  · cases hm₃
    cases hm₄
    obtain ⟨hs, hpan, hpos⟩ := complete_tappedToggled hrest hsome (m.state.leavings .left)
      ((m.state.deployed .left).leavings .right)
    exact ⟨⟨hs, rfl, rfl, hpan⟩, hpos,
      superview_complete_none (superview_complete_leavings hmenu hcloses) .right _⟩
  · cases hm₃
    cases hm₄
    obtain ⟨hs, hpan, hpos⟩ := complete_tappedToggled hrest hsome
      ((m.state.deployed .left).leavings .right) (m.state.leavings .left)
    exact ⟨⟨hs, rfl, rfl, hpan⟩, hpos, superview_complete_leavings hmenu hcloses⟩
  · contradiction

/-- The menu of the storyboard is tapped away and toggled meanwhile. -/
theorem tap_loses_main :
    ∃ m m', Runs.run step mainRevealController
        [.loadView (some mainStoryboard), .revealToggle false] = some m ∧
      Runs.run step m [.tap, .revealToggle true, .completion 1, .completion 0] = some m' ∧
      AtRest m' ∧ m'.state.frontViewPosition = .right ∧
        m'.state.superview .burgerMenuVC = none := by
  obtain ⟨m', hm', -⟩ := Option.map_eq_some_iff.mp
    (show (Runs.run step mainRevealController
        ([.loadView (some mainStoryboard), .revealToggle false] ++
          [.tap, .revealToggle true, .completion 1, .completion 0])).map (fun _ => ()) =
        some () by decide +kernel)
  obtain ⟨m, hm, hr⟩ := Runs.exists_of_run_append hm'
  have hstate : (Runs.run step mainRevealController
      [.loadView (some mainStoryboard), .revealToggle false]).map
        (fun m => (m.state.isViewLoaded, m.queue.isEmpty, m.inFlight.isEmpty, m.state.panning)) =
      some (true, true, true, false) := by decide +kernel
  have hside : (Runs.run step mainRevealController
      [.loadView (some mainStoryboard), .revealToggle false]).map
        (fun m => (m.state.rearViewController, m.state.properties.presentFrontViewHierarchically,
          m.state.frontViewPosition, m.state.properties.toggleAnimationDuration)) =
      some (some .burgerMenuVC, false, .right, fl (3 / 10)) := by decide +kernel
  rw [hm] at hstate hside
  simp only [Option.map_some, Option.some.injEq, Prod.mk.injEq, List.isEmpty_iff] at hstate hside
  obtain ⟨hloaded, hqueue, hflight, hpan⟩ := hstate
  obtain ⟨hrear, hhier, hfront, hduration⟩ := hside
  refine ⟨m, m', hm, hr, tap_loses hm (meets_fair_main [false])
    ⟨hloaded, hqueue, hflight, hpan⟩ hrear hhier ?_ (by simp) ?_ hr⟩
  · rw [hduration]
    decide +kernel
  · rw [hfront]
    decide

end Reveal

end StreetParker
