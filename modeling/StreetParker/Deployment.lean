import StreetParker.Reveal

/-!
# StreetParker.Deployment

What the containers of the reveal controller are for: a container is loaded
while the front view stands where it is to be seen, and holds the view of its
controller and nothing else.  The code gets there by deploying and undeploying,
half before an animation and half in its completion.

* `rearViewDeployment_eq`, `rightViewDeployment_eq`, `frontViewDeployment_eq` —
  the three deployments in the terms of `isShown`;
* `Consistent` — the hierarchy is the one the positions ask for;
* `Consistent.moved`, `Consistent.replaced`, `Consistent.deploySides` — whole moves,
  replacements and drags keep it.
-/

namespace StreetParker

/-- Whether the container is to be seen when its side stands at a position. -/
def RevealContainer.isShown : RevealContainer → FrontViewPosition → Bool
  | .rearView, p => p > .left ∧ p ≠ .none
  | .frontView, p => p > .leftSideMostRemoved ∧ p < .rightMostRemoved
  | .rightView, p => p < .left

namespace Reveal

variable {V K : Type*} {s t : Reveal V K} {p : FrontViewPosition} {v : V} {c : RevealContainer}
  {o : Option RevealContainer}

/-! ## where a move leads -/

/-- The position that the deployment of a container records. -/
def position (s : Reveal V K) : RevealContainer → FrontViewPosition
  | .rearView => s.rearViewPosition
  | .frontView => s.frontViewPosition
  | .rightView => s.rightViewPosition

/-- The position that a move to `p` records for a container: a side that has no
controller is not opened. -/
def target (s : Reveal V K) (p : FrontViewPosition) : RevealContainer → FrontViewPosition
  | .rearView =>
      let p := if s.properties.presentFrontViewHierarchically then .right else p
      if s.rearViewController.isNone ∧ p > .left then .left else p
  | .frontView =>
      if (s.rightViewController.isNone ∧ p < .left) ∨
          (s.rearViewController.isNone ∧ p > .left) then .left
      else p
  | .rightView => if s.rightViewController.isNone ∧ p < .left then .left else p

def appears (s : Reveal V K) (p : FrontViewPosition) (c : RevealContainer) : Bool :=
  !c.isShown (s.position c) && c.isShown (s.target p c)

def disappears (s : Reveal V K) (p : FrontViewPosition) (c : RevealContainer) : Bool :=
  c.isShown (s.position c) && !c.isShown (s.target p c)

theorem target_ne_none (s : Reveal V K) {p : FrontViewPosition} (hp : p ≠ .none)
    (c : RevealContainer) : s.target p c ≠ .none := by
  cases c <;> simp only [target] <;> repeat' split
  all_goals first | exact hp | decide

theorem not_disappears_of_appears {s : Reveal V K} {p : FrontViewPosition} {c : RevealContainer}
    (h : s.appears p c = true) : s.disappears p c = false := by
  simp only [appears, disappears, Bool.and_eq_true] at *
  simp [h]

/-- Where a move leads the front view, the sides are opened. -/
theorem target_left_lt (s : Reveal V K) (hp : p ≠ .none)
    (hh : s.properties.presentFrontViewHierarchically = false) :
    RevealContainer.rearView.isShown (s.target p .rearView) = true ↔
      .left < s.target p .frontView := by
  simp only [target, hh]
  generalize s.rearViewController.isNone = noRear
  generalize s.rightViewController.isNone = noRight
  revert hp
  cases noRear <;> cases noRight <;> cases p <;> decide

theorem target_lt_left (s : Reveal V K) (hp : p ≠ .none) :
    RevealContainer.rightView.isShown (s.target p .rightView) = true ↔
      s.target p .frontView < .left := by
  simp only [target]
  generalize s.rearViewController.isNone = noRear
  generalize s.rightViewController.isNone = noRight
  revert hp
  cases noRear <;> cases noRight <;> cases p <;> decide

/-- What a move to `p` leaves to the completion. -/
def leaving (s : Reveal V K) (p : FrontViewPosition) (c : RevealContainer) : Deployment V :=
  ⟨s.disappears p c, if s.disappears p c then s.controller c else none⟩

/-- What a move to `p` leaves to its completion. -/
def leavings (s : Reveal V K) (p : FrontViewPosition) : RevealCompletion V :=
  .deployments (s.leaving p .rearView) (s.leaving p .rightView) (s.leaving p .frontView)

/-! ## the hierarchy the positions ask for -/

/-- The view of the controller of `c` is in `c` or in no container: in `c` when
that is to be seen, and in none when it is a side that is not.  (A new front
controller is deployed also while the front view is removed.) -/
structure InPlace (c : RevealContainer) (isShown : Bool) (o : Option RevealContainer) : Prop where
  own : o = none ∨ o = some c
  seen : isShown = true → o = some c
  unseen : isShown = false → c ≠ .frontView → o = none

/-- Every container that is to be seen holds the view of its controller, and
nothing else is in a container; a side container is loaded while it is to be
seen; the children are the three controllers, which are different. -/
structure Consistent (s : Reveal V K) : Prop where
  inPlace : s.isViewLoaded = true → ∀ v c, s.controller c = some v →
    InPlace c (c.isShown (s.position c)) (s.superview v)
  elsewhere : ∀ v, (s.isViewLoaded = true → ∀ c, s.controller c ≠ some v) → s.superview v = none
  rearView : s.rearView = (s.isViewLoaded && RevealContainer.rearView.isShown s.rearViewPosition)
  rightView :
    s.rightView = (s.isViewLoaded && RevealContainer.rightView.isShown s.rightViewPosition)
  isChild : ∀ v, s.isChild v = true ↔ ∃ c, s.controller c = some v
  injective : ∀ v c c', s.controller c = some v → s.controller c' = some v → c = c'

theorem InPlace.ne {b : Bool} {c' : RevealContainer} (h : InPlace c b o) (hc : c' ≠ c) :
    o ≠ some c' := by
  rcases h.own with rfl | rfl
  · simp
  · simpa using hc.symm

/-- Deployed for a move to `p`, a view is in place for both ends of the move. -/
theorem InPlace.deployed (h : InPlace c (c.isShown (s.position c)) o) :
    InPlace c (c.isShown (s.position c) || c.isShown (s.target p c))
      (if s.appears p c then some c else o) := by
  obtain ⟨ho, hs, hh⟩ := h
  rw [appears]
  cases hp : c.isShown (s.position c) <;> cases ht : c.isShown (s.target p c) <;>
    constructor <;> simp_all

/-- Undeployed after it, it is in place where the move ends. -/
theorem InPlace.undeployed
    (h : InPlace c (c.isShown (s.position c) || c.isShown (s.target p c)) o) :
    InPlace c (c.isShown (s.target p c)) (if s.disappears p c then none else o) := by
  obtain ⟨ho, hs, hh⟩ := h
  rw [disappears]
  cases hp : c.isShown (s.position c) <;> cases ht : c.isShown (s.target p c) <;>
    constructor <;> simp_all

/-- Consistency is about the controllers, the positions and the hierarchy. -/
theorem Consistent.congr {t : Reveal V K} (h : s.Consistent)
    (hloaded : t.isViewLoaded = s.isViewLoaded) (hcontroller : t.controller = s.controller)
    (hposition : t.position = s.position) (hsuperview : t.superview = s.superview)
    (hrear : t.rearView = s.rearView) (hright : t.rightView = s.rightView)
    (hchild : t.isChild = s.isChild) : t.Consistent where
  inPlace := by simpa only [hloaded, hcontroller, hposition, hsuperview] using h.inPlace
  elsewhere := by simpa only [hloaded, hcontroller, hsuperview] using h.elsewhere
  rearView := by
    have hp : t.rearViewPosition = s.rearViewPosition := congrFun hposition .rearView
    rw [hrear, hloaded, hp, h.rearView]
  rightView := by
    have hp : t.rightViewPosition = s.rightViewPosition := congrFun hposition .rightView
    rw [hright, hloaded, hp, h.rightView]
  isChild := by simpa only [hcontroller, hchild] using h.isChild
  injective := by simpa only [hcontroller] using h.injective

/-- In a consistent controller a container is loaded when it has to be. -/
theorem Consistent.isLoaded_eq (h : s.Consistent) (c : RevealContainer) :
    s.isLoaded c = (s.isViewLoaded && (c = .frontView || c.isShown (s.position c))) := by
  cases c with
  | rearView => simpa [isLoaded, position] using h.rearView
  | frontView => simp [isLoaded]
  | rightView => simpa [isLoaded, position] using h.rightView

theorem superview_layoutSubviews [Field K] [LinearOrder K] [Rounding K]
    (hs : s.superview v = o) : s.layoutSubviews.superview v = o := by
  unfold layoutSubviews
  split <;> exact hs

namespace Consistent

theorem controller_iff (h : s.Consistent) (hc : s.controller c = some v) (c' : RevealContainer) :
    s.controller c' = some v ↔ c' = c :=
  ⟨fun hc' => h.injective v c' c hc' hc, fun hc' => hc' ▸ hc⟩

/-- What is in a container that is to be seen. -/
theorem superview_iff (h : s.Consistent) (hs : s.isViewLoaded = true)
    (hc : c.isShown (s.position c) = true) :
    s.superview v = some c ↔ s.controller c = some v := by
  constructor
  · intro hv
    by_contra hn
    by_cases he : ∃ c', s.controller c' = some v
    · obtain ⟨c', hc'⟩ := he
      have hne : c ≠ c' := fun hcc => hn (hcc ▸ hc')
      exact (h.inPlace hs v c' hc').ne hne hv
    · have hnone := h.elsewhere v fun _ c' hc' => he ⟨c', hc'⟩
      rw [hv] at hnone
      contradiction
  · exact fun hv => (h.inPlace hs v c hv).seen hc

/-- What is in a side container that is not to be seen. -/
theorem superview_ne (h : s.Consistent) (hs : s.isViewLoaded = true)
    (hc : c.isShown (s.position c) = false) (hf : c ≠ .frontView) : s.superview v ≠ some c := by
  by_cases he : ∃ c', s.controller c' = some v
  · obtain ⟨c', hc'⟩ := he
    by_cases hcc : c = c'
    · subst hcc
      rw [(h.inPlace hs v c hc').unseen hc hf]
      simp
    · exact (h.inPlace hs v c' hc').ne hcc
  · rw [h.elsewhere v fun _ c' hc' => he ⟨c', hc'⟩]
    simp

/-- What deploying and undeploying make of a container that was in order. -/
theorem loaded_moved {b : Bool} (hb : b = c.isShown (s.position c)) :
    ((b || s.appears p c) && !s.disappears p c) = c.isShown (s.target p c) := by
  subst hb
  rw [appears, disappears]
  cases c.isShown (s.position c) <;> cases c.isShown (s.target p c) <;> rfl

end Consistent

variable [DecidableEq V]

/-! ## the deployments -/

/-- `_deploymentForViewController:inView:appear:disappear:` in one equation. -/
theorem deployment_eq (s : Reveal V K) (o : Option V) (c : RevealContainer)
    {appear disappear : Bool} (h : appear = true → disappear = false)
    (hl : appear = true → s.isLoaded c = true) :
    s.deployment o c appear disappear =
      ({ s with
          superview := fun v => if appear = true ∧ o = some v then some c else s.superview v },
        ⟨disappear, if disappear then o else none⟩) := by
  unfold deployment
  cases appear with
  | false => cases disappear <;> simp
  | true =>
      have hd := h rfl
      subst hd
      cases o with
      | none => simp [deploy]
      | some w =>
          simp only [deploy, hl rfl, if_true, Option.some.injEq, true_and]
          refine Prod.ext ?_ rfl
          simp only
          congr 1
          funext v
          by_cases hv : v = w
          · simp [hv]
          · simp [Function.update_of_ne hv, Ne.symm hv]

/-- The state in which the container `c` is deployed for a move to `p`. -/
def deployedFor (s : Reveal V K) (p : FrontViewPosition) (c : RevealContainer) : Reveal V K :=
  let superview := fun v =>
    if s.appears p c = true ∧ s.controller c = some v then some c else s.superview v
  match c with
  | .rearView =>
      { s with
        rearViewPosition := s.target p .rearView
        rearView := s.rearView || s.appears p .rearView
        superview }
  | .frontView => { s with frontViewPosition := s.target p .frontView, superview }
  | .rightView =>
      { s with
        rightViewPosition := s.target p .rightView
        rightView := s.rightView || s.appears p .rightView
        superview }

/-- The comparisons the rear deployment makes. -/
theorem appear_rear {q r : FrontViewPosition} (hq : q ≠ .none) :
    decide ((r ≤ .left ∨ r = .none) ∧ q > .left) =
        (!RevealContainer.rearView.isShown r && RevealContainer.rearView.isShown q) ∧
      decide (q ≤ .left ∧ r > .left ∧ r ≠ .none) =
        (RevealContainer.rearView.isShown r && !RevealContainer.rearView.isShown q) := by
  revert hq
  cases r <;> cases q <;> decide

theorem appear_right {q r : FrontViewPosition} (hq : q ≠ .none) :
    decide ((r ≥ .left ∨ r = .none) ∧ q < .left) =
        (!RevealContainer.rightView.isShown r && RevealContainer.rightView.isShown q) ∧
      decide (q ≥ .left ∧ r < .left ∧ r ≠ .none) =
        (RevealContainer.rightView.isShown r && !RevealContainer.rightView.isShown q) := by
  revert hq
  cases r <;> cases q <;> decide

theorem appear_front {q r : FrontViewPosition} (hq : q ≠ .none) :
    decide ((r ≥ .rightMostRemoved ∨ r ≤ .leftSideMostRemoved ∨ r = .none) ∧
          q < .rightMostRemoved ∧ q > .leftSideMostRemoved) =
        (!RevealContainer.frontView.isShown r && RevealContainer.frontView.isShown q) ∧
      decide ((q ≥ .rightMostRemoved ∨ q ≤ .leftSideMostRemoved) ∧
          r < .rightMostRemoved ∧ r > .leftSideMostRemoved ∧ r ≠ .none) =
        (RevealContainer.frontView.isShown r && !RevealContainer.frontView.isShown q) := by
  revert hq
  cases r <;> cases q <;> decide

theorem rearViewDeployment_eq (s : Reveal V K) {p : FrontViewPosition} (hp : p ≠ .none) :
    s.rearViewDeployment p = (s.deployedFor p .rearView, s.leaving p .rearView) := by
  obtain ⟨ha, hd⟩ := appear_rear (s.target_ne_none hp .rearView) (r := s.rearViewPosition)
  have hu : s.rearViewDeployment p = Reveal.deployment
      { s with
        rearView := s.rearView || s.appears p .rearView
        rearViewPosition := s.target p .rearView } s.rearViewController .rearView
      (s.appears p .rearView) (s.disappears p .rearView) := by
    rw [appears, disappears, position, ← ha, ← hd]
    rfl
  rw [hu, deployment_eq _ _ _ not_disappears_of_appears]
  · rfl
  · intro ha
    simp [ha, isLoaded]

theorem rightViewDeployment_eq (s : Reveal V K) {p : FrontViewPosition} (hp : p ≠ .none) :
    s.rightViewDeployment p = (s.deployedFor p .rightView, s.leaving p .rightView) := by
  obtain ⟨ha, hd⟩ := appear_right (s.target_ne_none hp .rightView) (r := s.rightViewPosition)
  have hu : s.rightViewDeployment p = Reveal.deployment
      { s with
        rightView := s.rightView || s.appears p .rightView
        rightViewPosition := s.target p .rightView } s.rightViewController .rightView
      (s.appears p .rightView) (s.disappears p .rightView) := by
    rw [appears, disappears, position, ← ha, ← hd]
    rfl
  rw [hu, deployment_eq _ _ _ not_disappears_of_appears]
  · rfl
  · intro ha
    simp [ha, isLoaded]

theorem frontViewDeployment_eq (s : Reveal V K) (hs : s.isViewLoaded = true)
    {p : FrontViewPosition} (hp : p ≠ .none) :
    s.frontViewDeployment p = (s.deployedFor p .frontView, s.leaving p .frontView) := by
  obtain ⟨ha, hd⟩ := appear_front (s.target_ne_none hp .frontView) (r := s.frontViewPosition)
  have hu : s.frontViewDeployment p = Reveal.deployment
      { s with frontViewPosition := s.target p .frontView } s.frontViewController .frontView
      (s.appears p .frontView) (s.disappears p .frontView) := by
    rw [appears, disappears, position, ← ha, ← hd]
    rfl
  rw [hu, deployment_eq _ _ _ not_disappears_of_appears]
  · rfl
  · exact fun _ => hs

/-! ## completions -/

/-- The completion of one of the three deployments. -/
def completeFor (s : Reveal V K) (d : Deployment V) : RevealContainer → Reveal V K
  | .rearView => s.rearViewDeployed d
  | .frontView => s.frontViewDeployed d
  | .rightView => s.rightViewDeployed d

theorem complete_deployments (s : Reveal V K) (rear right front : Deployment V) :
    s.complete (.deployments rear right front) =
      ((s.completeFor rear .rearView).completeFor right .rightView).completeFor front .frontView :=
  rfl

theorem superview_undeployed (s : Reveal V K) (o : Option V) (v : V) :
    (s.undeployed o).superview v = if o = some v then none else s.superview v := by
  cases o with
  | none => simp [undeployed]
  | some w => by_cases hv : v = w <;> simp [undeployed, hv, Ne.symm]

/-- A completion touches the view hierarchy and its own container, nothing else. -/
theorem completeFor_eq (s : Reveal V K) (d : Deployment V) (c : RevealContainer) :
    ∃ f, s.completeFor d c =
      { s with
        superview := f
        rearView := s.rearView && !(d.disappear && c = .rearView)
        rightView := s.rightView && !(d.disappear && c = .rightView) } := by
  have hu : ∃ f, s.undeployed d.controller = { s with superview := f } := by
    cases d.controller with
    | none => exact ⟨s.superview, rfl⟩
    | some v => exact ⟨_, rfl⟩
  obtain ⟨f, hf⟩ := hu
  cases hd : d.disappear with
  | false =>
      refine ⟨s.superview, ?_⟩
      cases c <;>
        simp [completeFor, rearViewDeployed, frontViewDeployed, rightViewDeployed, hd]
  | true =>
      cases c <;>
        simp [completeFor, rearViewDeployed, frontViewDeployed, rightViewDeployed, hd, hf,
          unloadRearView, unloadRightView, emptied]

/-- A completion touches the hierarchy, the children and the side containers. -/
theorem complete_eq (s : Reveal V K) (d : RevealCompletion V) :
    ∃ f g b₁ b₂, s.complete d =
      { s with superview := f, isChild := g, rearView := b₁, rightView := b₂ } := by
  cases d with
  | deployments rear right front =>
      obtain ⟨f₁, h₁⟩ := s.completeFor_eq rear .rearView
      obtain ⟨f₂, h₂⟩ := (s.completeFor rear .rearView).completeFor_eq right .rightView
      obtain ⟨f₃, h₃⟩ := ((s.completeFor rear .rearView).completeFor right
        .rightView).completeFor_eq front .frontView
      rw [complete_deployments, h₃, h₂, h₁]
      exact ⟨f₃, s.isChild, _, _, rfl⟩
  | transition fromController toController =>
      simp only [complete, transitioned]
      split
      · exact ⟨s.superview, s.isChild, s.rearView, s.rightView, rfl⟩
      · cases fromController with
        | none => exact ⟨s.superview, s.isChild, s.rearView, s.rightView, rfl⟩
        | some v => exact ⟨_, _, s.rearView, s.rightView, rfl⟩

theorem controller_complete (s : Reveal V K) (d : RevealCompletion V) (c : RevealContainer) :
    (s.complete d).controller c = s.controller c := by
  obtain ⟨f, g, b₁, b₂, h⟩ := s.complete_eq d
  rw [h]
  cases c <;> rfl

theorem position_complete (s : Reveal V K) (d : RevealCompletion V) (c : RevealContainer) :
    (s.complete d).position c = s.position c := by
  obtain ⟨f, g, b₁, b₂, h⟩ := s.complete_eq d
  rw [h]
  cases c <;> rfl

/-- One side deployed for a move to `p`, and undeployed at once. -/
def sideMoved (s : Reveal V K) (p : FrontViewPosition) (c : RevealContainer) : Reveal V K :=
  (s.deployedFor p c).completeFor (s.leaving p c) c

/-- This touches the two sides and the hierarchy. -/
theorem sideMoved_eq (s : Reveal V K) (p : FrontViewPosition) {c : RevealContainer}
    (hc : c ≠ .frontView) :
    ∃ p₁ p₂ b₁ b₂ f, s.sideMoved p c =
      { s with
        rearViewPosition := p₁
        rightViewPosition := p₂
        rearView := b₁
        rightView := b₂
        superview := f } := by
  obtain ⟨f, hf⟩ := (s.deployedFor p c).completeFor_eq (s.leaving p c) c
  rw [sideMoved, hf]
  cases c with
  | rearView => exact ⟨_, s.rightViewPosition, _, _, f, rfl⟩
  | frontView => exact absurd rfl hc
  | rightView => exact ⟨s.rearViewPosition, _, _, _, f, rfl⟩

theorem position_sideMoved (s : Reveal V K) (p : FrontViewPosition) (c c' : RevealContainer) :
    (s.sideMoved p c).position c' = if c' = c then s.target p c else s.position c' := by
  obtain ⟨f, hf⟩ := (s.deployedFor p c).completeFor_eq (s.leaving p c) c
  rw [sideMoved, hf]
  cases c <;> cases c' <;> rfl

theorem deploySides_eq (s : Reveal V K) {p : FrontViewPosition} (hp : p ≠ .none) :
    s.deploySides p = (s.sideMoved p .rightView).sideMoved p .rearView := by
  unfold deploySides
  rw [rightViewDeployment_eq _ hp]
  simp only
  rw [rearViewDeployment_eq _ hp]
  rfl

/-- A drag touches the sides and nothing else. -/
theorem deploySides_frame (s : Reveal V K) (hp : p ≠ .none) :
    ∃ p₁ p₂ b₁ b₂ f, s.deploySides p =
      { s with
        rearViewPosition := p₁
        rightViewPosition := p₂
        rearView := b₁
        rightView := b₂
        superview := f } := by
  obtain ⟨p₁, p₂, b₁, b₂, f, hf⟩ := s.sideMoved_eq p (c := .rightView) (by decide)
  obtain ⟨q₁, q₂, c₁, c₂, g, hg⟩ :=
    (s.sideMoved p .rightView).sideMoved_eq p (c := .rearView) (by decide)
  rw [deploySides_eq s hp, hg, hf]
  exact ⟨q₁, q₂, c₁, c₂, g, rfl⟩

theorem superview_deployedFor_self (hc : s.controller c = some v) (hs : s.superview v = o) :
    (s.deployedFor p c).superview v = if s.appears p c then some c else o := by
  subst hs
  cases c <;> simp only [deployedFor, hc, and_true]

theorem superview_deployedFor_of_ne (hc : s.controller c ≠ some v) (hs : s.superview v = o) :
    (s.deployedFor p c).superview v = o := by
  subst hs
  cases c <;> simp only [deployedFor, hc, and_false, if_false]

@[simp] theorem controller_deployedFor (c c' : RevealContainer) :
    (s.deployedFor p c).controller c' = s.controller c' := by
  cases c <;> cases c' <;> rfl

theorem appears_deployedFor {c c' : RevealContainer} (hc : c' ≠ c) :
    (s.deployedFor p c).appears p c' = s.appears p c' := by
  cases c <;> cases c' <;> first | rfl | exact absurd rfl hc

theorem superview_completeFor_self (hc : s.controller c = some v) (ht : t.superview v = o) :
    (t.completeFor (s.leaving p c) c).superview v = if s.disappears p c then none else o := by
  subst ht
  cases hd : s.disappears p c <;> cases c <;>
    simp [hc, hd, completeFor, rearViewDeployed, frontViewDeployed, rightViewDeployed, leaving,
      unloadRearView, unloadRightView, emptied, superview_undeployed]

theorem superview_completeFor_of_ne (hc : s.controller c ≠ some v) (ho : o ≠ some c)
    (ht : t.superview v = o) : (t.completeFor (s.leaving p c) c).superview v = o := by
  subst ht
  cases hd : s.disappears p c <;> cases c <;>
    simp_all [completeFor, rearViewDeployed, frontViewDeployed, rightViewDeployed, leaving,
      unloadRearView, unloadRightView, emptied, superview_undeployed]

/-- No completion puts a view into the hierarchy. -/
theorem superview_completeFor_none {v : V} (ht : t.superview v = none) (d : Deployment V)
    (c : RevealContainer) : (t.completeFor d c).superview v = none := by
  cases hd : d.disappear <;> cases c <;>
    simp [completeFor, rearViewDeployed, frontViewDeployed, rightViewDeployed, hd, ht,
      unloadRearView, unloadRightView, emptied, superview_undeployed]

theorem superview_complete_none {v : V} (ht : t.superview v = none) (p : FrontViewPosition)
    (s : Reveal V K) : (t.complete (s.leavings p)).superview v = none := by
  rw [leavings, complete_deployments]
  exact superview_completeFor_none (superview_completeFor_none
    (superview_completeFor_none ht _ _) _ _) _ _

/-- The completion of a move that closes the rear side takes its view away,
whatever has happened meanwhile. -/
theorem superview_complete_leavings {v : V} {p : FrontViewPosition}
    (hv : s.rearViewController = some v) (hd : s.disappears p .rearView = true) :
    (t.complete (s.leavings p)).superview v = none := by
  rw [leavings, complete_deployments]
  refine superview_completeFor_none (superview_completeFor_none ?_ _ _) _ _
  rw [superview_completeFor_self (c := .rearView) hv rfl, if_pos hd]

namespace Consistent

/-- One side, deployed and undeployed on its own. -/
theorem side (h : s.Consistent) (hs : s.isViewLoaded = true) (p : FrontViewPosition)
    (hc : c ≠ .frontView) :
    (s.sideMoved p c).Consistent := by
  have hside := (s.deployedFor p c).completeFor_eq (s.leaving p c) c
  rw [← sideMoved] at hside
  obtain ⟨f, hf⟩ := hside
  have hcontroller (c' : RevealContainer) :
      (s.sideMoved p c).controller c' = s.controller c' := by
    rw [hf]
    cases c <;> cases c' <;> rfl
  have hloaded :
      (s.sideMoved p c).isViewLoaded = s.isViewLoaded := by
    rw [hf]
    cases c <;> rfl
  constructor
  · intro _ v c' hc'
    rw [hcontroller] at hc'
    rw [position_sideMoved]
    have ho := h.inPlace hs v c' hc'
    by_cases hcc : c' = c
    · subst hcc
      rw [if_pos rfl, sideMoved,
        superview_completeFor_self hc' (superview_deployedFor_self hc' rfl)]
      exact ho.deployed.undeployed
    · have hn : s.controller c ≠ some v := (h.controller_iff hc' c).not.mpr (Ne.symm hcc)
      rw [if_neg hcc, sideMoved, superview_completeFor_of_ne hn (ho.ne (Ne.symm hcc))
        (superview_deployedFor_of_ne hn rfl)]
      exact ho
  · intro v hv
    simp only [hcontroller, hloaded] at hv
    exact superview_completeFor_of_ne (hv hs c) (by simp)
      (superview_deployedFor_of_ne (hv hs c) (h.elsewhere v hv))
  · rw [hloaded, hs, Bool.true_and, hf]
    have hr := h.rearView
    rw [hs, Bool.true_and] at hr
    cases c with
    | rearView => simpa [deployedFor, leaving] using loaded_moved (c := .rearView) hr
    | frontView => exact absurd rfl hc
    | rightView => simpa [deployedFor, leaving] using hr
  · rw [hloaded, hs, Bool.true_and, hf]
    have hg := h.rightView
    rw [hs, Bool.true_and] at hg
    cases c with
    | rearView => simpa [deployedFor, leaving] using hg
    | frontView => exact absurd rfl hc
    | rightView => simpa [deployedFor, leaving] using loaded_moved (c := .rightView) hg
  · intro v
    simp only [hcontroller]
    rw [hf]
    cases c <;> exact h.isChild v
  · simpa only [hcontroller] using h.injective

/-- What a drag does to the sides leaves the hierarchy consistent. -/
theorem deploySides (h : s.Consistent) (hs : s.isViewLoaded = true) (hp : p ≠ .none) :
    (s.deploySides p).Consistent := by
  have hr := h.side hs p (c := .rightView) (by decide)
  have hl : (s.sideMoved p .rightView).isViewLoaded = true := by
    obtain ⟨p₁, p₂, b₁, b₂, f, hf⟩ := s.sideMoved_eq p (c := .rightView) (by decide)
    rw [hf]
    exact hs
  rw [deploySides_eq s hp]
  exact hr.side hl p (c := .rearView) (by decide)

end Consistent

/-! ## replacing a controller -/

/-- A replacement, animation included. -/
def replaced (s : Reveal V K) (c : RevealContainer) (new : Option V) : Reveal V K :=
  ((s.setController new c).transition (s.controller c) new c).transitioned (s.controller c) new

/-- A controller that is not in the controller yet. -/
def Fresh (s : Reveal V K) (new : Option V) : Prop :=
  ∀ v, new = some v → ∀ c, s.controller c ≠ some v

theorem superview_deploy (s : Reveal V K) (o : Option V) (c : RevealContainer) (v : V) :
    (s.deploy o c).superview v =
      if o = some v ∧ s.isLoaded c = true then some c else s.superview v := by
  cases o with
  | none => simp [deploy]
  | some w =>
      by_cases hl : s.isLoaded c = true
      · by_cases hv : v = w <;> simp [deploy, hl, hv, Ne.symm]
      · simp [deploy, hl]

theorem isChild_setChild (s : Reveal V K) (o : Option V) (b : Bool) (v : V) :
    (s.setChild o b).isChild v = if o = some v then b else s.isChild v := by
  cases o with
  | none => simp [setChild]
  | some w => by_cases hv : v = w <;> simp [setChild, hv, Ne.symm]

/-- A replacement touches one controller, the hierarchy and the children. -/
theorem replaced_eq (s : Reveal V K) (c : RevealContainer) (new : Option V) :
    ∃ f g, s.replaced c new = { s.setController new c with superview := f, isChild := g } := by
  unfold replaced transition transitioned
  by_cases hn : s.controller c = new
  · rw [if_pos hn, if_pos hn]
    exact ⟨_, _, rfl⟩
  · rw [if_neg hn, if_neg hn]
    have hd (t : Reveal V K) (o : Option V) : ∃ f, t.deploy o c = { t with superview := f } := by
      unfold deploy
      cases o with
      | none => exact ⟨t.superview, rfl⟩
      | some w =>
          simp only
          split
          · exact ⟨_, rfl⟩
          · exact ⟨t.superview, rfl⟩
    have hu (t : Reveal V K) (o : Option V) : ∃ f, t.undeployed o = { t with superview := f } := by
      cases o with
      | none => exact ⟨t.superview, rfl⟩
      | some v => exact ⟨_, rfl⟩
    have hc (t : Reveal V K) (o : Option V) (b : Bool) :
        ∃ g, t.setChild o b = { t with isChild := g } := by
      cases o with
      | none => exact ⟨t.isChild, rfl⟩
      | some v => exact ⟨_, rfl⟩
    obtain ⟨g₁, h₁⟩ := hc (s.setController new c) new true
    obtain ⟨f₂, h₂⟩ := hd ((s.setController new c).setChild new true) new
    obtain ⟨f₃, h₃⟩ := hu (((s.setController new c).setChild new true).deploy new c)
      (s.controller c)
    obtain ⟨g₄, h₄⟩ := hc ((((s.setController new c).setChild new true).deploy new c).undeployed
      (s.controller c)) (s.controller c) false
    refine ⟨f₃, g₄, ?_⟩
    rw [h₄, h₃, h₂, h₁]

theorem controller_replaced (s : Reveal V K) (c : RevealContainer) (new : Option V)
    (c' : RevealContainer) :
    (s.replaced c new).controller c' = if c' = c then new else s.controller c' := by
  obtain ⟨f, g, hf⟩ := s.replaced_eq c new
  rw [hf]
  cases c <;> cases c' <;> rfl

theorem position_replaced (s : Reveal V K) (c : RevealContainer) (new : Option V)
    (c' : RevealContainer) : (s.replaced c new).position c' = s.position c' := by
  obtain ⟨f, g, hf⟩ := s.replaced_eq c new
  rw [hf]
  cases c <;> cases c' <;> rfl

theorem superview_replaced {new : Option V} (hn : s.controller c ≠ new) (v : V) :
    (s.replaced c new).superview v =
      if s.controller c = some v then none
      else if new = some v ∧ s.isLoaded c = true then some c
      else s.superview v := by
  have hl : ((s.setController new c).setChild new true).isLoaded c = s.isLoaded c := by
    cases new <;> cases c <;> rfl
  have hs (t : Reveal V K) (o : Option V) (b : Bool) :
      (t.setChild o b).superview = t.superview := by
    cases o <;> rfl
  have hc : (s.setController new c).superview = s.superview := by cases c <;> rfl
  unfold replaced transition transitioned
  rw [if_neg hn, if_neg hn, hs, superview_undeployed, superview_deploy, hl, hs, hc]

theorem isChild_replaced {new : Option V} (hn : s.controller c ≠ new) (v : V) :
    (s.replaced c new).isChild v =
      if s.controller c = some v then false
      else if new = some v then true
      else s.isChild v := by
  have hu (t : Reveal V K) (o : Option V) : (t.undeployed o).isChild = t.isChild := by
    cases o <;> rfl
  have hd (t : Reveal V K) (o : Option V) : (t.deploy o c).isChild = t.isChild := by
    unfold deploy
    cases o with
    | none => rfl
    | some w => simp only; split <;> rfl
  have hc : (s.setController new c).isChild = s.isChild := by cases c <;> rfl
  unfold replaced transition transitioned
  rw [if_neg hn, if_neg hn, isChild_setChild, hu, hd, isChild_setChild, hc]

/-- **A replacement by a controller that is not in use yet leaves the hierarchy
consistent.** -/
theorem Consistent.replaced (h : s.Consistent) (c : RevealContainer) {new : Option V}
    (hnew : s.Fresh new) : (s.replaced c new).Consistent := by
  obtain ⟨f, g, hf⟩ := s.replaced_eq c new
  have hloaded : (s.replaced c new).isViewLoaded = s.isViewLoaded := by
    rw [hf]
    cases c <;> rfl
  by_cases hn : s.controller c = new
  · have hs : s.replaced c new = s := by
      rw [Reveal.replaced, transition, transitioned, if_pos hn, if_pos hn, ← hn]
      cases c <;> rfl
    rwa [hs]
  constructor
  · intro hs v c' hc'
    rw [hloaded] at hs
    rw [controller_replaced] at hc'
    rw [position_replaced, superview_replaced hn]
    by_cases hcc : c' = c
    · subst hcc
      rw [if_pos rfl] at hc'
      rw [if_neg (hnew v hc' c'), h.elsewhere v fun _ => hnew v hc', h.isLoaded_eq, hs]
      constructor <;> cases c' <;> simp_all
    · rw [if_neg hcc] at hc'
      have hold : s.controller c ≠ some v := (h.controller_iff hc' c).not.mpr (Ne.symm hcc)
      have hv : new ≠ some v := fun hv => hnew v hv c' hc'
      simpa [hold, hv] using h.inPlace hs v c' hc'
  · intro v hv
    simp only [hloaded, controller_replaced] at hv
    rw [superview_replaced hn]
    split
    · rfl
    · next hold =>
      rw [h.isLoaded_eq]
      cases hs : s.isViewLoaded with
      | false =>
          simp only [Bool.false_and, Bool.false_eq_true, and_false, if_false]
          exact h.elsewhere v (by simp [hs])
      | true =>
          have hv := hv hs
          have hvn : new ≠ some v := by simpa using hv c
          rw [if_neg (fun hvn' => hvn hvn'.1)]
          refine h.elsewhere v fun _ c' => ?_
          by_cases hcc : c' = c
          · exact hcc ▸ hold
          · simpa [hcc] using hv c'
  · rw [hf]
    cases c <;> exact h.rearView
  · rw [hf]
    cases c <;> exact h.rightView
  · intro v
    simp only [controller_replaced]
    rw [isChild_replaced hn]
    split
    · next hold =>
      have hvn : new ≠ some v := fun hv => hnew v hv c hold
      simp only [Bool.false_eq_true, false_iff, not_exists]
      intro c'
      split
      · exact hvn
      · next hcc => exact (h.controller_iff hold c').not.mpr hcc
    · next hold =>
      split
      · next hv => simpa using ⟨c, by simp [hv]⟩
      · next hv =>
        rw [h.isChild]
        constructor
        · rintro ⟨c', hc'⟩
          have hcc : c' ≠ c := fun hcc => hold (hcc ▸ hc')
          exact ⟨c', by rwa [if_neg hcc]⟩
        · rintro ⟨c', hc'⟩
          split at hc'
          · exact absurd hc' hv
          · exact ⟨c', hc'⟩
  · intro v c₁ c₂ h₁ h₂
    simp only [controller_replaced] at h₁ h₂
    by_cases hc₁ : c₁ = c
    · rw [if_pos hc₁] at h₁
      by_cases hc₂ : c₂ = c
      · rw [hc₁, hc₂]
      · rw [if_neg hc₂] at h₂
        exact absurd h₂ (hnew v h₁ c₂)
    · rw [if_neg hc₁] at h₁
      by_cases hc₂ : c₂ = c
      · rw [if_pos hc₂] at h₂
        exact absurd h₁ (hnew v h₂ c₁)
      · rw [if_neg hc₂] at h₂
        exact h.injective v c₁ c₂ h₁ h₂

/-! ## whole moves -/

variable [Field K] [LinearOrder K] [Rounding K]

/-- The controller with all its views deployed for a move to `p`. -/
def deployed (s : Reveal V K) (p : FrontViewPosition) : Reveal V K :=
  (((s.deployedFor p .rearView).deployedFor p .rightView).deployedFor p .frontView).layoutSubviews

/-- Everything but the hierarchy, once deployed. -/
theorem deployed_eq (s : Reveal V K) (p : FrontViewPosition) :
    ∃ f, s.deployed p =
      { s with
        rearViewPosition := s.target p .rearView
        rightViewPosition := s.target p .rightView
        frontViewPosition := s.target p .frontView
        rearView := s.rearView || s.appears p .rearView
        rightView := s.rightView || s.appears p .rightView
        superview := f
        xLocation :=
          if s.disableLayout then s.xLocation
          else s.properties.frontLocationForPosition (s.target p .frontView) } := by
  refine ⟨(((s.deployedFor p .rearView).deployedFor p .rightView).deployedFor p
    .frontView).superview, ?_⟩
  unfold deployed layoutSubviews
  by_cases hd : s.disableLayout = true
  · rw [if_pos hd]
    exact if_pos hd
  · rw [if_neg hd]
    exact if_neg hd

theorem setFrontViewPosition_eq (s : Reveal V K) (hs : s.isViewLoaded = true)
    {p : FrontViewPosition} (hp : p ≠ .none) (duration : K) :
    s.setFrontViewPosition p duration =
      (s.deployed p, if duration > 0 then .later (s.leavings p) else .now (s.leavings p)) := by
  simp only [setFrontViewPosition]
  rw [rearViewDeployment_eq _ hp, rightViewDeployment_eq _ hp,
    frontViewDeployment_eq _ (by exact hs) hp]
  rfl

/-- The state once the front view has moved to the position `p`, if the move is
not interfered with. -/
def moved (s : Reveal V K) (p : FrontViewPosition) : Reveal V K :=
  (s.deployed p).complete (s.leavings p)

namespace Consistent

/-- Everything but the hierarchy after a whole move. -/
theorem moved_eq (h : s.Consistent) (hs : s.isViewLoaded = true) (p : FrontViewPosition) :
    ∃ f, s.moved p =
      { s with
        rearViewPosition := s.target p .rearView
        rightViewPosition := s.target p .rightView
        frontViewPosition := s.target p .frontView
        rearView := RevealContainer.rearView.isShown (s.target p .rearView)
        rightView := RevealContainer.rightView.isShown (s.target p .rightView)
        superview := f
        xLocation :=
          if s.disableLayout then s.xLocation
          else s.properties.frontLocationForPosition (s.target p .frontView) } := by
  have hr := loaded_moved (p := p) (c := .rearView) (h.rearView.trans (by rw [hs]; rfl))
  have hg := loaded_moved (p := p) (c := .rightView) (h.rightView.trans (by rw [hs]; rfl))
  obtain ⟨f₁, h₁⟩ := (s.deployed p).completeFor_eq (s.leaving p .rearView) .rearView
  obtain ⟨f₂, h₂⟩ := ((s.deployed p).completeFor (s.leaving p .rearView) .rearView).completeFor_eq
    (s.leaving p .rightView) .rightView
  obtain ⟨f₃, h₃⟩ := (((s.deployed p).completeFor (s.leaving p .rearView) .rearView).completeFor
    (s.leaving p .rightView) .rightView).completeFor_eq (s.leaving p .frontView) .frontView
  obtain ⟨f, hf⟩ := s.deployed_eq p
  refine ⟨f₃, ?_⟩
  rw [moved, leavings, complete_deployments, h₃, h₂, h₁, ← hr, ← hg, hf]
  simp [leaving]

/-- Where a whole move puts the view of a controller. -/
theorem inPlace_moved (h : s.Consistent) (hs : s.isViewLoaded = true)
    (hc : s.controller c = some v) :
    InPlace c (c.isShown (s.target p c)) ((s.moved p).superview v) := by
  have hne (c' : RevealContainer) (hc' : c' ≠ c) : s.controller c' ≠ some v :=
    (h.controller_iff hc c').not.mpr hc'
  have hd := (h.inPlace hs v c hc).deployed (p := p)
  have hu := hd.undeployed
  rw [moved, leavings, complete_deployments, deployed]
  cases c with
  | rearView =>
      have h₁ := superview_deployedFor_self (p := p) hc rfl
      have h₂ := superview_deployedFor_of_ne (p := p) (by simpa using hne .rightView (by decide)) h₁
      have h₃ := superview_deployedFor_of_ne (p := p) (by simpa using hne .frontView (by decide)) h₂
      have h₄ := superview_completeFor_self (p := p) hc (superview_layoutSubviews h₃)
      have h₅ := superview_completeFor_of_ne (p := p) (hne .rightView (by decide))
        (hu.ne (by decide)) h₄
      rwa [superview_completeFor_of_ne (hne .frontView (by decide)) (hu.ne (by decide)) h₅]
  | rightView =>
      have h₁ := superview_deployedFor_of_ne (p := p) (hne .rearView (by decide)) rfl
      have h₂ := superview_deployedFor_self (p := p) (by simpa using hc) h₁
      rw [appears_deployedFor (by decide)] at h₂
      have h₃ := superview_deployedFor_of_ne (p := p) (by simpa using hne .frontView (by decide)) h₂
      have h₄ := superview_completeFor_of_ne (p := p) (hne .rearView (by decide))
        (hd.ne (by decide)) (superview_layoutSubviews h₃)
      have h₅ := superview_completeFor_self (p := p) hc h₄
      rwa [superview_completeFor_of_ne (hne .frontView (by decide)) (hu.ne (by decide)) h₅]
  | frontView =>
      have h₁ := superview_deployedFor_of_ne (p := p) (hne .rearView (by decide)) rfl
      have h₂ := superview_deployedFor_of_ne (p := p) (by simpa using hne .rightView (by decide)) h₁
      have h₃ := superview_deployedFor_self (p := p) (by simpa using hc) h₂
      rw [appears_deployedFor (by decide), appears_deployedFor (by decide)] at h₃
      have h₄ := superview_completeFor_of_ne (p := p) (hne .rearView (by decide))
        (hd.ne (by decide)) (superview_layoutSubviews h₃)
      have h₅ := superview_completeFor_of_ne (p := p) (hne .rightView (by decide))
        (hd.ne (by decide)) h₄
      rwa [superview_completeFor_self hc h₅]

theorem superview_moved_of_ne (h : s.Consistent) (hc : ∀ c, s.controller c ≠ some v) :
    (s.moved p).superview v = none := by
  have hstay (c : RevealContainer) {t : Reveal V K} (ht : t.superview v = none) :
      (t.completeFor (s.leaving p c) c).superview v = none :=
    superview_completeFor_of_ne (hc c) (by simp) ht
  have h₁ := superview_deployedFor_of_ne (p := p) (hc .rearView) (h.elsewhere v fun _ => hc)
  have h₂ := superview_deployedFor_of_ne (p := p) (by simpa using hc .rightView) h₁
  have h₃ := superview_deployedFor_of_ne (p := p) (by simpa using hc .frontView) h₂
  rw [moved, leavings, complete_deployments, deployed]
  exact hstay .frontView (hstay .rightView (hstay .rearView (superview_layoutSubviews h₃)))

/-- **A whole move leaves the hierarchy consistent.** -/
theorem moved (h : s.Consistent) (hs : s.isViewLoaded = true) (p : FrontViewPosition) :
    (s.moved p).Consistent := by
  obtain ⟨f, hf⟩ := h.moved_eq hs p
  have ho := fun v c hc => h.inPlace_moved (v := v) (c := c) (p := p) hs hc
  have hn := fun v hc => h.superview_moved_of_ne (v := v) (p := p) hc
  have hposition (c : RevealContainer) : (s.moved p).position c = s.target p c := by
    rw [hf]
    cases c <;> rfl
  have hcontroller (c : RevealContainer) : (s.moved p).controller c = s.controller c := by
    rw [hf]
    cases c <;> rfl
  constructor
  · intro _ v c hc
    rw [hposition]
    exact ho v c (hcontroller c ▸ hc)
  · intro v hv
    refine hn v fun c => hcontroller c ▸ hv ?_ c
    rw [hf]
    exact hs
  · rw [hf]
    simp [hs]
  · rw [hf]
    simp [hs]
  · simp only [hcontroller]
    rw [hf]
    exact h.isChild
  · simpa only [hcontroller] using h.injective

end Consistent

end Reveal

end StreetParker
