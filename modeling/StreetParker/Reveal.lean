import StreetParker.Deferred
import StreetParker.Drag

/-!
# StreetParker.Reveal

`SWRevealViewController` as a machine: the positions of the front, rear and
right views, the controllers in them, what of the view hierarchy is loaded, the
animation queue with the animations in flight, and the gestures.

The queue is the queue of `StreetParker.Deferred`; the blocks are the primitive
methods of the controller, and the two that gestures call without queueing them.
No delegate is set, so nothing answers the notifications.
-/

namespace StreetParker

open Rounding

/-! ## the controller -/

/-- The three container views of a `SWRevealView`. -/
inductive RevealContainer where
  | rearView
  | frontView
  | rightView
deriving DecidableEq, Repr

/-- `SWRevealControllerOperation`, by the controller it replaces. -/
inductive SWRevealControllerOperation where
  | replaceRearController
  | replaceFrontController
  | replaceRightController
deriving DecidableEq, Repr

/-- The container of the view of the controller that is replaced. -/
def SWRevealControllerOperation.container : SWRevealControllerOperation → RevealContainer
  | replaceRearController => .rearView
  | replaceFrontController => .frontView
  | replaceRightController => .rightView

/-- The state of the controller and of its content view.  `superview v` is the
container that the view of the controller `v` is in; `rearView` and `rightView`
say whether these containers exist, the front container exists as soon as the
content view is loaded. -/
structure Reveal (V K : Type*) where
  properties : RevealProperties K
  isViewLoaded : Bool
  rearViewController : Option V
  frontViewController : Option V
  rightViewController : Option V
  frontViewPosition : FrontViewPosition
  rearViewPosition : FrontViewPosition
  rightViewPosition : FrontViewPosition
  rearView : Bool
  rightView : Bool
  superview : V → Option RevealContainer
  isChild : V → Bool
  xLocation : K
  userInteractionEnabled : Bool
  disableLayout : Bool
  userInteractionStore : Bool
  panning : Bool
  panInitialFrontPosition : FrontViewPosition

/-- What a deployment leaves for the completion: whether the controller
disappears, and which controller that is. -/
structure Deployment (V : Type*) where
  disappear : Bool
  controller : Option V

/-- The completions of the two primitive methods. -/
inductive RevealCompletion (V : Type*) where
  | deployments (rear right front : Deployment V)
  | transition (fromController toController : Option V)

/-- The blocks: the two primitive methods, the dummy block of a drag, and the
methods that call the first primitive without queueing it. -/
inductive RevealBlock (V K : Type*) where
  | setFrontViewPosition (newPosition : FrontViewPosition) (duration : K)
  | performTransitionOperation (operation : SWRevealControllerOperation) (new : Option V)
      (animated : Bool)
  | dummy
  | loadView
  | handleTapGesture
  | handleRevealGestureStateEnded (velocity : K)

/-- The scenes that the segues of the reveal controller in `Main.storyboard` lead to. -/
inductive RevealScene where
  | burgerMenuVC
  | tabBarController
deriving DecidableEq, Repr

/-- The segues `sw_rear` and `sw_front`; there is no `sw_right`. -/
def mainStoryboard : RevealContainer → Option RevealScene
  | .rearView => some .burgerMenuVC
  | .frontView => some .tabBarController
  | .rightView => none

/-- What is done to the controller without running a block. -/
inductive RevealAction (K : Type*) where
  | setPositions (frontViewPosition : FrontViewPosition)
  | handleRevealGestureStateBegan
  | handleRevealGestureStateChanged (translation : K)
  | handleRevealGestureStateCancelled
  | layoutSubviews
  | viewDidAppear

namespace Reveal

variable {V K : Type*} [DecidableEq V] [Field K] [LinearOrder K] [Rounding K]

/-! ## containers -/

/-- Whether the container exists. -/
def isLoaded (s : Reveal V K) : RevealContainer → Bool
  | .rearView => s.rearView
  | .frontView => s.isViewLoaded
  | .rightView => s.rightView

/-- `_deployForViewController:inView:`. -/
def deploy (s : Reveal V K) (controller : Option V) (view : RevealContainer) : Reveal V K :=
  match controller with
  | none => s
  | some v =>
      if s.isLoaded view then { s with superview := Function.update s.superview v (some view) }
      else s

/-- The completion of `_undeployForViewController:`. -/
def undeployed (s : Reveal V K) (controller : Option V) : Reveal V K :=
  match controller with
  | none => s
  | some v => { s with superview := Function.update s.superview v none }

/-- `removeFromSuperview` on a container: what is left in it has left the hierarchy. -/
def emptied (s : Reveal V K) (view : RevealContainer) : Reveal V K :=
  { s with superview := fun v => if s.superview v = some view then none else s.superview v }

/-- `unloadRearView`. -/
def unloadRearView (s : Reveal V K) : Reveal V K :=
  { s.emptied .rearView with rearView := false }

/-- `unloadRightView`. -/
def unloadRightView (s : Reveal V K) : Reveal V K :=
  { s.emptied .rightView with rightView := false }

/-- `_deploymentForViewController:inView:appear:disappear:`. -/
def deployment (s : Reveal V K) (controller : Option V) (view : RevealContainer)
    (appear disappear : Bool) : Reveal V K × Deployment V :=
  if appear then (s.deploy controller view, ⟨false, none⟩)
  else if disappear then (s, ⟨true, controller⟩)
  else (s, ⟨false, none⟩)

/-! ## deployments -/

/-- `_rearViewDeploymentForNewFrontViewPosition:`. -/
def rearViewDeployment (s : Reveal V K) (newPosition : FrontViewPosition) :
    Reveal V K × Deployment V :=
  let newPosition := if s.properties.presentFrontViewHierarchically then .right else newPosition
  let newPosition :=
    if s.rearViewController.isNone ∧ newPosition > .left then .left else newPosition
  let appear : Bool :=
    (s.rearViewPosition ≤ .left ∨ s.rearViewPosition = .none) ∧ newPosition > .left
  let disappear : Bool :=
    newPosition ≤ .left ∧ s.rearViewPosition > .left ∧ s.rearViewPosition ≠ .none
  -- `prepareRearViewForPosition:` makes the container when there is none
  let s := { s with rearView := s.rearView || appear, rearViewPosition := newPosition }
  s.deployment s.rearViewController .rearView appear disappear

/-- `_rightViewDeploymentForNewFrontViewPosition:`. -/
def rightViewDeployment (s : Reveal V K) (newPosition : FrontViewPosition) :
    Reveal V K × Deployment V :=
  let newPosition :=
    if s.rightViewController.isNone ∧ newPosition < .left then .left else newPosition
  let appear : Bool :=
    (s.rightViewPosition ≥ .left ∨ s.rightViewPosition = .none) ∧ newPosition < .left
  let disappear : Bool :=
    newPosition ≥ .left ∧ s.rightViewPosition < .left ∧ s.rightViewPosition ≠ .none
  let s := { s with rightView := s.rightView || appear, rightViewPosition := newPosition }
  s.deployment s.rightViewController .rightView appear disappear

/-- `_frontViewDeploymentForNewFrontViewPosition:`. -/
def frontViewDeployment (s : Reveal V K) (newPosition : FrontViewPosition) :
    Reveal V K × Deployment V :=
  let newPosition :=
    if (s.rightViewController.isNone ∧ newPosition < .left) ∨
        (s.rearViewController.isNone ∧ newPosition > .left) then .left
    else newPosition
  let appear : Bool :=
    (s.frontViewPosition ≥ .rightMostRemoved ∨ s.frontViewPosition ≤ .leftSideMostRemoved ∨
      s.frontViewPosition = .none) ∧
    newPosition < .rightMostRemoved ∧ newPosition > .leftSideMostRemoved
  let disappear : Bool :=
    (newPosition ≥ .rightMostRemoved ∨ newPosition ≤ .leftSideMostRemoved) ∧
    s.frontViewPosition < .rightMostRemoved ∧ s.frontViewPosition > .leftSideMostRemoved ∧
      s.frontViewPosition ≠ .none
  let s := { s with frontViewPosition := newPosition }
  s.deployment s.frontViewController .frontView appear disappear

/-- The completion of `_rearViewDeploymentForNewFrontViewPosition:`. -/
def rearViewDeployed (s : Reveal V K) (d : Deployment V) : Reveal V K :=
  if d.disappear then (s.undeployed d.controller).unloadRearView else s

/-- The completion of `_rightViewDeploymentForNewFrontViewPosition:`. -/
def rightViewDeployed (s : Reveal V K) (d : Deployment V) : Reveal V K :=
  if d.disappear then (s.undeployed d.controller).unloadRightView else s

/-- The completion of `_frontViewDeploymentForNewFrontViewPosition:`. -/
def frontViewDeployed (s : Reveal V K) (d : Deployment V) : Reveal V K :=
  if d.disappear then s.undeployed d.controller else s

/-! ## the primitive methods -/

/-- The part of `layoutSubviews` that places the front view. -/
def layoutSubviews (s : Reveal V K) : Reveal V K :=
  if s.disableLayout then s
  else { s with xLocation := s.properties.frontLocationForPosition s.frontViewPosition }

/-- `_setFrontViewPosition:withDuration:` up to its completion. -/
def setFrontViewPosition (s : Reveal V K) (newPosition : FrontViewPosition) (duration : K) :
    Reveal V K × Deferred.Stop (RevealCompletion V) :=
  let (s, rear) := s.rearViewDeployment newPosition
  let (s, right) := s.rightViewDeployment newPosition
  let (s, front) := s.frontViewDeployment newPosition
  let completion := .deployments rear right front
  (s.layoutSubviews, if duration > 0 then .later completion else .now completion)

/-- The controller whose view belongs in a container. -/
def controller (s : Reveal V K) : RevealContainer → Option V
  | .rearView => s.rearViewController
  | .frontView => s.frontViewController
  | .rightView => s.rightViewController

def setController (s : Reveal V K) (new : Option V) : RevealContainer → Reveal V K
  | .rearView => { s with rearViewController := new }
  | .frontView => { s with frontViewController := new }
  | .rightView => { s with rightViewController := new }

/-- `addChildViewController:` and `removeFromParentViewController`. -/
def setChild (s : Reveal V K) (controller : Option V) (isChild : Bool) : Reveal V K :=
  match controller with
  | none => s
  | some v => { s with isChild := Function.update s.isChild v isChild }

/-- `_transitionFromViewController:toViewController:inView:` up to its completion. -/
def transition (s : Reveal V K) (fromController toController : Option V)
    (view : RevealContainer) : Reveal V K :=
  if fromController = toController then s
  else (s.setChild toController true).deploy toController view

/-- The completion of `_transitionFromViewController:toViewController:inView:`. -/
def transitioned (s : Reveal V K) (fromController toController : Option V) : Reveal V K :=
  if fromController = toController then s
  else (s.undeployed fromController).setChild fromController false

/-- `_performTransitionOperation:withViewController:animated:` up to its completion. -/
def performTransitionOperation (s : Reveal V K) (operation : SWRevealControllerOperation)
    (new : Option V) (animated : Bool) : Reveal V K × Deferred.Stop (RevealCompletion V) :=
  let view := operation.container
  let old := s.controller view
  let s := (s.setController new view).transition old new view
  let completion := .transition old new
  (s, if animated = true ∧ s.properties.replaceViewAnimationDuration > 0 then .later completion
    else .now completion)

/-- `_disableUserInteraction`. -/
def disableUserInteraction (s : Reveal V K) : Reveal V K :=
  { s with userInteractionEnabled := false, disableLayout := true }

/-- `_restoreUserInteraction`. -/
def restoreUserInteraction (s : Reveal V K) : Reveal V K :=
  { s with userInteractionEnabled := s.userInteractionStore, disableLayout := false }

/-! ## gestures -/

/-- `_handleRevealGestureStateBeganWithRecognizer:` after it has queued its block. -/
def handleRevealGestureStateBegan (s : Reveal V K) : Reveal V K :=
  { s.disableUserInteraction with
    panning := true, panInitialFrontPosition := s.frontViewPosition }

/-- Both side views deployed for a position, completions and all. -/
def deploySides (s : Reveal V K) (position : FrontViewPosition) : Reveal V K :=
  let (s, right) := s.rightViewDeployment position
  let s := s.rightViewDeployed right
  let (s, rear) := s.rearViewDeployment position
  s.rearViewDeployed rear

/-- What a drag to the left of the middle deploys, and how far it goes. -/
def draggedLeft (s : Reveal V K) (xLocation : K) : Reveal V K × K :=
  if xLocation < 0 then
    (s.deploySides .leftSide, if s.rightViewController.isNone then 0 else xLocation)
  else (s, xLocation)

/-- What a drag to the right of the middle deploys, and how far it goes. -/
def draggedRight (s : Reveal V K) (xLocation : K) : Reveal V K × K :=
  if xLocation > 0 then
    (s.deploySides .right, if s.rearViewController.isNone then 0 else xLocation)
  else (s, xLocation)

/-- `_handleRevealGestureStateChangedWithRecognizer:`. -/
def handleRevealGestureStateChanged (s : Reveal V K) (translation : K) : Reveal V K :=
  let baseLocation := s.properties.frontLocationForPosition s.panInitialFrontPosition
  let (s, xLocation) := s.draggedLeft (fl (baseLocation + translation))
  let (s, xLocation) := s.draggedRight xLocation
  { s with xLocation := s.properties.adjustedDragLocation s.frontViewPosition xLocation }

/-- `_handleRevealGestureStateEndedWithRecognizer:` up to the completion. -/
def handleRevealGestureStateEnded (s : Reveal V K) (velocity : K) :
    Reveal V K × Deferred.Stop (RevealCompletion V) :=
  let (frontViewPosition, duration) := s.properties.dragTarget s.xLocation velocity
  let s := { s.restoreUserInteraction with panning := false }
  s.setFrontViewPosition frontViewPosition duration

/-- `_handleRevealGestureStateCancelledWithRecognizer:` before it dequeues. -/
def handleRevealGestureStateCancelled (s : Reveal V K) : Reveal V K :=
  { s.restoreUserInteraction with panning := false }

/-- `loadView` once the controllers of the storyboard are in place: no position
is taken as the one the views are deployed for. -/
def loadView (s : Reveal V K) : Reveal V K × Deferred.Stop (RevealCompletion V) :=
  let initialPosition := s.frontViewPosition
  let s :=
    { s with
      isViewLoaded := true
      frontViewPosition := .none
      rearViewPosition := .none
      rightViewPosition := .none
      xLocation := 0 }
  s.setFrontViewPosition initialPosition 0

/-! ## blocks, completions and actions -/

def runBlock (s : Reveal V K) : RevealBlock V K → Reveal V K × Deferred.Stop (RevealCompletion V)
  | .setFrontViewPosition newPosition duration => s.setFrontViewPosition newPosition duration
  | .performTransitionOperation operation new animated =>
      s.performTransitionOperation operation new animated
  | .dummy => (s, .held)
  | .loadView => s.loadView
  | .handleTapGesture => s.setFrontViewPosition .left s.properties.toggleAnimationDuration
  | .handleRevealGestureStateEnded velocity => s.handleRevealGestureStateEnded velocity

def complete (s : Reveal V K) : RevealCompletion V → Reveal V K
  | .deployments rear right front =>
      ((s.rearViewDeployed rear).rightViewDeployed right).frontViewDeployed front
  | .transition fromController toController => s.transitioned fromController toController

def act (s : Reveal V K) : RevealAction K → Reveal V K
  | .setPositions p =>
      { s with frontViewPosition := p, rearViewPosition := p, rightViewPosition := p }
  | .handleRevealGestureStateBegan => s.handleRevealGestureStateBegan
  | .handleRevealGestureStateChanged translation => s.handleRevealGestureStateChanged translation
  | .handleRevealGestureStateCancelled => s.handleRevealGestureStateCancelled
  | .layoutSubviews => s.layoutSubviews
  | .viewDidAppear => { s with userInteractionStore := s.userInteractionEnabled }

end Reveal

/-- The blocks of the controller, as the queue runs them. -/
def revealBlocks (V K : Type*) [DecidableEq V] [Field K] [LinearOrder K] [Rounding K] :
    Deferred.Blocks (Reveal V K) (RevealBlock V K) (RevealCompletion V) (RevealAction K) where
  run b s := s.runBlock b
  complete c s := s.complete c
  act a s := s.act a

/-- The controller with its animation queue. -/
abbrev RevealMachine (V K : Type*) :=
  Deferred.Queue (Reveal V K) (RevealBlock V K) (RevealCompletion V) (RevealAction K)

/-! ## requests, gestures and callbacks -/

/-- What happens to the controller: it is loaded (with the controllers that the
segues of its storyboard lead to, if it has one), asked for something, dragged,
tapped, or called back. -/
inductive RevealEvent (V K : Type*) where
  | loadView (storyboard : Option (RevealContainer → Option V))
  | setFrontViewPosition (position : FrontViewPosition) (animated : Bool)
  | revealToggle (animated : Bool)
  | rightRevealToggle (animated : Bool)
  | setViewController (operation : SWRevealControllerOperation) (new : Option V)
      (animated : Bool)
  | pushFrontViewController (new : Option V) (animated : Bool)
  | panBegan (translation xLocation width : K)
  | panChanged (translation : K)
  | panEnded (velocity : K)
  | panCancelled
  | tap
  | completion (i : Nat)
  | layoutSubviews
  | viewDidAppear

namespace Reveal

variable {V K : Type*} [DecidableEq V] [Field K] [LinearOrder K] [Rounding K]

/-- `_tapGestureShouldBegin`. -/
def tapGestureShouldBegin (s : Reveal V K) : Bool :=
  ¬(s.frontViewPosition = .left ∨ s.frontViewPosition = .rightMostRemoved ∨
    s.frontViewPosition = .leftSideMostRemoved)

/-- `_panGestureShouldBegin`. -/
def panGestureShouldBegin (s : Reveal V K) (translation xLocation width : K) : Bool :=
  let draggableBorderAllowing :=
    s.properties.draggableBorderWidth = 0 ∨
    (s.rearViewController.isSome ∧ xLocation ≤ s.properties.draggableBorderWidth) ∨
    (s.rightViewController.isSome ∧ xLocation ≥ fl (width - s.properties.draggableBorderWidth))
  let translationForbidding :=
    s.frontViewPosition = .left ∧
      ((s.rearViewController.isNone ∧ translation > 0) ∨
        (s.rightViewController.isNone ∧ translation < 0))
  draggableBorderAllowing ∧ ¬translationForbidding

/-- The position `revealToggleAnimated:` asks for. -/
def toggledPosition (s : Reveal V K) : FrontViewPosition :=
  if s.frontViewPosition ≤ .left then .right else .left

/-- The position `rightRevealToggleAnimated:` asks for. -/
def rightToggledPosition (s : Reveal V K) : FrontViewPosition :=
  if s.frontViewPosition ≥ .left then .leftSide else .left

/-- `setFrontViewPosition:animated:`. -/
def setFrontViewPositionOps (s : Reveal V K) (position : FrontViewPosition) (animated : Bool) :
    List (Deferred.Op (RevealBlock V K) (RevealAction K)) :=
  if s.isViewLoaded then
    [.enqueue (.setFrontViewPosition position
      (if animated then s.properties.toggleAnimationDuration else 0))]
  else [.act (.setPositions position)]

/-- Where the front view goes to have its controller replaced. -/
def preReplacementPosition (s : Reveal V K) : FrontViewPosition :=
  if s.frontViewPosition < .left then .leftSideMost
  else if s.frontViewPosition > .left then .rightMost
  else .left

/-- The blocks `_dispatchPushFrontViewController:animated:` queues. -/
def pushFrontViewController (s : Reveal V K) (new : Option V) (animated : Bool) :
    List (RevealBlock V K) :=
  let duration := if animated then s.properties.toggleAnimationDuration else 0
  let initialPosDif := |s.frontViewPosition.rawValue - s.preReplacementPosition.rawValue|
  let firstDuration :=
    if initialPosDif = 1 then fl (duration * fl 0.8)
    else if initialPosDif = 0 then 0
    else duration
  if animated then
    [.setFrontViewPosition s.preReplacementPosition firstDuration,
      .performTransitionOperation .replaceFrontController new false,
      .setFrontViewPosition .left duration]
  else [.performTransitionOperation .replaceFrontController new false]

/-- The operations of the segues, in the order in which they are performed. -/
def segueOperations : List SWRevealControllerOperation :=
  [.replaceRearController, .replaceFrontController, .replaceRightController]

/-- `perform` of the segues that lead to `segues`; a segue that the storyboard does
not have throws, and the exception is caught. -/
def segueBlocks (segues : RevealContainer → Option V) : List (RevealBlock V K) :=
  segueOperations.filterMap fun operation =>
    (segues operation.container).map fun v =>
      .performTransitionOperation operation (some v) false

/-- The blocks that `loadStoryboardControllers` calls. -/
def loadStoryboardControllers (s : Reveal V K)
    (storyboard : Option (RevealContainer → Option V)) : List (RevealBlock V K) :=
  match storyboard, s.rearViewController with
  | some segues, none => segueBlocks segues
  | _, _ => []

/-- What the controller does on an event, if the event can happen. -/
def ops (m : RevealMachine V K) :
    RevealEvent V K → Option (List (Deferred.Op (RevealBlock V K) (RevealAction K)))
  | .loadView storyboard =>
      if m.state.isViewLoaded then none
      else some ((m.state.loadStoryboardControllers storyboard ++ [RevealBlock.loadView]).map .call)
  | .setFrontViewPosition position animated =>
      some (m.state.setFrontViewPositionOps position animated)
  | .revealToggle animated =>
      some (m.state.setFrontViewPositionOps m.state.toggledPosition animated)
  | .rightRevealToggle animated =>
      some (m.state.setFrontViewPositionOps m.state.rightToggledPosition animated)
  | .setViewController operation new animated =>
      if m.state.isViewLoaded then
        some [.enqueue (.performTransitionOperation operation new animated)]
      else some [.call (.performTransitionOperation operation new false)]
  | .pushFrontViewController new animated =>
      if m.state.isViewLoaded then
        some ((m.state.pushFrontViewController new animated).map .enqueue)
      else some [.call (.performTransitionOperation .replaceFrontController new false)]
  | .panBegan translation xLocation width =>
      if m.state.isViewLoaded ∧ ¬m.state.panning ∧ m.queue.isEmpty ∧
          m.state.panGestureShouldBegin translation xLocation width then
        some [.enqueue .dummy, .act .handleRevealGestureStateBegan]
      else none
  | .panChanged translation =>
      if m.state.panning then some [.act (.handleRevealGestureStateChanged translation)]
      else none
  | .panEnded velocity =>
      if m.state.panning then some [.call (.handleRevealGestureStateEnded velocity)] else none
  | .panCancelled =>
      if m.state.panning then some [.act .handleRevealGestureStateCancelled, .dequeue] else none
  | .tap =>
      if m.state.isViewLoaded ∧ m.queue.isEmpty ∧ m.state.tapGestureShouldBegin then
        some [.call .handleTapGesture]
      else none
  | .completion i => some [.finish i]
  | .layoutSubviews => if m.state.isViewLoaded then some [.act .layoutSubviews] else none
  | .viewDidAppear => if m.state.isViewLoaded then some [.act .viewDidAppear] else none

/-- One event. -/
def step (m : RevealMachine V K) (e : RevealEvent V K) : Option (RevealMachine V K) :=
  (ops m e).bind (Runs.run (revealBlocks V K).exec m)

/-- The controller as `initWithCoder:` leaves it. -/
def initWithCoder (properties : RevealProperties K) : RevealMachine V K where
  state :=
    { properties
      isViewLoaded := false
      rearViewController := none
      frontViewController := none
      rightViewController := none
      frontViewPosition := .left
      rearViewPosition := .left
      rightViewPosition := .left
      rearView := false
      rightView := false
      superview := fun _ => none
      isChild := fun _ => false
      xLocation := 0
      userInteractionEnabled := true
      disableLayout := false
      userInteractionStore := true
      panning := false
      panInitialFrontPosition := .leftSideMostRemoved }
  queue := []
  inFlight := []
  history := []

/-- The reveal controller of `Main.storyboard`, on a screen of width 375. -/
def mainRevealController : RevealMachine RevealScene ℚ :=
  initWithCoder (.initDefaultProperties 375)

end Reveal

end StreetParker
