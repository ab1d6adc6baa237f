import StreetParker.Deployment

/-!
# StreetParker.RevealBlocks

What the blocks of the reveal controller come to when nothing disturbs them, and
what they keep.

* `once_setFrontViewPosition`, `once_performTransitionOperation`, … — each block
  with its completion is a whole move or a whole replacement;
* `Settled` — the sides are open as the front view's position says;
* `Tidy`, `Ready` — what holds in the middle of what is done at once, and between;
* `Ready.once`, `Dragged.changed` — what blocks and drags keep of it.
-/

namespace StreetParker

namespace Reveal

variable {V K : Type*} {s : Reveal V K} {p : FrontViewPosition} {cancelled : Prop}
  {queue : List (RevealBlock V K)} {b : RevealBlock V K}

/-! ## phases -/

/-- Loaded as before, and dragged as before. -/
structure SamePhase (s t : Reveal V K) : Prop where
  isViewLoaded : t.isViewLoaded = s.isViewLoaded
  panning : t.panning = s.panning

theorem SamePhase.trans {s t u : Reveal V K} (h : SamePhase s t) (h' : SamePhase t u) :
    SamePhase s u :=
  ⟨h'.isViewLoaded.trans h.isViewLoaded, h'.panning.trans h.panning⟩

theorem samePhase_deployment [DecidableEq V] (s : Reveal V K) (o : Option V)
    (c : RevealContainer) (a d : Bool) :
    SamePhase s (s.deployment o c a d).1 := by
  unfold deployment deploy
  repeat' split
  all_goals exact ⟨rfl, rfl⟩

theorem samePhase_complete [DecidableEq V] (s : Reveal V K) (c : RevealCompletion V) :
    SamePhase s (s.complete c) := by
  obtain ⟨f, g, b₁, b₂, h⟩ := s.complete_eq c
  rw [h]
  exact ⟨rfl, rfl⟩

theorem samePhase_performTransitionOperation [DecidableEq V] [Field K] [LinearOrder K]
    (s : Reveal V K) (operation : SWRevealControllerOperation) (new : Option V)
    (animated : Bool) :
    SamePhase s (s.performTransitionOperation operation new animated).1 := by
  have hc : SamePhase s (s.setController new operation.container) := by
    cases operation <;> exact ⟨rfl, rfl⟩
  refine hc.trans ?_
  simp only [performTransitionOperation, transition]
  split
  · exact ⟨rfl, rfl⟩
  · cases new with
    | none => exact ⟨rfl, rfl⟩
    | some v =>
        simp only [deploy]
        split <;> exact ⟨rfl, rfl⟩

theorem samePhase_replaced [DecidableEq V] (s : Reveal V K) (c : RevealContainer) (new : Option V) :
    SamePhase s (s.replaced c new) := by
  obtain ⟨f, g, hf⟩ := s.replaced_eq c new
  rw [hf]
  cases c <;> exact ⟨rfl, rfl⟩

/-! ## what waits -/

/-- The controller that a block puts in. -/
def installs : RevealBlock V K → Option V
  | .performTransitionOperation _ new _ => new
  | .setFrontViewPosition _ _ => none
  | .dummy => none
  | .loadView => none
  | .handleTapGesture => none
  | .handleRevealGestureStateEnded _ => none

/-- Blocks that may wait: moves to a position, of a loaded controller, and
replacements. -/
def Queueable (s : Reveal V K) : RevealBlock V K → Prop
  | .setFrontViewPosition p _ => p ≠ .none ∧ s.isViewLoaded = true
  | .performTransitionOperation _ _ _ => True
  | .dummy => False
  | .loadView => False
  | .handleTapGesture => False
  | .handleRevealGestureStateEnded _ => False

/-- What holds of the outcome `s` of a queue in which the blocks `queue` wait, also
in the middle of what is done at once. -/
structure Tidy (s : Reveal V K) (queue : List (RevealBlock V K)) : Prop where
  consistent : s.Consistent
  queueable : ∀ b ∈ queue, s.Queueable b
  nodup : (queue.filterMap installs).Nodup
  fresh : ∀ v ∈ queue.filterMap installs, ∀ c, s.controller c ≠ some v
  interaction : s.panning = false →
    s.userInteractionEnabled = s.userInteractionStore ∧ s.disableLayout = false

theorem Tidy.tail (h : s.Tidy (b :: queue)) : s.Tidy queue where
  consistent := h.consistent
  queueable := (List.forall_mem_cons.mp h.queueable).2
  nodup := by
    have hn := h.nodup
    rw [List.filterMap_cons] at hn
    split at hn
    · exact hn
    · exact (List.nodup_cons.mp hn).2
  fresh := by
    intro v hv
    refine h.fresh v ?_
    rw [List.filterMap_cons]
    split
    · exact hv
    · exact List.mem_cons_of_mem _ hv
  interaction := h.interaction

/-- Changes that concern neither the controllers nor the hierarchy. -/
theorem Tidy.congr {t : Reveal V K} (h : s.Tidy queue)
    (hloaded : t.isViewLoaded = s.isViewLoaded) (hcontroller : t.controller = s.controller)
    (ht : t.Consistent)
    (hinteraction : t.panning = false →
      t.userInteractionEnabled = t.userInteractionStore ∧ t.disableLayout = false) :
    t.Tidy queue where
  consistent := ht
  queueable := by
    intro b hb
    have hq := h.queueable b hb
    cases b with
    | setFrontViewPosition p d => exact ⟨hq.1, hloaded.trans hq.2⟩
    | performTransitionOperation operation new animated => trivial
    | dummy => exact hq
    | loadView => exact hq
    | handleTapGesture => exact hq
    | handleRevealGestureStateEnded v => exact hq
  nodup := h.nodup
  fresh := by simpa only [hcontroller] using h.fresh
  interaction := hinteraction

/-- The controller once a drag is over. -/
def released (s : Reveal V K) : Reveal V K := { s.restoreUserInteraction with panning := false }

/-- A drag that is over, before anything is done about it. -/
theorem Tidy.released (h : s.Tidy queue) : s.released.Tidy queue :=
  h.congr rfl rfl (h.consistent.congr rfl rfl rfl rfl rfl rfl rfl) fun _ => ⟨rfl, rfl⟩

/-- What holds during a drag. -/
structure Dragged (s : Reveal V K) (queue : List (RevealBlock V K)) : Prop
    extends s.Tidy queue where
  position : s.frontViewPosition ≠ .none
  isViewLoaded : s.isViewLoaded = true
  panning : s.panning = true

theorem Dragged.deploySides [DecidableEq V] (h : s.Dragged queue) (hp : p ≠ .none) :
    (s.deploySides p).Dragged queue := by
  obtain ⟨p₁, p₂, b₁, b₂, f, hf⟩ := s.deploySides_frame hp
  have hc := h.consistent.deploySides h.isViewLoaded hp
  rw [hf] at hc ⊢
  exact ⟨h.congr rfl rfl hc h.interaction, h.position, h.isViewLoaded, h.panning⟩

variable [Field K] [LinearOrder K] [Rounding K]

/-- The sides are open when the front view stands to their side of the middle,
and the front view is where its position says. -/
structure Settled (s : Reveal V K) : Prop where
  rear : s.properties.presentFrontViewHierarchically = false →
    (RevealContainer.rearView.isShown s.rearViewPosition = true ↔ .left < s.frontViewPosition)
  right : RevealContainer.rightView.isShown s.rightViewPosition = true ↔
    s.frontViewPosition < .left
  xLocation : s.xLocation = s.properties.frontLocationForPosition s.frontViewPosition

/-- Between what is done the controller is settled as well, if it is not being
dragged and no drag has been cancelled. -/
structure Ready (s : Reveal V K) (cancelled : Prop) (queue : List (RevealBlock V K)) : Prop
    extends s.Tidy queue where
  position : s.frontViewPosition ≠ .none
  settled : ¬cancelled → s.isViewLoaded = true → s.panning = false → s.Settled

/-- A move to the middle closes a rear side that is open. -/
theorem Settled.disappears_rear (h : s.Settled)
    (hhier : s.properties.presentFrontViewHierarchically = false)
    (hopen : .left < s.frontViewPosition) : s.disappears .left .rearView = true := by
  rw [disappears, show RevealContainer.rearView.isShown (s.position .rearView) = true from
    (h.rear hhier).mpr hopen]
  simp [target, hhier, FrontViewPosition.lt_def]
  decide

/-- One more block may wait. -/
theorem Ready.append (h : s.Ready cancelled queue) (hb : s.Queueable b)
    (hnew : ∀ v, installs b = some v →
      (∀ c, s.controller c ≠ some v) ∧ v ∉ queue.filterMap installs) :
    s.Ready cancelled (queue ++ [b]) := by
  refine ⟨⟨h.consistent, ?_, ?_, ?_, h.interaction⟩, h.position, h.settled⟩
  · intro b' hb'
    rcases List.mem_append.mp hb' with hb' | hb'
    · exact h.queueable b' hb'
    · rwa [List.mem_singleton.mp hb']
  · rw [List.filterMap_append]
    refine h.nodup.append ?_ ?_
    · cases hi : installs b <;> simp [hi]
    · intro v hv hv'
      exact (hnew v (by simpa using hv')).2 hv
  · intro v hv
    rw [List.filterMap_append, List.mem_append] at hv
    rcases hv with hv | hv
    · exact h.fresh v hv
    · exact (hnew v (by simpa using hv)).1

theorem samePhase_layoutSubviews (s : Reveal V K) : SamePhase s s.layoutSubviews := by
  unfold layoutSubviews
  split <;> exact ⟨rfl, rfl⟩

theorem Dragged.ready (h : s.Dragged queue) : s.Ready cancelled queue where
  toTidy := h.toTidy
  position := h.position
  settled := fun _ _ hpan => absurd (hpan.symm.trans h.panning) (by decide)

variable [DecidableEq V]

/-! ## what blocks leave alone -/

theorem samePhase_setFrontViewPosition (s : Reveal V K) (p : FrontViewPosition) (duration : K) :
    SamePhase s (s.setFrontViewPosition p duration).1 := by
  have hr (t : Reveal V K) : SamePhase t (t.rearViewDeployment p).1 := by
    unfold rearViewDeployment
    extract_lets q q' appear disappear u
    obtain ⟨hl, hp⟩ := samePhase_deployment u u.rearViewController .rearView appear disappear
    exact ⟨hl, hp⟩
  have hg (t : Reveal V K) : SamePhase t (t.rightViewDeployment p).1 := by
    unfold rightViewDeployment
    extract_lets q appear disappear u
    obtain ⟨hl, hp⟩ := samePhase_deployment u u.rightViewController .rightView appear disappear
    exact ⟨hl, hp⟩
  have hf (t : Reveal V K) : SamePhase t (t.frontViewDeployment p).1 := by
    unfold frontViewDeployment
    extract_lets q appear disappear u
    obtain ⟨hl, hp⟩ := samePhase_deployment u u.frontViewController .frontView appear disappear
    exact ⟨hl, hp⟩
  exact (hr s).trans ((hg _).trans ((hf _).trans (samePhase_layoutSubviews _)))

/-- A block leaves a loaded controller loaded. -/
theorem isViewLoaded_runBlock (s : Reveal V K) (b : RevealBlock V K)
    (h : s.isViewLoaded = true) : (s.runBlock b).1.isViewLoaded = true := by
  cases b with
  | setFrontViewPosition p d => rw [← h, ← (s.samePhase_setFrontViewPosition p d).isViewLoaded]; rfl
  | performTransitionOperation operation new animated =>
      rw [← h, ← (s.samePhase_performTransitionOperation operation new animated).isViewLoaded]; rfl
  | dummy => exact h
  | loadView => exact (samePhase_setFrontViewPosition _ _ _).isViewLoaded
  | handleTapGesture => exact (samePhase_setFrontViewPosition _ _ _).isViewLoaded.trans h
  | handleRevealGestureStateEnded v =>
      exact (samePhase_setFrontViewPosition _ _ _).isViewLoaded.trans h

/-- No block begins a drag. -/
theorem panning_runBlock (s : Reveal V K) (b : RevealBlock V K) (h : s.panning = false) :
    (s.runBlock b).1.panning = false := by
  cases b with
  | setFrontViewPosition p d => exact (samePhase_setFrontViewPosition _ _ _).panning.trans h
  | performTransitionOperation operation new animated =>
      exact (samePhase_performTransitionOperation _ _ _ _).panning.trans h
  | dummy => exact h
  | loadView => exact (samePhase_setFrontViewPosition _ _ _).panning.trans h
  | handleTapGesture => exact (samePhase_setFrontViewPosition _ _ _).panning.trans h
  | handleRevealGestureStateEnded v => exact (samePhase_setFrontViewPosition _ _ _).panning

/-! ## undisturbed blocks -/

theorem once_setFrontViewPosition (hs : s.isViewLoaded = true) (hp : p ≠ .none) (duration : K) :
    (revealBlocks V K).once (.setFrontViewPosition p duration) s = s.moved p := by
  unfold Deferred.Blocks.once
  simp only [revealBlocks, runBlock, setFrontViewPosition_eq s hs hp]
  by_cases hd : duration > 0
  · simp [hd, moved]
  · simp [hd, moved]

theorem once_performTransitionOperation (s : Reveal V K) (operation : SWRevealControllerOperation)
    (new : Option V) (animated : Bool) :
    (revealBlocks V K).once (.performTransitionOperation operation new animated) s =
      s.replaced operation.container new := by
  unfold Deferred.Blocks.once
  simp only [revealBlocks, runBlock, performTransitionOperation]
  split_ifs <;> rfl

/-- What `loadView` deploys its views on. -/
def unplaced (s : Reveal V K) : Reveal V K :=
  { s with
    isViewLoaded := true
    frontViewPosition := .none
    rearViewPosition := .none
    rightViewPosition := .none
    xLocation := 0 }

theorem once_loadView (hp : s.frontViewPosition ≠ .none) :
    (revealBlocks V K).once .loadView s = s.unplaced.moved s.frontViewPosition :=
  once_setFrontViewPosition (s := s.unplaced) rfl hp 0

theorem once_handleTapGesture (hs : s.isViewLoaded = true) :
    (revealBlocks V K).once .handleTapGesture s = s.moved .left :=
  once_setFrontViewPosition hs (by decide) s.properties.toggleAnimationDuration

theorem once_handleRevealGestureStateEnded (hs : s.isViewLoaded = true) (velocity : K) :
    (revealBlocks V K).once (.handleRevealGestureStateEnded velocity) s =
      s.released.moved (s.properties.dragTarget s.xLocation velocity).1 :=
  once_setFrontViewPosition (s := s.released) hs (RevealProperties.dragTarget_ne_none _ _)
    (s.properties.dragTarget s.xLocation velocity).2

/-! ## what undisturbed blocks keep -/

/-- A whole move settles the controller. -/
theorem settled_moved (h : s.Consistent) (hs : s.isViewLoaded = true) (hp : p ≠ .none)
    (hl : s.disableLayout = false) : (s.moved p).Settled := by
  obtain ⟨f, hf⟩ := h.moved_eq hs p
  rw [hf]
  constructor
  · exact s.target_left_lt hp
  · exact s.target_lt_left hp
  · simp [hl]

/-- A replacement leaves it settled. -/
theorem settled_replaced (h : s.Settled) (c : RevealContainer) (new : Option V) :
    (s.replaced c new).Settled := by
  obtain ⟨f, g, hf⟩ := s.replaced_eq c new
  rw [hf]
  cases c <;> exact ⟨h.rear, h.right, h.xLocation⟩

/-- A whole move settles the controller if it is not being dragged. -/
theorem Tidy.moved (h : s.Tidy queue) (hs : s.isViewLoaded = true) (hp : p ≠ .none) :
    (s.moved p).Ready cancelled queue := by
  obtain ⟨f, hf⟩ := h.consistent.moved_eq hs p
  refine ⟨h.congr ?_ ?_ (h.consistent.moved hs p) ?_, ?_, ?_⟩
  · rw [hf]
  · rw [hf]
    funext c
    cases c <;> rfl
  · rw [hf]
    exact h.interaction
  · rw [hf]
    exact s.target_ne_none hp .frontView
  · intro _ _ hpan
    rw [hf] at hpan
    exact settled_moved h.consistent hs hp (h.interaction hpan).2

/-- A replacement by the first controller that waits. -/
theorem Ready.replaced {operation : SWRevealControllerOperation} {new : Option V} {animated : Bool}
    (h : s.Ready cancelled (.performTransitionOperation operation new animated :: queue)) :
    (s.replaced operation.container new).Ready cancelled queue := by
  obtain ⟨f, g, hf⟩ := s.replaced_eq operation.container new
  have hnew : s.Fresh new := by
    rintro v rfl
    exact h.fresh v (by simp [installs])
  have ht := h.toTidy.tail
  have hphase : SamePhase s (s.replaced operation.container new) := by
    rw [hf]
    cases operation <;> exact ⟨rfl, rfl⟩
  constructor
  · constructor
    · exact h.consistent.replaced _ hnew
    · intro b hb
      have hq := ht.queueable b hb
      rw [hf]
      cases operation <;> cases b <;> exact hq
    · exact ht.nodup
    · intro v hv c
      rw [controller_replaced]
      split
      · rintro rfl
        have hn := h.nodup
        simp only [List.filterMap_cons, installs] at hn
        exact (List.nodup_cons.mp hn).1 hv
      · exact ht.fresh v hv c
    · rw [hf]
      cases operation <;> exact h.interaction
  · rw [hf]
    cases operation <;> exact h.position
  · intro hc hs hpan
    exact settled_replaced (h.settled hc (hphase.isViewLoaded ▸ hs) (hphase.panning ▸ hpan)) _ _

/-- What a block that waits keeps when it is run. -/
theorem Ready.once (h : s.Ready cancelled (b :: queue)) :
    ((revealBlocks V K).once b s).Ready cancelled queue := by
  have hq := h.queueable b List.mem_cons_self
  cases b with
  | setFrontViewPosition p d =>
      rw [once_setFrontViewPosition hq.2 hq.1]
      exact h.toTidy.tail.moved hq.2 hq.1
  | performTransitionOperation operation new animated =>
      rw [once_performTransitionOperation]
      exact h.replaced
  | dummy => exact absurd hq id
  | loadView => exact absurd hq id
  | handleTapGesture => exact absurd hq id
  | handleRevealGestureStateEnded v => exact absurd hq id

/-- A drag has been cancelled. -/
def Cancelled (history : List (Deferred.Ran (RevealBlock V K) (RevealAction K))) : Prop :=
  .acted .handleRevealGestureStateCancelled ∈ history

theorem keeps_ready : (revealBlocks V K).Keeps
    fun s history queue => s.Ready (Cancelled history) queue := by
  intro b queue s history h
  have hc : Cancelled (history ++ [.queued b]) ↔ Cancelled history := by
    simp [Cancelled]
  simp only [hc]
  exact h.once

/-! ## what is done meanwhile -/

theorem Ready.setPositions (h : s.Ready cancelled queue) (hs : s.isViewLoaded = false)
    (hp : p ≠ .none) : (s.act (.setPositions p)).Ready cancelled queue where
  toTidy := by
    refine h.congr rfl rfl ?_ h.interaction
    exact
      { inPlace := fun hs' => absurd (hs.symm.trans hs') (by decide)
        elsewhere := h.consistent.elsewhere
        rearView := by
          have hr := h.consistent.rearView
          rw [hs, Bool.false_and] at hr
          simp [act, hs, hr]
        rightView := by
          have hr := h.consistent.rightView
          rw [hs, Bool.false_and] at hr
          simp [act, hs, hr]
        isChild := h.consistent.isChild
        injective := h.consistent.injective }
  position := hp
  settled := fun _ hs' => absurd (hs.symm.trans hs') (by decide)

theorem Ready.began (h : s.Ready cancelled queue) :
    (s.act .handleRevealGestureStateBegan).Ready cancelled queue where
  toTidy := h.congr rfl rfl (h.consistent.congr rfl rfl rfl rfl rfl rfl rfl)
    fun hpan => absurd (show true = false from hpan) (by decide)
  position := h.position
  settled := fun _ _ hpan => absurd (show true = false from hpan) (by decide)

theorem Ready.cancel (h : s.Ready cancelled queue) :
    (s.act .handleRevealGestureStateCancelled).Ready True queue where
  toTidy := h.toTidy.released
  position := h.position
  settled := fun hc => absurd trivial hc

theorem Ready.layoutSubviews (h : s.Ready cancelled queue) :
    (s.act .layoutSubviews).Ready cancelled queue := by
  simp only [act, Reveal.layoutSubviews]
  split
  · exact h
  · exact
      { toTidy := h.congr rfl rfl (h.consistent.congr rfl rfl rfl rfl rfl rfl rfl) h.interaction
        position := h.position
        settled := fun hc hl hp =>
          ⟨(h.settled hc hl hp).rear, (h.settled hc hl hp).right, rfl⟩ }

theorem Ready.viewDidAppear (h : s.Ready cancelled queue) :
    (s.act .viewDidAppear).Ready cancelled queue where
  toTidy := h.congr rfl rfl (h.consistent.congr rfl rfl rfl rfl rfl rfl rfl)
    fun hp => ⟨rfl, (h.interaction hp).2⟩
  position := h.position
  settled := fun hc hl hp => ⟨(h.settled hc hl hp).rear, (h.settled hc hl hp).right,
    (h.settled hc hl hp).xLocation⟩

theorem Dragged.changed (h : s.Dragged queue) (translation : K) :
    (s.act (.handleRevealGestureStateChanged translation)).Dragged queue := by
  have hleft (t : Reveal V K) (x : K) (ht : t.Dragged queue) :
      (t.draggedLeft x).1.Dragged queue := by
    unfold draggedLeft
    split
    · exact ht.deploySides (by decide)
    · exact ht
  have hright (t : Reveal V K) (x : K) (ht : t.Dragged queue) :
      (t.draggedRight x).1.Dragged queue := by
    unfold draggedRight
    split
    · exact ht.deploySides (by decide)
    · exact ht
  obtain ⟨ht, hp, hl, hpan⟩ := hright _ _ (hleft s _ h)
  exact ⟨ht.congr rfl rfl (ht.consistent.congr rfl rfl rfl rfl rfl rfl rfl) ht.interaction, hp, hl,
    hpan⟩

theorem panning_changed (s : Reveal V K) (translation : K) :
    (s.act (.handleRevealGestureStateChanged translation)).panning = s.panning := by
  have hsides (t : Reveal V K) {p : FrontViewPosition} (hp : p ≠ .none) :
      (t.deploySides p).panning = t.panning := by
    obtain ⟨p₁, p₂, b₁, b₂, f, hf⟩ := t.deploySides_frame hp
    rw [hf]
  have hleft (t : Reveal V K) (x : K) : (t.draggedLeft x).1.panning = t.panning := by
    unfold draggedLeft
    split
    · exact hsides t (by decide)
    · rfl
  have hright (t : Reveal V K) (x : K) : (t.draggedRight x).1.panning = t.panning := by
    unfold draggedRight
    split
    · exact hsides t (by decide)
    · rfl
  exact (hright _ _).trans (hleft _ _)

/-- A completion and the placing of the front view do not depend on each other. -/
theorem complete_layoutSubviews (s : Reveal V K) (d : RevealCompletion V) :
    (s.act .layoutSubviews).complete d = (s.complete d).act .layoutSubviews := by
  have hfor (t : Reveal V K) (e : Deployment V) (c : RevealContainer) :
      t.layoutSubviews.completeFor e c = (t.completeFor e c).layoutSubviews := by
    obtain ⟨disappear, controller⟩ := e
    have hl : (t.completeFor ⟨disappear, controller⟩ c).disableLayout = t.disableLayout := by
      cases disappear <;> cases controller <;> cases c <;> rfl
    unfold Reveal.layoutSubviews
    rw [hl]
    split
    · rfl
    · cases disappear <;> cases controller <;> cases c <;> rfl
  cases d with
  | deployments rear right front =>
      simp only [act, complete_deployments]
      rw [hfor, hfor, hfor]
  | transition fromController toController =>
      simp only [act, complete, transitioned]
      by_cases he : fromController = toController
      · rw [if_pos he, if_pos he]
      · rw [if_neg he, if_neg he]
        have hl : ((s.undeployed fromController).setChild fromController false).disableLayout =
            s.disableLayout := by
          cases fromController <;> rfl
        unfold Reveal.layoutSubviews
        rw [hl]
        split
        · rfl
        · cases fromController <;> rfl

theorem complete_viewDidAppear (s : Reveal V K) (d : RevealCompletion V) :
    (s.act .viewDidAppear).complete d = (s.complete d).act .viewDidAppear := by
  have hfor (t : Reveal V K) (e : Deployment V) (c : RevealContainer) :
      (t.act .viewDidAppear).completeFor e c = (t.completeFor e c).act .viewDidAppear := by
    obtain ⟨disappear, controller⟩ := e
    cases disappear <;> cases controller <;> cases c <;> rfl
  cases d with
  | deployments rear right front =>
      simp only [complete_deployments]
      rw [hfor, hfor, hfor]
  | transition fromController toController =>
      simp only [complete, transitioned]
      by_cases he : fromController = toController
      · rw [if_pos he, if_pos he]
      · rw [if_neg he, if_neg he]
        cases fromController <;> rfl

end Reveal

end StreetParker
