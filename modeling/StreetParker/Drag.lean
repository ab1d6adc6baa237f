import StreetParker.Rounding

/-!
# StreetParker.Drag

The arithmetic of `SWRevealViewController`, the container that holds the map in
front of the menu: where the front view stands in each position, where a drag
puts it, and to which position it goes when it is let go.  Lengths, velocities
and durations are elements of an ordered field, and every operation on them is
rounded, as the operations of `CGFloat` are; what is multiplied by a sign is not.

* `frontLocationForPosition_mono` — positions further to the right are further
  to the right;
* `adjustedDragLocation_mono` — a drag follows the finger, and stays between the
  outermost positions;
* `adjustedDragLocation_frontLocation` — taking hold of the front view does not
  move it;
* `dragTarget_of_bounceBack` — when letting go leaves the menu open;
* `dragTarget_mirror` — the two sides behave alike.
-/

namespace StreetParker

open Rounding

/-- `CGFloat` is a double. -/
instance : Rounding ℚ := ⟨binary 53⟩

instance : LawfulRounding ℚ := lawful_binary (by norm_num)

/-! ## positions -/

/-- `FrontViewPosition`, with `FrontViewPositionNone`. -/
inductive FrontViewPosition where
  | leftSideMostRemoved
  | leftSideMost
  | leftSide
  | left
  | right
  | rightMost
  | rightMostRemoved
  | none
deriving DecidableEq, Repr

namespace FrontViewPosition

def rawValue : FrontViewPosition → Int
  | leftSideMostRemoved => 0
  | leftSideMost => 1
  | leftSide => 2
  | left => 3
  | right => 4
  | rightMost => 5
  | rightMostRemoved => 6
  | none => 0xff

instance : LE FrontViewPosition := ⟨fun p q => p.rawValue ≤ q.rawValue⟩

instance : LT FrontViewPosition := ⟨fun p q => p.rawValue < q.rawValue⟩

instance (p q : FrontViewPosition) : Decidable (p ≤ q) :=
  inferInstanceAs (Decidable (p.rawValue ≤ q.rawValue))

instance (p q : FrontViewPosition) : Decidable (p < q) :=
  inferInstanceAs (Decidable (p.rawValue < q.rawValue))

/-- `FrontViewPositionLeft - (position - FrontViewPositionLeft)`. -/
def mirrored : FrontViewPosition → FrontViewPosition
  | leftSideMostRemoved => rightMostRemoved
  | leftSideMost => rightMost
  | leftSide => right
  | left => left
  | right => leftSide
  | rightMost => leftSideMost
  | rightMostRemoved => leftSideMostRemoved
  | none => none

/-- `_getAdjustedFrontViewPosition:forSymetry:`. -/
def adjusted (p : FrontViewPosition) (symetry : Int) : FrontViewPosition :=
  if symetry < 0 then p.mirrored else p

theorem lt_def {p q : FrontViewPosition} : p < q ↔ p.rawValue < q.rawValue := Iff.rfl

theorem not_lt {p q : FrontViewPosition} : ¬p < q ↔ q ≤ p := Int.not_lt

@[simp] theorem adjusted_neg (p : FrontViewPosition) : p.adjusted (-1) = p.mirrored := rfl

@[simp] theorem adjusted_one (p : FrontViewPosition) : p.adjusted 1 = p := rfl

@[simp] theorem mirrored_mirrored (p : FrontViewPosition) : p.mirrored.mirrored = p := by
  cases p <;> rfl

/-- The mirror is the subtraction of the source, on every position there is. -/
theorem rawValue_mirrored {p : FrontViewPosition} (hp : p ≠ none) :
    p.mirrored.rawValue = left.rawValue + -1 * (p.rawValue - left.rawValue) := by
  cases p <;> first | rfl | exact absurd rfl hp

end FrontViewPosition

/-! ## properties -/

/-- The properties of the controller that its computations read, and the width
of its view. -/
structure RevealProperties (K : Type*) where
  rearViewRevealWidth : K
  rearViewRevealOverdraw : K
  rightViewRevealWidth : K
  rightViewRevealOverdraw : K
  bounceBackOnOverdraw : Bool
  bounceBackOnLeftOverdraw : Bool
  stableDragOnOverdraw : Bool
  stableDragOnLeftOverdraw : Bool
  presentFrontViewHierarchically : Bool
  quickFlickVelocity : K
  toggleAnimationDuration : K
  replaceViewAnimationDuration : K
  draggableBorderWidth : K
  boundsWidth : K

namespace RevealProperties

variable {K : Type*} [Field K] [LinearOrder K] [Rounding K]

/-- `_initDefaultProperties`. -/
def initDefaultProperties (boundsWidth : K) : RevealProperties K where
  rearViewRevealWidth := 260
  rearViewRevealOverdraw := 60
  rightViewRevealWidth := 260
  rightViewRevealOverdraw := 60
  bounceBackOnOverdraw := true
  bounceBackOnLeftOverdraw := true
  stableDragOnOverdraw := false
  stableDragOnLeftOverdraw := false
  presentFrontViewHierarchically := false
  quickFlickVelocity := 250
  toggleAnimationDuration := fl (3 / 10)
  replaceViewAnimationDuration := 1 / 4
  draggableBorderWidth := 0
  boundsWidth := boundsWidth

/-- `_getRevealWidth:revealOverDraw:forSymetry:`; a negative width is what is
left of the front view. -/
def revealWidth (c : RevealProperties K) (symetry : Int) : K × K :=
  let width := if symetry < 0 then c.rightViewRevealWidth else c.rearViewRevealWidth
  let overdraw := if symetry < 0 then c.rightViewRevealOverdraw else c.rearViewRevealOverdraw
  (if width < 0 then fl (c.boundsWidth + width) else width, overdraw)

/-- `_getBounceBack:pStableDrag:forSymetry:`. -/
def bounceBack (c : RevealProperties K) (symetry : Int) : Bool × Bool :=
  if symetry < 0 then (c.bounceBackOnLeftOverdraw, c.stableDragOnLeftOverdraw)
  else (c.bounceBackOnOverdraw, c.stableDragOnOverdraw)

/-- `frontLocationForPosition:`, the x of the front view in a position. -/
def frontLocationForPosition (c : RevealProperties K) (frontViewPosition : FrontViewPosition) :
    K :=
  let symetry : Int := if frontViewPosition < .left then -1 else 1
  let (revealWidth, revealOverdraw) := c.revealWidth symetry
  let position := frontViewPosition.adjusted symetry
  let location :=
    if position = .right then revealWidth
    else if position > .right then fl (revealWidth + revealOverdraw)
    else 0
  location * symetry

/-- `_adjustedDragLocationForLocation:` in the position `position`. -/
def adjustedDragLocation (c : RevealProperties K) (position : FrontViewPosition) (x : K) : K :=
  let symetry : Int := if x < 0 then -1 else 1
  let (revealWidth, revealOverdraw) := c.revealWidth symetry
  let (bounceBack, stableDrag) := c.bounceBack symetry
  let stableTrack := !bounceBack || stableDrag || position = .rightMost || position = .leftSideMost
  let width := if stableTrack then fl (revealWidth + revealOverdraw) else revealWidth
  let overdraw := if stableTrack then 0 else revealOverdraw
  let x := x * symetry
  let result :=
    -- translate linearly, then slow down, then keep
    if x ≤ width then x
    else if x ≤ fl (width + fl (2 * overdraw)) then fl (width + fl (fl (x - width) / 2))
    else fl (width + overdraw)
  result * symetry

/-- The position and the duration `_handleRevealGestureStateEndedWithRecognizer:`
settles on, for a front view let go at `xLocation`. -/
def dragTarget (c : RevealProperties K) (xLocation velocity : K) : FrontViewPosition × K :=
  let symetry : Int := if xLocation < 0 then -1 else 1
  let (revealWidth, revealOverdraw) := c.revealWidth symetry
  let (bounceBack, stableDrag) := c.bounceBack symetry
  let xLocation := xLocation * symetry
  let (position, duration) : FrontViewPosition × K :=
    if |velocity| > c.quickFlickVelocity then
      let (position, journey) : FrontViewPosition × K :=
        if velocity * symetry > 0 then
          if xLocation > revealWidth ∧ (!bounceBack && stableDrag) = true then
            (.rightMost, fl (fl (revealWidth + revealOverdraw) - xLocation))
          else (.right, fl (revealWidth - xLocation))
        else (.left, xLocation)
      (position, |fl (journey / velocity)|)
    else
      let position : FrontViewPosition :=
        if xLocation > fl (revealWidth * (1 / 2)) then
          if xLocation > revealWidth then
            if bounceBack then .left
            else if stableDrag = true ∧
                xLocation > fl (revealWidth + fl (revealOverdraw * (1 / 2))) then
              .rightMost
            else .right
          else .right
        else .left
      (position, c.toggleAnimationDuration)
  (position.adjusted symetry, duration)

/-! ## where the front view stands -/

variable {c : RevealProperties K}

/-- To the right of `left` it is the rear view that shows. -/
theorem frontLocationForPosition_of_gt {p : FrontViewPosition} (hp : .left < p) :
    c.frontLocationForPosition p =
      if p = .right then (c.revealWidth 1).1
      else fl ((c.revealWidth 1).1 + (c.revealWidth 1).2) := by
  cases p <;> first
    | exact absurd hp (by decide)
    | simp [frontLocationForPosition, FrontViewPosition.lt_def, FrontViewPosition.rawValue]

/-- To the left of `left` it is the right view. -/
theorem frontLocationForPosition_of_lt {p : FrontViewPosition} (hp : p < .left) :
    c.frontLocationForPosition p =
      -(if p = .leftSide then (c.revealWidth (-1)).1
        else fl ((c.revealWidth (-1)).1 + (c.revealWidth (-1)).2)) := by
  cases p <;> first
    | exact absurd hp (by decide)
    | simp [frontLocationForPosition, FrontViewPosition.lt_def, FrontViewPosition.rawValue,
        FrontViewPosition.mirrored]

@[simp] theorem frontLocationForPosition_left : c.frontLocationForPosition .left = 0 := by
  simp [frontLocationForPosition, FrontViewPosition.lt_def, FrontViewPosition.rawValue]

/-- Widths that leave room on both sides. -/
structure Roomy (c : RevealProperties K) : Prop where
  width : ∀ symetry, 0 ≤ (c.revealWidth symetry).1
  overdraw : ∀ symetry, 0 ≤ (c.revealWidth symetry).2

/-- A width and an overdraw without rounding between them: both are numbers of
the format, and so is the place where the overdraw is used up. -/
structure ExactTrack (width overdraw : K) : Prop where
  width_nonneg : 0 ≤ width
  overdraw_nonneg : 0 ≤ overdraw
  width_representable : Representable width
  overdraw_representable : Representable overdraw
  double_representable : Representable (2 * overdraw)
  reach_representable : Representable (width + 2 * overdraw)

/-- So on both sides. -/
def Exact (c : RevealProperties K) : Prop :=
  ∀ symetry, ExactTrack (c.revealWidth symetry).1 (c.revealWidth symetry).2

theorem Exact.roomy (h : c.Exact) : c.Roomy :=
  ⟨fun symetry => (h symetry).width_nonneg, fun symetry => (h symetry).overdraw_nonneg⟩

section Ordered

variable [IsStrictOrderedRing K] [LawfulRounding K]

theorem ExactTrack.width_le {w o : K} (h : ExactTrack w o) : w ≤ fl (w + o) :=
  le_fl h.width_representable (le_add_of_nonneg_right h.overdraw_nonneg)

/-- The widths of the defaults are small integers. -/
theorem exact_initDefaultProperties (boundsWidth : K) :
    (initDefaultProperties boundsWidth).Exact := by
  have hint (n : ℕ) (hn : n ≤ 2 ^ 24) : Representable (n : K) := representable_natCast hn
  intro symetry
  have hw : ((initDefaultProperties boundsWidth).revealWidth symetry) = (260, 60) := by
    simp [revealWidth, initDefaultProperties]
  rw [hw]
  refine ⟨by norm_num, by norm_num, ?_, ?_, ?_, ?_⟩
  · simpa using hint 260 (by norm_num)
  · simpa using hint 60 (by norm_num)
  · have h := hint 120 (by norm_num)
    norm_num at h ⊢
    exact h
  · have h := hint 380 (by norm_num)
    norm_num at h ⊢
    exact h

/-- **Positions are in order**: the front view never moves to the left when the
position goes to the right. -/
theorem frontLocationForPosition_mono (h : c.Exact) {p q : FrontViewPosition} (hp : p ≤ q) :
    c.frontLocationForPosition p ≤ c.frontLocationForPosition q := by
  have hw := (h (-1)).width_nonneg
  have ho := (h (-1)).width_le
  have hw' := (h 1).width_nonneg
  have ho' := (h 1).width_le
  cases p <;> cases q <;> first
    | exact absurd hp (by decide)
    | (simp [frontLocationForPosition, FrontViewPosition.lt_def, FrontViewPosition.rawValue,
        FrontViewPosition.mirrored]; done)
    | (simp [frontLocationForPosition, FrontViewPosition.lt_def, FrontViewPosition.rawValue,
        FrontViewPosition.mirrored]; linarith)

end Ordered

/-! ## where a drag puts it -/

/-- What becomes of a distance `x` of the finger: it is followed up to `width`,
then at half speed for `overdraw`, and then no more. -/
def followed (width overdraw x : K) : K :=
  if x ≤ width then x
  else if x ≤ fl (width + fl (2 * overdraw)) then fl (width + fl (fl (x - width) / 2))
  else fl (width + overdraw)

/-- The width that is followed in a position, and the overdraw after it. -/
def tracked (c : RevealProperties K) (position : FrontViewPosition) (symetry : Int) : K × K :=
  if !(c.bounceBack symetry).1 || (c.bounceBack symetry).2 || position = .rightMost ||
      position = .leftSideMost then
    (fl ((c.revealWidth symetry).1 + (c.revealWidth symetry).2), 0)
  else c.revealWidth symetry

theorem adjustedDragLocation_of_nonneg (position : FrontViewPosition) {x : K} (hx : 0 ≤ x) :
    c.adjustedDragLocation position x =
      followed (c.tracked position 1).1 (c.tracked position 1).2 x := by
  simp only [adjustedDragLocation, tracked, followed, not_lt.mpr hx, if_false]
  split <;> simp

theorem adjustedDragLocation_of_neg (position : FrontViewPosition) {x : K} (hx : x < 0) :
    c.adjustedDragLocation position x =
      -followed (c.tracked position (-1)).1 (c.tracked position (-1)).2 (-x) := by
  simp only [adjustedDragLocation, tracked, followed, hx, if_true]
  split <;> simp

theorem fl_tracked [LawfulRounding K] (position : FrontViewPosition) (symetry : Int) :
    fl ((c.tracked position symetry).1 + (c.tracked position symetry).2) =
      fl ((c.revealWidth symetry).1 + (c.revealWidth symetry).2) := by
  unfold tracked
  split
  · rw [add_zero]
    exact representable_fl _
  · rfl

/-- Within the width that is followed the front view is under the finger. -/
theorem adjustedDragLocation_eq_self (position : FrontViewPosition) {x : K}
    (hr : 0 ≤ x → x ≤ (c.tracked position 1).1)
    (hl : x < 0 → -x ≤ (c.tracked position (-1)).1) :
    c.adjustedDragLocation position x = x := by
  rcases lt_or_ge x 0 with hx | hx
  · rw [adjustedDragLocation_of_neg position hx, followed, if_pos (hl hx), neg_neg]
  · rw [adjustedDragLocation_of_nonneg position hx, followed, if_pos (hr hx)]

section Ordered

variable [IsStrictOrderedRing K] [LawfulRounding K]

theorem followed_nonneg {w o x : K} (hw : 0 ≤ w) (ho : 0 ≤ o) (hx : 0 ≤ x) :
    0 ≤ followed w o x := by
  unfold followed
  split
  · exact hx
  · next hxw =>
    have hhalf : 0 ≤ fl (fl (x - w) / 2) :=
      fl_nonneg (div_nonneg (fl_nonneg (sub_nonneg.mpr (not_le.mp hxw).le)) zero_le_two)
    split
    · exact fl_nonneg (add_nonneg hw hhalf)
    · exact fl_nonneg (add_nonneg hw ho)

/-- Half of the overdraw that is left never takes the front view beyond it. -/
theorem ExactTrack.half_le {w o x : K} (h : ExactTrack w o)
    (hx : x ≤ fl (w + fl (2 * o))) : fl (fl (x - w) / 2) ≤ o := by
  have hreach : fl (w + fl (2 * o)) = w + 2 * o := by
    rw [show fl (2 * o) = 2 * o from h.double_representable]
    exact h.reach_representable
  have hsub : fl (x - w) ≤ 2 * o := fl_le h.double_representable (by linarith)
  exact fl_le h.overdraw_representable (by linarith)

/-- No more is followed than leads to the outermost place. -/
theorem followed_le {w o x : K} (h : ExactTrack w o) : followed w o x ≤ fl (w + o) := by
  unfold followed
  split
  · next hx => exact hx.trans h.width_le
  · split
    · next hx => exact LawfulRounding.fl_mono (add_le_add_right (h.half_le hx) w)
    · exact le_rfl

/-- A finger further out takes the front view no less far. -/
theorem followed_mono {w o : K} (h : ExactTrack w o) : Monotone (followed w o) := by
  intro x y hxy
  by_cases hx : x ≤ w
  · rw [followed, if_pos hx]
    by_cases hy : y ≤ w
    · rwa [followed, if_pos hy]
    · have hhalf : 0 ≤ fl (fl (y - w) / 2) :=
        fl_nonneg (div_nonneg (fl_nonneg (sub_nonneg.mpr (not_le.mp hy).le)) zero_le_two)
      rw [followed, if_neg hy]
      split
      · exact hx.trans (le_fl h.width_representable (le_add_of_nonneg_right hhalf))
      · exact hx.trans h.width_le
  · have hy : ¬y ≤ w := fun hy => hx (hxy.trans hy)
    by_cases hfar : y ≤ fl (w + fl (2 * o))
    · rw [followed, followed, if_neg hx, if_neg hy, if_pos (hxy.trans hfar), if_pos hfar]
      have hsub : fl (x - w) ≤ fl (y - w) :=
        LawfulRounding.fl_mono (sub_le_sub_right hxy w)
      exact LawfulRounding.fl_mono (add_le_add_right
        (LawfulRounding.fl_mono (div_le_div_of_nonneg_right hsub zero_le_two)) w)
    · have hout : followed w o y = fl (w + o) := by rw [followed, if_neg hy, if_neg hfar]
      rw [hout]
      exact followed_le h

theorem tracked_nonneg (h : c.Roomy) (position : FrontViewPosition) (symetry : Int) :
    0 ≤ (c.tracked position symetry).1 ∧ 0 ≤ (c.tracked position symetry).2 := by
  have hw := h.width symetry
  have ho := h.overdraw symetry
  unfold tracked
  split
  · exact ⟨fl_nonneg (add_nonneg hw ho), le_refl 0⟩
  · exact ⟨hw, ho⟩

theorem exactTrack_tracked (h : c.Exact) (position : FrontViewPosition) (symetry : Int) :
    ExactTrack (c.tracked position symetry).1 (c.tracked position symetry).2 := by
  have hs := h symetry
  unfold tracked
  split
  · refine ⟨fl_nonneg (add_nonneg hs.width_nonneg hs.overdraw_nonneg), le_refl 0,
      representable_fl _, representable_zero, ?_, ?_⟩
    · rw [mul_zero]
      exact representable_zero
    · rw [mul_zero, add_zero]
      exact representable_fl _
  · exact hs

theorem le_tracked (h : c.Exact) (position : FrontViewPosition) (symetry : Int) :
    (c.revealWidth symetry).1 ≤ (c.tracked position symetry).1 := by
  unfold tracked
  split
  · exact (h symetry).width_le
  · exact le_refl _

theorem adjustedDragLocation_nonneg (h : c.Roomy) (position : FrontViewPosition) {x : K}
    (hx : 0 ≤ x) : 0 ≤ c.adjustedDragLocation position x := by
  obtain ⟨hw, ho⟩ := tracked_nonneg h position 1
  rw [adjustedDragLocation_of_nonneg position hx]
  exact followed_nonneg hw ho hx

/-- A drag stays between the outermost positions. -/
theorem adjustedDragLocation_mem (h : c.Exact) (position : FrontViewPosition) (x : K) :
    c.frontLocationForPosition .leftSideMost ≤ c.adjustedDragLocation position x ∧
      c.adjustedDragLocation position x ≤ c.frontLocationForPosition .rightMost := by
  rw [frontLocationForPosition_of_lt (by decide), frontLocationForPosition_of_gt (by decide),
    if_neg (by decide), if_neg (by decide), ← fl_tracked position, ← fl_tracked position]
  have hr := exactTrack_tracked h position 1
  have hl := exactTrack_tracked h position (-1)
  have hzero : 0 ≤ fl ((c.tracked position 1).1 + (c.tracked position 1).2) :=
    fl_nonneg (add_nonneg hr.width_nonneg hr.overdraw_nonneg)
  have hzero' : 0 ≤ fl ((c.tracked position (-1)).1 + (c.tracked position (-1)).2) :=
    fl_nonneg (add_nonneg hl.width_nonneg hl.overdraw_nonneg)
  rcases lt_or_ge x 0 with hx | hx
  · have hfar := followed_le hl (x := -x)
    have hnear := followed_nonneg hl.width_nonneg hl.overdraw_nonneg (neg_nonneg.mpr hx.le)
    rw [adjustedDragLocation_of_neg position hx]
    constructor <;> linarith
  · have hfar := followed_le hr (x := x)
    have hnear := followed_nonneg hr.width_nonneg hr.overdraw_nonneg hx
    rw [adjustedDragLocation_of_nonneg position hx]
    constructor <;> linarith

/-- **A drag follows the finger**: when the finger moves to the right the front
view does not move to the left, and it stays between the outermost positions. -/
theorem adjustedDragLocation_mono (h : c.Exact) (position : FrontViewPosition) {x y : K}
    (hxy : x ≤ y) :
    c.frontLocationForPosition .leftSideMost ≤ c.adjustedDragLocation position x ∧
      c.adjustedDragLocation position x ≤ c.adjustedDragLocation position y ∧
      c.adjustedDragLocation position y ≤ c.frontLocationForPosition .rightMost := by
  have hr := exactTrack_tracked h position 1
  have hl := exactTrack_tracked h position (-1)
  refine ⟨(adjustedDragLocation_mem h position x).1, ?_, (adjustedDragLocation_mem h position y).2⟩
  rcases lt_or_ge x 0 with hx | hx
  · rw [adjustedDragLocation_of_neg position hx]
    rcases lt_or_ge y 0 with hy | hy
    · rw [adjustedDragLocation_of_neg position hy]
      exact neg_le_neg (followed_mono hl (neg_le_neg hxy))
    · have hneg : 0 ≤ followed (c.tracked position (-1)).1 (c.tracked position (-1)).2 (-x) :=
        followed_nonneg hl.width_nonneg hl.overdraw_nonneg (neg_nonneg.mpr hx.le)
      exact (neg_nonpos.mpr hneg).trans (adjustedDragLocation_nonneg h.roomy position hy)
  · rw [adjustedDragLocation_of_nonneg position hx,
      adjustedDragLocation_of_nonneg position (hx.trans hxy)]
    exact followed_mono hr hxy

/-- The finger goes from 10 to 400. -/
theorem adjustedDragLocation_mono_initDefaultProperties :
    (initDefaultProperties (375 : ℚ)).frontLocationForPosition .leftSideMost ≤
        (initDefaultProperties (375 : ℚ)).adjustedDragLocation .left 10 ∧
      (initDefaultProperties (375 : ℚ)).adjustedDragLocation .left 10 ≤
        (initDefaultProperties (375 : ℚ)).adjustedDragLocation .left 400 ∧
      (initDefaultProperties (375 : ℚ)).adjustedDragLocation .left 400 ≤
        (initDefaultProperties (375 : ℚ)).frontLocationForPosition .rightMost :=
  adjustedDragLocation_mono (exact_initDefaultProperties 375) .left (by norm_num)

/-- Where the sum is rounded up, the front view can pass the outermost position
by one number of the format. -/
example :
    let c : RevealProperties ℚ :=
      { initDefaultProperties 375 with
        rearViewRevealWidth := fl (2001 / 10)
        rearViewRevealOverdraw := 40 }
    c.frontLocationForPosition .rightMost < c.adjustedDragLocation .left (fl (2801 / 10)) := by
  decide +kernel

/-- **Taking hold of the front view does not move it**, in any position it can
be taken hold of. -/
theorem adjustedDragLocation_frontLocation (h : c.Exact) {p : FrontViewPosition}
    (hp : .leftSideMostRemoved < p) (hp' : p < .rightMostRemoved) :
    c.adjustedDragLocation p (c.frontLocationForPosition p) = c.frontLocationForPosition p := by
  have hw := (h 1).width_nonneg
  have hw' := (h (-1)).width_nonneg
  have ho := fl_nonneg (add_nonneg hw (h 1).overdraw_nonneg)
  have ho' := fl_nonneg (add_nonneg hw' (h (-1)).overdraw_nonneg)
  rcases lt_trichotomy p.rawValue FrontViewPosition.left.rawValue with hl | hl | hl
  · rw [frontLocationForPosition_of_lt hl]
    refine adjustedDragLocation_eq_self p (fun hx => ?_) fun _ => ?_
    · refine le_trans ?_ (tracked_nonneg h.roomy p 1).1
      exact neg_nonpos.mpr (by split <;> assumption)
    · rw [neg_neg]
      split
      · exact le_tracked h p (-1)
      · next hs =>
        have hp : p = .leftSideMost := by
          cases p <;> first | rfl | contradiction
        simp [hp, tracked]
  · have hp : p = .left := by
      cases p <;> first | rfl | contradiction
    rw [hp, frontLocationForPosition_left]
    exact adjustedDragLocation_eq_self _ (fun _ => (tracked_nonneg h.roomy _ 1).1)
      fun hx => absurd hx (lt_irrefl 0)
  · rw [frontLocationForPosition_of_gt hl]
    refine adjustedDragLocation_eq_self p (fun _ => ?_) fun hx => absurd hx (not_lt.mpr ?_)
    · split
      · exact le_tracked h p 1
      · next hs =>
        have hp : p = .rightMost := by
          cases p <;> first | rfl | contradiction
        simp [hp, tracked]
    · split <;> assumption

end Ordered

/-! ## where it goes when it is let go -/

/-- The decision for a front view let go at a distance `x` on one of the two
sides, `v` being the velocity away from the middle. -/
def released (c : RevealProperties K) (symetry : Int) (x v : K) : FrontViewPosition :=
  if |v| > c.quickFlickVelocity then
    if v > 0 then
      if x > (c.revealWidth symetry).1 ∧
          (!(c.bounceBack symetry).1 && (c.bounceBack symetry).2) = true then .rightMost
      else .right
    else .left
  else if x > fl ((c.revealWidth symetry).1 * (1 / 2)) then
    if x > (c.revealWidth symetry).1 then
      if (c.bounceBack symetry).1 then .left
      else if (c.bounceBack symetry).2 = true ∧
          x > fl ((c.revealWidth symetry).1 + fl ((c.revealWidth symetry).2 * (1 / 2))) then
        .rightMost
      else .right
    else .right
  else .left

theorem dragTarget_of_nonneg {x : K} (hx : 0 ≤ x) (v : K) :
    (c.dragTarget x v).1 = c.released 1 x v := by
  simp only [dragTarget, released, not_lt.mpr hx, if_false, Int.cast_one, mul_one,
    FrontViewPosition.adjusted_one]
  repeat' split
  all_goals rfl

theorem dragTarget_of_neg {x : K} (hx : x < 0) (v : K) :
    (c.dragTarget x v).1 = (c.released (-1) (-x) (-v)).mirrored := by
  simp only [dragTarget, released, hx, if_true, Int.cast_neg, Int.cast_one, mul_neg, mul_one,
    FrontViewPosition.adjusted_neg, abs_neg]
  repeat' split
  all_goals rfl

theorem released_ne_none (symetry : Int) (x v : K) : c.released symetry x v ≠ .none := by
  unfold released
  repeat' split
  all_goals decide

theorem dragTarget_ne_none (x v : K) : (c.dragTarget x v).1 ≠ .none := by
  rcases lt_or_ge x 0 with hx | hx
  · rw [dragTarget_of_neg hx]
    have hn := released_ne_none (c := c) (-1) (-x) (-v)
    cases hr : c.released (-1) (-x) (-v) <;> first | decide | exact absurd hr hn
  · rw [dragTarget_of_nonneg hx]
    exact released_ne_none 1 x v

/-- With bounce back on its side the front view never stays in the overdraw. -/
theorem released_of_bounceBack {symetry : Int} (hb : (c.bounceBack symetry).1 = true) (x v : K) :
    c.released symetry x v =
      if c.quickFlickVelocity < |v| ∧ 0 < v ∨
          |v| ≤ c.quickFlickVelocity ∧ fl ((c.revealWidth symetry).1 * (1 / 2)) < x ∧
            x ≤ (c.revealWidth symetry).1 then .right
      else .left := by
  unfold released
  by_cases hq : c.quickFlickVelocity < |v|
  · simp [hq, not_le.mpr hq, hb]
  · simp only [gt_iff_lt, hq, if_false, not_lt.mp hq, false_and, true_and, false_or, hb, if_true]
    by_cases hx : fl ((c.revealWidth symetry).1 * (1 / 2)) < x
    · by_cases hw : (c.revealWidth symetry).1 < x
      · simp [hw]
      · simp [hw, not_lt.mp hw]
    · simp only [hx, if_false, false_and]

/-- **Which drags open the menu**: with bounce back on, a front view let go at
`x` to the right of the middle goes to `right` when it is flicked to the right,
or let go slowly past half of the reveal width and not past all of it; else it
goes back to `left`. -/
theorem dragTarget_of_bounceBack (hb : c.bounceBackOnOverdraw = true) {x : K} (hx : 0 ≤ x)
    (v : K) :
    (c.dragTarget x v).1 =
      if c.quickFlickVelocity < |v| ∧ 0 < v ∨
          |v| ≤ c.quickFlickVelocity ∧ fl ((c.revealWidth 1).1 * (1 / 2)) < x ∧
            x ≤ (c.revealWidth 1).1 then .right
      else .left := by
  rw [dragTarget_of_nonneg hx, released_of_bounceBack (show (c.bounceBack 1).1 = true from hb)]

/-! ## the two sides -/

/-- The properties with the two sides exchanged. -/
def mirror (c : RevealProperties K) : RevealProperties K :=
  { c with
    rearViewRevealWidth := c.rightViewRevealWidth
    rearViewRevealOverdraw := c.rightViewRevealOverdraw
    rightViewRevealWidth := c.rearViewRevealWidth
    rightViewRevealOverdraw := c.rearViewRevealOverdraw
    bounceBackOnOverdraw := c.bounceBackOnLeftOverdraw
    bounceBackOnLeftOverdraw := c.bounceBackOnOverdraw
    stableDragOnOverdraw := c.stableDragOnLeftOverdraw
    stableDragOnLeftOverdraw := c.stableDragOnOverdraw }

theorem tracked_mirror (p : FrontViewPosition) :
    c.mirror.tracked p.mirrored (-1) = c.tracked p 1 ∧
      c.mirror.tracked p.mirrored 1 = c.tracked p (-1) := by
  cases p <;> constructor <;>
    simp [tracked, mirror, bounceBack, revealWidth, FrontViewPosition.mirrored]

section Ordered

variable [IsStrictOrderedRing K]

/-- **The two sides behave alike**: letting go on one side is the mirror image of
letting go on the other. -/
theorem dragTarget_mirror {x : K} (hx : x ≠ 0) (v : K) :
    (c.mirror.dragTarget (-x) (-v)).1 = (c.dragTarget x v).1.mirrored := by
  have hl (y w : K) : c.mirror.released (-1) y w = c.released 1 y w := rfl
  have hr (y w : K) : c.mirror.released 1 y w = c.released (-1) y w := rfl
  rcases lt_or_gt_of_ne hx with hx | hx
  · rw [dragTarget_of_nonneg (neg_nonneg.mpr hx.le), hr, dragTarget_of_neg hx,
      FrontViewPosition.mirrored_mirrored]
  · rw [dragTarget_of_neg (neg_lt_zero.mpr hx), hl, neg_neg, neg_neg, dragTarget_of_nonneg hx.le]

/-- A drag on one side is the mirror image of the drag on the other. -/
theorem adjustedDragLocation_mirror [LawfulRounding K] (h : c.Roomy) (p : FrontViewPosition)
    (x : K) :
    c.mirror.adjustedDragLocation p.mirrored (-x) = -c.adjustedDragLocation p x := by
  obtain ⟨hl, hr⟩ := tracked_mirror (c := c) p
  rcases lt_trichotomy x 0 with hx | rfl | hx
  · rw [adjustedDragLocation_of_nonneg _ (neg_nonneg.mpr hx.le), hr,
      adjustedDragLocation_of_neg _ hx, neg_neg]
  · rw [neg_zero, adjustedDragLocation_of_nonneg _ le_rfl, adjustedDragLocation_of_nonneg _ le_rfl,
      hr, followed, followed, if_pos (tracked_nonneg h p (-1)).1, if_pos (tracked_nonneg h p 1).1,
      neg_zero]
  · rw [adjustedDragLocation_of_neg _ (neg_lt_zero.mpr hx), hl, neg_neg,
      adjustedDragLocation_of_nonneg _ hx.le]

end Ordered

end RevealProperties

end StreetParker
