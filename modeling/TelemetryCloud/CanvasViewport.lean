import Mathlib.Algebra.Order.Field.Basic
import Mathlib.Data.List.Induction
import Mathlib.Data.List.Infix
import Mathlib.Data.List.Nodup
import Mathlib.Tactic.FieldSimp
import Mathlib.Tactic.LinearCombination
import Mathlib.Tactic.Linarith
import Mathlib.Tactic.Ring

/-!
# Pan, pinch and wheel over a fitted view

Both canvas views lay a fitted transform under the gestures of the user: the view follows the fit until
a gesture takes it from there, and from then on it is the user's until it is reset.  Arithmetic
is exact, and `Math.hypot` and `Math.exp` are whatever functions the field is given.

* `fitTransform`, `zoomAt`, `pan` : the transforms; `step` : the controller, one event at a time;
* `Booked` : what the controller knows of the pointers that are down;
* `scale_kept` : **the scale stays within the limits**, in every run;
* `Pins` : what takes the view from the fit; `follows_fit` : **when the view follows the fit**;
* `held_in_place` : **what is under the finger or the cursor stays there**;
* `pinched` : **what a pinch does**: the scale follows the distance of the fingers within the limits,
  and what was between them drifts off by a known amount.
-/

namespace TelemetryCloud.CanvasViewport

/-! ### Transforms -/

/-- A position or a displacement, in pixels or in the world. -/
@[ext] structure Vec (K : Type) where
  x : K
  y : K
  deriving DecidableEq

@[ext] structure ViewTransform (K : Type) where
  scale : K
  x : K
  y : K
  deriving DecidableEq

structure Bounds (K : Type) where
  minX : K
  maxX : K
  minY : K
  maxY : K

structure Size (K : Type) where
  width : K
  height : K

structure Limits (K : Type) where
  min : K
  max : K

section Transforms

variable {K : Type} [Field K] [LinearOrder K]

def fitTransform (bounds : Bounds K) (canvas : Size K) (marginFraction minSpan : K) :
    ViewTransform K :=
  if ¬ 0 < canvas.width ∨ ¬ 0 < canvas.height then ⟨1, 0, 0⟩
  else
    let contentWidth := max (bounds.maxX - bounds.minX) minSpan
    let contentHeight := max (bounds.maxY - bounds.minY) minSpan
    let pad := max contentWidth contentHeight * marginFraction
    let scale := min (canvas.width / (contentWidth + pad * 2)) (canvas.height / (contentHeight + pad * 2))
    let centerX := (bounds.minX + bounds.maxX) / 2
    let centerY := (bounds.minY + bounds.maxY) / 2
    ⟨scale, canvas.width / 2 - centerX * scale, canvas.height / 2 - centerY * scale⟩

def worldToScreen (t : ViewTransform K) (world : Vec K) : Vec K :=
  ⟨world.x * t.scale + t.x, world.y * t.scale + t.y⟩

def screenToWorld (t : ViewTransform K) (screen : Vec K) : Vec K :=
  ⟨(screen.x - t.x) / t.scale, (screen.y - t.y) / t.scale⟩

def zoomAt (t : ViewTransform K) (screen : Vec K) (factor : K) (limits : Limits K) :
    ViewTransform K :=
  let newScale := min limits.max (max limits.min (t.scale * factor))
  let actualFactor := newScale / t.scale
  ⟨newScale, screen.x - (screen.x - t.x) * actualFactor, screen.y - (screen.y - t.y) * actualFactor⟩

def pan (t : ViewTransform K) (d : Vec K) : ViewTransform K := ⟨t.scale, t.x + d.x, t.y + d.y⟩

def WHEEL_LINE_PX : K := 16
def WHEEL_PAGE_PX : K := (400 : ℕ)
def WHEEL_MAX_PX : K := 240

/-- `deltaMode` of a wheel event. -/
inductive DeltaMode
  | pixel
  | line
  | page
  deriving DecidableEq, Repr

def DeltaMode.perUnit : DeltaMode → K
  | .pixel => 1
  | .line => WHEEL_LINE_PX
  | .page => WHEEL_PAGE_PX

def wheelZoomFactor (exp : K → K) (deltaMode : DeltaMode) (deltaY : K) : K :=
  exp (-max (-WHEEL_MAX_PX) (min WHEEL_MAX_PX (deltaY * deltaMode.perUnit)) * (1 / 1000))

def transformsDiffer (a b : ViewTransform K) : Bool :=
  1e-9 < |a.scale - b.scale| || 1e-9 < |a.x - b.x| || 1e-9 < |a.y - b.y|

end Transforms

/-! ### The controller -/

structure ViewportFit (K : Type) [Zero K] [LT K] where
  bounds : Bounds K
  minSpan : Option {span : K // 0 < span}

structure Pinch (K : Type) where
  distance : K
  mid : Vec K

structure State (K : Type) [Zero K] [LT K] where
  fitTo : Option (ViewportFit K)
  containerSize : Size K
  userTransform : Option (ViewTransform K)
  /-- A `Map`: the pointers in the order they went down. -/
  activePointers : List (ℕ × Vec K)
  previousPinch : Option (Pinch K)
  isDragging : Bool

/-- What a gesture is: `rect` is the corner of the canvas, if there is one, and positions are those of
the client area.  `frame` and `resize` change what the view is fitted to, `reset` is `resetView` or a
new `resetKey`. -/
inductive Event (K : Type) [Zero K] [LT K]
  | frame (fitTo : Option (ViewportFit K))
  | resize (size : Size K)
  | reset
  | wheel (rect : Option (Vec K)) (client : Vec K) (deltaMode : DeltaMode) (deltaY : K)
  | pointerDown (id : ℕ) (client : Vec K)
  | pointerMove (rect : Option (Vec K)) (id : ℕ) (client : Vec K)
  | pointerUp (id : ℕ)

/-- The options of a view, and the functions of `Math` it uses. -/
structure Options (K : Type) [Zero K] [One K] [LE K] where
  margin : {fraction : K // 0 ≤ fraction}
  maxZoomMultiplier : {factor : K // 1 ≤ factor}
  hypot : K → K → K
  exp : K → K

section Pointers

variable {K : Type}

/-- `Map.set`. -/
def setPointer (id : ℕ) (p : Vec K) : List (ℕ × Vec K) → List (ℕ × Vec K)
  | [] => [(id, p)]
  | q :: qs => if q.1 = id then (id, p) :: qs else q :: setPointer id p qs

/-- `Map.get`. -/
def getPointer (id : ℕ) (ps : List (ℕ × Vec K)) : Option (Vec K) :=
  (ps.find? fun q => q.1 = id).map Prod.snd

def deletePointer (id : ℕ) (ps : List (ℕ × Vec K)) : List (ℕ × Vec K) := ps.filter fun q => q.1 ≠ id

variable [Field K]

def pinchState (hypot : K → K → K) : List (ℕ × Vec K) → Option (Pinch K)
  | (_, a) :: (_, b) :: _ =>
    some ⟨hypot (b.x - a.x) (b.y - a.y), ⟨(a.x + b.x) / 2, (a.y + b.y) / 2⟩⟩
  | _ => none

/-- A position on the canvas. -/
def onCanvas (rect client : Vec K) : Vec K := ⟨client.x - rect.x, client.y - rect.y⟩

/-- The displacement from one position to another. -/
def displacement (start stop : Vec K) : Vec K := ⟨stop.x - start.x, stop.y - start.y⟩

end Pointers

section Controller

variable {K : Type} [Field K] [LinearOrder K] (o : Options K)

def initial (size : Size K) : State K := ⟨none, size, none, [], none, false⟩

def State.fit (st : State K) : ViewTransform K :=
  match st.fitTo with
  | some target =>
    fitTransform target.bounds st.containerSize o.margin
      (match target.minSpan with
        | some span => span
        | none => 1e-6)
  | none => ⟨1, 0, 0⟩

def State.transform (st : State K) : ViewTransform K := st.userTransform.getD (st.fit o)

def State.zoomLimits (st : State K) : Limits K :=
  ⟨(st.fit o).scale, (st.fit o).scale * o.maxZoomMultiplier⟩

def onWheel (st : State K) (rect : Option (Vec K)) (client : Vec K) (deltaMode : DeltaMode)
    (deltaY : K) : State K :=
  match rect with
  | none => st
  | some rect =>
    let zoomed := zoomAt (st.transform o) (onCanvas rect client) (wheelZoomFactor o.exp deltaMode deltaY)
      (st.zoomLimits o)
    if transformsDiffer (st.transform o) zoomed then { st with userTransform := some zoomed } else st

def onPointerDown (st : State K) (id : ℕ) (client : Vec K) : State K :=
  let pointers := setPointer id client st.activePointers
  { st with
    activePointers := pointers
    isDragging := true
    previousPinch := pinchState o.hypot pointers }

/-- The factor of a pinch. -/
def pinchFactor (before after : Pinch K) : K :=
  if 0 < before.distance then after.distance / before.distance else 1

/-- The view after a pinch. -/
def State.pinched (st : State K) (rect : Vec K) (before after : Pinch K) : ViewTransform K :=
  pan (zoomAt (st.transform o) (onCanvas rect after.mid) (pinchFactor before after) (st.zoomLimits o))
    (displacement before.mid after.mid)

def onPointerMove (st : State K) (rect : Option (Vec K)) (id : ℕ) (client : Vec K) : State K :=
  match getPointer id st.activePointers with
  | none => st
  | some previous =>
    let moved := { st with activePointers := setPointer id client st.activePointers }
    if moved.activePointers.length = 1 then
      { moved with userTransform := some (pan (st.transform o) (displacement previous client)) }
    else if moved.activePointers.length = 2 then
      let pinching := { moved with previousPinch := pinchState o.hypot moved.activePointers }
      match st.previousPinch, pinching.previousPinch, rect with
      | some before, some after, some rect =>
        { pinching with userTransform := some (st.pinched o rect before after) }
      | _, _, _ => pinching
    else moved

def onPointerUp (st : State K) (id : ℕ) : State K :=
  let pointers := deletePointer id st.activePointers
  { st with
    activePointers := pointers
    previousPinch := pinchState o.hypot pointers
    isDragging := if pointers = [] then false else st.isDragging }

def step (st : State K) : Event K → State K
  | .frame fitTo => { st with fitTo }
  | .resize size => { st with containerSize := size }
  | .reset => { st with userTransform := none }
  | .wheel rect client deltaMode deltaY => onWheel o st rect client deltaMode deltaY
  | .pointerDown id client => onPointerDown o st id client
  | .pointerMove rect id client => onPointerMove o st rect id client
  | .pointerUp id => onPointerUp o st id

def run (st : State K) (es : List (Event K)) : State K := es.foldl (step o) st

end Controller

/-! ### What transforms do -/

section Arithmetic

variable {K : Type} [Field K] {t : ViewTransform K}

theorem worldToScreen_screenToWorld (ht : t.scale ≠ 0) (p : Vec K) :
    worldToScreen t (screenToWorld t p) = p := by
  ext
  · exact (congrArg (· + t.x) (div_mul_cancel₀ _ ht)).trans (sub_add_cancel _ _)
  · exact (congrArg (· + t.y) (div_mul_cancel₀ _ ht)).trans (sub_add_cancel _ _)

theorem worldToScreen_pan (d w : Vec K) :
    worldToScreen (pan t d) w = ⟨(worldToScreen t w).x + d.x, (worldToScreen t w).y + d.y⟩ := by
  ext
  · exact (add_assoc _ _ _).symm
  · exact (add_assoc _ _ _).symm

theorem pan_pan (t : ViewTransform K) (d e : Vec K) :
    pan (pan t d) e = pan t ⟨d.x + e.x, d.y + e.y⟩ := by
  ext
  · rfl
  · exact add_assoc _ _ _
  · exact add_assoc _ _ _

variable [LinearOrder K]

/-- **Where a zoom takes the points of the screen**: away from the point it is at, by the factor that
is applied. -/
theorem worldToScreen_zoomAt (ht : t.scale ≠ 0) (p q : Vec K) (factor : K) (limits : Limits K) :
    worldToScreen (zoomAt t p factor limits) (screenToWorld t q) =
      ⟨p.x + (q.x - p.x) * ((zoomAt t p factor limits).scale / t.scale),
        p.y + (q.y - p.y) * ((zoomAt t p factor limits).scale / t.scale)⟩ := by
  ext
  · show (q.x - t.x) / t.scale * _ + (p.x - (p.x - t.x) * (_ / t.scale)) = _
    rw [zoomAt]
    field_simp
    ring
  · show (q.y - t.y) / t.scale * _ + (p.y - (p.y - t.y) * (_ / t.scale)) = _
    rw [zoomAt]
    field_simp
    ring

/-- A zoom stays within its limits. -/
theorem zoomAt_scale_mem (t : ViewTransform K) (p : Vec K) (factor : K) {limits : Limits K}
    (h : limits.min ≤ limits.max) : limits.min ≤ (zoomAt t p factor limits).scale ∧
      (zoomAt t p factor limits).scale ≤ limits.max :=
  ⟨le_min h (le_max_left _ _), min_le_left _ _⟩

variable [IsStrictOrderedRing K]

theorem not_transformsDiffer_self (t : ViewTransform K) : transformsDiffer t t = false := by
  have hpos : ¬ (1e-9 : K) < 0 := not_lt.mpr (by positivity)
  simp only [transformsDiffer, sub_self, abs_zero, hpos, decide_false, Bool.or_false]

/-- The fitted scale is a scale. -/
theorem fitTransform_scale_pos (bounds : Bounds K) (canvas : Size K) {marginFraction minSpan : K}
    (hmargin : 0 ≤ marginFraction) (hspan : 0 < minSpan) :
    0 < (fitTransform bounds canvas marginFraction minSpan).scale := by
  unfold fitTransform
  split
  · exact one_pos
  · next hcanvas =>
    rw [not_or, not_not, not_not] at hcanvas
    have hwidth : 0 < max (bounds.maxX - bounds.minX) minSpan := lt_max_of_lt_right hspan
    have hheight : 0 < max (bounds.maxY - bounds.minY) minSpan := lt_max_of_lt_right hspan
    have hpad : 0 ≤ max (max (bounds.maxX - bounds.minX) minSpan)
        (max (bounds.maxY - bounds.minY) minSpan) * marginFraction :=
      mul_nonneg (le_max_of_le_left hwidth.le) hmargin
    exact lt_min (div_pos hcanvas.1 (by linarith)) (div_pos hcanvas.2 (by linarith))

end Arithmetic

/-! ### The pointers that are down -/

section Booking

variable {K : Type}

theorem mem_keys_setPointer {id id' : ℕ} {p : Vec K} {ps : List (ℕ × Vec K)} :
    id' ∈ (setPointer id p ps).map Prod.fst ↔ id' = id ∨ id' ∈ ps.map Prod.fst := by
  induction ps with
  | nil => simp [setPointer]
  | cons q qs ih =>
    by_cases hq : q.1 = id
    · simp [setPointer, hq]
    · simp only [setPointer, if_neg hq, List.map_cons, List.mem_cons, ih]
      exact or_left_comm

theorem nodup_setPointer {id : ℕ} {p : Vec K} {ps : List (ℕ × Vec K)}
    (h : (ps.map Prod.fst).Nodup) : ((setPointer id p ps).map Prod.fst).Nodup := by
  induction ps with
  | nil => exact List.nodup_singleton _
  | cons q qs ih =>
    obtain ⟨hq, hqs⟩ := List.nodup_cons.mp h
    by_cases hid : q.1 = id
    · rw [setPointer, if_pos hid, List.map_cons, List.nodup_cons]
      exact ⟨hid ▸ hq, hqs⟩
    · rw [setPointer, if_neg hid, List.map_cons, List.nodup_cons, mem_keys_setPointer]
      exact ⟨not_or.mpr ⟨hid, hq⟩, ih hqs⟩

theorem getPointer_cons (id : ℕ) (q : ℕ × Vec K) (qs : List (ℕ × Vec K)) :
    getPointer id (q :: qs) = if q.1 = id then some q.2 else getPointer id qs := by
  by_cases hid : q.1 = id <;> simp [getPointer, hid]

/-- A pointer that is down is moved in its place. -/
theorem length_setPointer {id : ℕ} {p previous : Vec K} {ps : List (ℕ × Vec K)}
    (h : getPointer id ps = some previous) : (setPointer id p ps).length = ps.length := by
  induction ps with
  | nil => cases h
  | cons q qs ih =>
    by_cases hid : q.1 = id
    · rw [setPointer, if_pos hid, List.length_cons, List.length_cons]
    · rw [setPointer, if_neg hid, List.length_cons, List.length_cons, ih]
      rwa [getPointer_cons, if_neg hid] at h

theorem setPointer_ne_nil (id : ℕ) (p : Vec K) (ps : List (ℕ × Vec K)) :
    setPointer id p ps ≠ [] := by
  cases ps with
  | nil => exact List.cons_ne_nil _ _
  | cons q qs =>
    rw [setPointer]
    split <;> exact List.cons_ne_nil _ _

variable [Field K] [LinearOrder K]

/-- What the controller knows of the pointers that are down: each once, and with two of them or fewer
where the fingers of a pinch are. -/
structure Booked (o : Options K) (st : State K) : Prop where
  keys : (st.activePointers.map Prod.fst).Nodup
  dragging : st.isDragging = true ↔ st.activePointers ≠ []
  pinch : st.activePointers.length ≤ 2 → st.previousPinch = pinchState o.hypot st.activePointers

/-- A view of the user's has a scale. -/
def Scaled (st : State K) : Prop := ∀ t, st.userTransform = some t → 0 < t.scale

variable {o : Options K} {st : State K}

theorem pinchState_ne_none {ps : List (ℕ × Vec K)} (h : 2 ≤ ps.length) :
    pinchState o.hypot ps ≠ none := by
  match ps, h with
  | _ :: _ :: _, _ => exact Option.some_ne_none _

theorem pinchState_of_length_le_one {ps : List (ℕ × Vec K)} (h : ps.length ≤ 1) :
    pinchState o.hypot ps = none := by
  match ps, h with
  | [], _ | [_], _ => rfl

/-- What a move of a pointer that is down does. -/
inductive Moved (o : Options K) (st : State K) (rect : Option (Vec K)) (id : ℕ) (client : Vec K) :
    State K → Prop
  | ignored (h : getPointer id st.activePointers = none) : Moved o st rect id client st
  | panned {previous : Vec K} (h : getPointer id st.activePointers = some previous)
    (hone : st.activePointers.length = 1) :
    Moved o st rect id client { st with
      activePointers := setPointer id client st.activePointers
      userTransform := some (pan (st.transform o) (displacement previous client)) }
  | pinched {previous : Vec K} (h : getPointer id st.activePointers = some previous)
    (htwo : st.activePointers.length = 2) {before after : Pinch K} {corner : Vec K}
    (hbefore : st.previousPinch = some before)
    (hafter : pinchState o.hypot (setPointer id client st.activePointers) = some after)
    (hrect : rect = some corner) :
    Moved o st rect id client { st with
      activePointers := setPointer id client st.activePointers
      previousPinch := pinchState o.hypot (setPointer id client st.activePointers)
      userTransform := some (st.pinched o corner before after) }
  | unseen {previous : Vec K} (h : getPointer id st.activePointers = some previous)
    (htwo : st.activePointers.length = 2) (hnone : st.previousPinch = none ∨
      pinchState o.hypot (setPointer id client st.activePointers) = none ∨ rect = none) :
    Moved o st rect id client { st with
      activePointers := setPointer id client st.activePointers
      previousPinch := pinchState o.hypot (setPointer id client st.activePointers) }
  | many {previous : Vec K} (h : getPointer id st.activePointers = some previous)
    (hmany : st.activePointers.length ≠ 1 ∧ st.activePointers.length ≠ 2) :
    Moved o st rect id client
      { st with activePointers := setPointer id client st.activePointers }

theorem move_cases (o : Options K) (st : State K) (rect : Option (Vec K)) (id : ℕ) (client : Vec K) :
    Moved o st rect id client (onPointerMove o st rect id client) := by
  unfold onPointerMove
  split
  · next h => exact .ignored h
  · next previous h =>
    have hlength := length_setPointer (p := client) h
    simp only [hlength]
    split
    · next hone => exact .panned h hone
    · next hone =>
      split
      · next htwo =>
        split
        · next before after corner hbefore hafter => exact .pinched h htwo hbefore hafter rfl
        · next hother =>
          refine .unseen h htwo ?_
          by_contra hnone
          rw [not_or, not_or] at hnone
          obtain ⟨before, hbefore⟩ := Option.ne_none_iff_exists'.mp hnone.1
          obtain ⟨after, hafter⟩ := Option.ne_none_iff_exists'.mp hnone.2.1
          obtain ⟨corner, hcorner⟩ := Option.ne_none_iff_exists'.mp hnone.2.2
          exact hother before after corner hbefore hafter hcorner
      · next htwo => exact .many h ⟨hone, htwo⟩

theorem booked_step (h : Booked o st) (e : Event K) : Booked o (step o st e) := by
  cases e with
  | frame | resize | reset => exact ⟨h.keys, h.dragging, h.pinch⟩
  | wheel rect client deltaMode deltaY =>
    show Booked o (onWheel o st rect client deltaMode deltaY)
    unfold onWheel
    split
    · exact h
    · dsimp only
      split
      · exact ⟨h.keys, h.dragging, h.pinch⟩
      · exact h
  | pointerDown id client =>
    exact ⟨nodup_setPointer h.keys, iff_of_true rfl (setPointer_ne_nil _ _ _), fun _ => rfl⟩
  | pointerMove rect id client =>
    show Booked o (onPointerMove o st rect id client)
    have hdragging : ∀ {previous : Vec K}, getPointer id st.activePointers = some previous →
        (st.isDragging = true ↔ setPointer id client st.activePointers ≠ []) := by
      intro previous hget
      refine iff_of_true (h.dragging.mpr ?_) (setPointer_ne_nil _ _ _)
      intro hnil
      rw [hnil] at hget
      cases hget
    have hmoved := move_cases o st rect id client
    generalize onPointerMove o st rect id client = st' at hmoved ⊢
    cases hmoved with
    | ignored => exact h
    | panned hget hone =>
      refine ⟨nodup_setPointer h.keys, hdragging hget, fun _ => ?_⟩
      show st.previousPinch = pinchState o.hypot (setPointer id client st.activePointers)
      rw [h.pinch (hone ▸ one_le_two), pinchState_of_length_le_one hone.le,
        pinchState_of_length_le_one ((length_setPointer hget).trans hone).le]
    | pinched hget => exact ⟨nodup_setPointer h.keys, hdragging hget, fun _ => rfl⟩
    | unseen hget => exact ⟨nodup_setPointer h.keys, hdragging hget, fun _ => rfl⟩
    | many hget hmany =>
      refine ⟨nodup_setPointer h.keys, hdragging hget, fun hle => ?_⟩
      have hlength := length_setPointer (p := client) hget
      change (setPointer id client st.activePointers).length ≤ 2 at hle
      have hnil : st.activePointers = [] := List.eq_nil_of_length_eq_zero (by omega)
      rw [hnil] at hget
      cases hget
  | pointerUp id =>
    refine ⟨h.keys.sublist (List.filter_sublist.map _), ?_, fun _ => rfl⟩
    show (if deletePointer id st.activePointers = [] then false else st.isDragging) = true ↔
      deletePointer id st.activePointers ≠ []
    by_cases hnil : deletePointer id st.activePointers = []
    · rw [if_pos hnil]
      exact iff_of_false Bool.false_ne_true (not_not.mpr hnil)
    · rw [if_neg hnil]
      refine iff_of_true (h.dragging.mpr ?_) hnil
      intro hempty
      rw [hempty] at hnil
      exact hnil rfl

theorem booked_run (h : Booked o st) (es : List (Event K)) : Booked o (run o st es) := by
  induction es using List.reverseRecOn with
  | nil => exact h
  | append_singleton es e ih =>
    rw [run, List.foldl_append]
    exact booked_step ih e

theorem booked_initial (o : Options K) (size : Size K) : Booked o (initial size) :=
  ⟨List.nodup_nil, iff_of_false Bool.false_ne_true (not_not.mpr rfl), fun _ => rfl⟩

variable [IsStrictOrderedRing K]

theorem fit_scale_pos (o : Options K) (st : State K) : 0 < (st.fit o).scale := by
  unfold State.fit
  split
  · apply fitTransform_scale_pos _ _ o.margin.2
    split
    · exact Subtype.prop _
    · positivity
  · exact one_pos

theorem transform_scale_pos (h : Scaled st) : 0 < (st.transform o).scale := by
  unfold State.transform
  cases hu : st.userTransform with
  | none => exact fit_scale_pos o st
  | some t => exact h t hu

theorem zoomLimits_le (o : Options K) (st : State K) :
    (st.zoomLimits o).min ≤ (st.zoomLimits o).max :=
  le_mul_of_one_le_right (fit_scale_pos o st).le o.maxZoomMultiplier.2

end Booking

/-! ### The scale -/

section Scale

variable {K : Type} [Field K] [LinearOrder K] [IsStrictOrderedRing K] {o : Options K} {st : State K}

omit [IsStrictOrderedRing K] in
theorem run_snoc (o : Options K) (st : State K) (es : List (Event K)) (e : Event K) :
    run o st (es ++ [e]) = step o (run o st es) e := by
  rw [run, List.foldl_append]
  rfl

/-- **Where the scale of the user's view comes from** in one step: it was there, or it is the fitted
one, or it lies within the limits of zooming. -/
theorem step_userTransform (e : Event K) {t : ViewTransform K}
    (h : (step o st e).userTransform = some t) : t.scale = (st.transform o).scale ∨
      st.userTransform = some t ∨
      (st.zoomLimits o).min ≤ t.scale ∧ t.scale ≤ (st.zoomLimits o).max := by
  have hzoom := fun p factor =>
    zoomAt_scale_mem (st.transform o) p factor (zoomLimits_le o st)
  cases e with
  | frame | resize | pointerDown | pointerUp => exact .inr (.inl h)
  | reset => cases h
  | wheel rect client deltaMode deltaY =>
    change (onWheel o st rect client deltaMode deltaY).userTransform = some t at h
    unfold onWheel at h
    split at h
    · exact .inr (.inl h)
    · dsimp only at h
      split at h
      · cases h
        exact .inr (.inr (hzoom _ _))
      · exact .inr (.inl h)
  | pointerMove rect id client =>
    change (onPointerMove o st rect id client).userTransform = some t at h
    have hmoved := move_cases o st rect id client
    generalize onPointerMove o st rect id client = st' at hmoved h
    cases hmoved with
    | ignored | unseen | many => exact .inr (.inl h)
    | panned =>
      cases h
      exact .inl rfl
    | @pinched previous _ _ before after corner =>
      cases h
      exact .inr (.inr (hzoom (onCanvas corner after.mid) (pinchFactor before after)))

/-- The fitted view and its closest zoom lie between the two scales. -/
def Fits (o : Options K) (lo hi : K) (st : State K) : Prop :=
  lo ≤ (st.zoomLimits o).min ∧ (st.zoomLimits o).max ≤ hi

/-- The user's view lies between the two scales. -/
def Kept (lo hi : K) (st : State K) : Prop :=
  ∀ t, st.userTransform = some t → lo ≤ t.scale ∧ t.scale ≤ hi

theorem transform_kept {lo hi : K} (hfits : Fits o lo hi st) (hkept : Kept lo hi st) :
    lo ≤ (st.transform o).scale ∧ (st.transform o).scale ≤ hi := by
  unfold State.transform
  cases hu : st.userTransform with
  | none => exact ⟨hfits.1, (zoomLimits_le o st).trans hfits.2⟩
  | some t => exact hkept t hu

theorem kept_step {lo hi : K} (hfits : Fits o lo hi st) (hkept : Kept lo hi st) (e : Event K) :
    Kept lo hi (step o st e) := by
  intro t ht
  rcases step_userTransform e ht with hscale | hold | ⟨hmin, hmax⟩
  · rw [hscale]
    exact transform_kept hfits hkept
  · exact hkept t hold
  · exact ⟨hfits.1.trans hmin, hmax.trans hfits.2⟩

theorem kept_run {lo hi : K} (hkept : Kept lo hi st) {es : List (Event K)}
    (hfits : ∀ pre, pre <+: es → Fits o lo hi (run o st pre)) : Kept lo hi (run o st es) := by
  induction es using List.reverseRecOn with
  | nil => exact hkept
  | append_singleton es e ih =>
    rw [run_snoc]
    exact kept_step (hfits es (List.prefix_append _ _))
      (ih fun pre hpre => hfits pre (hpre.trans (List.prefix_append _ _))) e

theorem scaled_step (h : Scaled st) (e : Event K) : Scaled (step o st e) := by
  intro t ht
  rcases step_userTransform e ht with hscale | hold | ⟨hmin, -⟩
  · rw [hscale]
    exact transform_scale_pos h
  · exact h t hold
  · exact (fit_scale_pos o st).trans_le hmin

/-- The scale of the user's view is positive, in every run. -/
theorem scaled_run (h : Scaled st) (es : List (Event K)) : Scaled (run o st es) := by
  induction es using List.reverseRecOn with
  | nil => exact h
  | append_singleton es e ih =>
    rw [run_snoc]
    exact scaled_step ih e

omit [IsStrictOrderedRing K] in
theorem scaled_initial (size : Size K) : Scaled (initial size) := fun _ h => by cases h

/-- **The scale stays within the limits**, whatever pointers, wheels, resizes and new geometry come in
whatever order: it is positive, and between any two scales that all the fits of the run and their
closest zooms lie between, so with one fit throughout no view is farther out than the fitted one, and
none closer than the limit. -/
theorem scale_kept (o : Options K) (size : Size K) (es : List (Event K)) :
    0 < ((run o (initial size) es).transform o).scale ∧
    (∀ lo hi, (∀ pre, pre <+: es → Fits o lo hi (run o (initial size) pre)) →
      lo ≤ ((run o (initial size) es).transform o).scale ∧
        ((run o (initial size) es).transform o).scale ≤ hi) ∧
    ∀ fitted, (∀ pre, pre <+: es → (run o (initial size) pre).fit o = fitted) →
      fitted.scale ≤ ((run o (initial size) es).transform o).scale ∧
        ((run o (initial size) es).transform o).scale ≤ fitted.scale * o.maxZoomMultiplier := by
  have hkept : ∀ lo hi, (∀ pre, pre <+: es → Fits o lo hi (run o (initial size) pre)) →
      lo ≤ ((run o (initial size) es).transform o).scale ∧
        ((run o (initial size) es).transform o).scale ≤ hi := fun lo hi hfits =>
    transform_kept (hfits es List.prefix_rfl) (kept_run (fun _ h => by cases h) hfits)
  refine ⟨transform_scale_pos (scaled_run (scaled_initial size) es), hkept, fun fitted hfitted => ?_⟩
  refine hkept fitted.scale (fitted.scale * o.maxZoomMultiplier) fun pre hpre => ?_
  rw [Fits, State.zoomLimits, hfitted pre hpre]
  exact ⟨le_rfl, le_rfl⟩

/-- A view of a hundred pixels, and nothing to fit yet. -/
def hundred : Size ℚ := ⟨100, 100⟩

/-- Options for arguments at which these functions are those of `Math`: zero to `exp`, and a
displacement along one axis to `hypot`. -/
def alongAxis : Options ℚ := ⟨⟨0, le_rfl⟩, ⟨8, by norm_num⟩, fun x y => |x| + |y|, (1 + ·)⟩

/-- Two fingers go down on a fitted view. -/
def twoDown : List (Event ℚ) :=
  [.frame (some ⟨⟨0, 100, 0, 100⟩, none⟩), .pointerDown 1 ⟨40, 50⟩, .pointerDown 2 ⟨60, 50⟩]

/-- The second moves away from the first. -/
def apart : Event ℚ := .pointerMove (some ⟨0, 0⟩) 2 ⟨80, 50⟩

theorem scale_kept_apart :
    1 ≤ ((run alongAxis (initial hundred) (twoDown ++ [apart])).transform alongAxis).scale ∧
      ((run alongAxis (initial hundred) (twoDown ++ [apart])).transform alongAxis).scale ≤ 8 := by
  have hfits : ∀ pre ∈ (twoDown ++ [apart]).inits,
      (run alongAxis (initial hundred) pre).fit alongAxis = ⟨1, 0, 0⟩ := by decide +kernel
  have hkept := (scale_kept alongAxis hundred (twoDown ++ [apart])).2.2 ⟨1, 0, 0⟩
    fun pre hpre => hfits pre ((List.mem_inits pre _).mpr hpre)
  exact ⟨hkept.1, hkept.2.trans_eq (one_mul _)⟩

end Scale

/-! ### Following the fit -/

section Following

variable {K : Type} [Field K] [LinearOrder K] [IsStrictOrderedRing K] {o : Options K} {st : State K}

/-- The event takes the view from the fit: a wheel that shows something else, or a move, wherever it
goes, of a pointer that is down, by itself or as one of two over a canvas that is there. -/
def Pins (o : Options K) (st : State K) : Event K → Prop
  | .wheel (some corner) client deltaMode deltaY => transformsDiffer (st.transform o)
      (zoomAt (st.transform o) (onCanvas corner client) (wheelZoomFactor o.exp deltaMode deltaY)
        (st.zoomLimits o)) = true
  | .pointerMove rect id _ => getPointer id st.activePointers ≠ none ∧
      (st.activePointers.length = 1 ∨ st.activePointers.length = 2 ∧ rect ≠ none)
  | _ => False

/-- A wheel that turns down zooms out. -/
theorem wheelZoomFactor_le_one {exp : K → K} (hexp : ∀ x ≤ 0, exp x ≤ 1) (deltaMode : DeltaMode)
    {deltaY : K} (h : 0 ≤ deltaY) : wheelZoomFactor exp deltaMode deltaY ≤ 1 := by
  have hunit : (0 : K) ≤ deltaMode.perUnit := by
    cases deltaMode <;> simp [DeltaMode.perUnit, WHEEL_LINE_PX, WHEEL_PAGE_PX]
  have hmax : (0 : K) ≤ WHEEL_MAX_PX := by simp [WHEEL_MAX_PX]
  have hpx : 0 ≤ max (-WHEEL_MAX_PX) (min WHEEL_MAX_PX (deltaY * deltaMode.perUnit)) :=
    le_max_of_le_right (le_min hmax (mul_nonneg h hunit))
  apply hexp
  rw [neg_mul, neg_nonpos]
  exact mul_nonneg hpx (by positivity)

/-- At the fitted view there is nothing to zoom out to. -/
theorem zoomAt_fit (o : Options K) (st : State K) (p : Vec K) {factor : K} (hfactor : factor ≤ 1) :
    zoomAt (st.fit o) p factor (st.zoomLimits o) = st.fit o := by
  have hpos := fit_scale_pos o st
  have hout : (st.fit o).scale * factor ≤ (st.fit o).scale :=
    mul_le_of_le_one_right hpos.le hfactor
  have hscale : min (st.zoomLimits o).max (max (st.zoomLimits o).min ((st.fit o).scale * factor)) =
      (st.fit o).scale := by
    rw [State.zoomLimits, max_eq_left hout]
    exact min_eq_right (zoomLimits_le o st)
  ext
  · exact hscale
  · show p.x - (p.x - (st.fit o).x) * (_ / (st.fit o).scale) = (st.fit o).x
    rw [hscale, div_self hpos.ne', mul_one, sub_sub_cancel]
  · show p.y - (p.y - (st.fit o).y) * (_ / (st.fit o).scale) = (st.fit o).y
    rw [hscale, div_self hpos.ne', mul_one, sub_sub_cancel]

/-- At the fitted view a wheel that turns down shows nothing else. -/
theorem not_pins_wheel (hexp : ∀ x ≤ 0, o.exp x ≤ 1) (h : st.userTransform = none)
    (rect : Option (Vec K)) (client : Vec K) (deltaMode : DeltaMode) {deltaY : K}
    (hdown : 0 ≤ deltaY) : ¬ Pins o st (.wheel rect client deltaMode deltaY) := by
  cases rect with
  | none => exact id
  | some corner =>
    have htransform : st.transform o = st.fit o := by rw [State.transform, h, Option.getD_none]
    rw [Pins, htransform, zoomAt_fit o st (onCanvas corner client)
      (wheelZoomFactor_le_one hexp deltaMode hdown), not_transformsDiffer_self]
    exact Bool.false_ne_true

omit [IsStrictOrderedRing K] in
/-- **When one event leaves the view to the fit**: a reset does, and every other that does not pin the
view leaves it as it was. -/
theorem userTransform_step (h : Booked o st) (e : Event K) :
    (step o st e).userTransform = none ↔ e = .reset ∨ st.userTransform = none ∧ ¬ Pins o st e := by
  cases e with
  | frame | resize | pointerDown | pointerUp =>
    exact ⟨fun hnone => .inr ⟨hnone, id⟩, fun hor => (hor.resolve_left (fun he => by cases he)).1⟩
  | reset => exact iff_of_true rfl (.inl rfl)
  | wheel rect client deltaMode deltaY =>
    rw [or_iff_right (fun he => by cases he)]
    show (onWheel o st rect client deltaMode deltaY).userTransform = none ↔ _
    cases rect with
    | none => exact ⟨fun hnone => ⟨hnone, id⟩, And.left⟩
    | some corner =>
      rw [Pins, onWheel]
      split
      · next hdiffer => exact iff_of_false (Option.some_ne_none _) fun hnot => hnot.2 hdiffer
      · next hsame => exact ⟨fun hnone => ⟨hnone, hsame⟩, And.left⟩
  | pointerMove rect id client =>
    rw [or_iff_right (fun he => by cases he), Pins]
    show (onPointerMove o st rect id client).userTransform = none ↔ _
    have hmoved := move_cases o st rect id client
    generalize onPointerMove o st rect id client = st' at hmoved ⊢
    cases hmoved with
    | ignored hget => exact ⟨fun hnone => ⟨hnone, fun hpins => hpins.1 hget⟩, And.left⟩
    | panned hget hone =>
      refine iff_of_false (Option.some_ne_none _) fun hnot => hnot.2 ⟨?_, .inl hone⟩
      exact hget ▸ Option.some_ne_none _
    | pinched hget htwo _ _ hrect =>
      refine iff_of_false (Option.some_ne_none _) fun hnot => hnot.2 ⟨?_, .inr ⟨htwo, ?_⟩⟩
      · exact hget ▸ Option.some_ne_none _
      · exact hrect ▸ Option.some_ne_none _
    | many _ hmany =>
      refine ⟨fun hnone => ⟨hnone, fun hpins => ?_⟩, And.left⟩
      rcases hpins.2 with hone | ⟨htwo, -⟩
      · exact hmany.1 hone
      · exact hmany.2 htwo
    | unseen hget htwo hnone =>
      -- The fingers of a pinch are known, so it is the canvas that is not there.
      have hrect : rect = none := by
        rcases hnone with hbefore | hafter | hrect
        · rw [h.pinch htwo.le] at hbefore
          exact absurd hbefore (pinchState_ne_none htwo.ge)
        · exact absurd hafter (pinchState_ne_none ((length_setPointer hget).trans htwo).ge)
        · exact hrect
      refine ⟨fun hnone => ⟨hnone, fun hpins => ?_⟩, And.left⟩
      rcases hpins.2 with hone | ⟨-, hsome⟩
      · omega
      · exact hsome hrect

/-- Nothing has taken the view from the fit since the last reset. -/
def Unpinned (o : Options K) (size : Size K) (es : List (Event K)) : Prop :=
  ∀ pre e post, es = pre ++ e :: post → Pins o (run o (initial size) pre) e → .reset ∈ post

omit [IsStrictOrderedRing K] in
theorem unpinned_snoc {size : Size K} {es : List (Event K)} {e : Event K} :
    Unpinned o size (es ++ [e]) ↔
      e = .reset ∨ Unpinned o size es ∧ ¬ Pins o (run o (initial size) es) e := by
  constructor
  · intro h
    by_cases hreset : e = .reset
    · exact .inl hreset
    · refine .inr ⟨fun pre e' post hsplit hpins => ?_, fun hpins => ?_⟩
      · have hmem := h pre e' (post ++ [e]) (by rw [hsplit, List.append_assoc, List.cons_append]) hpins
        rcases List.mem_append.mp hmem with hpost | hlast
        · exact hpost
        · exact absurd (List.mem_singleton.mp hlast).symm hreset
      · cases h es e [] rfl hpins
  · intro h pre e' post hsplit hpins
    rcases List.eq_nil_or_concat post with rfl | ⟨post, last, rfl⟩
    · obtain ⟨rfl, he⟩ := List.append_inj' hsplit rfl
      cases he
      rcases h with rfl | ⟨-, hnot⟩
      · exact hpins.elim
      · exact absurd hpins hnot
    · rw [List.concat_eq_append, ← List.cons_append, ← List.append_assoc] at hsplit
      obtain ⟨hes, he⟩ := List.append_inj' hsplit rfl
      cases he
      rw [List.concat_eq_append, List.mem_append]
      rcases h with rfl | ⟨hunpinned, -⟩
      · exact .inr (List.mem_singleton_self _)
      · exact .inl (hunpinned pre e' post hes hpins)

omit [IsStrictOrderedRing K] in
theorem userTransform_run (o : Options K) (size : Size K) (es : List (Event K)) :
    (run o (initial size) es).userTransform = none ↔ Unpinned o size es := by
  induction es using List.reverseRecOn with
  | nil => exact iff_of_true rfl fun pre e post hsplit => by simp at hsplit
  | append_singleton es e ih =>
    rw [run_snoc, userTransform_step (booked_run (booked_initial o size) es), unpinned_snoc, ih]

/-- **When the view follows the fit**: in every run, exactly when nothing has taken it from the fit
since the last reset, and then it is the fitted one, whatever resizes and new geometry have come.  A
wheel that zooms out does not take it. -/
theorem follows_fit (o : Options K) (size : Size K) (es : List (Event K)) :
    ((run o (initial size) es).userTransform = none ↔ Unpinned o size es) ∧
    (Unpinned o size es →
      (run o (initial size) es).transform o = (run o (initial size) es).fit o) ∧
    ((∀ x ≤ 0, o.exp x ≤ 1) → Unpinned o size es → ∀ rect client deltaMode deltaY, 0 ≤ deltaY →
      Unpinned o size (es ++ [.wheel rect client deltaMode deltaY])) := by
  refine ⟨userTransform_run o size es, fun h => ?_, fun hexp h rect client deltaMode deltaY hdown => ?_⟩
  · rw [State.transform, (userTransform_run o size es).mpr h, Option.getD_none]
  · exact unpinned_snoc.mpr (.inr ⟨h, not_pins_wheel hexp ((userTransform_run o size es).mpr h) rect
      client deltaMode hdown⟩)

/-- One finger goes down, drags the view and brings it back. -/
def dragged : List (Event ℚ) :=
  [.frame (some ⟨⟨0, 100, 0, 100⟩, none⟩), .pointerDown 1 ⟨40, 50⟩,
    .pointerMove (some ⟨0, 0⟩) 1 ⟨40, 50⟩, .pointerUp 1]

/-- The view is reset, and the wheel turned down. -/
def released : List (Event ℚ) := [.reset, .wheel (some ⟨0, 0⟩) ⟨30, 40⟩ .line 3]

theorem follows_fit_released :
    (run alongAxis (initial hundred) dragged).userTransform ≠ none ∧
      ¬ Unpinned alongAxis hundred dragged ∧
      (run alongAxis (initial hundred) (dragged ++ released)).transform alongAxis = ⟨1, 0, 0⟩ := by
  have hpinned : (run alongAxis (initial hundred) dragged).userTransform ≠ none := by decide +kernel
  refine ⟨hpinned, fun h => hpinned ((follows_fit alongAxis hundred dragged).1.mpr h), ?_⟩
  refine ((follows_fit alongAxis hundred (dragged ++ released)).2.1
    ((follows_fit alongAxis hundred (dragged ++ released)).1.mp ?_)).trans ?_
  · decide +kernel
  · decide +kernel

end Following

/-! ### Gestures -/

section Gestures

variable {K : Type} [Field K] [LinearOrder K] {o : Options K} {st : State K}

/-- The event moves a pointer. -/
def Event.isMove : Event K → Prop
  | .pointerMove _ _ _ => True
  | _ => False

/-- The event moves a pointer over a canvas whose corner is known. -/
def Event.isMoveOver (corner : Vec K) : Event K → Prop
  | .pointerMove rect _ _ => rect = some corner
  | _ => False

theorem fit_of_move {e : Event K} (hmove : e.isMove) : (step o st e).fit o = st.fit o := by
  cases e with
  | pointerMove rect id client =>
    show (onPointerMove o st rect id client).fit o = st.fit o
    have hmoved := move_cases o st rect id client
    generalize onPointerMove o st rect id client = st' at hmoved ⊢
    cases hmoved <;> rfl
  | _ => cases hmove

/-- One finger moves, and what is under it moves along. -/
theorem drag_step {e : Event K} (hmove : e.isMove) {id : ℕ} {p : Vec K}
    (hone : st.activePointers = [(id, p)]) : ∃ p', (step o st e).activePointers = [(id, p')] ∧
      (step o st e).transform o = pan (st.transform o) (displacement p p') := by
  have hstay : st.transform o = pan (st.transform o) (displacement p p) := by
    ext
    · rfl
    · exact (add_eq_left.mpr (sub_self p.x)).symm
    · exact (add_eq_left.mpr (sub_self p.y)).symm
  have hlength : st.activePointers.length = 1 := by rw [hone]; rfl
  cases e with
  | pointerMove rect id' client =>
    show ∃ p', (onPointerMove o st rect id' client).activePointers = [(id, p')] ∧
      (onPointerMove o st rect id' client).transform o = pan (st.transform o) (displacement p p')
    have hmoved := move_cases o st rect id' client
    generalize onPointerMove o st rect id' client = st' at hmoved ⊢
    cases hmoved with
    | ignored => exact ⟨p, hone, hstay⟩
    | @panned previous hget =>
      rw [hone, getPointer_cons] at hget
      by_cases hid : id = id'
      · rw [if_pos hid] at hget
        cases hget
        refine ⟨client, ?_, rfl⟩
        show setPointer id' client st.activePointers = [(id, client)]
        rw [hone, setPointer, if_pos hid, hid]
      · rw [if_neg hid] at hget
        cases hget
    | pinched _ htwo => omega
    | unseen _ htwo => omega
    | many _ hmany => exact absurd hlength hmany.1
  | _ => cases hmove

/-- **A drag of one finger** takes the view along by as much as the finger has moved. -/
theorem drag_run {id : ℕ} {p : Vec K} (hone : st.activePointers = [(id, p)]) {es : List (Event K)}
    (hmoves : ∀ e ∈ es, e.isMove) : ∃ p', (run o st es).activePointers = [(id, p')] ∧
      (run o st es).transform o = pan (st.transform o) (displacement p p') := by
  induction es using List.reverseRecOn with
  | nil =>
    refine ⟨p, hone, ?_⟩
    ext
    · rfl
    · exact (add_eq_left.mpr (sub_self p.x)).symm
    · exact (add_eq_left.mpr (sub_self p.y)).symm
  | append_singleton es e ih =>
    obtain ⟨q, hq, hview⟩ := ih fun e he => hmoves e (List.mem_append_left _ he)
    obtain ⟨p', hp', hstep⟩ := drag_step (o := o)
      (hmoves e (List.mem_append_right _ (List.mem_singleton_self e))) hq
    rw [run_snoc]
    refine ⟨p', hp', ?_⟩
    rw [hstep, hview, pan_pan]
    congr 1
    ext
    · exact sub_add_sub_cancel' q.x p.x p'.x
    · exact sub_add_sub_cancel' q.y p.y p'.y

variable [IsStrictOrderedRing K]

end Gestures

/-! ### Pinching -/

section Pinching

variable {K : Type} [Field K] [LinearOrder K] {o : Options K} {st : State K}

/-- What two fingers are to a pinch. -/
def fingers (o : Options K) (a b : Vec K) : Pinch K :=
  ⟨o.hypot (b.x - a.x) (b.y - a.y), ⟨(a.x + b.x) / 2, (a.y + b.y) / 2⟩⟩

theorem Event.isMoveOver.isMove {corner : Vec K} {e : Event K} (h : e.isMoveOver corner) :
    e.isMove := by
  cases e with
  | pointerMove => trivial
  | _ => cases h

/-- Of two fingers one moves. -/
theorem pinch_moved (h : Booked o st) {id id' : ℕ} {a b : Vec K}
    (htwo : st.activePointers = [(id, a), (id', b)]) {pid : ℕ} (hpid : pid = id ∨ pid = id')
    (corner client : Vec K) : ∃ a' b',
      (step o st (.pointerMove (some corner) pid client)).activePointers = [(id, a'), (id', b')] ∧
      (step o st (.pointerMove (some corner) pid client)).transform o =
        st.pinched o corner (fingers o a b) (fingers o a' b') := by
  have hlength : st.activePointers.length = 2 := by rw [htwo]; rfl
  have hbefore : st.previousPinch = some (fingers o a b) := by
    rw [h.pinch hlength.le, htwo]
    rfl
  have hdown : getPointer pid st.activePointers ≠ none := by
    rw [htwo, getPointer_cons, getPointer_cons]
    by_cases hid : id = pid
    · rw [if_pos hid]
      exact Option.some_ne_none _
    · rw [if_neg hid, if_pos (hpid.resolve_left (Ne.symm hid)).symm]
      exact Option.some_ne_none _
  have hset : ∃ a' b', setPointer pid client st.activePointers = [(id, a'), (id', b')] := by
    rw [htwo]
    by_cases hid : id = pid
    · exact ⟨client, b, by rw [setPointer, if_pos hid, hid]⟩
    · have hid' : id' = pid := (hpid.resolve_left (Ne.symm hid)).symm
      exact ⟨a, client, by rw [setPointer, if_neg hid, setPointer, if_pos hid', hid']⟩
  obtain ⟨a', b', hset⟩ := hset
  refine ⟨a', b', ?_⟩
  show (onPointerMove o st (some corner) pid client).activePointers = [(id, a'), (id', b')] ∧
    (onPointerMove o st (some corner) pid client).transform o =
      st.pinched o corner (fingers o a b) (fingers o a' b')
  have hmoved := move_cases o st (some corner) pid client
  generalize onPointerMove o st (some corner) pid client = st' at hmoved ⊢
  cases hmoved with
  | ignored hget => exact absurd hget hdown
  | panned _ hone => omega
  | many _ hmany => exact absurd hlength hmany.2
  | pinched _ _ hpinch hafter hrect =>
    refine ⟨hset, ?_⟩
    rw [hbefore] at hpinch
    rw [hset] at hafter
    cases hpinch
    cases hafter
    cases hrect
    rfl
  | unseen _ _ hnone =>
    rw [hbefore, hset] at hnone
    rcases hnone with hnone | hnone | hnone <;> cases hnone

/-- Of two fingers one moves, or neither does and the view stays. -/
theorem pinch_step (h : Booked o st) {corner : Vec K} {e : Event K} (hmove : e.isMoveOver corner)
    {id id' : ℕ} {a b : Vec K} (htwo : st.activePointers = [(id, a), (id', b)]) :
    ∃ a' b', (step o st e).activePointers = [(id, a'), (id', b')] ∧
      (a' = a ∧ b' = b ∧ (step o st e).transform o = st.transform o ∨
        (step o st e).transform o = st.pinched o corner (fingers o a b) (fingers o a' b')) := by
  cases e with
  | pointerMove rect pid client =>
    obtain rfl : rect = some corner := hmove
    by_cases hpid : pid = id ∨ pid = id'
    · obtain ⟨a', b', hmoved, hview⟩ := pinch_moved h htwo hpid corner client
      exact ⟨a', b', hmoved, .inr hview⟩
    · have hignored : onPointerMove o st (some corner) pid client = st := by
        rw [not_or] at hpid
        rw [onPointerMove, htwo, getPointer_cons, if_neg (Ne.symm hpid.1), getPointer_cons,
          if_neg (Ne.symm hpid.2)]
        rfl
      refine ⟨a, b, ?_, .inl ⟨rfl, rfl, ?_⟩⟩
      · rw [step, hignored, htwo]
      · rw [step, hignored]
  | _ => cases hmove

variable [IsStrictOrderedRing K]

/-- What was between the fingers drifts off what is, by as much as they moved together and the zoom
is away from one. -/
theorem worldToScreen_pinched (hscaled : Scaled st) (corner : Vec K) (before after : Pinch K) :
    worldToScreen (st.pinched o corner before after)
        (screenToWorld (st.transform o) (onCanvas corner before.mid)) =
      ⟨(onCanvas corner after.mid).x + (before.mid.x - after.mid.x) *
          ((st.pinched o corner before after).scale / (st.transform o).scale - 1),
        (onCanvas corner after.mid).y + (before.mid.y - after.mid.y) *
          ((st.pinched o corner before after).scale / (st.transform o).scale - 1)⟩ := by
  have hscale : (st.pinched o corner before after).scale = (zoomAt (st.transform o)
      (onCanvas corner after.mid) (pinchFactor before after) (st.zoomLimits o)).scale := rfl
  rw [hscale, State.pinched, worldToScreen_pan,
    worldToScreen_zoomAt (transform_scale_pos hscaled).ne']
  ext
  · simp only [onCanvas, displacement]
    ring
  · simp only [onCanvas, displacement]
    ring

/-- The limits of zooming leave the scale that the fingers ask for. -/
def Unclamped (o : Options K) (st : State K) (scale : K) : Prop :=
  (st.zoomLimits o).min ≤ scale ∧ scale ≤ (st.zoomLimits o).max

omit [IsStrictOrderedRing K] in
/-- The scale follows the fingers, as long as the limits leave it. -/
theorem pinch_run (h : Booked o st) {corner : Vec K} {id id' : ℕ} {a b : Vec K}
    (htwo : st.activePointers = [(id, a), (id', b)]) (hapart : 0 < (fingers o a b).distance)
    {es : List (Event K)} (hmoves : ∀ e ∈ es, e.isMoveOver corner)
    (hfree : ∀ pre a' b', pre <+: es → (run o st pre).activePointers = [(id, a'), (id', b')] →
      0 < (fingers o a' b').distance ∧ Unclamped o st
        ((st.transform o).scale * ((fingers o a' b').distance / (fingers o a b).distance))) :
    ∃ a' b', (run o st es).activePointers = [(id, a'), (id', b')] ∧
      (run o st es).fit o = st.fit o ∧ ((run o st es).transform o).scale =
        (st.transform o).scale * ((fingers o a' b').distance / (fingers o a b).distance) := by
  induction es using List.reverseRecOn with
  | nil =>
    refine ⟨a, b, htwo, rfl, ?_⟩
    rw [div_self hapart.ne', mul_one]
    rfl
  | append_singleton es e ih =>
    obtain ⟨a', b', hfingers, hfit, hscale⟩ := ih (fun e he => hmoves e (List.mem_append_left _ he))
      fun pre a' b' hpre => hfree pre a' b' (hpre.trans (List.prefix_append _ _))
    have hover := hmoves e (List.mem_append_right _ (List.mem_singleton_self e))
    obtain ⟨a'', b'', hmoved, hview⟩ := pinch_step (booked_run h es) hover hfingers
    have hbefore := (hfree es a' b' (List.prefix_append _ _) hfingers).1
    rw [run_snoc]
    refine ⟨a'', b'', hmoved, (fit_of_move hover.isMove).trans hfit, ?_⟩
    rcases hview with ⟨rfl, rfl, hview⟩ | hview
    · rw [hview, hscale]
    · obtain ⟨hmin, hmax⟩ := (hfree (es ++ [e]) a'' b'' List.prefix_rfl
        ((congrArg State.activePointers (run_snoc o st es e)).trans hmoved)).2
      have hlimits : (run o st es).zoomLimits o = st.zoomLimits o := by
        rw [State.zoomLimits, hfit, State.zoomLimits]
      have hasked : (st.transform o).scale *
          ((fingers o a' b').distance / (fingers o a b).distance) *
            ((fingers o a'' b'').distance / (fingers o a' b').distance) =
          (st.transform o).scale *
            ((fingers o a'' b'').distance / (fingers o a b).distance) := by
        rw [mul_assoc, mul_comm ((fingers o a' b').distance / _), div_mul_div_cancel₀ hbefore.ne']
      rw [hview]
      show min ((run o st es).zoomLimits o).max (max ((run o st es).zoomLimits o).min
        (((run o st es).transform o).scale * pinchFactor (fingers o a' b') (fingers o a'' b''))) = _
      rw [hlimits, hscale, pinchFactor, if_pos hbefore, hasked, max_eq_right hmin, min_eq_right hmax]

/-- **What a pinch does.**  From any state a run leads to in which two fingers are down: a move of one
of them multiplies the scale by the ratio of their distances, clamped to the limits of zooming; every
move leaves what was between the fingers between them, up to a drift that is the way they moved together
times what the zoom is away from one; and over any moves, as long as the fingers stay apart and the
limits are not reached, the scale is the distance of the fingers times a constant. -/
theorem pinched (o : Options K) (size : Size K) (before : List (Event K)) {id id' : ℕ} {a b : Vec K}
    (htwo : (run o (initial size) before).activePointers = [(id, a), (id', b)]) (corner : Vec K) :
    (∀ pid client, pid = id ∨ pid = id' → ∃ a' b',
      (run o (initial size) (before ++ [.pointerMove (some corner) pid client])).activePointers =
        [(id, a'), (id', b')] ∧
      ((run o (initial size) (before ++ [.pointerMove (some corner) pid client])).transform o).scale =
        min ((run o (initial size) before).zoomLimits o).max
          (max ((run o (initial size) before).zoomLimits o).min
            (((run o (initial size) before).transform o).scale *
              pinchFactor (fingers o a b) (fingers o a' b')))) ∧
    (∀ e, Event.isMoveOver corner e → ∃ a' b',
      (run o (initial size) (before ++ [e])).activePointers = [(id, a'), (id', b')] ∧
      worldToScreen ((run o (initial size) (before ++ [e])).transform o)
          (screenToWorld ((run o (initial size) before).transform o)
            (onCanvas corner (fingers o a b).mid)) =
        ⟨(onCanvas corner (fingers o a' b').mid).x +
            ((fingers o a b).mid.x - (fingers o a' b').mid.x) *
              (((run o (initial size) (before ++ [e])).transform o).scale /
                ((run o (initial size) before).transform o).scale - 1),
          (onCanvas corner (fingers o a' b').mid).y +
            ((fingers o a b).mid.y - (fingers o a' b').mid.y) *
              (((run o (initial size) (before ++ [e])).transform o).scale /
                ((run o (initial size) before).transform o).scale - 1)⟩) ∧
    ∀ es, (∀ e ∈ es, Event.isMoveOver corner e) → 0 < (fingers o a b).distance →
      (∀ pre a' b', pre <+: es →
        (run o (initial size) (before ++ pre)).activePointers = [(id, a'), (id', b')] →
        0 < (fingers o a' b').distance ∧ Unclamped o (run o (initial size) before)
          (((run o (initial size) before).transform o).scale *
            ((fingers o a' b').distance / (fingers o a b).distance))) →
      ∃ a' b', (run o (initial size) (before ++ es)).activePointers = [(id, a'), (id', b')] ∧
        ((run o (initial size) (before ++ es)).transform o).scale =
          ((run o (initial size) before).transform o).scale *
            ((fingers o a' b').distance / (fingers o a b).distance) := by
  have hbooked : Booked o (run o (initial size) before) := booked_run (booked_initial o size) before
  have hscaled : Scaled (run o (initial size) before) := scaled_run (scaled_initial size) before
  refine ⟨fun pid client hpid => ?_, fun e hover => ?_, fun es hmoves hapart hfree => ?_⟩
  · rw [run_snoc]
    obtain ⟨a', b', hmoved, hview⟩ := pinch_moved hbooked htwo hpid corner client
    exact ⟨a', b', hmoved, congrArg ViewTransform.scale hview⟩
  · rw [run_snoc]
    obtain ⟨a', b', hmoved, hview⟩ := pinch_step hbooked hover htwo
    refine ⟨a', b', hmoved, ?_⟩
    rcases hview with ⟨rfl, rfl, hview⟩ | hview
    · have hpos := transform_scale_pos (o := o) hscaled
      rw [hview, worldToScreen_screenToWorld hpos.ne', div_self hpos.ne']
      simp only [sub_self, mul_zero, add_zero]
    · rw [hview]
      exact worldToScreen_pinched hscaled corner (fingers o a b) (fingers o a' b')
  · have happend : ∀ pre, run o (initial size) (before ++ pre) =
        run o (run o (initial size) before) pre := fun pre => List.foldl_append
    simp only [happend] at hfree ⊢
    obtain ⟨a', b', hmoved, -, hscale⟩ := pinch_run hbooked htwo hapart hmoves hfree
    exact ⟨a', b', hmoved, hscale⟩

theorem pinched_apart : ∃ a' b' : Vec ℚ,
    (run alongAxis (initial hundred) (twoDown ++ [apart])).activePointers = [(1, a'), (2, b')] ∧
      ((run alongAxis (initial hundred) (twoDown ++ [apart])).transform alongAxis).scale =
        ((run alongAxis (initial hundred) twoDown).transform alongAxis).scale *
          ((fingers alongAxis a' b').distance /
            (fingers alongAxis ⟨40, 50⟩ ⟨60, 50⟩).distance) := by
  refine (pinched alongAxis hundred twoDown (by rfl) ⟨0, 0⟩).2.2 [apart] ?_ (by decide +kernel) ?_
  · intro e he
    rw [List.mem_singleton.mp he]
    rfl
  · intro pre a' b' hpre hdown
    have hsome : pre = [] ∨ pre = [apart] := by
      rcases pre with _ | ⟨e, pre⟩
      · exact .inl rfl
      · obtain ⟨rfl, hnil⟩ := List.cons_prefix_cons.mp hpre
        exact .inr (by rw [List.prefix_nil.mp hnil])
    rcases hsome with rfl | rfl
    · have hfingers : [(1, (⟨40, 50⟩ : Vec ℚ)), (2, ⟨60, 50⟩)] = [(1, a'), (2, b')] := hdown
      cases hfingers
      unfold Unclamped
      decide +kernel
    · have hfingers : [(1, (⟨40, 50⟩ : Vec ℚ)), (2, ⟨80, 50⟩)] = [(1, a'), (2, b')] := hdown
      cases hfingers
      unfold Unclamped
      decide +kernel

end Pinching

end TelemetryCloud.CanvasViewport
