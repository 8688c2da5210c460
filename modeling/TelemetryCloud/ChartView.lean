import TelemetryCloud.CanvasViewport
import TelemetryCloud.Extents
import TelemetryCloud.LineChart

/-!
# A chart under the hands of its user

The chart shows a window of its series, which ctrl and wheel zoom and a drag moves, while a live view
feeds it new series all along.  Arithmetic is exact, and `Math.exp` is whatever function the field is
given; what is written on the axes is left out.

* `domain` : what zoom and pan cannot change; `window` : the part of it that is shown;
* `step` : the component, one event at a time; `pathFor` : the pen of a line;
* `window_inside` : **the window stays inside the data**, in every run;
* `anchored` : **what is under the pointer stays there**, unless the data ends;
* `pathFor_joined`, `drawn_faithfully` : **the pen is lifted where the data has a dropout, and nowhere
  else**, and what is in the window and on the axis is in the box.
-/

namespace TelemetryCloud.ChartView

open LineChart (Point forDisplay WIDTH PAD_LEFT PAD_RIGHT PLOT_W)
open CanvasViewport (DeltaMode wheelZoomFactor)

/-! ### The axis -/

section Axis

variable {K : Type} [Field K] [LinearOrder K]

/-- The axis for readings from `minY` to `maxY`, without its padding. -/
def bareAxis (signed : Bool) (minY maxY : K) : K × K :=
  let (minY, maxY) := if signed then (minY, maxY) else (min minY 0, max maxY 0)
  if maxY - minY < 1e-9 then (minY - 1, maxY + 1) else (minY, maxY)

def axisOf (signed : Bool) (minY maxY : K) : K × K :=
  let (minY, maxY) := bareAxis signed minY maxY
  let padY := (maxY - minY) * 0.08
  (if signed then minY - padY else max 0 (minY - padY), maxY + padY)

variable [IsStrictOrderedRing K] {signed : Bool} {minY maxY : K}

/-- Where the axis is before it is padded. -/
structure Bare (signed : Bool) (minY maxY low high : K) : Prop where
  low_le : low ≤ minY
  le_high : maxY ≤ high
  lt : low < high
  zero : signed = false → low ≤ 0 ∧ 0 ≤ high

theorem bareAxis_spec (signed : Bool) (h : minY ≤ maxY) :
    Bare signed minY maxY (bareAxis signed minY maxY).1 (bareAxis signed minY maxY).2 := by
  have hflat : (0 : K) < 1e-9 := by positivity
  have hwiden : ∀ {low high : K}, low ≤ minY → maxY ≤ high →
      (signed = false → low ≤ 0 ∧ 0 ≤ high) → Bare signed minY maxY
        (if high - low < 1e-9 then (low - 1, high + 1) else (low, high)).1
        (if high - low < 1e-9 then (low - 1, high + 1) else (low, high)).2 := by
    intro low high hlow hhigh hzero
    split
    · exact ⟨by linarith, by linarith, by linarith, fun hs =>
        ⟨by linarith [(hzero hs).1], by linarith [(hzero hs).2]⟩⟩
    · next hwide => exact ⟨hlow, hhigh, by linarith [not_lt.mp hwide], hzero⟩
  cases signed with
  | true => exact hwiden le_rfl le_rfl (fun hs => by cases hs)
  | false =>
    exact hwiden (min_le_left minY 0) (le_max_left maxY 0)
      (fun _ => ⟨min_le_right minY 0, le_max_right maxY 0⟩)

/-- The axis of a channel that cannot be negative starts at zero. -/
theorem axisOf_low (h : minY ≤ maxY) : (axisOf false minY maxY).1 = 0 := by
  have hbare := bareAxis_spec false h
  have hlow := (hbare.zero rfl).1
  have hspan := hbare.lt
  show max 0 ((bareAxis false minY maxY).1 -
    ((bareAxis false minY maxY).2 - (bareAxis false minY maxY).1) * 0.08) = 0
  exact max_eq_left (by linarith)

/-- Any other axis starts below its readings. -/
theorem axisOf_low_lt (h : minY ≤ maxY) : (axisOf true minY maxY).1 < minY := by
  have hbare := bareAxis_spec true h
  have hlow := hbare.low_le
  have hspan := hbare.lt
  show (bareAxis true minY maxY).1 -
    ((bareAxis true minY maxY).2 - (bareAxis true minY maxY).1) * 0.08 < minY
  linarith

theorem lt_axisOf_high (h : minY ≤ maxY) : maxY < (axisOf signed minY maxY).2 := by
  have hbare := bareAxis_spec signed h
  have hhigh := hbare.le_high
  have hspan := hbare.lt
  show maxY < (bareAxis signed minY maxY).2 +
    ((bareAxis signed minY maxY).2 - (bareAxis signed minY maxY).1) * 0.08
  linarith

theorem axisOf_lt (h : minY ≤ maxY) : (axisOf signed minY maxY).1 < (axisOf signed minY maxY).2 := by
  cases signed with
  | true => exact (axisOf_low_lt h).trans_le (h.trans (lt_axisOf_high h).le)
  | false =>
    rw [axisOf_low h]
    have hbare := bareAxis_spec false h
    have hzero := (hbare.zero rfl).2
    have hspan := hbare.lt
    show 0 < (bareAxis false minY maxY).2 +
      ((bareAxis false minY maxY).2 - (bareAxis false minY maxY).1) * 0.08
    linarith

/-- **The readings are on the axis**, but for negative ones of a channel that cannot be negative. -/
theorem on_axis_iff (h : minY ≤ maxY) {y : K} (hmin : minY ≤ y) (hmax : y ≤ maxY) :
    (axisOf signed minY maxY).1 ≤ y ∧ y ≤ (axisOf signed minY maxY).2 ↔ signed = true ∨ 0 ≤ y := by
  rw [and_iff_left (hmax.trans (lt_axisOf_high h).le)]
  cases signed with
  | true => exact iff_of_true ((axisOf_low_lt h).le.trans hmin) (.inl rfl)
  | false =>
    rw [axisOf_low h]
    exact ⟨.inr, fun hy => hy.resolve_left Bool.false_ne_true⟩

end Axis

/-! ### The component -/

section Component

variable {K : Type} [Field K] [LinearOrder K]

def HEIGHT : K := 160
def PAD_TOP : K := 8
def PAD_BOTTOM : K := 8
def X_LABEL_BAND : K := 14
def MAX_ZOOM : K := 8

structure ZoomState (K : Type) where
  scale : K
  /-- From `domainMin`. -/
  offset : K
  deriving DecidableEq

def fitted : ZoomState K := ⟨1, 0⟩

/-- The series that have points, their extent and the axis of their readings. -/
structure Domain (K : Type) [Zero K] [LT K] where
  series : List (List (Point K))
  domainMin : K
  domainSpan : K
  lowY : K
  highY : K
  span_pos : 0 < domainSpan
  low_lt_high : lowY < highY

structure Window (K : Type) where
  scale : K
  visibleSpan : K
  offset : K
  left : K

def clampOffset (offset domainSpan visibleSpan : K) : K :=
  min (max offset 0) (max 0 (domainSpan - visibleSpan))

def window (zoom : ZoomState K) (d : Domain K) : Window K :=
  let scale := max 1 zoom.scale
  let visibleSpan := d.domainSpan / scale
  let offset := clampOffset zoom.offset d.domainSpan visibleSpan
  ⟨scale, visibleSpan, offset, d.domainMin + offset⟩

/-- The box of the rendered chart, which an event on it finds with a width. -/
structure Rect (K : Type) [Zero K] [LT K] where
  left : K
  width : {w : K // 0 < w}

def plotFraction (rect : Rect K) (clientX : K) : K :=
  ((clientX - rect.left) / rect.width * (WIDTH : K) - (PAD_LEFT : K)) / (PLOT_W : K)

structure State (K : Type) where
  series : List (List (Point K))
  signed : Bool
  zoom : ZoomState K
  dragPointer : Option ℕ
  dragLastClientX : K

/-- `modified` is for ctrl or ⌘. -/
inductive Event (K : Type) [Zero K] [LT K]
  | inputs (series : List (List (Point K))) (signed : Bool)
  | resetKey
  | resetZoom
  | wheel (modified : Bool) (rect : Rect K) (clientX : K) (deltaMode : DeltaMode) (deltaY : K)
  | pointerDown (id : ℕ) (clientX : K)
  | pointerMove (id : ℕ) (rect : Rect K) (clientX : K)
  | pointerUp (id : ℕ)

variable [IsStrictOrderedRing K]

def domain (signed : Bool) (series : List (List (Point K))) : Option (Domain K) :=
  let series := series.filter (!·.isEmpty)
  (Extents.extent (series.flatten.map (·.x))).bind fun x =>
    (Extents.extent (series.flatten.filterMap (·.y))).bind fun y =>
      if h : 0 < x.1.2 - x.1.1 then
        some {
          series
          domainMin := x.1.1
          domainSpan := x.1.2 - x.1.1
          lowY := (axisOf signed y.1.1 y.1.2).1
          highY := (axisOf signed y.1.1 y.1.2).2
          span_pos := h
          low_lt_high := axisOf_lt y.2 }
      else none

def State.domain (st : State K) : Option (Domain K) := ChartView.domain st.signed st.series

variable (exp : K → K)

def onWheel (st : State K) (rect : Rect K) (clientX : K) (deltaMode : DeltaMode) (deltaY : K) :
    State K :=
  match st.domain with
  | none => st
  | some d =>
    let w := window st.zoom d
    let fraction := plotFraction rect clientX
    let cursorData := w.offset + fraction * w.visibleSpan
    let newScale := min MAX_ZOOM (max 1 (w.scale * wheelZoomFactor exp deltaMode deltaY))
    if newScale = w.scale then st
    else { st with zoom := ⟨newScale, cursorData - fraction * (d.domainSpan / newScale)⟩ }

def onPointerMove (st : State K) (id : ℕ) (rect : Rect K) (clientX : K) : State K :=
  if st.dragPointer ≠ some id then st
  else
    match st.domain with
    | none => st
    | some d =>
      let w := window st.zoom d
      let dxUnits := (clientX - st.dragLastClientX) / rect.width * (WIDTH : K)
      let dxData := dxUnits / (PLOT_W : K) * w.visibleSpan
      { st with dragLastClientX := clientX, zoom := ⟨w.scale, w.offset - dxData⟩ }

def step (st : State K) : Event K → State K
  | .inputs series signed => { st with series, signed }
  | .resetKey | .resetZoom => { st with zoom := fitted }
  | .wheel modified rect clientX deltaMode deltaY =>
    if modified then onWheel exp st rect clientX deltaMode deltaY else st
  | .pointerDown id clientX => { st with dragPointer := some id, dragLastClientX := clientX }
  | .pointerMove id rect clientX => onPointerMove st id rect clientX
  | .pointerUp id => if st.dragPointer ≠ some id then st else { st with dragPointer := none }

def initial (series : List (List (Point K))) (signed : Bool) : State K :=
  ⟨series, signed, fitted, none, 0⟩

def run (st : State K) (es : List (Event K)) : State K := es.foldl (step exp) st

end Component

/-! ### The window -/

section Window

variable {K : Type} [Field K] [LinearOrder K] [IsStrictOrderedRing K]

/-- What a domain is of its series. -/
structure Framed (signed : Bool) (series : List (List (Point K))) (d : Domain K) : Prop where
  series_eq : d.series = series.filter (!·.isEmpty)
  extent : Extents.Spans (d.series.flatten.map (·.x)) d.domainMin (d.domainMin + d.domainSpan)
  axis : ∀ p ∈ d.series.flatten, ∀ y, p.y = some y →
    (d.lowY ≤ y ∧ y ≤ d.highY ↔ signed = true ∨ 0 ≤ y)

theorem domain_framed {signed : Bool} {series : List (List (Point K))} {d : Domain K}
    (h : domain signed series = some d) : Framed signed series d := by
  unfold domain at h
  obtain ⟨x, hx, h⟩ := Option.bind_eq_some_iff.mp h
  obtain ⟨y, hy, h⟩ := Option.bind_eq_some_iff.mp h
  split at h
  · cases h
    refine ⟨rfl, ?_, fun p hp v hv => ?_⟩
    · show Extents.Spans _ x.1.1 (x.1.1 + (x.1.2 - x.1.1))
      rw [add_sub_cancel]
      exact Extents.spans_of_extent hx
    · have hspans := Extents.spans_of_extent hy
      have hmem := List.mem_filterMap.mpr ⟨p, hp, hv⟩
      exact on_axis_iff y.2 (hspans.low_le v hmem) (hspans.le_high v hmem)
  · cases h

/-- The window is part of the domain. -/
structure Inside (w : Window K) (d : Domain K) : Prop where
  one_le : 1 ≤ w.scale
  span_eq : w.visibleSpan = d.domainSpan / w.scale
  span_pos : 0 < w.visibleSpan
  span_le : w.visibleSpan ≤ d.domainSpan
  left_eq : w.left = d.domainMin + w.offset
  nonneg : 0 ≤ w.offset
  le_end : w.offset + w.visibleSpan ≤ d.domainSpan

omit [IsStrictOrderedRing K] in
theorem clampOffset_of_le {offset span visible : K} (hnonneg : 0 ≤ offset)
    (hle : offset ≤ span - visible) : clampOffset offset span visible = offset := by
  unfold clampOffset
  rw [max_eq_left hnonneg, max_eq_right (hnonneg.trans hle), min_eq_left hle]

/-- The offset is kept, or the window is at an end. -/
theorem clampOffset_cases (offset : K) {span visible : K} (hle : visible ≤ span) :
    clampOffset offset span visible = offset ∨ clampOffset offset span visible = 0 ∨
      clampOffset offset span visible + visible = span := by
  unfold clampOffset
  rw [max_eq_right (sub_nonneg.mpr hle)]
  rcases min_choice (max offset 0) (span - visible) with h | h
  · rw [h]
    exact (max_choice offset 0).imp_right .inl
  · rw [h, sub_add_cancel]
    exact .inr (.inr rfl)

theorem window_inside_domain (zoom : ZoomState K) (d : Domain K) : Inside (window zoom d) d := by
  have hone : 1 ≤ max 1 zoom.scale := le_max_left _ _
  have hpos : 0 < max 1 zoom.scale := one_pos.trans_le hone
  have hle : d.domainSpan / max 1 zoom.scale ≤ d.domainSpan := div_le_self d.span_pos.le hone
  refine ⟨hone, rfl, div_pos d.span_pos hpos, hle, rfl, ?_, ?_⟩
  · exact le_min (le_max_right _ _) (le_max_left _ _)
  · show min _ (max 0 (d.domainSpan - _)) + d.domainSpan / max 1 zoom.scale ≤ d.domainSpan
    rw [max_eq_right (sub_nonneg.mpr hle)]
    linarith [min_le_right (max zoom.offset 0) (d.domainSpan - d.domainSpan / max 1 zoom.scale)]

/-- The zoom is one there is. -/
def Zoomed (st : State K) : Prop := 1 ≤ st.zoom.scale ∧ st.zoom.scale ≤ MAX_ZOOM

theorem one_le_MAX_ZOOM : (1 : K) ≤ MAX_ZOOM := by
  unfold MAX_ZOOM
  norm_num

variable {exp : K → K} {st : State K}

omit [IsStrictOrderedRing K] in
theorem window_scale (h : Zoomed st) (d : Domain K) : (window st.zoom d).scale = st.zoom.scale :=
  max_eq_right h.1

theorem zoomed_step (h : Zoomed st) (e : Event K) : Zoomed (step exp st e) := by
  have hfitted : 1 ≤ (fitted : ZoomState K).scale ∧ (fitted : ZoomState K).scale ≤ MAX_ZOOM :=
    ⟨le_rfl, one_le_MAX_ZOOM⟩
  cases e with
  | inputs | pointerDown => exact h
  | resetKey | resetZoom => exact hfitted
  | wheel modified rect clientX deltaMode deltaY =>
    show Zoomed (if modified then onWheel exp st rect clientX deltaMode deltaY else st)
    split
    · unfold onWheel
      split
      · exact h
      · dsimp only
        split
        · exact h
        · exact ⟨le_min one_le_MAX_ZOOM (le_max_left _ _), min_le_left _ _⟩
    · exact h
  | pointerMove id rect clientX =>
    show Zoomed (onPointerMove st id rect clientX)
    unfold onPointerMove
    split
    · exact h
    · split
      · exact h
      · next d _ =>
        show 1 ≤ (window st.zoom d).scale ∧ (window st.zoom d).scale ≤ MAX_ZOOM
        rw [window_scale h d]
        exact h
  | pointerUp id =>
    show Zoomed (if st.dragPointer ≠ some id then st else { st with dragPointer := none })
    split <;> exact h

theorem run_snoc (es : List (Event K)) (e : Event K) :
    run exp st (es ++ [e]) = step exp (run exp st es) e := by
  rw [run, List.foldl_append]
  rfl

theorem zoomed_run (h : Zoomed st) (es : List (Event K)) : Zoomed (run exp st es) := by
  induction es using List.reverseRecOn with
  | nil => exact h
  | append_singleton es e ih =>
    rw [run_snoc]
    exact zoomed_step ih e

theorem zoomed_initial (series : List (List (Point K))) (signed : Bool) :
    Zoomed (initial series signed) := ⟨le_rfl, one_le_MAX_ZOOM⟩

/-- **The window stays inside the data**, whatever series, gestures and resets come in whatever order:
it has a width, lies between the least and the greatest x of the series, shows all of it when it is not
zoomed, and is never closer than the limit. -/
theorem window_inside (exp : K → K) (series : List (List (Point K))) (signed : Bool)
    (es : List (Event K)) {d : Domain K} (hd : (run exp (initial series signed) es).domain = some d) :
    let w := window (run exp (initial series signed) es).zoom d
    (1 ≤ w.scale ∧ w.scale ≤ MAX_ZOOM ∧ 0 < w.visibleSpan ∧ w.visibleSpan = d.domainSpan / w.scale) ∧
      (∃ p ∈ d.series.flatten, p.x ≤ w.left) ∧
      (∃ p ∈ d.series.flatten, w.left + w.visibleSpan ≤ p.x) ∧
      (w.scale = 1 → ∀ p ∈ d.series.flatten, w.left ≤ p.x ∧ p.x ≤ w.left + w.visibleSpan) := by
  intro w
  have hzoomed : Zoomed (run exp (initial series signed) es) :=
    zoomed_run (zoomed_initial series signed) es
  have hinside : Inside w d := window_inside_domain _ d
  have hframed := domain_framed hd
  have hscale : w.scale = (run exp (initial series signed) es).zoom.scale := window_scale hzoomed d
  obtain ⟨first, hfirst, hmin⟩ := List.mem_map.mp hframed.extent.low_mem
  obtain ⟨last, hlast, hmax⟩ := List.mem_map.mp hframed.extent.high_mem
  have hleft := hinside.left_eq
  refine ⟨⟨hinside.one_le, hscale ▸ hzoomed.2, hinside.span_pos, hinside.span_eq⟩,
    ⟨first, hfirst, ?_⟩, ⟨last, hlast, ?_⟩, fun hone p hp => ?_⟩
  · linarith [hinside.nonneg]
  · linarith [hinside.le_end]
  · have hspan : w.visibleSpan = d.domainSpan := by rw [hinside.span_eq, hone, div_one]
    have hx := List.mem_map_of_mem (f := (·.x)) hp
    have hlow := hframed.extent.low_le p.x hx
    have hhigh := hframed.extent.le_high p.x hx
    exact ⟨by linarith [hinside.le_end], by linarith [hinside.nonneg]⟩

end Window

/-! ### Gestures -/

section Gestures

variable {K : Type} [Field K] [LinearOrder K]

/-- The x that is under a position. -/
def dataAt (w : Window K) (rect : Rect K) (clientX : K) : K :=
  w.left + plotFraction rect clientX * w.visibleSpan

/-- The window shows the first or the last x of the domain at its edge. -/
def AtEnd (d : Domain K) (w : Window K) : Prop :=
  w.left = d.domainMin ∨ w.left + w.visibleSpan = d.domainMin + d.domainSpan

/-- The event moves a pointer over the chart as it is rendered. -/
def Event.isMoveOver (rect : Rect K) : Event K → Prop
  | .pointerMove _ rect' _ => rect' = rect
  | _ => False

variable [IsStrictOrderedRing K] {exp : K → K} {st : State K} {d : Domain K}

/-- A window that is asked to start where a point is under a position has it there, if it can. -/
theorem dataAt_window {rect : Rect K} {clientX scale cursor : K} (hscale : 1 ≤ scale)
    (hasked : st.zoom = ⟨scale, cursor - plotFraction rect clientX * (d.domainSpan / scale)⟩) :
    dataAt (window st.zoom d) rect clientX = d.domainMin + cursor ∨ AtEnd d (window st.zoom d) := by
  have hvisible : (window st.zoom d).visibleSpan = d.domainSpan / scale := by
    rw [hasked]
    exact congrArg (d.domainSpan / ·) (max_eq_right hscale)
  have hinside := window_inside_domain st.zoom d
  have hclamp : (window st.zoom d).offset =
      clampOffset st.zoom.offset d.domainSpan (window st.zoom d).visibleSpan := rfl
  rcases clampOffset_cases st.zoom.offset hinside.span_le with hkept | hzero | hend
  · left
    have hoffset : (window st.zoom d).offset =
        cursor - plotFraction rect clientX * (d.domainSpan / scale) := by
      rw [hclamp, hkept, hasked]
    rw [dataAt, hinside.left_eq, hoffset, hvisible]
    ring
  · right
    left
    rw [hinside.left_eq, hclamp, hzero, add_zero]
  · right
    right
    rw [hinside.left_eq, add_assoc, hclamp, hend]

/-- Zooming in can always keep the point under the cursor. -/
theorem dataAt_zoomIn {w : Window K} (hw : Inside w d) {rect : Rect K} {clientX scale : K}
    (hin : w.scale ≤ scale) (hleft : 0 ≤ plotFraction rect clientX)
    (hright : plotFraction rect clientX ≤ 1)
    (hasked : st.zoom = ⟨scale, w.offset + plotFraction rect clientX * w.visibleSpan -
      plotFraction rect clientX * (d.domainSpan / scale)⟩) :
    dataAt (window st.zoom d) rect clientX = dataAt w rect clientX := by
  have hscale : 1 ≤ scale := hw.one_le.trans hin
  have hnarrow : d.domainSpan / scale ≤ w.visibleSpan := by
    rw [hw.span_eq]
    exact div_le_div_of_nonneg_left d.span_pos.le (one_pos.trans_le hw.one_le) hin
  have hvisible : (window st.zoom d).visibleSpan = d.domainSpan / scale := by
    rw [hasked]
    exact congrArg (d.domainSpan / ·) (max_eq_right hscale)
  have hinside := window_inside_domain st.zoom d
  have hstart := mul_le_mul_of_nonneg_left hnarrow hleft
  have hstop := mul_le_mul_of_nonneg_right hright (sub_nonneg.mpr hnarrow)
  have hoffset : (window st.zoom d).offset = st.zoom.offset := by
    have hclamp : (window st.zoom d).offset =
        clampOffset st.zoom.offset d.domainSpan (window st.zoom d).visibleSpan := rfl
    rw [hclamp, hvisible]
    refine clampOffset_of_le ?_ ?_
    · rw [hasked]
      dsimp only
      linarith [hw.nonneg]
    · rw [hasked]
      dsimp only
      linarith [hw.le_end]
  rw [dataAt, hinside.left_eq, hoffset, hvisible, hasked, dataAt, hw.left_eq]
  ring

/-- The wheel keeps what is under the cursor. -/
theorem wheel_step (hd : st.domain = some d) (rect : Rect K) (clientX : K) (deltaMode : DeltaMode)
    (deltaY : K) :
    let w := window st.zoom d
    let w' := window (step exp st (.wheel true rect clientX deltaMode deltaY)).zoom d
    (dataAt w' rect clientX = dataAt w rect clientX ∨ AtEnd d w') ∧
      (0 ≤ plotFraction rect clientX → plotFraction rect clientX ≤ 1 → w.scale ≤ w'.scale →
        dataAt w' rect clientX = dataAt w rect clientX) := by
  intro w w'
  have hw : Inside w d := window_inside_domain st.zoom d
  have hdata : dataAt w rect clientX =
      d.domainMin + (w.offset + plotFraction rect clientX * w.visibleSpan) := by
    rw [dataAt, hw.left_eq, add_assoc]
  have hstep : step exp st (.wheel true rect clientX deltaMode deltaY) =
      onWheel exp st rect clientX deltaMode deltaY := rfl
  have hcases : onWheel exp st rect clientX deltaMode deltaY = st ∨
      ∃ scale, 1 ≤ scale ∧ (onWheel exp st rect clientX deltaMode deltaY).zoom =
        ⟨scale, w.offset + plotFraction rect clientX * w.visibleSpan -
          plotFraction rect clientX * (d.domainSpan / scale)⟩ := by
    simp only [onWheel, hd]
    split
    · exact .inl rfl
    · exact .inr ⟨_, le_min one_le_MAX_ZOOM (le_max_left _ _), rfl⟩
  rcases hcases with hsame | ⟨scale, hscale, hasked⟩
  · have hw' : w' = w := by
      show window (step exp st (.wheel true rect clientX deltaMode deltaY)).zoom d = w
      rw [hstep, hsame]
    rw [hw']
    exact ⟨.inl rfl, fun _ _ _ => rfl⟩
  · have hw' : w'.scale = scale := by
      show max 1 (onWheel exp st rect clientX deltaMode deltaY).zoom.scale = scale
      rw [hasked]
      exact max_eq_right hscale
    refine ⟨?_, fun hleft hright hin => dataAt_zoomIn hw (hw' ▸ hin) hleft hright hasked⟩
    rw [hdata]
    exact dataAt_window hscale hasked

/-- A drag takes what was under the pointer along. -/
theorem drag_step (exp : K → K) {rect : Rect K} {e : Event K} (hmove : e.isMoveOver rect) {id : ℕ}
    (hdown : st.dragPointer = some id) (hd : st.domain = some d) :
    (step exp st e).dragPointer = some id ∧ (step exp st e).domain = some d ∧
      (dataAt (window (step exp st e).zoom d) rect (step exp st e).dragLastClientX =
          dataAt (window st.zoom d) rect st.dragLastClientX ∨
        AtEnd d (window (step exp st e).zoom d)) := by
  cases e with
  | pointerMove id' rect' clientX =>
    obtain rfl : rect' = rect := hmove
    by_cases hid : st.dragPointer = some id'
    · have hmoved : step exp st (.pointerMove id' rect' clientX) =
          { st with
            dragLastClientX := clientX
            zoom := ⟨(window st.zoom d).scale, (window st.zoom d).offset -
              (clientX - st.dragLastClientX) / rect'.width * (WIDTH : K) / (PLOT_W : K) *
                (window st.zoom d).visibleSpan⟩ } := by
        simp only [step, onPointerMove, hid, ne_eq, not_true_eq_false, if_false, hd]
      have hw := window_inside_domain st.zoom d
      rw [hmoved]
      refine ⟨hdown, hd, ?_⟩
      have hdata : dataAt (window st.zoom d) rect' st.dragLastClientX = d.domainMin +
          ((window st.zoom d).offset +
            plotFraction rect' st.dragLastClientX * (window st.zoom d).visibleSpan) := by
        rw [dataAt, hw.left_eq, add_assoc]
      rw [hdata]
      refine dataAt_window hw.one_le ?_
      dsimp only
      rw [← hw.span_eq, plotFraction, plotFraction]
      congr 1
      ring
    · have hstay : step exp st (.pointerMove id' rect' clientX) = st := if_pos hid
      rw [hstay]
      exact ⟨hdown, hd, .inl rfl⟩
  | _ => cases hmove

theorem drag_run {rect : Rect K} {id : ℕ} (hdown : st.dragPointer = some id)
    (hd : st.domain = some d) {es : List (Event K)} (hmoves : ∀ e ∈ es, e.isMoveOver rect)
    (hfree : ∀ pre, pre ≠ [] → pre <+: es → ¬ AtEnd d (window (run exp st pre).zoom d)) :
    (run exp st es).dragPointer = some id ∧ (run exp st es).domain = some d ∧
      dataAt (window (run exp st es).zoom d) rect (run exp st es).dragLastClientX =
        dataAt (window st.zoom d) rect st.dragLastClientX := by
  induction es using List.reverseRecOn with
  | nil => exact ⟨hdown, hd, rfl⟩
  | append_singleton es e ih =>
    obtain ⟨hdown', hd', hdata⟩ := ih (fun e he => hmoves e (List.mem_append_left _ he))
      fun pre hne hpre => hfree pre hne (hpre.trans (List.prefix_append _ _))
    have hend := hfree (es ++ [e]) (List.append_ne_nil_of_right_ne_nil _ (List.cons_ne_nil _ _))
      List.prefix_rfl
    rw [run_snoc] at hend ⊢
    obtain ⟨hdown'', hd'', hstep⟩ := drag_step exp
      (hmoves e (List.mem_append_right _ (List.mem_singleton_self e))) hdown' hd'
    exact ⟨hdown'', hd'', (hstep.resolve_right hend).trans hdata⟩

/-- **What is under the pointer stays there**, in every state: the wheel keeps the x under the cursor,
unless it brings the window to an end of the data, which zooming in over the plot never does; and the x
that a drag took hold of stays under the pointer as long as the window comes to no end of the data. -/
theorem anchored (exp : K → K) {st : State K} {d : Domain K} (hd : st.domain = some d)
    (rect : Rect K) :
    (∀ clientX deltaMode deltaY,
      let w := window st.zoom d
      let w' := window (step exp st (.wheel true rect clientX deltaMode deltaY)).zoom d
      (dataAt w' rect clientX = dataAt w rect clientX ∨ AtEnd d w') ∧
        (0 ≤ plotFraction rect clientX → plotFraction rect clientX ≤ 1 → w.scale ≤ w'.scale →
          dataAt w' rect clientX = dataAt w rect clientX)) ∧
    ∀ id es, st.dragPointer = some id → (∀ e ∈ es, Event.isMoveOver rect e) →
      (∀ pre, pre ≠ [] → pre <+: es → ¬ AtEnd d (window (run exp st pre).zoom d)) →
      dataAt (window (run exp st es).zoom d) rect (run exp st es).dragLastClientX =
        dataAt (window st.zoom d) rect st.dragLastClientX :=
  ⟨fun clientX deltaMode deltaY => wheel_step hd rect clientX deltaMode deltaY,
    fun _ _ hdown hmoves hfree => (drag_run hdown hd hmoves hfree).2.2⟩

end Gestures

/-! ### The picture -/

section Picture

variable {K : Type} [Field K] [LinearOrder K]

/-- What the pen is told: to go to a position, or to draw a line to it. -/
inductive Command (K : Type)
  | M (x y : K)
  | L (x y : K)
  deriving DecidableEq

/-- The pen is down (`opened`) after a reading, and up after a null. -/
def pathFor (toX toY : K → K) : Bool → List (Point K) → List (Command K)
  | _, [] => []
  | opened, p :: ps =>
    match p.y with
    | none => pathFor toX toY false ps
    | some y => (if opened then .L (toX p.x) (toY y) else .M (toX p.x) (toY y)) ::
        pathFor toX toY true ps

/-- `count` evenly spaced values across the range, and the end. -/
def ticks (low high : K) (count : ℕ) : List K :=
  (List.range (count + 1)).map fun i : ℕ => low + (high - low) * i / count

def plotH (showXAxis : Bool) : K :=
  HEIGHT - PAD_TOP - (if showXAxis then PAD_BOTTOM + X_LABEL_BAND else PAD_BOTTOM)

def toX (w : Window K) (x : K) : K := (PAD_LEFT : K) + (x - w.left) / w.visibleSpan * (PLOT_W : K)

def toY (d : Domain K) (showXAxis : Bool) (y : K) : K :=
  PAD_TOP + plotH showXAxis - (y - d.lowY) / (d.highY - d.lowY) * plotH showXAxis

/-- The ticks are the values and where they are. -/
structure Geometry (K : Type) where
  left : K
  visibleSpan : K
  lines : List (List (Command K))
  yTicks : List (K × K)
  xTicks : List (K × K)

variable [IsStrictOrderedRing K]

def geometry [FloorRing K] (st : State K) (showXAxis : Bool) : Option (Geometry K) :=
  st.domain.map fun d =>
    let w := window st.zoom d
    { left := w.left
      visibleSpan := w.visibleSpan
      lines := d.series.map fun points =>
        pathFor (toX w) (toY d showXAxis) false (forDisplay points w.left (w.left + w.visibleSpan))
      yTicks := (ticks d.lowY d.highY 4).map fun v => (v, toY d showXAxis v)
      xTicks :=
        if showXAxis then
          (ticks w.left (w.left + w.visibleSpan) 4).map fun v => (v, toX w v)
        else [] }

/-! ### In the box -/

theorem plotH_pos (showXAxis : Bool) : (0 : K) < plotH showXAxis := by
  cases showXAxis <;> norm_num [plotH, HEIGHT, PAD_TOP, PAD_BOTTOM, X_LABEL_BAND]

/-- A fraction of a length is within it when the fraction is within one. -/
theorem mul_mem_iff {a c : K} (hc : 0 < c) : 0 ≤ a * c ∧ a * c ≤ c ↔ 0 ≤ a ∧ a ≤ 1 := by
  rw [mul_nonneg_iff_of_pos_right hc, mul_le_iff_le_one_left hc]

theorem fraction_mem_iff {low high v : K} (h : low < high) :
    0 ≤ (v - low) / (high - low) ∧ (v - low) / (high - low) ≤ 1 ↔ low ≤ v ∧ v ≤ high := by
  rw [le_div_iff₀ (sub_pos.mpr h), zero_mul, sub_nonneg, div_le_one (sub_pos.mpr h),
    sub_le_sub_iff_right]

/-- What is drawn between the sides of the plot is what is in the window. -/
theorem toX_mem_iff {w : Window K} (hpos : 0 < w.visibleSpan) (x : K) :
    (PAD_LEFT : K) ≤ toX w x ∧ toX w x ≤ (WIDTH : K) - (PAD_RIGHT : K) ↔
      w.left ≤ x ∧ x ≤ w.left + w.visibleSpan := by
  have hplot : (0 : K) < PLOT_W := Nat.cast_pos.mpr (by decide)
  have hwidth : (WIDTH : K) - (PAD_RIGHT : K) = (PAD_LEFT : K) + (PLOT_W : K) := by
    norm_num [WIDTH, PAD_RIGHT, PAD_LEFT, PLOT_W]
  have hspan : w.left + w.visibleSpan - w.left = w.visibleSpan := add_sub_cancel_left _ _
  rw [toX, hwidth, le_add_iff_nonneg_right, add_le_add_iff_left, mul_mem_iff hplot,
    ← fraction_mem_iff (lt_add_of_pos_right w.left hpos), hspan]

/-- What is drawn between the top and the bottom is what is on the axis. -/
theorem toY_mem_iff (d : Domain K) (showXAxis : Bool) (y : K) :
    PAD_TOP ≤ toY d showXAxis y ∧ toY d showXAxis y ≤ PAD_TOP + plotH showXAxis ↔
      d.lowY ≤ y ∧ y ≤ d.highY := by
  rw [toY, add_sub_assoc, le_add_iff_nonneg_right, add_le_add_iff_left, sub_nonneg,
    sub_le_self_iff, and_comm, mul_mem_iff (plotH_pos showXAxis), fraction_mem_iff d.low_lt_high]

/-- Ticks lie in their range. -/
theorem ticks_mem {low high : K} (h : low ≤ high) {count : ℕ} (hcount : 0 < count) {v : K}
    (hv : v ∈ ticks low high count) : low ≤ v ∧ v ≤ high := by
  obtain ⟨i, hi, rfl⟩ := List.mem_map.mp hv
  have hpos : (0 : K) < count := Nat.cast_pos.mpr hcount
  have hle : (i : K) ≤ count := Nat.cast_le.mpr (Nat.le_of_lt_succ (List.mem_range.mp hi))
  have hspan := sub_nonneg.mpr h
  refine ⟨le_add_of_nonneg_right (div_nonneg (mul_nonneg hspan (Nat.cast_nonneg i)) hpos.le), ?_⟩
  rw [← le_sub_iff_add_le', div_le_iff₀ hpos]
  exact mul_le_mul_of_nonneg_left hle hspan

end Picture

/-! ### The pen -/

section Pen

variable {K : Type} {points : List (Point K)} {toX toY : K → K}

/-- The readings that are drawn, and whether a line leads to each. -/
def strokes (points : List (Point K)) : Bool → List ℕ → List (ℕ × Bool)
  | _, [] => []
  | opened, i :: is =>
    match points[i]?.bind (·.y) with
    | none => strokes points false is
    | some _ => (i, opened) :: strokes points true is

/-- How a stroke is drawn. -/
def strokeAt (points : List (Point K)) (toX toY : K → K) (stroke : ℕ × Bool) : Option (Command K) :=
  points[stroke.1]?.bind fun p => p.y.map fun y =>
    if stroke.2 then .L (toX p.x) (toY y) else .M (toX p.x) (toY y)

/-- There is no dropout between two samples. -/
def Unbroken (points : List (Point K)) (i j : ℕ) : Prop :=
  ∀ k p, i < k → k < j → points[k]? = some p → p.y ≠ none

/-- Samples as they are shown: in their order, with every null that is between. -/
def Shown (points : List (Point K)) (is : List ℕ) : Prop :=
  (∀ i ∈ is, (points[i]?).isSome) ∧ is.IsChain fun i j => i < j ∧ Unbroken points i j

/-- **The pen of a line**: which readings it draws, in their order, and that a line leads from one to
the next when there is no dropout between them. -/
structure Joined (points : List (Point K)) (toX toY : K → K) (indices : List ℕ)
    (commands : List (Command K)) (drawn : List (ℕ × Bool)) : Prop where
  commands_eq : commands.map some = drawn.map (strokeAt points toX toY)
  drawn_eq : drawn.map Prod.fst = indices.filter fun i => (points[i]?.bind (·.y)).isSome
  first : ∀ s ∈ drawn.head?, s.2 = false
  links : drawn.IsChain fun s s' => s'.2 = true ↔ Unbroken points s.1 s'.1

theorem strokes_cons_null {opened : Bool} {i : ℕ} {is : List ℕ}
    (h : points[i]?.bind (·.y) = none) :
    strokes points opened (i :: is) = strokes points false is := by
  rw [strokes, h]

theorem strokes_cons_reading {opened : Bool} {i : ℕ} {is : List ℕ} {y : K}
    (h : points[i]?.bind (·.y) = some y) :
    strokes points opened (i :: is) = (i, opened) :: strokes points true is := by
  rw [strokes, h]

theorem map_fst_strokes (opened : Bool) (is : List ℕ) :
    (strokes points opened is).map Prod.fst =
      is.filter fun i => (points[i]?.bind (·.y)).isSome := by
  induction is generalizing opened with
  | nil => rfl
  | cons i is ih =>
    cases hy : points[i]?.bind (·.y) with
    | none =>
      rw [strokes_cons_null hy, ih, List.filter_cons_of_neg (by rw [hy]; exact Bool.false_ne_true)]
    | some y =>
      rw [strokes_cons_reading hy, List.map_cons, ih, List.filter_cons_of_pos (by rw [hy]; rfl)]

theorem pathFor_strokes {shown : List (Point K)} {is : List ℕ} (opened : Bool)
    (h : shown.map some = is.map (points[·]?)) :
    (pathFor toX toY opened shown).map some =
      (strokes points opened is).map (strokeAt points toX toY) := by
  induction is generalizing shown opened with
  | nil => rw [List.map_eq_nil_iff.mp h]; rfl
  | cons i is ih =>
    obtain ⟨p, ps, rfl, hp, hps⟩ := List.map_eq_cons_iff.mp h
    have hp : points[i]? = some p := hp.symm
    have hbind : points[i]?.bind (·.y) = p.y := by rw [hp, Option.bind_some]
    cases hy : p.y with
    | none => rw [strokes_cons_null (hbind.trans hy), pathFor, hy, ih false hps]
    | some y =>
      have hstroke : strokeAt points toX toY (i, opened) =
          some (if opened then .L (toX p.x) (toY y) else .M (toX p.x) (toY y)) := by
        show (points[i]?.bind fun p => p.y.map _) = _
        rw [hp, Option.bind_some, hy, Option.map_some]
      rw [strokes_cons_reading (hbind.trans hy), pathFor, hy, List.map_cons, List.map_cons,
        ih true hps, hstroke]

/-- The pen comes down without a line. -/
theorem head_strokes_false (is : List ℕ) : ∀ s ∈ (strokes points false is).head?, s.2 = false := by
  induction is with
  | nil => exact fun s hs => by cases hs
  | cons i is ih =>
    cases hy : points[i]?.bind (·.y) with
    | none => rwa [strokes_cons_null hy]
    | some y =>
      rw [strokes_cons_reading hy]
      intro s hs
      cases hs
      rfl

theorem mem_of_mem_strokes {opened : Bool} {is : List ℕ} {s : ℕ × Bool}
    (h : s ∈ strokes points opened is) : s.1 ∈ is := by
  have hmem := List.mem_map_of_mem (f := Prod.fst) h
  rw [map_fst_strokes] at hmem
  exact (List.mem_filter.mp hmem).1

theorem Shown.tail {i : ℕ} {is : List ℕ} (h : Shown points (i :: is)) : Shown points is :=
  ⟨fun j hj => h.1 j (List.mem_cons_of_mem _ hj), h.2.tail⟩

theorem Shown.sorted {is : List ℕ} (h : Shown points is) : is.Pairwise (· < ·) :=
  (h.2.imp fun _ _ h => h.1).pairwise

/-- The stroke after a reading. -/
theorem head_strokes_true {i : ℕ} {is : List ℕ} (h : Shown points (i :: is)) :
    ∀ s ∈ (strokes points true is).head?, s.2 = true ↔ Unbroken points i s.1 := by
  cases is with
  | nil => exact fun s hs => by cases hs
  | cons j is =>
    have hij := (List.isChain_cons_cons.mp h.2).1
    cases hy : points[j]?.bind (·.y) with
    | none =>
      rw [strokes_cons_null hy]
      intro s hs
      have hjs := (List.pairwise_cons.mp h.tail.sorted).1 s.1
        (mem_of_mem_strokes (List.mem_of_mem_head? hs))
      refine iff_of_false (by rw [head_strokes_false is s hs]; exact Bool.false_ne_true) ?_
      -- the null at `j` is between
      obtain ⟨p, hp⟩ := Option.isSome_iff_exists.mp (h.tail.1 j List.mem_cons_self)
      rw [hp, Option.bind_some] at hy
      exact fun hunbroken => hunbroken j p hij.1 hjs hp hy
    | some y =>
      rw [strokes_cons_reading hy]
      intro s hs
      cases hs
      exact iff_of_true rfl hij.2

theorem strokes_links {is : List ℕ} (opened : Bool) (h : Shown points is) :
    (strokes points opened is).IsChain fun s s' => s'.2 = true ↔ Unbroken points s.1 s'.1 := by
  induction is generalizing opened with
  | nil => exact .nil
  | cons i is ih =>
    cases hy : points[i]?.bind (·.y) with
    | none =>
      rw [strokes_cons_null hy]
      exact ih false h.tail
    | some y =>
      rw [strokes_cons_reading hy]
      exact List.isChain_cons.mpr ⟨head_strokes_true h, ih true h.tail⟩

/-- **The pen is lifted where there is a dropout, and nowhere else.** -/
theorem pathFor_joined {shown : List (Point K)} {is : List ℕ} (h : Shown points is)
    (hshown : shown.map some = is.map (points[·]?)) :
    Joined points toX toY is (pathFor toX toY false shown) (strokes points false is) where
  commands_eq := pathFor_strokes false hshown
  drawn_eq := map_fst_strokes false is
  first := head_strokes_false is
  links := strokes_links false h

/-- Of sorted numbers, what holds of those with none in between holds along the list. -/
theorem isChain_of_sorted {R : ℕ → ℕ → Prop} {is : List ℕ} (h : is.Pairwise (· < ·))
    (hR : ∀ i ∈ is, ∀ j ∈ is, (∀ k ∈ is, k ≤ i ∨ j ≤ k) → R i j) :
    is.IsChain fun i j => i < j ∧ R i j := by
  induction is with
  | nil => exact .nil
  | cons i is ih =>
    obtain ⟨hfirst, hrest⟩ := List.pairwise_cons.mp h
    have htail := ih hrest fun a ha b hb hbetween =>
      hR a (List.mem_cons_of_mem _ ha) b (List.mem_cons_of_mem _ hb) fun k hk => by
        rcases List.mem_cons.mp hk with rfl | hk
        · exact .inl (hfirst a ha).le
        · exact hbetween k hk
    refine List.isChain_cons.mpr ⟨fun j hj => ?_, htail⟩
    cases is with
    | nil => cases hj
    | cons j' is =>
      cases hj
      refine ⟨hfirst _ List.mem_cons_self, ?_⟩
      refine hR i List.mem_cons_self _ (List.mem_cons_of_mem _ List.mem_cons_self) fun k hk => ?_
      rcases List.mem_cons.mp hk with rfl | hk
      · exact .inl le_rfl
      · rcases List.mem_cons.mp hk with rfl | hk
        · exact .inr le_rfl
        · exact .inr ((List.pairwise_cons.mp hrest).1 k hk).le

end Pen

/-! ### What is drawn -/

section Drawn

variable {K : Type} [Field K] [LinearOrder K] [IsStrictOrderedRing K] [FloorRing K]

open LineChart (Covers Thinned)

/-- The samples that are shown are thinned over those that cover the window. -/
theorem forDisplay_thinned {points : List (Point K)} {xMin xMax : K}
    (hx : points.Pairwise fun p q => p.x ≤ q.x) (hwindow : xMin < xMax) (hne : points ≠ []) :
    ∃ lo hi indices, Covers points xMin xMax lo hi ∧ Thinned points xMin xMax lo hi indices ∧
      (forDisplay points xMin xMax).map some = indices.map (points[·]?) := by
  have hcovers := LineChart.rangeOf_covers hx hwindow hne
  obtain ⟨s, hflushed, hscan⟩ := LineChart.scan_flushed
    (LineChart.keyOf points xMin ((xMax - xMin) / LineChart.DISPLAY_BUCKETS))
    (LineChart.valueOf points) hcovers.le
  have hthinned := LineChart.thinned_of_flushed hwindow hcovers hflushed
  refine ⟨_, _, s.out, hcovers, hthinned, ?_⟩
  have hwidth : 0 < (xMax - xMin) / (LineChart.DISPLAY_BUCKETS : K) :=
    div_pos (sub_pos.mpr hwindow) (Nat.cast_pos.mpr (by decide))
  have hdisplay : forDisplay points xMin xMax = s.out.filterMap (points[·]?) := by
    rw [← hscan]
    obtain ⟨first, rest, rfl⟩ := List.exists_cons_of_ne_nil hne
    exact if_neg (by rw [decide_eq_true hwidth]; exact Bool.false_ne_true)
  rw [hdisplay]
  refine Lists.map_some_filterMap fun i hi => ?_
  obtain ⟨p, hp⟩ := Lists.exists_getElem? ((hthinned.bounds i hi).2.trans_lt hcovers.lt)
  exact Option.isSome_iff_exists.mpr ⟨p, hp⟩

omit [IsStrictOrderedRing K] in
theorem shown_of_thinned {points : List (Point K)} {xMin xMax : K} {lo hi : ℕ} {indices : List ℕ}
    (hcovers : Covers points xMin xMax lo hi) (h : Thinned points xMin xMax lo hi indices) :
    Shown points indices := by
  refine ⟨fun i hi => ?_, isChain_of_sorted h.sorted h.unbridged⟩
  obtain ⟨p, hp⟩ := Lists.exists_getElem? ((h.bounds i hi).2.trans_lt hcovers.lt)
  exact Option.isSome_iff_exists.mpr ⟨p, hp⟩

/-- **The chart draws its series faithfully**, in every state: a reading is on the plot from side to
side when it is in the window, and from top to bottom unless it is negative and the channel cannot be;
the labels of the axes are on the plot; the line of a series draws readings of it only, thinned over the
samples that cover the window, and is interrupted between two of them when there is a dropout between
them, and only then. -/
theorem drawn_faithfully {st : State K} {d : Domain K} (hd : st.domain = some d)
    (showXAxis : Bool) :
    (∀ p ∈ d.series.flatten,
      ((PAD_LEFT : K) ≤ toX (window st.zoom d) p.x ∧
          toX (window st.zoom d) p.x ≤ (WIDTH : K) - (PAD_RIGHT : K) ↔
        (window st.zoom d).left ≤ p.x ∧
          p.x ≤ (window st.zoom d).left + (window st.zoom d).visibleSpan) ∧
      ∀ y, p.y = some y → (PAD_TOP ≤ toY d showXAxis y ∧
        toY d showXAxis y ≤ PAD_TOP + plotH showXAxis ↔ st.signed = true ∨ 0 ≤ y)) ∧
    ∃ g, geometry st showXAxis = some g ∧
      (∀ tick ∈ g.yTicks, PAD_TOP ≤ tick.2 ∧ tick.2 ≤ PAD_TOP + plotH showXAxis) ∧
      (∀ tick ∈ g.xTicks, (PAD_LEFT : K) ≤ tick.2 ∧ tick.2 ≤ (WIDTH : K) - (PAD_RIGHT : K)) ∧
      List.Forall₂ (fun points line => points.Pairwise (fun p q => p.x ≤ q.x) →
        ∃ lo hi indices drawn,
          Covers points g.left (g.left + g.visibleSpan) lo hi ∧
          Thinned points g.left (g.left + g.visibleSpan) lo hi indices ∧
          Joined points (toX (window st.zoom d)) (toY d showXAxis) indices line drawn)
        d.series g.lines := by
  have hframed := domain_framed hd
  have hinside := window_inside_domain st.zoom d
  refine ⟨fun p hp => ⟨toX_mem_iff hinside.span_pos p.x, fun y hy => ?_⟩, ?_⟩
  · rw [toY_mem_iff]
    exact hframed.axis p hp y hy
  · refine ⟨_, congrArg (Option.map _) hd, fun tick htick => ?_, fun tick htick => ?_, ?_⟩
    · obtain ⟨v, hv, rfl⟩ := List.mem_map.mp htick
      exact (toY_mem_iff d showXAxis v).mpr (ticks_mem d.low_lt_high.le (by decide) hv)
    · dsimp only at htick
      split at htick
      · obtain ⟨v, hv, rfl⟩ := List.mem_map.mp htick
        exact (toX_mem_iff hinside.span_pos v).mpr
          (ticks_mem (le_add_of_nonneg_right hinside.span_pos.le) (by decide) hv)
      · cases htick
    refine List.forall₂_map_right_iff.mpr (List.forall₂_same.mpr fun points hpoints hx => ?_)
    have hne : points ≠ [] := by
      rw [hframed.series_eq] at hpoints
      have hsome := (List.mem_filter.mp hpoints).2
      rintro rfl
      cases hsome
    obtain ⟨lo, hi, indices, hcovers, hthinned, hshown⟩ :=
      forDisplay_thinned hx (lt_add_of_pos_right _ hinside.span_pos) hne
    exact ⟨lo, hi, indices, _, hcovers, hthinned,
      pathFor_joined (shown_of_thinned hcovers hthinned) hshown⟩

/-! ### A zoomed chart -/

/-- A channel with a dropout. -/
def dropout : List (List (Point ℚ)) := [[⟨0, some 10⟩, ⟨100, some 30⟩, ⟨200, none⟩, ⟨400, some 20⟩], []]

def page : Rect ℚ := ⟨0, ⟨1000, by norm_num⟩⟩

/-- `Math.exp` where the wheel below asks for it. -/
def notch (x : ℚ) : ℚ := if x = 1 / 10 then 11051709180756477 / 10 ^ 16 else 1

/-- The wheel turns up by a notch in the middle of the plot, and a pointer goes down. -/
def grabbed : State ℚ :=
  run notch (initial dropout false) [.wheel true page 538 .pixel (-100), .pointerDown 7 500]

theorem grabbed_domain : ∃ d, grabbed.domain = some d :=
  Option.isSome_iff_exists.mp (by decide +kernel)

theorem window_inside_grabbed : ∃ d, grabbed.domain = some d ∧
    let w := window grabbed.zoom d
    1 < w.scale ∧ w.scale ≤ MAX_ZOOM ∧ ∃ p ∈ d.series.flatten, p.x ≤ w.left := by
  obtain ⟨d, hd⟩ := grabbed_domain
  obtain ⟨⟨-, hmax, -⟩, hleft, -⟩ := window_inside notch dropout false _ hd
  exact ⟨d, hd, show 1 < max 1 grabbed.zoom.scale by decide +kernel, hmax, hleft⟩

theorem anchored_grabbed : grabbed.dragLastClientX = 500 ∧
    (run notch grabbed [.pointerMove 7 page 490]).dragLastClientX = 490 ∧
    ∃ d, grabbed.domain = some d ∧
      dataAt (window (run notch grabbed [.pointerMove 7 page 490]).zoom d) page
          (run notch grabbed [.pointerMove 7 page 490]).dragLastClientX =
        dataAt (window grabbed.zoom d) page grabbed.dragLastClientX := by
  obtain ⟨d, hd⟩ := grabbed_domain
  refine ⟨by decide +kernel, by decide +kernel, d, hd, (anchored notch hd page).2 7 [.pointerMove 7 page 490] (by rfl) ?_ ?_⟩
  · intro e he
    rw [List.mem_singleton.mp he]
    rfl
  · intro pre hne hpre
    have hfree : (grabbed.domain.all fun d =>
        let w := window (run notch grabbed [.pointerMove 7 page 490]).zoom d
        decide (w.left ≠ d.domainMin ∧ w.left + w.visibleSpan ≠ d.domainMin + d.domainSpan)) = true := by
      decide +kernel
    rw [hd] at hfree
    obtain ⟨e, rest, rfl⟩ := List.exists_cons_of_ne_nil hne
    obtain ⟨rfl, hnil⟩ := List.cons_prefix_cons.mp hpre
    rw [List.prefix_nil.mp hnil]
    exact not_or.mpr (of_decide_eq_true hfree)

theorem drawn_faithfully_grabbed : ∃ d g, grabbed.domain = some d ∧ geometry grabbed true = some g ∧
    g.lines.map (·.map fun c => match c with | .M _ _ => false | .L _ _ => true) =
      [[false, true, false]] ∧
    ∀ tick ∈ g.yTicks, PAD_TOP ≤ tick.2 ∧ tick.2 ≤ PAD_TOP + plotH true := by
  obtain ⟨d, hd⟩ := grabbed_domain
  obtain ⟨-, g, hg, hticks, -⟩ := drawn_faithfully hd true
  have hlines : ((geometry grabbed true).all fun g =>
      g.lines.map (·.map fun c => match c with | .M _ _ => false | .L _ _ => true) =
        [[false, true, false]]) = true := by decide +kernel
  rw [hg] at hlines
  exact ⟨d, g, hd, hg, of_decide_eq_true hlines, hticks⟩

end Drawn

end TelemetryCloud.ChartView
