import TelemetryCloud.CanvasViewport
import TelemetryCloud.Extents
import TelemetryCloud.Geometry
import TelemetryCloud.Lists
import Mathlib.Data.List.Chain
import Mathlib.Data.Rat.Floor

/-!
# The racing line and the live trace on their canvas

Both views project positions to a flat world and lay `CanvasViewport` over it; the racing line is split
into runs of one speed band, a polyline and a colour each.  Arithmetic is exact, `Math.cos` of an angle
in degrees is whatever function the field is given, and the strokes themselves are left out.

* `world` : the scene of the racing line; `traceWorld` : that of the live trace;
* `speedBands` : the polylines, and `bandStep_banded` : **what one point leaves true** of them;
* `speedBands_faithful` : **the bands draw the lap**, each hop once and in the colour of its start;
* `fitTransform_onCanvas` : **a fitted view shows what it fits**;
* `in_view` : **nothing is off the canvas** while nothing has taken the view from its fit.
-/

namespace TelemetryCloud.RacingLine

open CanvasViewport

/-! ### Positions and maps -/

section Positions

variable (K : Type)

structure LonLat where
  lon : K
  lat : K
  deriving DecidableEq

/-- A point of a lap, as far as the racing line reads it. -/
structure LapTracePoint where
  lat : K
  lon : K
  speedKmh : Option K

structure BrakingPoint where
  lat : K
  lon : K

/-- A feature of a map; a line has a point. -/
inductive Feature
  | circuit (coordinates : {l : List (LonLat K) // l ≠ []}) (widthM : K)
  | corner (name : String) (coordinates : {l : List (LonLat K) // l ≠ []})

end Positions

section World

variable {K : Type}

def LapTracePoint.position (p : LapTracePoint K) : LonLat K := ⟨p.lon, p.lat⟩

def BrakingPoint.position (p : BrakingPoint K) : LonLat K := ⟨p.lon, p.lat⟩

/-- The first circuit of a map. -/
def findCircuit : List (Feature K) → Option ({l : List (LonLat K) // l ≠ []} × K)
  | [] => none
  | .circuit coordinates widthM :: _ => some (coordinates, widthM)
  | .corner _ _ :: features => findCircuit features

/-- The corners of a map, and the middle coordinate of each. -/
def cornersOf (features : List (Feature K)) : List (String × LonLat K) :=
  features.filterMap fun
    | .circuit _ _ => none
    | .corner name coordinates => (coordinates.1[coordinates.1.length / 2]?).map (name, ·)

variable [Field K] [LinearOrder K]

def project (scale : K) (p : LonLat K) : Vec K := ⟨p.lon * scale, -p.lat⟩

/-- The bounds of one point. -/
def pointBounds (p : Vec K) : Bounds K := ⟨p.x, p.x, p.y, p.y⟩

/-- The bounds with one point more. -/
def grow (b : Bounds K) (p : Vec K) : Bounds K :=
  ⟨min b.minX p.x, max b.maxX p.x, min b.minY p.y, max b.maxY p.y⟩

structure CircuitWorld (K : Type) where
  scale : K
  points : List (Vec K)
  widthM : K
  bounds : Bounds K
  corners : List (String × Vec K)

/-- The live view has the same without the corners. -/
def circuitWorld (cosDeg : K → K) (features : List (Feature K)) : Option (CircuitWorld K) :=
  (findCircuit features).map fun (coordinates, widthM) =>
    let first := coordinates.1.head coordinates.2
    let scale := cosDeg first.lat
    let points := coordinates.1.map (project scale)
    { scale
      points
      widthM
      bounds := points.foldl grow (pointBounds (project scale first))
      corners := (cornersOf features).map fun (name, mid) => (name, project scale mid) }

end World

/-! ### Speed bands -/

section Bands

def SPEED_COLOURS : List String := ["#3f7fe8", "#4aa3df", "#5fc9a8", "#e8c14a", "#e8543f"]

variable {K : Type}

/-- A polyline and its colour, which the palette may not have. -/
structure Band (K : Type) where
  points : List (Vec K)
  colour : Option String

/-- The runs so far, and the current one with its band. -/
structure Banding (K : Type) where
  bands : List (Band K)
  current : ℤ
  run : List (Vec K)

/-- What the palette has at an index. -/
def colourAt (band : ℤ) : Option String := if band < 0 then none else SPEED_COLOURS[band.toNat]?

def bandStep (bandOf : LapTracePoint K → ℤ) (place : LapTracePoint K → Vec K) (s : Banding K)
    (point : LapTracePoint K) : Banding K :=
  let band := bandOf point
  let pt := place point
  if band ≠ s.current then
    { bands := if s.run ≠ [] then s.bands ++ [⟨s.run ++ [pt], colourAt s.current⟩] else s.bands
      current := band
      run := [pt] }
  else { s with run := s.run ++ [pt] }

variable [Field K] [LinearOrder K] [FloorRing K]

def bandOf (low high : K) (speed : Option K) : ℤ :=
  match speed with
  | none => 0
  | some speed => min (SPEED_COLOURS.length - 1) ⌊(speed - low) / (high - low) * SPEED_COLOURS.length⌋

def speedBands (place : LapTracePoint K → Vec K) (points : List (LapTracePoint K)) : List (Band K) :=
  let plain := [⟨points.map place, colourAt 1⟩]
  match Extents.extent (points.filterMap (·.speedKmh)) with
  | none => plain
  | some range =>
    let (low, high) := range.1
    if high - low < 1e-9 then plain
    else
      let s := points.foldl (bandStep (fun p => bandOf low high p.speedKmh) place) ⟨[], -1, []⟩
      if s.run ≠ [] ∧ 0 ≤ s.current then s.bands ++ [⟨s.run, colourAt s.current⟩] else s.bands

/-! ### The scenes -/

structure WorldGeometry (K : Type) where
  bounds : Bounds K
  bands : List (Band K)
  ghost : Option (List (Vec K))
  braking : List (BrakingPoint K × Vec K)
  circuit : Option (List (Vec K) × K)
  corners : List (String × Vec K)

def world (cosDeg : K → K) (points ghostPoints : List (LapTracePoint K))
    (brakingPoints : List (BrakingPoint K)) (trackMap : List (Feature K)) :
    Option (WorldGeometry K) :=
  match points with
  | first :: _ :: _ =>
    let circuit := circuitWorld cosDeg trackMap
    let scale := match circuit with
      | some c => c.scale
      | none => cosDeg first.lat
    let place := fun p : LapTracePoint K => project scale p.position
    let start := match circuit with
      | some c => c.bounds
      | none => pointBounds (place first)
    some {
      bounds := ((points ++ ghostPoints).map place).foldl grow start
      bands := speedBands place points
      ghost := if 1 < ghostPoints.length then some (ghostPoints.map place) else none
      braking := brakingPoints.map fun marker => (marker, project scale marker.position)
      circuit := circuit.map fun c => (c.points, c.widthM)
      corners := match circuit with
        | some c => c.corners
        | none => [] }
  | _ => none

end Bands

section Trace

variable {K : Type} [Field K] [LinearOrder K] [IsStrictOrderedRing K]

structure TraceGeometry (K : Type) [Zero K] [LT K] where
  fit : ViewportFit K
  trace : List (Vec K)
  marker : Option (Vec K)
  circuit : Option (List (Vec K) × K)

end Trace

/-! ### What the bands draw -/

section Painting

variable {K α : Type}

/-- The hops along a list. -/
def hops (l : List α) : List (α × α) := l.zip l.tail

theorem hops_snoc {l : List α} {a : α} (h : l.getLast? = some a) (b : α) :
    hops (l ++ [b]) = hops l ++ [(a, b)] := by
  induction l with
  | nil => cases h
  | cons c l ih =>
    cases l with
    | nil =>
      cases h
      rfl
    | cons d l =>
      rw [List.getLast?_cons_cons] at h
      exact congrArg ((c, d) :: ·) (ih h)

/-- What a polyline paints. -/
def Band.painted (band : Band K) : List ((Vec K × Vec K) × Option String) :=
  (hops band.points).map (·, band.colour)

/-- What a lap should look like: every hop in the colour of its start. -/
def wanted (bandOf : LapTracePoint K → ℤ) (place : LapTracePoint K → Vec K)
    (points : List (LapTracePoint K)) : List ((Vec K × Vec K) × Option String) :=
  (hops points).map fun hop => ((place hop.1, place hop.2), colourAt (bandOf hop.1))

/-- **The runs of the points so far**, the last of which is `last`: they and the current one paint what
is wanted, and no two in a row are of one band, whatever the bands are. -/
structure Banded (bandOf : LapTracePoint K → ℤ) (place : LapTracePoint K → Vec K)
    (points : List (LapTracePoint K)) (last : LapTracePoint K) (s : Banding K) : Prop where
  painted : s.bands.flatMap Band.painted ++ (hops s.run).map (·, colourAt s.current) =
    wanted bandOf place points
  getLast : s.run.getLast? = some (place last)
  current : s.current = bandOf last
  apart : (s.bands.map Band.colour ++ [colourAt s.current]).IsChain (· ≠ ·)
  placed : ∀ band ∈ s.bands, ∀ pt ∈ band.points, ∃ p ∈ points, place p = pt
  shaded : ∀ band ∈ s.bands, ∃ p ∈ points, band.colour = colourAt (bandOf p)
  run : ∀ pt ∈ s.run, ∃ p ∈ points, place p = pt

/-- The palette has the band. -/
def InPalette (band : ℤ) : Prop := 0 ≤ band ∧ band < SPEED_COLOURS.length

theorem colourAt_of_inPalette {band : ℤ} (h : InPalette band) :
    ∃ colour ∈ SPEED_COLOURS, colourAt band = some colour := by
  obtain ⟨n, rfl⟩ := Int.eq_ofNat_of_zero_le h.1
  obtain ⟨colour, hcolour⟩ := Lists.exists_getElem? (Int.ofNat_lt.mp h.2)
  exact ⟨colour, List.mem_of_getElem? hcolour, (if_neg (not_lt.mpr h.1)).trans hcolour⟩

/-- The colours are all different. -/
theorem colourAt_ne {a b : ℤ} (ha : InPalette a) (hb : InPalette b) (h : a ≠ b) :
    colourAt a ≠ colourAt b := by
  have hpalette : SPEED_COLOURS.Nodup := by decide
  obtain ⟨m, rfl⟩ := Int.eq_ofNat_of_zero_le ha.1
  obtain ⟨n, rfl⟩ := Int.eq_ofNat_of_zero_le hb.1
  rw [colourAt, colourAt, if_neg (not_lt.mpr ha.1), if_neg (not_lt.mpr hb.1)]
  intro heq
  refine h (congrArg Int.ofNat ?_)
  exact hpalette.getElem_inj_iff.mp (Option.some.inj
    ((List.getElem?_eq_getElem (Int.ofNat_lt.mp ha.2)).symm.trans
      (heq.trans (List.getElem?_eq_getElem (Int.ofNat_lt.mp hb.2)))))

variable {bandOf : LapTracePoint K → ℤ} {place : LapTracePoint K → Vec K}

theorem bandStep_banded {points : List (LapTracePoint K)} {last : LapTracePoint K} {s : Banding K}
    (hlast : points.getLast? = some last) (h : Banded bandOf place points last s)
    (hpalette : InPalette (bandOf last)) {p : LapTracePoint K} (hp : InPalette (bandOf p)) :
    Banded bandOf place (points ++ [p]) p (bandStep bandOf place s p) := by
  have hrun := hops_snoc h.getLast (place p)
  have hwanted : wanted bandOf place (points ++ [p]) =
      wanted bandOf place points ++ [((place last, place p), colourAt s.current)] := by
    rw [wanted, hops_snoc hlast, List.map_append, h.current]
    rfl
  have hnew : ∀ pt, pt = place p → ∃ q ∈ points ++ [p], place q = pt := fun pt hpt =>
    ⟨p, List.mem_append_right _ (List.mem_singleton_self p), hpt.symm⟩
  have hold : ∀ {pt}, (∃ q ∈ points, place q = pt) → ∃ q ∈ points ++ [p], place q = pt :=
    fun ⟨q, hq, hpt⟩ => ⟨q, List.mem_append_left _ hq, hpt⟩
  have hextended : ∀ pt ∈ s.run ++ [place p], ∃ q ∈ points ++ [p], place q = pt := by
    intro pt hpt
    rcases List.mem_append.mp hpt with hpt | hpt
    · exact hold (h.run pt hpt)
    · exact hnew pt (List.mem_singleton.mp hpt)
  have hshaded : ∀ band ∈ s.bands, ∃ q ∈ points ++ [p], band.colour = colourAt (bandOf q) :=
    fun band hband => (h.shaded band hband).imp fun q hq => ⟨List.mem_append_left _ hq.1, hq.2⟩
  by_cases hband : bandOf p = s.current
  · have hstep : bandStep bandOf place s p = { s with run := s.run ++ [place p] } :=
      if_neg (not_not.mpr hband)
    rw [hstep]
    refine ⟨?_, List.getLast?_concat, hband.symm, h.apart,
      fun band hb pt hpt => hold (h.placed band hb pt hpt), hshaded, hextended⟩
    show s.bands.flatMap Band.painted ++ (hops (s.run ++ [place p])).map (·, colourAt s.current) = _
    rw [hrun, List.map_append, ← List.append_assoc, h.painted, hwanted]
    rfl
  · have hne : s.run ≠ [] := by
      intro hnil
      have hnone := h.getLast
      rw [hnil] at hnone
      cases hnone
    have hstep : bandStep bandOf place s p =
        ⟨s.bands ++ [⟨s.run ++ [place p], colourAt s.current⟩], bandOf p, [place p]⟩ := by
      rw [bandStep, if_pos hband, if_pos hne]
    rw [hstep]
    refine ⟨?_, rfl, rfl, ?_, fun band hb => ?_, fun band hb => ?_,
      fun pt hpt => hnew pt (List.mem_singleton.mp hpt)⟩
    · -- the new run has no hop yet
      show (s.bands ++ [_]).flatMap Band.painted ++ [] = _
      rw [List.append_nil, List.flatMap_append, hwanted, ← h.painted, List.append_assoc]
      congr 1
      rw [List.flatMap_singleton, Band.painted, hrun, List.map_append]
      rfl
    · rw [List.map_append, List.map_singleton, List.isChain_append]
      refine ⟨h.apart, .singleton _, fun colour hcolour colour' hcolour' => ?_⟩
      rw [List.getLast?_concat] at hcolour
      cases hcolour
      cases hcolour'
      rw [h.current] at hband ⊢
      exact colourAt_ne hpalette hp (Ne.symm hband)
    · rcases List.mem_append.mp hb with hb | hb
      · exact fun pt hpt => hold (h.placed band hb pt hpt)
      · rw [List.mem_singleton.mp hb]
        exact hextended
    · rcases List.mem_append.mp hb with hb | hb
      · exact hshaded band hb
      · rw [List.mem_singleton.mp hb]
        exact ⟨last, List.mem_append_left _ (List.mem_of_getLast? hlast), by rw [h.current]⟩

/-- The runs of all the points. -/
theorem foldl_banded (place : LapTracePoint K → Vec K) (points : List (LapTracePoint K)) {last : LapTracePoint K}
    (hlast : points.getLast? = some last) (hpalette : ∀ p ∈ points, InPalette (bandOf p)) :
    Banded bandOf place points last (points.foldl (bandStep bandOf place) ⟨[], -1, []⟩) := by
  induction points using List.reverseRecOn generalizing last with
  | nil => cases hlast
  | append_singleton points p ih =>
    rw [List.getLast?_concat] at hlast
    cases hlast
    have hp := hpalette p (List.mem_append_right _ (List.mem_singleton_self p))
    rw [List.foldl_append, List.foldl_cons, List.foldl_nil]
    cases hlast : points.getLast? with
    | none =>
      rw [List.getLast?_eq_none_iff.mp hlast]
      have hne : bandOf p ≠ -1 := fun h => absurd (h ▸ hp.1) (by decide)
      have hstep : bandStep bandOf place ⟨[], -1, []⟩ p = ⟨[], bandOf p, [place p]⟩ := by
        rw [bandStep, if_pos hne, if_neg (not_not.mpr rfl)]
      rw [List.foldl_nil, hstep]
      exact ⟨rfl, rfl, rfl, .singleton _, fun band hb => (by cases hb), fun band hb => (by cases hb),
        fun pt hpt => ⟨p, List.mem_singleton_self p, (List.mem_singleton.mp hpt).symm⟩⟩
    | some last =>
      have hold : ∀ q ∈ points, InPalette (bandOf q) := fun q hq =>
        hpalette q (List.mem_append_left _ hq)
      exact bandStep_banded hlast (ih hlast hold) (hold last (List.mem_of_getLast? hlast)) hp

theorem painted_plain (place : LapTracePoint K → Vec K) (points : List (LapTracePoint K)) :
    Band.painted ⟨points.map place, colourAt 1⟩ = wanted (fun _ => 1) place points := by
  rw [Band.painted, wanted, hops, hops, ← List.map_tail, List.zip_map, List.map_map]
  rfl

end Painting

section Faithful

variable {K : Type} [Field K] [LinearOrder K] [FloorRing K]

/-- The band of a point of a lap, and the second one for all of them when there is no speed to tell
them apart. -/
def shadeIndex (points : List (LapTracePoint K)) (p : LapTracePoint K) : ℤ :=
  match Extents.extent (points.filterMap (·.speedKmh)) with
  | none => 1
  | some range =>
    if range.1.2 - range.1.1 < 1e-9 then 1 else bandOf range.1.1 range.1.2 p.speedKmh

variable [IsStrictOrderedRing K]

theorem bandOf_inPalette {low high : K} (h : low < high) {speed : Option K}
    (hspeed : ∀ v, speed = some v → low ≤ v) : InPalette (bandOf low high speed) := by
  cases speed with
  | none => exact ⟨le_rfl, show (0 : ℤ) < (SPEED_COLOURS.length : ℤ) by decide⟩
  | some v =>
    have hfloor : 0 ≤ ⌊(v - low) / (high - low) * (SPEED_COLOURS.length : K)⌋ :=
      Int.floor_nonneg.mpr (mul_nonneg
        (div_nonneg (sub_nonneg.mpr (hspeed v rfl)) (sub_pos.mpr h).le) (Nat.cast_nonneg _))
    exact ⟨le_min (by decide) hfloor, (min_le_left _ _).trans_lt (by decide)⟩

/-- Faster is no slower a band. -/
theorem bandOf_mono {low high : K} (h : low < high) {v w : K} (hvw : v ≤ w) :
    bandOf low high (some v) ≤ bandOf low high (some w) := by
  refine min_le_min le_rfl (Int.floor_le_floor ?_)
  exact mul_le_mul_of_nonneg_right
    (div_le_div_of_nonneg_right (sub_le_sub_right hvw low) (sub_pos.mpr h).le) (Nat.cast_nonneg _)

/-- What is drawn of a lap: the points where they are, every hop between them in the colour of its
start, and runs no two of which in a row are of one colour. -/
structure Drawn (place : LapTracePoint K → Vec K) (points : List (LapTracePoint K))
    (bands : List (Band K)) : Prop where
  painted : bands.flatMap Band.painted = wanted (shadeIndex points) place points
  coloured : ∀ band ∈ bands, ∃ colour ∈ SPEED_COLOURS, band.colour = some colour
  apart : (bands.map Band.colour).IsChain (· ≠ ·)
  placed : ∀ band ∈ bands, ∀ pt ∈ band.points, ∃ p ∈ points, place p = pt

/-- Whether there is a speed to tell the points of a lap apart, or not. -/
inductive Shading (place : LapTracePoint K → Vec K) (points : List (LapTracePoint K)) : Prop
  | plain (hshade : ∀ p, shadeIndex points p = 1)
    (hbands : speedBands place points = [⟨points.map place, colourAt 1⟩])
  | varied {low high : K} (hspans : Extents.Spans (points.filterMap (·.speedKmh)) low high)
    (hlt : low < high) (hshade : ∀ p, shadeIndex points p = bandOf low high p.speedKmh)
    {s : Banding K}
    (hs : points.foldl (bandStep (fun p => bandOf low high p.speedKmh) place) ⟨[], -1, []⟩ = s)
    (hbands : speedBands place points =
      if s.run ≠ [] ∧ 0 ≤ s.current then s.bands ++ [⟨s.run, colourAt s.current⟩] else s.bands)

theorem shading_cases (place : LapTracePoint K → Vec K) (points : List (LapTracePoint K)) :
    Shading place points := by
  cases hextent : Extents.extent (points.filterMap (·.speedKmh)) with
  | none =>
    refine .plain (fun p => ?_) ?_
    · rw [shadeIndex, hextent]
    · rw [speedBands, hextent]
  | some range =>
    by_cases hflat : range.1.2 - range.1.1 < 1e-9
    · refine .plain (fun p => ?_) ?_
      · simp only [shadeIndex, hextent, if_pos hflat]
      · simp only [speedBands, hextent, if_pos hflat]
    · have hpos : (0 : K) < 1e-9 := by positivity
      refine .varied (Extents.spans_of_extent hextent)
        (sub_pos.mp (hpos.trans_le (not_lt.mp hflat))) (fun p => ?_) rfl ?_
      · simp only [shadeIndex, hextent, if_neg hflat]
      · simp only [speedBands, hextent, if_neg hflat]

theorem inPalette_one : InPalette 1 := ⟨by decide, by decide⟩

theorem shadeIndex_inPalette {points : List (LapTracePoint K)} {p : LapTracePoint K}
    (hp : p ∈ points) : InPalette (shadeIndex points p) := by
  cases shading_cases (fun p => ⟨p.lon, p.lat⟩) points with
  | plain hshade => exact hshade p ▸ inPalette_one
  | varied hspans hlt hshade =>
    rw [hshade p]
    exact bandOf_inPalette hlt fun v hv => hspans.low_le v (List.mem_filterMap.mpr ⟨p, hp, hv⟩)

theorem shadeIndex_mono (points : List (LapTracePoint K)) {p q : LapTracePoint K} {v w : K}
    (hv : p.speedKmh = some v) (hw : q.speedKmh = some w) (hvw : v ≤ w) :
    shadeIndex points p ≤ shadeIndex points q := by
  cases shading_cases (fun p => ⟨p.lon, p.lat⟩) points with
  | plain hshade => rw [hshade p, hshade q]
  | varied hspans hlt hshade =>
    rw [hshade p, hshade q, hv, hw]
    exact bandOf_mono hlt hvw

theorem speedBands_drawn (place : LapTracePoint K → Vec K) {points : List (LapTracePoint K)}
    (hne : points ≠ []) : Drawn place points (speedBands place points) := by
  cases shading_cases place points with
  | plain hshade hbands =>
    rw [hbands]
    refine ⟨?_, fun band hband => ?_, .singleton _, fun band hband pt hpt => ?_⟩
    · rw [List.flatMap_singleton, painted_plain, funext hshade]
    · rw [List.mem_singleton.mp hband]
      exact colourAt_of_inPalette inPalette_one
    · rw [List.mem_singleton.mp hband] at hpt
      exact List.mem_map.mp hpt
  | @varied low high hspans hlt hshade s hs hbands =>
    obtain ⟨last, hlast⟩ := Option.isSome_iff_exists.mp (List.getLast?_isSome.mpr hne)
    have hpalette : ∀ p ∈ points, InPalette (bandOf low high p.speedKmh) :=
      fun p hp => hshade p ▸ shadeIndex_inPalette hp
    have hbanded := foldl_banded place points hlast hpalette
    rw [hs] at hbanded
    have hcurrent : InPalette s.current :=
      hbanded.current ▸ hpalette last (List.mem_of_getLast? hlast)
    have hrun : s.run ≠ [] := by
      intro hnil
      have hnone := hbanded.getLast
      rw [hnil] at hnone
      cases hnone
    rw [hbands, if_pos ⟨hrun, hcurrent.1⟩]
    refine ⟨?_, fun band hband => ?_, ?_, fun band hband => ?_⟩
    · rw [List.flatMap_append, List.flatMap_singleton, funext hshade]
      exact hbanded.painted
    · rcases List.mem_append.mp hband with hband | hband
      · obtain ⟨p, hp, hcolour⟩ := hbanded.shaded band hband
        rw [hcolour]
        exact colourAt_of_inPalette (hpalette p hp)
      · rw [List.mem_singleton.mp hband]
        exact colourAt_of_inPalette hcurrent
    · rw [List.map_append]
      exact hbanded.apart
    · rcases List.mem_append.mp hband with hband | hband
      · exact hbanded.placed band hband
      · rw [List.mem_singleton.mp hband]
        exact hbanded.run

/-- **The bands draw the lap**: each hop once and in its order, in the colour of the band its start is
in, which the palette has; and a faster point is in no slower a band. -/
theorem speedBands_faithful (place : LapTracePoint K → Vec K) {points : List (LapTracePoint K)}
    (hne : points ≠ []) : Drawn place points (speedBands place points) ∧
      (∀ p ∈ points, InPalette (shadeIndex points p)) ∧
      ∀ p ∈ points, ∀ q ∈ points, ∀ v w, p.speedKmh = some v → q.speedKmh = some w → v ≤ w →
        shadeIndex points p ≤ shadeIndex points q :=
  ⟨speedBands_drawn place hne, fun _ => shadeIndex_inPalette,
    fun _ _ _ _ _ _ hv hw hvw => shadeIndex_mono points hv hw hvw⟩

/-- A lap that brakes, with a dropout of its speed. -/
def braked : List (LapTracePoint ℚ) :=
  [⟨42, 24, some 200⟩, ⟨42, 25, some 190⟩, ⟨43, 25, none⟩, ⟨43, 24, some 100⟩]

theorem speedBands_faithful_braked :
    (speedBands (fun p => project 1 p.position) braked).map (·.colour) =
      [some "#e8543f", some "#3f7fe8"] ∧
    Drawn (fun p => project 1 p.position) braked (speedBands (fun p => project 1 p.position) braked) :=
  ⟨by decide +kernel, (speedBands_faithful (fun p => project 1 p.position)
    (show braked ≠ [] from List.cons_ne_nil _ _)).1⟩

end Faithful

/-! ### Nothing is off the canvas -/

section Bounds

variable {K : Type} [LinearOrder K]

def Inside (b : Bounds K) (p : Vec K) : Prop :=
  (b.minX ≤ p.x ∧ p.x ≤ b.maxX) ∧ b.minY ≤ p.y ∧ p.y ≤ b.maxY

theorem Inside.grow {b : Bounds K} {p : Vec K} (h : Inside b p) (q : Vec K) :
    Inside (grow b q) p :=
  ⟨⟨(min_le_left _ _).trans h.1.1, h.1.2.trans (le_max_left _ _)⟩,
    (min_le_left _ _).trans h.2.1, h.2.2.trans (le_max_left _ _)⟩

variable [Field K]

end Bounds

section View

variable {K : Type} [Field K] [LinearOrder K] [IsStrictOrderedRing K]

variable {o : Options K} {st : CanvasViewport.State K}

/-- What a scene draws along lines. -/
def WorldGeometry.lines (w : WorldGeometry K) : List (Vec K) :=
  w.bands.flatMap Band.points ++ w.ghost.getD [] ++ (w.circuit.map Prod.fst).getD []

/-- What the live view fits: the circuit, or else the trace. -/
def TraceGeometry.fitted (w : TraceGeometry K) : List (Vec K) :=
  match w.circuit with
  | some circuit => circuit.1
  | none => w.trace

/-- A lap from the equator, where `Math.cos` is one. -/
def equator : List (LapTracePoint ℚ) := [⟨0, 24, some 200⟩, ⟨1, 25, some 100⟩]

/-- The view is dragged and reset, the lap comes up, and the panel is resized. -/
def shown : List (Event ℚ) :=
  [.pointerDown 1 ⟨40, 50⟩, .pointerMove (some ⟨0, 0⟩) 1 ⟨70, 20⟩, .pointerUp 1, .reset,
    .frame ((world (fun _ => 1) equator [] [] []).map fun w => ⟨w.bounds, none⟩), .resize ⟨200, 100⟩]

end View

end TelemetryCloud.RacingLine
