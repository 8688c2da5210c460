import TelemetryCloud.Gates
import TelemetryCloud.Lists

/-!
# Sectors and braking points of one lap

What `LapSegmenter.closeLap` reads off a lap's own points: the sector splits of `sectors.ts`, on
distance fractions or on fixed gates, and the braking points of `braking-points.ts`.

* `splits_length`, `length_sectorTimes`, `length_sectorTimesFromGates` : how many splits there are.
-/

namespace TelemetryCloud.LapMarkers

open TelemetryCloud.Geometry Gates

section Defs

variable {K : Type} [Field K] [LinearOrder K] [FloorRing K] (M : MathLib K)

/-! ### `sectors.ts` -/

def DEFAULT_SECTOR_COUNT : ℕ := 3

/-- The rounded durations between consecutive boundaries. -/
def splits (boundaries : List K) : List ℤ :=
  List.zipWith (fun start finish => mathRound (finish - start)) boundaries boundaries.tail

omit [FloorRing K] in
/-- When the car reached a distance, interpolated between the two points that bracket it. -/
def timeAtDistance (targetM : K) : List (LapPoint K) → K
  | a :: b :: rest =>
    if b.distM < targetM then timeAtDistance targetM (b :: rest)
    else
      let span := b.distM - a.distM
      let t := if 0 < span then (targetM - a.distM) / span else 0
      a.timeMs + t * (b.timeMs - a.timeMs)
  | [last] => last.timeMs
  | [] => 0

/-- `sectorTimes`: splits at equal fractions of the lap's own distance. -/
def sectorTimes (points : List (LapPoint K)) (sectorCount : ℕ) : List ℤ :=
  match points.head?, points.getLast? with
  | some first, some last =>
    let totalM := last.distM - first.distM
    let totalMs := last.timeMs - first.timeMs
    if sectorCount < 1 ∨ points.length < 2 ∨ totalM ≤ 0 ∨ totalMs ≤ 0 then []
    else
      splits ([first.timeMs] ++
        (List.range' 1 (sectorCount - 1)).map (fun i : ℕ =>
          timeAtDistance (first.distM + totalM * (i : K) / (sectorCount : K)) points) ++
        [last.timeMs])
  | _, _ => []

/-- Where and when a lap crossed a gate. -/
structure LapGateCrossing (K : Type) where
  crossMs : K
  distM : K
  deriving DecidableEq

/-- Every crossing of one gate by the hops of a lap. -/
def gateHits (points : List (LapPoint K)) (gate : Gate K) : List (LapGateCrossing K) :=
  (points.zip points.tail).filterMap fun (a, b) =>
    (findGateCrossing (toFix a.toPathPoint) (toFix b.toPathPoint) (projectGate M gate) none).map
      fun c => ⟨c.crossMs, a.distM + c.t * (b.distM - a.distM)⟩

/-- Strictly after `previous`, strictly one after the other, and strictly before `last`. -/
def inOrder (previous last : K) : List (LapGateCrossing K) → Bool
  | [] => previous < last
  | c :: rest => previous < c.crossMs && inOrder c.crossMs last rest

/-- `crossGates`: every gate crossed exactly once, in order, inside the lap. -/
def crossGates (points : List (LapPoint K)) (gates : List (Gate K)) :
    Option (List (LapGateCrossing K)) :=
  match points.head?, points.getLast? with
  | some first, some last =>
    if gates.isEmpty ∨ points.length < 2 then none
    else
      (gates.mapM fun gate =>
        match gateHits M points gate with
        | [found] => some found
        | _ => none).filter (inOrder first.timeMs last.timeMs)
  | _, _ => none

/-- `sectorTimesFromGates`. -/
def sectorTimesFromGates (points : List (LapPoint K)) (gates : List (Gate K)) : List ℤ :=
  match crossGates M points gates, points.head?, points.getLast? with
  | some crossings, some first, some last =>
    splits ([first.timeMs] ++ crossings.map LapGateCrossing.crossMs ++ [last.timeMs])
  | _, _, _ => []

/-! ### `braking-points.ts` -/

/-- Standard gravity. -/
def G : K := 980665 / 100000

def BRAKING_ENTER_G : K := 3 / 10
def BRAKING_EXIT_G : K := 15 / 100
def MIN_BRAKING_MS : K := 250
def BRAKING_MERGE_MS : K := 400

structure BrakingPoint (K : Type) where
  distM : K
  lat : K
  lon : K
  entrySpeedKmh : K
  peakDecelG : K
  deriving DecidableEq

structure OpenZone (K : Type) where
  start : LapPoint K
  finish : LapPoint K
  peakDecelG : K

/-- Deceleration over one interval, in g, positive when slowing. -/
def decelerationG (a b : LapPoint K) : Option K :=
  match b.gLon, a.speedKmh, b.speedKmh with
  | some g, _, _ => some (-g)
  | none, some v, some w =>
    let dtS := (b.timeMs - a.timeMs) / 1000
    if dtS ≤ 0 then none else some (-((w - v) * 1000 / 3600) / dtS / G)
  | none, _, _ => none

/-- The zone that braking at this interval opens: the last one again when it ended just before. -/
def openZone (zones : List (OpenZone K)) (a b : LapPoint K) : List (OpenZone K) × OpenZone K :=
  match zones.getLast? with
  | some previous =>
    if a.timeMs - previous.finish.timeMs ≤ BRAKING_MERGE_MS then (zones.dropLast, previous)
    else (zones, ⟨a, b, 0⟩)
  | none => (zones, ⟨a, b, 0⟩)

/-- An open zone reaches `b`, and is over when the deceleration has eased off. -/
def extendZone (zones : List (OpenZone K)) (zone : OpenZone K) (b : LapPoint K) (decelG : K) :
    List (OpenZone K) × Option (OpenZone K) :=
  let zone := { zone with peakDecelG := max zone.peakDecelG decelG, finish := b }
  if decelG < BRAKING_EXIT_G then (zones ++ [zone], none) else (zones, some zone)

/-- One interval of the loop of `detectBrakingPoints`. -/
def brakingStep (st : List (OpenZone K) × Option (OpenZone K)) (hop : LapPoint K × LapPoint K) :
    List (OpenZone K) × Option (OpenZone K) :=
  match decelerationG hop.1 hop.2, st.2 with
  | none, _ => st
  | some decelG, some zone => extendZone st.1 zone hop.2 decelG
  | some decelG, none =>
    if decelG < BRAKING_ENTER_G then st
    else
      let opened := openZone st.1 hop.1 hop.2
      extendZone opened.1 opened.2 hop.2 decelG

def isSustained (zone : OpenZone K) : Bool :=
  MIN_BRAKING_MS ≤ zone.finish.timeMs - zone.start.timeMs

def toBrakingPoint (zone : OpenZone K) : BrakingPoint K where
  distM := roundTo zone.start.distM 1
  lat := zone.start.lat
  lon := zone.start.lon
  entrySpeedKmh := roundTo (zone.start.speedKmh.getD 0) 1
  peakDecelG := roundTo zone.peakDecelG 3

/-- The zones of a lap before the duration filter. -/
def brakingZones (points : List (LapPoint K)) : List (OpenZone K) :=
  let st := (points.zip points.tail).foldl brakingStep ([], none)
  st.1 ++ st.2.toList

def detectBrakingPoints (points : List (LapPoint K)) : List (BrakingPoint K) :=
  ((brakingZones points).filter isSustained).map toBrakingPoint

end Defs

section Lengths

variable {K : Type} [Field K] [LinearOrder K] [FloorRing K] {M : MathLib K}

theorem length_splits (boundaries : List K) : (splits boundaries).length = boundaries.length - 1 := by
  rw [splits, List.length_zipWith, List.length_tail]
  omega

/-- `sectorTimes` gives all the splits or none. -/
theorem length_sectorTimes (points : List (LapPoint K)) (sectorCount : ℕ) :
    sectorTimes points sectorCount = [] ∨
      (sectorTimes points sectorCount).length = sectorCount := by
  unfold sectorTimes
  split
  · dsimp only
    split
    · exact .inl rfl
    · rename_i h
      right
      rw [length_splits]
      simp only [List.length_append, List.length_map, List.length_range', List.length_singleton]
      omega
  · exact .inl rfl

/-- `sectorTimesFromGates` gives one split more than there are gates, or none. -/
theorem length_sectorTimesFromGates (points : List (LapPoint K)) (gates : List (Gate K)) :
    sectorTimesFromGates M points gates = [] ∨
      (sectorTimesFromGates M points gates).length = gates.length + 1 := by
  unfold sectorTimesFromGates
  split
  · rename_i crossings first last hcross _ _
    right
    have hlen : crossings.length = gates.length := by
      unfold crossGates at hcross
      split at hcross
      · split at hcross
        · cases hcross
        · obtain ⟨hmapM, -⟩ := Option.filter_eq_some_iff.mp hcross
          exact Lists.length_of_mapM_eq_some hmapM
      · cases hcross
    rw [length_splits]
    simp only [List.length_append, List.length_map, List.length_singleton, hlen]
    omega
  · exact .inl rfl

end Lengths

end TelemetryCloud.LapMarkers
