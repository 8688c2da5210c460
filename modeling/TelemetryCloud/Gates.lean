import TelemetryCloud.Geometry

/-!
# Does a pair of fixes cross the gate?

`gate-crossing.ts`: the gate projected once into local metres, and the intersection of one hop with
it.

* `findGateCrossing_required` : asking for a direction keeps the crossings of that direction;
* `findGateCrossing_between` : a crossing lies on its hop, in time no more than `MAX_FIX_GAP_MS`
  from either end.
-/

namespace TelemetryCloud.Gates

open TelemetryCloud.Geometry

def STATIONARY_SPEED_KMH : ℕ := 3
def MAX_FIX_GAP_MS : ℕ := 500
def MIN_LAP_MS : ℕ := 3000

/-- The side the path crossed from: `1` or `-1`. -/
inductive Direction
  | positive
  | negative
  deriving DecidableEq, Repr

/-- A fix as the crossing maths needs it; one without a position crosses nothing and is not built. -/
structure CrossingFix (K : Type) where
  timeMs : K
  lat : K
  lon : K
  speedKmh : Option K

structure GateCrossing (K : Type) where
  crossMs : K
  lat : K
  lon : K
  dirSign : Direction
  t : K
  deriving DecidableEq

structure ProjectedGate (K : Type) where
  midLat : K
  midLon : K
  mLon : K
  ax : K
  ay : K
  bx : K
  by' : K

/-- The fix of a point of a path. -/
def toFix {K : Type} (point : PathPoint K) : CrossingFix K :=
  ⟨point.timeMs, point.lat, point.lon, point.speedKmh⟩

section Field

variable {K : Type} [Field K] [LinearOrder K] (M : MathLib K)

def projectGate (gate : Gate K) : ProjectedGate K :=
  let midLat := (gate.lat1 + gate.lat2) / 2
  let midLon := (gate.lon1 + gate.lon2) / 2
  let mLon := metersPerDegLon M midLat
  { midLat, midLon, mLon
    ax := (gate.lon1 - midLon) * mLon
    ay := (gate.lat1 - midLat) * METERS_PER_DEG_LAT
    bx := (gate.lon2 - midLon) * mLon
    by' := (gate.lat2 - midLat) * METERS_PER_DEG_LAT }

/-- A speed that is known, and that of a parked car. -/
def isStationary (fix : CrossingFix K) : Bool :=
  match fix.speedKmh with
  | none => false
  | some v => v ≤ (STATIONARY_SPEED_KMH : K)

/-- The intersection of the hop `p0 → p1` with the gate: how far along the hop, and from which
side. -/
def intersectGate (prev cur : CrossingFix K) (gate : ProjectedGate K) : Option (K × Direction) :=
  let p0x := (prev.lon - gate.midLon) * gate.mLon
  let p0y := (prev.lat - gate.midLat) * METERS_PER_DEG_LAT
  let p1x := (cur.lon - gate.midLon) * gate.mLon
  let p1y := (cur.lat - gate.midLat) * METERS_PER_DEG_LAT
  let rx := p1x - p0x
  let ry := p1y - p0y
  let sx := gate.bx - gate.ax
  let sy := gate.by' - gate.ay
  let denom := rx * sy - ry * sx
  if |denom| < 1 / 10 ^ 9 then none
  else
    let t := ((gate.ax - p0x) * sy - (gate.ay - p0y) * sx) / denom
    let u := ((gate.ax - p0x) * ry - (gate.ay - p0y) * rx) / denom
    if t < 0 ∨ 1 < t ∨ u < 0 ∨ 1 < u then none
    else some (t, if 0 < denom then .positive else .negative)

/-- `findGateCrossing`; no required direction is `0` or `undefined`. -/
def findGateCrossing (prev cur : CrossingFix K) (gate : ProjectedGate K)
    (requiredDirSign : Option Direction) : Option (GateCrossing K) :=
  let dtMs := cur.timeMs - prev.timeMs
  if isStationary cur then none
  else if dtMs ≤ 0 ∨ (MAX_FIX_GAP_MS : K) < dtMs then none
  else
    match intersectGate prev cur gate with
    | none => none
    | some (t, dirSign) =>
      if requiredDirSign.any (· ≠ dirSign) then none
      else some {
        crossMs := prev.timeMs + t * dtMs
        lat := prev.lat + t * (cur.lat - prev.lat)
        lon := prev.lon + t * (cur.lon - prev.lon)
        dirSign
        t }

/-- **A required direction filters**: it keeps the crossings of that direction as they are. -/
theorem findGateCrossing_required (prev cur : CrossingFix K) (gate : ProjectedGate K)
    (d : Direction) : findGateCrossing prev cur gate (some d) =
      (findGateCrossing prev cur gate none).filter (·.dirSign = d) := by
  unfold findGateCrossing
  dsimp only
  split
  · rfl
  · split
    · rfl
    · cases intersectGate prev cur gate with
      | none => rfl
      | some hit =>
        by_cases h : d = hit.2
        · simp [h, Option.filter]
        · simp [h, Option.filter, Ne.symm h]

/-- **What a crossing says of its hop**: the fixes are in time order and close together, and the
crossing is a point of the hop. -/
theorem findGateCrossing_between [IsStrictOrderedRing K] {prev cur : CrossingFix K}
    {gate : ProjectedGate K} {c : GateCrossing K}
    (h : findGateCrossing prev cur gate none = some c) :
    prev.timeMs < cur.timeMs ∧ cur.timeMs - prev.timeMs ≤ (MAX_FIX_GAP_MS : K) ∧
      0 ≤ c.t ∧ c.t ≤ 1 ∧ c.crossMs = prev.timeMs + c.t * (cur.timeMs - prev.timeMs) := by
  unfold findGateCrossing at h
  dsimp only at h
  split at h
  · cases h
  · split at h
    · cases h
    · rename_i hgap
      rw [not_or, not_le, not_lt] at hgap
      split at h
      · cases h
      · rename_i t dirSign hhit
        cases h
        unfold intersectGate at hhit
        dsimp only at hhit
        split at hhit
        · cases hhit
        · split at hhit
          · cases hhit
          · rename_i ht
            rw [not_or, not_or, not_lt, not_lt] at ht
            rw [Option.some.injEq, Prod.mk.injEq] at hhit
            obtain ⟨rfl, -⟩ := hhit
            exact ⟨sub_pos.mp hgap.1, hgap.2, ht.1, ht.2.1, rfl⟩

/-- The position of a crossing is the same fraction of its hop. -/
theorem findGateCrossing_position {prev cur : CrossingFix K} {gate : ProjectedGate K}
    {c : GateCrossing K} (h : findGateCrossing prev cur gate none = some c) :
    c.lat = prev.lat + c.t * (cur.lat - prev.lat) ∧
      c.lon = prev.lon + c.t * (cur.lon - prev.lon) := by
  unfold findGateCrossing at h
  dsimp only at h
  split at h
  · cases h
  · split at h
    · cases h
    · split at h
      · cases h
      · cases h
        exact ⟨rfl, rfl⟩

end Field

end TelemetryCloud.Gates
