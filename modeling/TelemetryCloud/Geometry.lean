import TelemetryCloud.Rounding
import Mathlib.Algebra.Order.Floor.Ring
import Mathlib.Algebra.Order.Field.Basic
import Mathlib.Tactic.Linarith

/-!
# Positions, distances and the shapes of the derivation

The types of `analysis.types.ts`, the flat-earth projection of `geo.ts`, the small rules of
`sample-math.ts` and the distance axis of `lap-distance.ts`, over any ordered field with a floor:
arithmetic is exact unless a `Rounding` is named, and `Math.cos` and `Math.hypot` are whatever functions
the field is given.

* `mathRound` : `Math.round`, half up, with `mathRound_le`, `lt_mathRound`;
* `withDistance`, `withDistance_append` : a path with its distance axis, one point at a time.
-/

namespace TelemetryCloud.Geometry

/-- What the code takes from `Math`. -/
structure MathLib (K : Type) where
  pi : K
  cos : K → K
  hypot : K → K → K

/-- One sample as the analysis pass reads it: `time` in milliseconds, every channel optional.  A
position that is not a finite number is no position. -/
structure AnalysisSample (K : Type) where
  time : ℤ
  lat : Option K
  lon : Option K
  speedKmh : Option K
  rpm : Option K
  coolantC : Option K
  oilC : Option K
  gLat : Option K
  gLon : Option K

/-- A point of a path: `Omit<LapPoint, 'distM'>`. -/
@[ext] structure PathPoint (K : Type) where
  timeMs : K
  lat : K
  lon : K
  speedKmh : Option K
  gLon : Option K

/-- A point of a lap, with the distance from the start of the lap. -/
@[ext] structure LapPoint (K : Type) extends PathPoint K where
  distM : K

structure Gate (K : Type) where
  lat1 : K
  lon1 : K
  lat2 : K
  lon2 : K
  deriving DecidableEq

/-! The numerals that means, units and roundings share in every module. -/

instance atLeastTwo_ten : Nat.AtLeastTwo 10 := ⟨Nat.le_of_ble_eq_true rfl⟩
instance atLeastTwo_fifty : Nat.AtLeastTwo 50 := ⟨Nat.le_of_ble_eq_true rfl⟩
instance atLeastTwo_thousand : Nat.AtLeastTwo 1000 := ⟨Nat.le_of_ble_eq_true rfl⟩
instance atLeastTwo_secondsPerHour : Nat.AtLeastTwo 3600 := ⟨Nat.le_of_ble_eq_true rfl⟩

section Field

variable {K : Type} [Field K] [LinearOrder K] (M : MathLib K)

/-! ### `geo.ts` -/

def METERS_PER_DEG_LAT : K := 111132

def metersPerDegLon (latDeg : K) : K := 111320 * M.cos (latDeg * M.pi / 180)

/-- `metersPerDegLon`, its results rounded. -/
def metersPerDegLonBy (R : Rounding K) (latDeg : K) : K :=
  R.mul 111320 (M.cos (R.div (R.mul latDeg M.pi) 180))

/-- Straight-line distance in metres. -/
def distanceM (lat1 lon1 lat2 lon2 : K) : K :=
  M.hypot ((lon2 - lon1) * metersPerDegLon M ((lat1 + lat2) / 2))
    ((lat2 - lat1) * METERS_PER_DEG_LAT)

/-! ### `sample-math.ts` -/

/-- A channel a fraction `t` of the way between two fixes. -/
def lerpChannel (a b : Option K) (t : K) : Option K :=
  match a, b with
  | some a, some b => some (a + t * (b - a))
  | _, _ => none

/-- `isPositioned`, with the point it stands for. -/
def AnalysisSample.point? (sample : AnalysisSample K) : Option (PathPoint K) :=
  match sample.lat, sample.lon with
  | some lat, some lon => some ⟨sample.time, lat, lon, sample.speedKmh, sample.gLon⟩
  | _, _ => none

omit [LinearOrder K] in
theorem timeMs_of_point? {sample : AnalysisSample K} {point : PathPoint K}
    (h : sample.point? = some point) : point.timeMs = sample.time := by
  unfold AnalysisSample.point? at h
  split at h
  · cases h
    rfl
  · cases h

/-! ### `lap-distance.ts` -/

/-- Distance covered between two points: from the speeds when there are any, else from the
positions. -/
def stepM (start finish : PathPoint K) : K :=
  let geometric := distanceM M start.lat start.lon finish.lat finish.lon
  match start.speedKmh, finish.speedKmh with
  | some v, some w =>
    let dtS := (finish.timeMs - start.timeMs) / 1000
    if 0 < dtS then (v + w) / 2 * 1000 * dtS / 3600 else geometric
  | _, _ => geometric

/-- The next point of a lap after `last`. -/
def nextPoint (last : LapPoint K) (point : PathPoint K) : LapPoint K :=
  ⟨point, last.distM + stepM M last.toPathPoint point⟩

/-- The points of a lap that follow `last`. -/
def axisFrom (last : LapPoint K) : List (PathPoint K) → List (LapPoint K)
  | [] => []
  | point :: rest => nextPoint M last point :: axisFrom (nextPoint M last point) rest

/-- A path with its distance axis. -/
def withDistance : List (PathPoint K) → List (LapPoint K)
  | [] => []
  | first :: rest => ⟨first, 0⟩ :: axisFrom M ⟨first, 0⟩ rest

theorem axisFrom_append_list (last : LapPoint K) (path more : List (PathPoint K)) :
    axisFrom M last (path ++ more) =
      axisFrom M last path ++ axisFrom M ((axisFrom M last path).getLastD last) more := by
  induction path generalizing last with
  | nil => rfl
  | cons first rest ih =>
    simp only [List.cons_append, axisFrom, ih, List.getLastD_cons]

theorem axisFrom_append (last : LapPoint K) (path : List (PathPoint K)) (point : PathPoint K) :
    axisFrom M last (path ++ [point]) =
      axisFrom M last path ++ [nextPoint M ((axisFrom M last path).getLastD last) point] :=
  axisFrom_append_list M last path [point]

theorem axisFrom_map (last : LapPoint K) (path : List (PathPoint K)) :
    (axisFrom M last path).map LapPoint.toPathPoint = path := by
  induction path generalizing last with
  | nil => rfl
  | cons first rest ih => rw [axisFrom, List.map_cons, ih, nextPoint]

/-- The axis adds distances and changes nothing else. -/
theorem withDistance_map (path : List (PathPoint K)) :
    (withDistance M path).map LapPoint.toPathPoint = path := by
  cases path with
  | nil => rfl
  | cons first rest => rw [withDistance, List.map_cons, axisFrom_map]

end Field

/-! ### `Math.round` -/

section Round

variable {K : Type} [Field K] [LinearOrder K] [FloorRing K]

/-- `Math.round`: to the nearest integer, half up. -/
def mathRound (x : K) : ℤ := ⌊x + 1 / 2⌋

/-- `round(value, places)`. -/
def roundTo (x : K) (places : ℕ) : K := mathRound (x * 10 ^ places) / 10 ^ places

variable [IsStrictOrderedRing K]

omit [IsStrictOrderedRing K] in
theorem mathRound_le (x : K) : (mathRound x : K) ≤ x + 1 / 2 := Int.floor_le _

theorem lt_mathRound (x : K) : x - 1 / 2 < mathRound x := by
  have := Int.lt_floor_add_one (x + 1 / 2)
  rw [mathRound]
  linarith

theorem mathRound_mono {x y : K} (h : x ≤ y) : mathRound x ≤ mathRound y :=
  Int.floor_le_floor (by linarith)

theorem mathRound_intCast (n : ℤ) : mathRound (n : K) = n := by
  rw [mathRound, Int.floor_intCast_add, Int.floor_eq_zero_iff.mpr, add_zero]
  constructor <;> norm_num

theorem ten_pow_pos (places : ℕ) : (0 : K) < 10 ^ places :=
  pow_pos (by norm_num) places

theorem roundTo_mono {x y : K} (h : x ≤ y) (places : ℕ) : roundTo x places ≤ roundTo y places :=
  div_le_div_of_nonneg_right
    (Int.cast_le.mpr (mathRound_mono (mul_le_mul_of_nonneg_right h (ten_pow_pos places).le)))
    (ten_pow_pos places).le

theorem roundTo_zero (places : ℕ) : roundTo (0 : K) places = 0 := by
  have hzero := mathRound_intCast (K := K) 0
  rw [Int.cast_zero] at hzero
  rw [roundTo, zero_mul, hzero, Int.cast_zero, zero_div]

theorem roundTo_roundTo (x : K) (places : ℕ) :
    roundTo (roundTo x places) places = roundTo x places := by
  have hpow := (ten_pow_pos (K := K) places).ne'
  rw [roundTo, roundTo, div_mul_cancel₀ _ hpow, mathRound_intCast]

theorem abs_roundTo_sub_le (x : K) (places : ℕ) :
    |roundTo x places - x| ≤ 1 / 2 / 10 ^ places := by
  have hpow := ten_pow_pos (K := K) places
  have hlo := (lt_mathRound (x * 10 ^ places)).le
  have hhi := mathRound_le (x * 10 ^ places)
  have hsplit : roundTo x places - x = (mathRound (x * 10 ^ places) - x * 10 ^ places) /
      10 ^ places := by
    rw [sub_div, mul_div_cancel_right₀ _ hpow.ne', roundTo]
  rw [hsplit, abs_div, abs_of_pos hpow]
  refine div_le_div_of_nonneg_right (abs_le.mpr ⟨?_, ?_⟩) hpow.le <;> linarith

/-- A difference rounded, and the difference of the rounded values, are at most 1 apart. -/
theorem abs_mathRound_sub_le (a b : K) :
    |mathRound (b - a) - (mathRound b - mathRound a)| ≤ 1 := by
  have h1 := mathRound_le (b - a)
  have h2 := lt_mathRound (b - a)
  have h3 := mathRound_le a
  have h4 := lt_mathRound a
  have h5 := mathRound_le b
  have h6 := lt_mathRound b
  have hlo : ((-2 : ℤ) : K) < ((mathRound (b - a) - (mathRound b - mathRound a) : ℤ) : K) := by
    push_cast
    linarith
  have hhi : ((mathRound (b - a) - (mathRound b - mathRound a) : ℤ) : K) < ((2 : ℤ) : K) := by
    push_cast
    linarith
  rw [Int.cast_lt] at hlo hhi
  rw [abs_le]
  omega

end Round

end TelemetryCloud.Geometry
