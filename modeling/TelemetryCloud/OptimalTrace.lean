import TelemetryCloud.OptimalTimes
import TelemetryCloud.TraceBrackets

/-!
# The racing line of the optimal lap

`stitchOptimalTrace` of `optimal-lap.ts`: each sector's geometry cut from the trace of the lap that
set it, at that lap's own splits, and joined on one axis.

* `boundaryM_bounds`, `boundaryM_mono` : where a lap's sectors begin and end along its trace;
* `clip_spec` : a slice of a trace goes forward in distance and in time;
* `Sound`, `sound_step`, `sound_sectors` : the stitch after any number of sectors;
* `stitchOptimalTrace_lap` : **the stitched trace is a lap**.
-/

namespace TelemetryCloud.OptimalTrace

open TelemetryCloud.Geometry LapMarkers OptimalLap LapTrace
open LapComparison TraceBrackets

/-! ### The code -/

structure ContributingLap (K : Type) where
  sectorMs : List ℤ
  points : List (LapTracePoint K K)

/-- A contributing lap whose trace can be drawn. -/
structure UsableLap (K : Type) extends ContributingLap K where
  usable : 2 ≤ points.length

structure SeamDto (K : Type) where
  distM : K
  gapM : K

/-- The stitch after some sectors. -/
structure Stitch (K : Type) where
  stitched : List (LapTracePoint K K)
  seams : List (SeamDto K)
  cumulativeDistM : K
  cumulativeElapsedMs : ℤ

theorem UsableLap.points_ne {K : Type} (lap : UsableLap K) : lap.points ≠ [] :=
  List.ne_nil_of_length_pos (Nat.zero_lt_two.trans_le lap.usable)

section Code

variable {K : Type} [Field K] [LinearOrder K] [FloorRing K] (M : MathLib K)

/-- The lap of a sector, when its trace can be drawn. -/
def usable? (contributingByLap : ℕ → Option (ContributingLap K)) (sector : BestSector) :
    Option (UsableLap K) :=
  match contributingByLap sector.lapNumber with
  | some lap => if h : 2 ≤ lap.points.length then some ⟨lap, h⟩ else none
  | none => none

/-- `boundaryM` in `sectorBoundsM`. -/
def boundaryM (lap : UsableLap K) (sectorCount k : ℕ) : K :=
  if k = 0 then (lap.points.head lap.points_ne).distM
  else if k = sectorCount then (lap.points.getLast lap.points_ne).distM
  else distanceAtElapsed lap.points lap.points_ne ((lap.sectorMs.take k).sum : ℤ)

/-- `sectorBoundsM`. -/
def sectorBoundsM (lap : UsableLap K) (i sectorCount : ℕ) : K × K :=
  let lapDistanceM := (lap.points.getLast lap.points_ne).distM
  if lap.sectorMs.length ≠ sectorCount then
    (lapDistanceM * (i : K) / (sectorCount : K),
      lapDistanceM * ((i + 1 : ℕ) : K) / (sectorCount : K))
  else (boundaryM lap sectorCount i, boundaryM lap sectorCount (i + 1))

/-- `recordSeam`. -/
def recordSeam (seams : List (SeamDto K)) (stitchedSoFar : List (LapTracePoint K K))
    (startPoint : LapTracePoint K K) (atDistM : K) : List (SeamDto K) :=
  match stitchedSoFar.getLast? with
  | none => seams
  | some previousEnd =>
    seams ++ [⟨roundTo atDistM 1,
      roundTo (distanceM M previousEnd.lat previousEnd.lon startPoint.lat startPoint.lon) 2⟩]

/-- The point of a trace at a distance, as `stitchOptimalTrace` clips with it. -/
def UsableLap.pointAt (lap : UsableLap K) (distM : K) : LapTracePoint K K :=
  interpolateTracePointAt lap.points lap.points_ne distM

/-- A trace between two distances, closed by a point on each. -/
def clip (lap : UsableLap K) (fromM toM : K) : List (LapTracePoint K K) :=
  lap.pointAt fromM :: lap.points.filter (fun p => fromM < p.distM ∧ p.distM < toM) ++
    [lap.pointAt toM]

/-- A point of a slice on the stitched axis, in a sector of `sectorMs` milliseconds. -/
def rebase (startPoint : LapTracePoint K K) (fromM scale cumulativeDistM : K)
    (cumulativeElapsedMs : ℤ) (point : LapTracePoint K K) : LapTracePoint K K :=
  { point with
    distM := roundTo (cumulativeDistM + (point.distM - fromM)) 1
    elapsedMs := (mathRound
      (cumulativeElapsedMs + (point.elapsedMs - startPoint.elapsedMs) * scale) : ℤ) }

/-- How a slice's own times are stretched to its sector's. -/
def sliceScale (sectorMs : ℤ) (startPoint endPoint : LapTracePoint K K) : K :=
  let rawSpanMs := endPoint.elapsedMs - startPoint.elapsedMs
  (sectorMs : K) / (if rawSpanMs = 0 then 1 else rawSpanMs)

/-- One sector of `stitchOptimalTrace`. -/
def stitchSector (sectorCount i : ℕ) (st : Stitch K) (sector : BestSector) (lap : UsableLap K) :
    Stitch K :=
  let bounds := sectorBoundsM lap i sectorCount
  let startPoint := lap.pointAt bounds.1
  let scale := sliceScale sector.sectorMs startPoint (lap.pointAt bounds.2)
  { stitched := st.stitched ++ (clip lap bounds.1 bounds.2).map
      (rebase startPoint bounds.1 scale st.cumulativeDistM st.cumulativeElapsedMs)
    seams := recordSeam M st.seams st.stitched startPoint st.cumulativeDistM
    cumulativeDistM := st.cumulativeDistM + (bounds.2 - bounds.1)
    cumulativeElapsedMs := st.cumulativeElapsedMs + sector.sectorMs }

/-- The loop over the sectors, from sector `i` on. -/
def stitchSectors (sectorCount : ℕ) :
    ℕ → List (BestSector × UsableLap K) → Stitch K → Stitch K
  | _, [], st => st
  | i, (sector, lap) :: rest, st =>
    stitchSectors sectorCount (i + 1) rest (stitchSector M sectorCount i st sector lap)

/-- The last point, set to the end of the lap. -/
def pinLast (stitched : List (LapTracePoint K K)) (distM : K) (lapMs : ℤ) :
    List (LapTracePoint K K) :=
  match stitched.getLast? with
  | none => stitched
  | some last =>
    stitched.dropLast ++ [{ last with distM := roundTo distM 1, elapsedMs := (lapMs : K) }]

/-- What `stitchOptimalTrace` has made of its usable laps before the trace is thinned. -/
def stitch (plan : OptimalLapDto K) (laps : List (UsableLap K)) :
    List (LapTracePoint K K) × List (SeamDto K) :=
  let st := stitchSectors M plan.sectors.length 0 (plan.sectors.zip laps) ⟨[], [], 0, 0⟩
  (pinLast st.stitched st.cumulativeDistM plan.lapMs, st.seams)

/-- `stitchOptimalTrace`: the trace, and the seams it leaves in a plan that had none. -/
def stitchOptimalTrace (plan : OptimalLapDto K)
    (contributingByLap : ℕ → Option (ContributingLap K)) (maxPoints : ℕ) :
    List (LapTracePoint K K) × List (SeamDto K) :=
  match plan.sectors.mapM (usable? contributingByLap) with
  | none => ([], [])
  | some laps =>
    (decimateByDistance (.exact K) (stitch M plan laps).1 maxPoints, (stitch M plan laps).2)

end Code

/-! ### Where a sector begins and ends -/

section Bounds

variable {K : Type} [Field K] [LinearOrder K] [IsStrictOrderedRing K] {lap : UsableLap K}
  {sectorCount k : ℕ}

theorem boundaryM_bounds (h : IsTrace lap.points) (sectorCount k : ℕ) :
    0 ≤ boundaryM lap sectorCount k ∧ boundaryM lap sectorCount k ≤ endM lap.points := by
  have hends := Interpolation.head_le h.distances lap.points_ne (List.getLast_mem lap.points_ne)
  rw [endM_eq lap.points_ne, ← head_distM h lap.points_ne]
  unfold boundaryM
  split
  · exact ⟨le_rfl, hends⟩
  · split
    · exact ⟨hends, le_rfl⟩
    · exact read_bounds _ _ _ h.length h.distances

theorem sum_take_le_succ {l : List ℤ} (hl : ∀ ms ∈ l, 0 < ms) (k : ℕ) :
    (l.take k).sum ≤ (l.take (k + 1)).sum := by
  rw [List.take_add_one, List.sum_append]
  refine le_add_of_nonneg_right ?_
  cases hk : l[k]? with
  | none => exact le_rfl
  | some ms =>
    rw [Option.toList_some, List.sum_singleton]
    exact (hl ms (List.mem_of_getElem? hk)).le

/-- **A later sector begins no earlier on the trace.** -/
theorem boundaryM_mono (h : IsTrace lap.points) (hpositive : ∀ ms ∈ lap.sectorMs, 0 < ms)
    (hk : k < sectorCount) :
    boundaryM lap sectorCount k ≤ boundaryM lap sectorCount (k + 1) := by
  rcases Nat.eq_zero_or_pos k with rfl | hpos
  · rw [boundaryM, if_pos rfl, head_distM h lap.points_ne]
    exact (boundaryM_bounds h sectorCount (0 + 1)).1
  rcases eq_or_ne (k + 1) sectorCount with hlast | hlast
  · have hend : boundaryM lap sectorCount (k + 1) = endM lap.points := by
      rw [boundaryM, if_neg (Nat.succ_ne_zero k), if_pos hlast, endM_eq lap.points_ne]
    rw [hend]
    exact (boundaryM_bounds h sectorCount k).2
  · rw [boundaryM, if_neg hpos.ne', if_neg hk.ne, boundaryM, if_neg (Nat.succ_ne_zero k),
      if_neg hlast]
    exact read_mono h.length h.distances (Int.cast_le.mpr (sum_take_le_succ hpositive k))

end Bounds

/-! ### One slice -/

section Slice

variable {K : Type} [Field K] [LinearOrder K] [IsStrictOrderedRing K] {lap : UsableLap K}
  {fromM toM : K}

omit [IsStrictOrderedRing K] in
/-- A slice goes forward in a value when its ends do and the points between lie between them. -/
theorem clip_pairwise (value : LapTracePoint K K → K)
    (hvalues : lap.points.Pairwise fun a b => value a ≤ value b)
    (hends : value (lap.pointAt fromM) ≤ value (lap.pointAt toM))
    (hinside : ∀ p ∈ lap.points, fromM < p.distM → p.distM < toM →
      value (lap.pointAt fromM) ≤ value p ∧ value p ≤ value (lap.pointAt toM)) :
    (clip lap fromM toM).Pairwise (fun a b => value a ≤ value b) ∧
      ∀ p ∈ clip lap fromM toM,
        value (lap.pointAt fromM) ≤ value p ∧ value p ≤ value (lap.pointAt toM) := by
  have hinterior : ∀ p ∈ lap.points.filter (fun p => fromM < p.distM ∧ p.distM < toM),
      value (lap.pointAt fromM) ≤ value p ∧ value p ≤ value (lap.pointAt toM) := by
    intro p hp
    obtain ⟨hmem, hrange⟩ := List.mem_filter.mp hp
    obtain ⟨hfrom, hto⟩ := of_decide_eq_true hrange
    exact hinside p hmem hfrom hto
  have hbounds : ∀ p ∈ clip lap fromM toM,
      value (lap.pointAt fromM) ≤ value p ∧ value p ≤ value (lap.pointAt toM) := by
    intro p hp
    rcases List.mem_append.mp hp with hp | hp
    · rcases List.mem_cons.mp hp with rfl | hp
      · exact ⟨le_rfl, hends⟩
      · exact hinterior p hp
    · rw [List.mem_singleton.mp hp]
      exact ⟨hends, le_rfl⟩
  refine ⟨?_, hbounds⟩
  rw [clip, List.cons_append, List.pairwise_cons, Lists.pairwise_concat_iff]
  refine ⟨?_, hvalues.sublist List.filter_sublist, ?_⟩
  · intro p hp
    exact (hbounds p (List.mem_cons_of_mem _ hp)).1
  · intro p hp
    exact (hinterior p hp).2

variable (h : IsTrace lap.points) (hfrom : 0 ≤ fromM) (hle : fromM ≤ toM)
  (hto : toM ≤ endM lap.points)

include h hfrom hle hto

omit [IsStrictOrderedRing K] in
theorem pointAt_distM :
    (lap.pointAt fromM).distM = fromM ∧ (lap.pointAt toM).distM = toM :=
  ⟨interpolate_distM h hfrom (hle.trans hto), interpolate_distM h (hfrom.trans hle) hto⟩

omit [IsStrictOrderedRing K] in
/-- **A slice goes forward along the track**, from its one end to the other. -/
theorem clip_distances :
    (clip lap fromM toM).Pairwise (fun a b => a.distM ≤ b.distM) ∧
      ∀ p ∈ clip lap fromM toM, fromM ≤ p.distM ∧ p.distM ≤ toM := by
  obtain ⟨hstart, hfinish⟩ := pointAt_distM h hfrom hle hto
  have hends : (lap.pointAt fromM).distM ≤ (lap.pointAt toM).distM := by rwa [hstart, hfinish]
  have hclip := clip_pairwise LapTracePoint.distM h.distances hends (by
    intro p _ hlo hhi
    rw [hstart, hfinish]
    exact ⟨hlo.le, hhi.le⟩)
  rwa [hstart, hfinish] at hclip

omit hfrom hto in
/-- **A slice goes forward in time.** -/
theorem clip_times :
    (clip lap fromM toM).Pairwise (fun a b => a.elapsedMs ≤ b.elapsedMs) ∧
      ∀ p ∈ clip lap fromM toM,
        (lap.pointAt fromM).elapsedMs ≤ p.elapsedMs ∧
          p.elapsedMs ≤ (lap.pointAt toM).elapsedMs := by
  refine clip_pairwise LapTracePoint.elapsedMs h.times ?_ ?_
  · rw [UsableLap.pointAt, UsableLap.pointAt, interpolate_elapsedMs, interpolate_elapsedMs]
    exact read_mono h.length h.times hle
  · intro p hp hlo hhi
    rw [UsableLap.pointAt, UsableLap.pointAt, interpolate_elapsedMs, interpolate_elapsedMs]
    exact ⟨read_le h.length h.distances h.times hp hlo,
      le_read h.length h.distances h.times hp hhi⟩

end Slice

/-! ### A slice on the stitched axis -/

section Rebased

variable {K : Type} [Field K] [LinearOrder K] [IsStrictOrderedRing K] {lap : UsableLap K}
  {fromM toM cumulativeDistM : K} {cumulativeElapsedMs sectorMs : ℤ}

/-- The scale of a slice is never negative, and stretches no part of it past its sector. -/
theorem sliceScale_spec (startPoint endPoint : LapTracePoint K K) (hsector : 0 ≤ sectorMs)
    (hspan : 0 ≤ endPoint.elapsedMs - startPoint.elapsedMs) :
    0 ≤ sliceScale sectorMs startPoint endPoint ∧
      ∀ x, x ≤ endPoint.elapsedMs - startPoint.elapsedMs →
        x * sliceScale sectorMs startPoint endPoint ≤ sectorMs := by
  have hcast : (0 : K) ≤ sectorMs := Int.cast_nonneg hsector
  unfold sliceScale
  dsimp only
  split
  · rename_i hzero
    rw [div_one, hzero]
    refine ⟨hcast, ?_⟩
    intro x hx
    exact (mul_nonpos_of_nonpos_of_nonneg hx hcast).trans hcast
  · rename_i hne
    have hpos := lt_of_le_of_ne hspan (Ne.symm hne)
    refine ⟨div_nonneg hcast hspan, ?_⟩
    intro x hx
    rw [mul_div_assoc', div_le_iff₀ hpos, mul_comm]
    exact mul_le_mul_of_nonneg_left hx hcast

variable [FloorRing K]

/-- A slice as it is added to the stitch. -/
def piece (lap : UsableLap K) (fromM toM cumulativeDistM : K) (cumulativeElapsedMs sectorMs : ℤ) :
    List (LapTracePoint K K) :=
  (clip lap fromM toM).map (rebase (lap.pointAt fromM) fromM
    (sliceScale sectorMs (lap.pointAt fromM) (lap.pointAt toM)) cumulativeDistM
    cumulativeElapsedMs)

variable (h : IsTrace lap.points) (hfrom : 0 ≤ fromM) (hle : fromM ≤ toM)
  (hto : toM ≤ endM lap.points)

include h hfrom hle hto

theorem piece_distances (cumulativeDistM : K) (cumulativeElapsedMs sectorMs : ℤ) :
    (piece lap fromM toM cumulativeDistM cumulativeElapsedMs sectorMs).Pairwise
        (fun a b => a.distM ≤ b.distM) ∧
      ∀ p ∈ piece lap fromM toM cumulativeDistM cumulativeElapsedMs sectorMs,
        roundTo cumulativeDistM 1 ≤ p.distM ∧
          p.distM ≤ roundTo (cumulativeDistM + (toM - fromM)) 1 := by
  obtain ⟨hpairwise, hbounds⟩ := clip_distances h hfrom hle hto
  constructor
  · rw [piece, List.pairwise_map]
    refine hpairwise.imp ?_
    intro a b hab
    exact roundTo_mono (by linarith) 1
  · intro p hp
    obtain ⟨q, hq, rfl⟩ := List.mem_map.mp hp
    obtain ⟨hlo, hhi⟩ := hbounds q hq
    exact ⟨roundTo_mono (by linarith) 1, roundTo_mono (by linarith) 1⟩

omit hfrom hto in
theorem piece_times (cumulativeDistM : K) (cumulativeElapsedMs : ℤ) (hsector : 0 ≤ sectorMs) :
    (piece lap fromM toM cumulativeDistM cumulativeElapsedMs sectorMs).Pairwise
        (fun a b => a.elapsedMs ≤ b.elapsedMs) ∧
      ∀ p ∈ piece lap fromM toM cumulativeDistM cumulativeElapsedMs sectorMs,
        (cumulativeElapsedMs : K) ≤ p.elapsedMs ∧
          p.elapsedMs ≤ (cumulativeElapsedMs + sectorMs : ℤ) := by
  obtain ⟨hpairwise, hbounds⟩ := clip_times h hle
  have hends := (hbounds _ (List.mem_append_right _ (List.mem_singleton_self _))).1
  obtain ⟨hscale, hstretch⟩ := sliceScale_spec (lap.pointAt fromM) (lap.pointAt toM)
    hsector (sub_nonneg.mpr hends)
  constructor
  · rw [piece, List.pairwise_map]
    refine hpairwise.imp ?_
    intro a b hab
    exact Int.cast_le.mpr (mathRound_mono (add_le_add_right
      (mul_le_mul_of_nonneg_right (sub_le_sub_right hab _) hscale) _))
  · intro p hp
    obtain ⟨q, hq, rfl⟩ := List.mem_map.mp hp
    obtain ⟨hlo, hhi⟩ := hbounds q hq
    have hstart := mul_nonneg (sub_nonneg.mpr hlo) hscale
    have hfinish := hstretch _ (sub_le_sub_right hhi _)
    have hlow := mathRound_mono (le_add_of_nonneg_right (a := (cumulativeElapsedMs : K)) hstart)
    have hhigh := mathRound_mono (add_le_add_right hfinish (cumulativeElapsedMs : K))
    rw [mathRound_intCast] at hlow
    rw [← Int.cast_add, mathRound_intCast] at hhigh
    exact ⟨Int.cast_le.mpr hlow, Int.cast_le.mpr hhigh⟩

end Rebased

/-! ### The loop -/

section Loop

variable {K : Type} [Field K] [LinearOrder K] [FloorRing K] {M : MathLib K} {sectorCount : ℕ}
  {done : List (BestSector × UsableLap K)} {st : Stitch K} {entry : BestSector × UsableLap K}

/-- How long each sector's slice is. -/
def sliceLengths (sectorCount : ℕ) (laps : List (UsableLap K)) : List K :=
  laps.mapIdx fun i lap =>
    (sectorBoundsM lap i sectorCount).2 - (sectorBoundsM lap i sectorCount).1

/-- A sector with the lap it is drawn from: a trace with an axis, and a full set of splits. -/
structure Drawn (sectorCount : ℕ) (entry : BestSector × UsableLap K) : Prop where
  trace : IsTrace entry.2.points
  splits : entry.2.sectorMs.length = sectorCount
  positive : ∀ ms ∈ entry.2.sectorMs, 0 < ms
  sector : 0 ≤ entry.1.sectorMs

/-- **The stitch after the sectors of `done`.** -/
structure Sound (sectorCount : ℕ) (done : List (BestSector × UsableLap K)) (st : Stitch K) :
    Prop where
  distance : st.cumulativeDistM = (sliceLengths sectorCount (done.map Prod.snd)).sum
  elapsed : st.cumulativeElapsedMs = (done.map (·.1.sectorMs)).sum
  distances : st.stitched.Pairwise fun a b => a.distM ≤ b.distM
  times : st.stitched.Pairwise fun a b => a.elapsedMs ≤ b.elapsedMs
  behind : ∀ p ∈ st.stitched,
    p.distM ≤ roundTo st.cumulativeDistM 1 ∧ p.elapsedMs ≤ st.cumulativeElapsedMs
  departure : ∀ first ∈ st.stitched.head?, first.distM = 0 ∧ first.elapsedMs = 0
  empty : done = [] → st = ⟨[], [], 0, 0⟩
  arrival : ∀ previous ∈ done.getLast?, ∃ last, st.stitched.getLast? = some last ∧
    last.lat = (previous.2.pointAt
      (sectorBoundsM previous.2 (done.length - 1) sectorCount).2).lat ∧
    last.lon = (previous.2.pointAt
      (sectorBoundsM previous.2 (done.length - 1) sectorCount).2).lon
  seams : st.seams.map SeamDto.distM = (List.range (done.length - 1)).map fun k =>
    roundTo ((sliceLengths sectorCount (done.map Prod.snd)).take (k + 1)).sum 1
  gaps : ∀ (i : ℕ) a b seam, done[i]? = some a → done[i + 1]? = some b → a.2 = b.2 →
    st.seams[i]? = some seam → seam.gapM = 0

theorem sound_nil : Sound sectorCount [] (⟨[], [], 0, 0⟩ : Stitch K) where
  distance := rfl
  elapsed := rfl
  distances := .nil
  times := .nil
  behind := fun _ hp => absurd hp List.not_mem_nil
  departure := fun _ hfirst => nomatch hfirst
  empty := fun _ => rfl
  arrival := fun _ hprevious => nomatch hprevious
  seams := rfl
  gaps := fun _ _ _ _ ha => nomatch ha

/-- The seam of a sector that is not the first. -/
theorem Sound.recordSeam (M : MathLib K) (h : Sound sectorCount done st)
    (startPoint : LapTracePoint K K) {previous : BestSector × UsableLap K}
    (hprevious : done.getLast? = some previous) :
    ∃ last, st.stitched.getLast? = some last ∧
      recordSeam M st.seams st.stitched startPoint st.cumulativeDistM =
        st.seams ++ [⟨roundTo st.cumulativeDistM 1,
          roundTo (distanceM M last.lat last.lon startPoint.lat startPoint.lon) 2⟩] ∧
      last.lat = (previous.2.pointAt
        (sectorBoundsM previous.2 (done.length - 1) sectorCount).2).lat ∧
      last.lon = (previous.2.pointAt
        (sectorBoundsM previous.2 (done.length - 1) sectorCount).2).lon := by
  obtain ⟨last, hlast, hlat, hlon⟩ := h.arrival previous hprevious
  refine ⟨last, hlast, ?_, hlat, hlon⟩
  unfold OptimalTrace.recordSeam
  rw [hlast]

omit [LinearOrder K] [FloorRing K] in
theorem distanceM_self (hhypot : M.hypot 0 0 = 0) (lat lon : K) :
    distanceM M lat lon lat lon = 0 := by
  rw [distanceM, sub_self, sub_self, zero_mul, zero_mul, hhypot]

omit [FloorRing K] in
theorem sliceLengths_concat (laps : List (UsableLap K)) (lap : UsableLap K) :
    sliceLengths sectorCount (laps ++ [lap]) = sliceLengths sectorCount laps ++
      [(sectorBoundsM lap laps.length sectorCount).2 -
        (sectorBoundsM lap laps.length sectorCount).1] :=
  List.mapIdx_concat

omit [FloorRing K] in
theorem length_sliceLengths (laps : List (UsableLap K)) :
    (sliceLengths sectorCount laps).length = laps.length :=
  List.length_mapIdx

omit [FloorRing K] in
/-- The bounds of a sector of a lap with its full set of splits. -/
theorem sectorBoundsM_eq {lap : UsableLap K} (hsplits : lap.sectorMs.length = sectorCount)
    (i : ℕ) :
    sectorBoundsM lap i sectorCount =
      (boundaryM lap sectorCount i, boundaryM lap sectorCount (i + 1)) :=
  if_neg (not_not.mpr hsplits)

theorem Sound.length_seams (h : Sound sectorCount done st) :
    st.seams.length = done.length - 1 := by
  have hlength := congrArg List.length h.seams
  rwa [List.length_map, List.length_map, List.length_range] at hlength

/-- The seams after one more sector stand at the boundaries so far. -/
theorem Sound.seams_step (h : Sound sectorCount done st) (startPoint : LapTracePoint K K)
    (entry : BestSector × UsableLap K) :
    (OptimalTrace.recordSeam M st.seams st.stitched startPoint st.cumulativeDistM).map
        SeamDto.distM =
      (List.range ((done ++ [entry]).length - 1)).map fun k => roundTo
        ((sliceLengths sectorCount ((done ++ [entry]).map Prod.snd)).take (k + 1)).sum 1 := by
  rcases done.eq_nil_or_concat with rfl | ⟨rest, previous, hdone⟩
  · rw [h.empty rfl]
    rfl
  · rw [List.concat_eq_append] at hdone
    obtain ⟨last, -, hseam, -⟩ := h.recordSeam M startPoint
      (by rw [hdone, List.getLast?_concat])
    have hlength : done.length = rest.length + 1 := by
      rw [hdone, List.length_append, List.length_singleton]
    rw [hseam, List.map_append, h.seams, List.map_singleton, List.length_append,
      List.length_singleton, Nat.add_sub_cancel, List.map_append, List.map_singleton,
      sliceLengths_concat, hlength, Nat.add_sub_cancel, List.range_succ, List.map_append,
      List.map_singleton]
    have htake : ∀ k ≤ done.length, ((sliceLengths sectorCount (done.map Prod.snd)) ++
        [(sectorBoundsM entry.2 (done.map Prod.snd).length sectorCount).2 -
          (sectorBoundsM entry.2 (done.map Prod.snd).length sectorCount).1]).take k =
        (sliceLengths sectorCount (done.map Prod.snd)).take k := by
      intro k hk
      refine List.take_append_of_le_length ?_
      rw [length_sliceLengths, List.length_map]
      exact hk
    congr 1
    · refine List.map_congr_left ?_
      intro k hk
      rw [htake (k + 1) (by have := List.mem_range.mp hk; omega)]
    · have hall : (sliceLengths sectorCount (done.map Prod.snd)).take done.length =
          sliceLengths sectorCount (done.map Prod.snd) := by
        refine List.take_of_length_le ?_
        rw [length_sliceLengths, List.length_map]
      rw [← hlength, htake done.length le_rfl, hall, h.distance]

variable [IsStrictOrderedRing K]

/-- Where a lap is joined to itself, the seam has no gap. -/
theorem Sound.gaps_step (hhypot : M.hypot 0 0 = 0) (h : Sound sectorCount done st)
    (hprevious : ∀ previous ∈ done.getLast?, previous.2.sectorMs.length = sectorCount)
    (entry : BestSector × UsableLap K) (i : ℕ) (a b : BestSector × UsableLap K) (seam : SeamDto K)
    (ha : (done ++ [entry])[i]? = some a) (hb : (done ++ [entry])[i + 1]? = some b)
    (hsame : a.2 = b.2)
    (hseam : (OptimalTrace.recordSeam M st.seams st.stitched
      (entry.2.pointAt (sectorBoundsM entry.2 done.length sectorCount).1)
      st.cumulativeDistM)[i]? = some seam) : seam.gapM = 0 := by
  rcases done.eq_nil_or_concat with rfl | ⟨rest, previous, hdone⟩
  · rw [List.nil_append, List.getElem?_singleton, if_neg (Nat.succ_ne_zero i)] at hb
    cases hb
  rw [List.concat_eq_append] at hdone
  have hlast : done.getLast? = some previous := by rw [hdone, List.getLast?_concat]
  have hlength : done.length = rest.length + 1 := by
    rw [hdone, List.length_append, List.length_singleton]
  have hseams := h.length_seams
  obtain ⟨last, -, hrecord, hlat, hlon⟩ := h.recordSeam M
    (entry.2.pointAt (sectorBoundsM entry.2 done.length sectorCount).1) hlast
  rw [hrecord] at hseam
  have hi : i + 1 < done.length + 1 := by
    have := (List.getElem?_eq_some_iff.mp hb).1
    rwa [List.length_append, List.length_singleton] at this
  rcases Nat.lt_succ_iff_lt_or_eq.mp hi with hi | hi
  · -- an earlier seam
    rw [List.getElem?_append_left (by omega)] at ha hb hseam
    exact h.gaps i a b seam ha hb hsame hseam
  · -- the one just recorded, between the end of one slice and the start of the next
    rw [List.getElem?_append_right (by omega), hi, Nat.sub_self] at hb
    cases hb
    have hprev : done[i]? = some previous := by
      rw [List.getLast?_eq_getElem?] at hlast
      rwa [← hi, Nat.add_sub_cancel] at hlast
    rw [List.getElem?_append_left (by omega), hprev] at ha
    obtain rfl : previous = a := Option.some.inj ha
    rw [List.getElem?_append_right (by omega), hseams, ← hi, Nat.add_sub_cancel,
      Nat.sub_self] at hseam
    cases hseam
    have hsplits := hprevious previous hlast
    obtain rfl : i = rest.length := by omega
    rw [hlength, Nat.add_sub_cancel, sectorBoundsM_eq hsplits] at hlat hlon
    rw [← hsame, sectorBoundsM_eq hsplits]
    dsimp only at hlat hlon ⊢
    rw [hlat, hlon, distanceM_self hhypot, roundTo_zero]

/-- The first point of the trace is the first point of the first slice. -/
theorem Sound.departure_step (h : Sound sectorCount done st) (hdrawn : Drawn sectorCount entry)
    (hcount : done.length < sectorCount) :
    ∀ first ∈ (stitchSector M sectorCount done.length st entry.1 entry.2).stitched.head?,
      first.distM = 0 ∧ first.elapsedMs = 0 := by
  obtain ⟨sector, lap⟩ := entry
  rcases done.eq_nil_or_concat with rfl | ⟨rest, previous, hdone⟩
  · intro first hfirst
    cases h.empty rfl
    cases hfirst
    have hzero : boundaryM lap sectorCount 0 = 0 := by
      rw [boundaryM, if_pos rfl]
      exact head_distM hdrawn.trace lap.points_ne
    have hstart := (pointAt_distM hdrawn.trace le_rfl le_rfl hdrawn.trace.endM_nonneg).1
    have hround := mathRound_intCast (K := K) 0
    rw [Int.cast_zero] at hround
    rw [List.length_nil, sectorBoundsM_eq hdrawn.splits]
    dsimp only [rebase]
    rw [hzero, hstart, sub_self, sub_self, add_zero, roundTo_zero, zero_mul, add_zero,
      Int.cast_zero, hround, Int.cast_zero]
    exact ⟨rfl, rfl⟩
  · intro first hfirst
    obtain ⟨last, hlast, -⟩ := h.arrival previous (by
      rw [hdone, List.concat_eq_append, List.getLast?_concat]
      rfl)
    refine h.departure first ?_
    have hne : st.stitched ≠ [] := by
      rintro hnil
      rw [hnil] at hlast
      cases hlast
    rw [stitchSector, List.head?_append_of_ne_nil _ hne] at hfirst
    exact hfirst

/-- **One more sector.** -/
theorem sound_step (hhypot : M.hypot 0 0 = 0) (h : Sound sectorCount done st)
    (hprevious : ∀ previous ∈ done.getLast?, previous.2.sectorMs.length = sectorCount)
    (hdrawn : Drawn sectorCount entry) (hcount : done.length < sectorCount) :
    Sound sectorCount (done ++ [entry])
      (stitchSector M sectorCount done.length st entry.1 entry.2) := by
  have hseams := h.seams_step (M := M)
    (entry.2.pointAt (sectorBoundsM entry.2 done.length sectorCount).1) entry
  have hgaps := h.gaps_step hhypot hprevious entry
  have hdeparture := h.departure_step (M := M) hdrawn hcount
  obtain ⟨sector, lap⟩ := entry
  have hfrom := (boundaryM_bounds hdrawn.trace sectorCount done.length).1
  have hto := (boundaryM_bounds hdrawn.trace sectorCount (done.length + 1)).2
  have hle := boundaryM_mono hdrawn.trace hdrawn.positive hcount
  have hbounds := sectorBoundsM_eq hdrawn.splits done.length
  obtain ⟨hdist, hdistRange⟩ := piece_distances hdrawn.trace hfrom hle hto st.cumulativeDistM
    st.cumulativeElapsedMs sector.sectorMs
  obtain ⟨htime, htimeRange⟩ := piece_times hdrawn.trace hle st.cumulativeDistM
    st.cumulativeElapsedMs hdrawn.sector
  have hstitched : (stitchSector M sectorCount done.length st sector lap).stitched =
      st.stitched ++ piece lap (boundaryM lap sectorCount done.length)
        (boundaryM lap sectorCount (done.length + 1)) st.cumulativeDistM st.cumulativeElapsedMs
        sector.sectorMs := by
    rw [stitchSector, hbounds]
    rfl
  have hcumulative : (stitchSector M sectorCount done.length st sector lap).cumulativeDistM =
      st.cumulativeDistM + (boundaryM lap sectorCount (done.length + 1) -
        boundaryM lap sectorCount done.length) := by
    rw [stitchSector, hbounds]
  have hgrow : st.cumulativeDistM ≤
      (stitchSector M sectorCount done.length st sector lap).cumulativeDistM := by
    rw [hcumulative]
    linarith
  exact {
    distance := by
      rw [List.map_append, List.map_singleton, sliceLengths_concat, List.sum_append,
        List.sum_singleton, List.length_map, ← h.distance, hbounds, hcumulative]
    elapsed := by
      rw [List.map_append, List.map_singleton, List.sum_append, List.sum_singleton, ← h.elapsed]
      rfl
    distances := by
      rw [hstitched, List.pairwise_append]
      refine ⟨h.distances, hdist, ?_⟩
      intro p hp q hq
      exact (h.behind p hp).1.trans (hdistRange q hq).1
    times := by
      rw [hstitched, List.pairwise_append]
      refine ⟨h.times, htime, ?_⟩
      intro p hp q hq
      exact (h.behind p hp).2.trans (htimeRange q hq).1
    behind := by
      intro p hp
      rw [hstitched] at hp
      rcases List.mem_append.mp hp with hp | hp
      · obtain ⟨hdistance, helapsed⟩ := h.behind p hp
        refine ⟨hdistance.trans (roundTo_mono hgrow 1), helapsed.trans ?_⟩
        exact Int.cast_le.mpr (le_add_of_nonneg_right hdrawn.sector)
      · rw [hcumulative]
        exact ⟨(hdistRange p hp).2, (htimeRange p hp).2⟩
    departure := hdeparture
    empty := fun hnil => absurd hnil (List.append_ne_nil_of_right_ne_nil _ (List.cons_ne_nil _ _))
    arrival := by
      intro previous hlast
      rw [List.getLast?_concat] at hlast
      cases hlast
      rw [hstitched, piece, clip, List.map_append, ← List.append_assoc, List.map_singleton,
        List.getLast?_concat, List.length_append, List.length_singleton, Nat.add_sub_cancel,
        hbounds]
      exact ⟨_, rfl, rfl, rfl⟩
    seams := hseams
    gaps := hgaps }

/-- **All the sectors.** -/
theorem sound_sectors (hhypot : M.hypot 0 0 = 0) (entries : List (BestSector × UsableLap K))
    (hdone : ∀ entry ∈ done, Drawn sectorCount entry)
    (hentries : ∀ entry ∈ entries, Drawn sectorCount entry)
    (hcount : done.length + entries.length ≤ sectorCount) (h : Sound sectorCount done st) :
    Sound sectorCount (done ++ entries) (stitchSectors M sectorCount done.length entries st) := by
  induction entries generalizing done st with
  | nil =>
    rw [List.append_nil]
    exact h
  | cons entry rest ih =>
    have hdrawn := hentries entry List.mem_cons_self
    rw [List.length_cons] at hcount
    have hstep := sound_step hhypot h
      (fun previous hprevious => (hdone previous (List.mem_of_getLast? hprevious)).splits) hdrawn
      (by omega)
    have hrest := ih (by
      intro other hother
      rcases List.mem_append.mp hother with hother | hother
      · exact hdone other hother
      · rw [List.mem_singleton.mp hother]
        exact hdrawn) (fun other hother => hentries other (List.mem_cons_of_mem _ hother))
      (by rw [List.length_append, List.length_singleton]; omega) hstep
    rw [List.append_assoc, List.singleton_append, List.length_append, List.length_singleton]
      at hrest
    exact hrest

end Loop

/-! ### The trace -/

section Trace

variable {K : Type} [Field K] [LinearOrder K] [FloorRing K] {M : MathLib K}
  {laps : List (OptimalLapInput K)} {plan : OptimalLapDto K} {used : List (UsableLap K)}
  {contributingByLap : ℕ → Option (ContributingLap K)}

/-- A sector's lap is there with its own splits, those of an eligible lap of that number, and with
a trace that has an axis. -/
def Contributes (laps : List (OptimalLapInput K))
    (contributingByLap : ℕ → Option (ContributingLap K)) (sector : BestSector) : Prop :=
  ∃ lap, contributingByLap sector.lapNumber = some lap ∧ IsTrace lap.points ∧
    ∃ own ∈ laps, own.lapNumber = sector.lapNumber ∧
      eligible DEFAULT_SECTOR_COUNT own.toSectoredLap = true ∧ lap.sectorMs = own.sectorMs

/-- **What makes a stitched trace a lap.** -/
structure IsLap (plan : OptimalLapDto K) (used : List (UsableLap K))
    (trace : List (LapTracePoint K K)) (seams : List (SeamDto K)) : Prop where
  distances : trace.Pairwise fun a b => a.distM ≤ b.distM
  times : trace.Pairwise fun a b => a.elapsedMs ≤ b.elapsedMs
  departure : ∃ first, trace.head? = some first ∧ first.distM = 0 ∧ first.elapsedMs = 0
  arrival : ∃ last, trace.getLast? = some last ∧ last.elapsedMs = plan.lapMs ∧
    last.distM = roundTo (sliceLengths plan.sectors.length used).sum 1
  slices : ∀ (i : ℕ) lap, used[i]? = some lap →
    0 ≤ (sectorBoundsM lap i plan.sectors.length).1 ∧
      (sectorBoundsM lap i plan.sectors.length).1 ≤ (sectorBoundsM lap i plan.sectors.length).2 ∧
      (sectorBoundsM lap i plan.sectors.length).2 ≤ endM lap.points
  meets : ∀ (i : ℕ) sector sector' lap lap', plan.sectors[i]? = some sector →
    plan.sectors[i + 1]? = some sector' → sector.lapNumber = sector'.lapNumber →
    used[i]? = some lap → used[i + 1]? = some lap' →
    (sectorBoundsM lap i plan.sectors.length).2 = (sectorBoundsM lap' (i + 1) plan.sectors.length).1
  seamCount : seams.length = plan.sectors.length - 1
  seamsAt : seams.map SeamDto.distM = (List.range (plan.sectors.length - 1)).map fun k =>
    roundTo ((sliceLengths plan.sectors.length used).take (k + 1)).sum 1
  seamsForward : seams.Pairwise fun a b => a.distM ≤ b.distM
  gaps : ∀ (i : ℕ) sector sector' seam, plan.sectors[i]? = some sector →
    plan.sectors[i + 1]? = some sector' → sector.lapNumber = sector'.lapNumber →
    seams[i]? = some seam → seam.gapM = 0

/-! #### Nothing without a trace -/

omit [Field K] [LinearOrder K] [FloorRing K] in
theorem usable?_eq_none_iff {sector : BestSector} :
    usable? contributingByLap sector = none ↔
      ∀ lap, contributingByLap sector.lapNumber = some lap → lap.points.length < 2 := by
  unfold usable?
  split
  · rename_i lap hlap
    split
    · rename_i h
      refine iff_of_false (fun h => nomatch h) ?_
      intro hall
      exact absurd (hall lap hlap) (not_lt.mpr h)
    · rename_i h
      refine iff_of_true rfl ?_
      intro other hother
      cases hlap.symm.trans hother
      exact not_le.mp h
  · rename_i hnone
    refine iff_of_true rfl ?_
    intro other hother
    cases hnone.symm.trans hother

/-- Every sector adds the two ends of its slice at least. -/
theorem two_le_length_stitchSectors (sectorCount i : ℕ)
    (entries : List (BestSector × UsableLap K)) (st : Stitch K)
    (h : 2 ≤ st.stitched.length ∨ entries ≠ []) :
    2 ≤ (stitchSectors M sectorCount i entries st).stitched.length := by
  induction entries generalizing i st with
  | nil => exact h.resolve_right (fun h => h rfl)
  | cons entry rest ih =>
    obtain ⟨sector, lap⟩ := entry
    refine ih (i + 1) _ (.inl ?_)
    rw [stitchSector, clip, List.length_append, List.length_map, List.length_append,
      List.length_cons, List.length_singleton]
    omega

theorem pinLast_spec {stitched : List (LapTracePoint K K)} (hlength : 2 ≤ stitched.length)
    (distM : K) (lapMs : ℤ) :
    ∃ start last, start ≠ [] ∧ stitched = start ++ [last] ∧ pinLast stitched distM lapMs =
      start ++ [{ last with distM := roundTo distM 1, elapsedMs := (lapMs : K) }] := by
  obtain ⟨start, last, rfl⟩ := (List.eq_nil_or_concat' stitched).resolve_left
    (List.ne_nil_of_length_pos (by omega))
  refine ⟨start, last, ?_, rfl, ?_⟩
  · rintro rfl
    exact absurd hlength (Nat.not_succ_le_self 1)
  · unfold pinLast
    rw [List.getLast?_concat, List.dropLast_concat]

/-- The stitch of a plan: its last point is pinned to the end of the lap. -/
theorem stitch_spec (hsectors : plan.sectors ≠ [])
    (hused : plan.sectors.mapM (usable? contributingByLap) = some used) {st : Stitch K}
    (hst : stitchSectors M plan.sectors.length 0 (plan.sectors.zip used) ⟨[], [], 0, 0⟩ = st) :
    ∃ start last, start ≠ [] ∧ st.stitched = start ++ [last] ∧ stitch M plan used =
      (start ++ [{ last with
        distM := roundTo st.cumulativeDistM 1, elapsedMs := (plan.lapMs : K) }], st.seams) := by
  have hlength := Lists.length_of_mapM_eq_some hused
  have hentries : plan.sectors.zip used ≠ [] := by
    refine List.ne_nil_of_length_pos ?_
    rw [List.length_zip, hlength, Nat.min_self]
    exact List.length_pos_iff.mpr hsectors
  have htwo := two_le_length_stitchSectors (M := M) plan.sectors.length 0
    (plan.sectors.zip used) ⟨[], [], 0, 0⟩ (.inr hentries)
  rw [hst] at htwo
  obtain ⟨start, last, hne, hstitched, hpin⟩ :=
    pinLast_spec htwo st.cumulativeDistM plan.lapMs
  refine ⟨start, last, hne, hstitched, ?_⟩
  rw [stitch, hst, hpin]

/-- **Nothing is drawn exactly when some sector's lap cannot be.** -/
theorem stitchOptimalTrace_eq_nil_iff (hsectors : plan.sectors ≠ []) (maxPoints : ℕ) :
    (stitchOptimalTrace M plan contributingByLap maxPoints).1 = [] ↔
      ∃ sector ∈ plan.sectors, ∀ lap, contributingByLap sector.lapNumber = some lap →
        lap.points.length < 2 := by
  have hnone : (∃ sector ∈ plan.sectors, ∀ lap, contributingByLap sector.lapNumber = some lap →
      lap.points.length < 2) ↔ plan.sectors.mapM (usable? contributingByLap) = none := by
    rw [Lists.mapM_eq_none_iff]
    exact exists_congr fun sector => and_congr_right fun _ => usable?_eq_none_iff.symm
  rw [hnone, stitchOptimalTrace]
  cases hused : plan.sectors.mapM (usable? contributingByLap) with
  | none => exact iff_of_true rfl rfl
  | some used =>
    refine iff_of_false ?_ (fun h => nomatch h)
    intro hnil
    have hhead := decimateByDistance_head? (.exact K) (stitch M plan used).1 maxPoints
    obtain ⟨start, last, -, -, hstitch⟩ := stitch_spec (M := M) hsectors hused rfl
    dsimp only at hnil
    rw [hnil, List.head?_nil, eq_comm, List.head?_eq_none_iff, hstitch] at hhead
    exact absurd hhead (List.append_ne_nil_of_right_ne_nil _ (List.cons_ne_nil _ _))

/-! #### A lap with one -/

omit [Field K] [LinearOrder K] [FloorRing K] in
theorem of_usable? {sector : BestSector} {lap : UsableLap K}
    (h : usable? contributingByLap sector = some lap) :
    contributingByLap sector.lapNumber = some lap.toContributingLap := by
  unfold usable? at h
  split at h
  · rename_i hlap
    split at h
    · cases h
      exact hlap
    · cases h
  · cases h

omit [Field K] [LinearOrder K] [FloorRing K] in
/-- Two sectors of one lap number are drawn from one lap. -/
theorem usable?_congr {sector sector' : BestSector} (h : sector.lapNumber = sector'.lapNumber) :
    usable? contributingByLap sector = usable? contributingByLap sector' := by
  rw [usable?, usable?, h]

/-- What a plan says of its sectors. -/
theorem buildOptimalLap_sectors (hplan : buildOptimalLap laps = some plan) :
    plan.sectors.length = DEFAULT_SECTOR_COUNT ∧
      plan.lapMs = (plan.sectors.map BestSector.sectorMs).sum ∧
      ∀ sector ∈ plan.sectors, 0 ≤ sector.sectorMs := by
  obtain ⟨core, hcore, rfl⟩ := Option.map_eq_some_iff.mp hplan
  obtain ⟨winner, hwinner, hsectors, hlapMs, -⟩ := OptimalTimes.pickBestSectors_spec hcore
  refine ⟨?_, hlapMs, ?_⟩
  · dsimp only
    rw [hsectors, List.length_map, List.length_range]
  · intro sector hsector
    dsimp only at hsector
    rw [hsectors] at hsector
    obtain ⟨i, -, rfl⟩ := List.mem_map.mp hsector
    obtain ⟨-, hpositive⟩ := of_decide_eq_true (hwinner i).2.1
    dsimp only
    rw [List.getD_eq_getElem?_getD]
    cases hi : (winner i).sectorMs[i]? with
    | none => exact le_rfl
    | some ms =>
      exact (of_decide_eq_true (List.all_eq_true.mp hpositive ms (List.mem_of_getElem? hi))).le

omit [FloorRing K] in
/-- Every sector of a plan is drawn from a trace with an axis and a full set of splits. -/
theorem drawn_of_contributes (hcount : plan.sectors.length = DEFAULT_SECTOR_COUNT)
    (hnonneg : ∀ sector ∈ plan.sectors, 0 ≤ sector.sectorMs)
    (hcontributes : ∀ sector ∈ plan.sectors, Contributes laps contributingByLap sector)
    (hused : plan.sectors.mapM (usable? contributingByLap) = some used) {i : ℕ}
    {sector : BestSector} {lap : UsableLap K} (hsector : plan.sectors[i]? = some sector)
    (hlap : used[i]? = some lap) : Drawn plan.sectors.length (sector, lap) := by
  have hmem := List.mem_of_getElem? hsector
  rw [Lists.getElem?_of_mapM_eq_some hused, hsector, Option.bind_some] at hlap
  obtain ⟨lap', hcontributing, htrace, own, -, -, heligible, hsplits⟩ := hcontributes _ hmem
  cases hcontributing.symm.trans (of_usable? hlap)
  obtain ⟨hlength, hpositive⟩ := of_decide_eq_true heligible
  exact {
    trace := htrace
    splits := by rw [hsplits, hlength, hcount]
    positive := by
      rw [hsplits]
      intro ms hms
      exact of_decide_eq_true (List.all_eq_true.mp hpositive ms hms)
    sector := hnonneg _ hmem }

variable [IsStrictOrderedRing K]

omit [FloorRing K] in
/-- No slice has a negative length. -/
theorem sliceLengths_nonneg {sectorCount : ℕ} (hcount : used.length ≤ sectorCount)
    (hdrawn : ∀ lap ∈ used, ∃ sector, Drawn sectorCount (sector, lap)) :
    ∀ x ∈ sliceLengths sectorCount used, 0 ≤ x := by
  intro x hx
  obtain ⟨i, hi, rfl⟩ := List.mem_mapIdx.mp hx
  obtain ⟨sector, hdrawn⟩ := hdrawn _ (List.getElem_mem hi)
  rw [sectorBoundsM_eq hdrawn.splits]
  exact sub_nonneg.mpr (boundaryM_mono hdrawn.trace hdrawn.positive (hi.trans_le hcount))

omit [Field K] [LinearOrder K] [FloorRing K] [IsStrictOrderedRing K] in
/-- Sectors of one lap are drawn from one trace. -/
theorem used_congr (hused : plan.sectors.mapM (usable? contributingByLap) = some used) {i j : ℕ}
    {sector sector' : BestSector} {lap lap' : UsableLap K}
    (hsector : plan.sectors[i]? = some sector) (hsector' : plan.sectors[j]? = some sector')
    (hnumber : sector.lapNumber = sector'.lapNumber) (hlap : used[i]? = some lap)
    (hlap' : used[j]? = some lap') : lap = lap' := by
  rw [Lists.getElem?_of_mapM_eq_some hused, hsector, Option.bind_some, usable?_congr hnumber] at hlap
  rw [Lists.getElem?_of_mapM_eq_some hused, hsector', Option.bind_some, hlap] at hlap'
  exact Option.some.inj hlap'

/-- **A stitch of drawn sectors is a lap.** -/
theorem isLap_stitch (hhypot : M.hypot 0 0 = 0) (hsectors : plan.sectors ≠ [])
    (hlapMs : plan.lapMs = (plan.sectors.map BestSector.sectorMs).sum)
    (hused : plan.sectors.mapM (usable? contributingByLap) = some used)
    (hdrawn : ∀ (i : ℕ) sector lap, plan.sectors[i]? = some sector → used[i]? = some lap →
      Drawn plan.sectors.length (sector, lap)) :
    IsLap plan used (stitch M plan used).1 (stitch M plan used).2 := by
  have hlength := Lists.length_of_mapM_eq_some hused
  have hzip : ∀ entry ∈ plan.sectors.zip used, Drawn plan.sectors.length entry := by
    intro entry hentry
    obtain ⟨i, hi⟩ := List.mem_iff_getElem?.mp hentry
    obtain ⟨hsector, hlap⟩ := List.getElem?_zip_eq_some.mp hi
    exact hdrawn i _ _ hsector hlap
  have hpaired : ∀ (i : ℕ) lap, used[i]? = some lap → ∃ sector, plan.sectors[i]? = some sector := by
    intro i lap hlap
    have hi := (List.getElem?_eq_some_iff.mp hlap).1
    exact ⟨_, List.getElem?_eq_getElem (by omega)⟩
  have hsound := sound_sectors (M := M) hhypot (plan.sectors.zip used)
    (fun entry hentry => absurd hentry List.not_mem_nil) hzip (by
      rw [List.length_nil, List.length_zip]
      omega) (sound_nil (K := K))
  rw [List.nil_append, List.length_nil] at hsound
  obtain ⟨st, hst⟩ : ∃ st, stitchSectors M plan.sectors.length 0 (plan.sectors.zip used)
      ⟨[], [], 0, 0⟩ = st := ⟨_, rfl⟩
  obtain ⟨start, last, hne, hstitched, hstitch⟩ := stitch_spec hsectors hused hst
  rw [hst] at hsound
  have hentries : (plan.sectors.zip used).map Prod.snd = used :=
    List.map_snd_zip (by omega)
  have htotal : st.cumulativeDistM = (sliceLengths plan.sectors.length used).sum := by
    rw [hsound.distance, hentries]
  have htime : st.cumulativeElapsedMs = plan.lapMs := by
    rw [hsound.elapsed, hlapMs, ← Function.comp_def BestSector.sectorMs Prod.fst,
      ← List.map_map, List.map_fst_zip (by omega)]
  have hcount : (plan.sectors.zip used).length = plan.sectors.length := by
    rw [List.length_zip]
    omega
  have hslices : ∀ x ∈ sliceLengths plan.sectors.length used, 0 ≤ x := by
    refine sliceLengths_nonneg hlength.le fun lap hlap => ?_
    obtain ⟨i, hi⟩ := List.mem_iff_getElem?.mp hlap
    obtain ⟨sector, hsector⟩ := hpaired i lap hi
    exact ⟨sector, hdrawn i sector lap hsector hi⟩
  have hbehind := hsound.behind
  have hdistances := hsound.distances
  have htimes := hsound.times
  rw [hstitched] at hbehind hdistances htimes
  have hseams := hsound.seams
  rw [hentries, hcount] at hseams
  rw [hstitch]
  exact {
    distances := Lists.pairwise_concat_iff.mpr ⟨(Lists.pairwise_concat_iff.mp hdistances).1,
      fun p hp => (hbehind p (List.mem_append_left _ hp)).1⟩
    times := by
      rw [← htime]
      exact Lists.pairwise_concat_iff.mpr ⟨(Lists.pairwise_concat_iff.mp htimes).1,
        fun p hp => (hbehind p (List.mem_append_left _ hp)).2⟩
    departure := by
      have hdeparture := hsound.departure
      rw [hstitched, List.head?_append_of_ne_nil _ hne] at hdeparture
      rw [List.head?_append_of_ne_nil _ hne]
      exact ⟨_, List.head?_eq_some_head hne, hdeparture _ (List.head?_eq_some_head hne)⟩
    arrival := by
      rw [List.getLast?_concat, ← htotal]
      exact ⟨_, rfl, rfl, rfl⟩
    slices := by
      intro i lap hlap
      obtain ⟨sector, hsector⟩ := hpaired i lap hlap
      have hlap := hdrawn i sector lap hsector hlap
      have hi := (List.getElem?_eq_some_iff.mp hsector).1
      rw [sectorBoundsM_eq hlap.splits]
      exact ⟨(boundaryM_bounds hlap.trace _ i).1, boundaryM_mono hlap.trace hlap.positive hi,
        (boundaryM_bounds hlap.trace _ (i + 1)).2⟩
    meets := by
      intro i sector sector' lap lap' hsector hsector' hnumber hlap hlap'
      have hsplits := (hdrawn i sector lap hsector hlap).splits
      obtain rfl := used_congr hused hsector hsector' hnumber hlap hlap'
      rw [sectorBoundsM_eq hsplits, sectorBoundsM_eq hsplits]
    seamCount := by rw [hsound.length_seams, hcount]
    seamsAt := hseams
    seamsForward := by
      rw [← List.pairwise_map (f := SeamDto.distM) (R := fun a b => a ≤ b), hseams,
        List.pairwise_map]
      refine List.pairwise_lt_range.imp ?_
      intro j k hjk
      refine roundTo_mono (List.Sublist.sum_le_sum (List.take_sublist_take_left (by omega)) ?_) 1
      intro x hx
      exact hslices x (List.mem_of_mem_take hx)
    gaps := by
      intro i sector sector' seam hsector hsector' hnumber hseam
      have hi := (List.getElem?_eq_some_iff.mp hsector).1
      have hi' := (List.getElem?_eq_some_iff.mp hsector').1
      have hlap : used[i]? = some used[i] := List.getElem?_eq_getElem (by omega)
      have hlap' : used[i + 1]? = some used[i + 1] := List.getElem?_eq_getElem (by omega)
      exact hsound.gaps i (sector, used[i]) (sector', used[i + 1]) seam
        (List.getElem?_zip_eq_some.mpr ⟨hsector, hlap⟩)
        (List.getElem?_zip_eq_some.mpr ⟨hsector', hlap'⟩)
        (used_congr hused hsector hsector' hnumber hlap hlap') hseam }

/-- **The stitched optimal trace is a lap**, and it is empty exactly when some sector's lap has no
trace to draw. -/
theorem stitchOptimalTrace_lap (hhypot : M.hypot 0 0 = 0) (laps : List (OptimalLapInput K))
    (plan : OptimalLapDto K) (hplan : buildOptimalLap laps = some plan)
    (contributingByLap : ℕ → Option (ContributingLap K)) (maxPoints : ℕ) :
    ((stitchOptimalTrace M plan contributingByLap maxPoints).1 = [] ↔
      ∃ sector ∈ plan.sectors, ∀ lap, contributingByLap sector.lapNumber = some lap →
        lap.points.length < 2) ∧
      ((∀ sector ∈ plan.sectors, Contributes laps contributingByLap sector) →
        ∃ used, plan.sectors.mapM (usable? contributingByLap) = some used ∧
          IsLap plan used (stitch M plan used).1 (stitch M plan used).2 ∧
          stitchOptimalTrace M plan contributingByLap maxPoints =
            (decimateByDistance (.exact K) (stitch M plan used).1 maxPoints, (stitch M plan used).2)) := by
  obtain ⟨hcount, hlapMs, hnonneg⟩ := buildOptimalLap_sectors hplan
  have hsectors : plan.sectors ≠ [] := by
    refine List.ne_nil_of_length_pos ?_
    rw [hcount]
    exact Nat.succ_pos 2
  refine ⟨stitchOptimalTrace_eq_nil_iff hsectors maxPoints, ?_⟩
  intro hcontributes
  cases hused : plan.sectors.mapM (usable? contributingByLap) with
  | none =>
    obtain ⟨sector, hsector, hnone⟩ := Lists.mapM_eq_none_iff.mp hused
    obtain ⟨lap, hlap, htrace, -⟩ := hcontributes sector hsector
    exact absurd htrace.length (not_le.mpr (usable?_eq_none_iff.mp hnone lap hlap))
  | some used =>
    refine ⟨used, rfl, isLap_stitch hhypot hsectors hlapMs hused ?_, ?_⟩
    · intro i sector lap hsector hlap
      exact drawn_of_contributes hcount hnonneg hcontributes hused hsector hlap
    · rw [stitchOptimalTrace, hused]

end Trace

/-! ### Two laps with alternate winners -/

def alternateLap (lapNumber : ℕ) (sectorMs : List ℤ) : OptimalLapInput ℚ :=
  ⟨⟨lapNumber, sectorMs.sum, 1000, sectorMs⟩, []⟩

def alternateLaps : List (OptimalLapInput ℚ) :=
  [alternateLap 1 [3000, 3200, 3000], alternateLap 2 [3200, 3000, 3200]]

/-- A trace along the equator, with a stop on the way. -/
def equatorTrace (lapMs : ℚ) : List (LapTracePoint ℚ ℚ) :=
  [⟨0, 0, 0, 0, none, none, none, none, none, none⟩,
    ⟨500, lapMs / 2 - 100, 0, 1 / 1000, none, none, none, none, none, none⟩,
    ⟨500, lapMs / 2 + 100, 0, 1 / 1000, none, none, none, none, none, none⟩,
    ⟨1000, lapMs, 0, 2 / 1000, none, none, none, none, none, none⟩]

def alternateTraces (lapNumber : ℕ) : Option (ContributingLap ℚ) :=
  if lapNumber = 1 then some ⟨[3000, 3200, 3000], equatorTrace 9200⟩
  else if lapNumber = 2 then some ⟨[3200, 3000, 3200], equatorTrace 9400⟩
  else none

theorem isTrace_equatorTrace :
    IsTrace (equatorTrace 9200) ∧ IsTrace (equatorTrace 9400) :=
  ⟨⟨by decide, by decide +kernel, by decide +kernel, by decide +kernel⟩,
    ⟨by decide, by decide +kernel, by decide +kernel, by decide +kernel⟩⟩

theorem contributes_alternate {sector : BestSector}
    (h : sector.lapNumber = 1 ∨ sector.lapNumber = 2) :
    Contributes alternateLaps alternateTraces sector := by
  unfold Contributes
  rcases h with h | h <;> rw [h]
  · exact ⟨_, rfl, isTrace_equatorTrace.1, alternateLap 1 [3000, 3200, 3000],
      List.mem_cons_self, rfl, by decide, rfl⟩
  · exact ⟨_, rfl, isTrace_equatorTrace.2, alternateLap 2 [3200, 3000, 3200],
      List.mem_cons_of_mem _ List.mem_cons_self, rfl, by decide, rfl⟩

theorem stitchOptimalTrace_lap_alternate :
    ∃ plan, buildOptimalLap alternateLaps = some plan ∧
      plan.sectors.map BestSector.lapNumber = [1, 2, 1] ∧ ∃ used,
        IsLap plan used (stitch OptimalTimes.flat plan used).1
          (stitch OptimalTimes.flat plan used).2 := by
  have hplan : ((buildOptimalLap alternateLaps).any fun plan =>
      decide (plan.sectors.map BestSector.lapNumber = [1, 2, 1])) = true := by decide +kernel
  obtain ⟨plan, hplan, hnumbers⟩ := (Option.any_eq_true _ _).mp hplan
  have hnumbers := of_decide_eq_true hnumbers
  obtain ⟨used, -, hlap, -⟩ := (stitchOptimalTrace_lap (M := OptimalTimes.flat) (by decide +kernel)
    alternateLaps plan hplan alternateTraces 1000).2 (by
      intro sector hsector
      have hmem := List.mem_map_of_mem (f := BestSector.lapNumber) hsector
      rw [hnumbers] at hmem
      simp only [List.mem_cons, List.not_mem_nil, or_false] at hmem
      exact contributes_alternate (by omega))
  exact ⟨plan, hplan, hnumbers, used, hlap⟩

end TelemetryCloud.OptimalTrace
