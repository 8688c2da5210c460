import TelemetryCloud.Interpolation
import TelemetryCloud.LapTrace
import Mathlib.Algebra.Order.Ring.Rat
import Mathlib.Data.Rat.Floor

/-!
# Two laps on one distance axis

`compareLaps` of `lap-trace.ts`: both traces are read in one pass, with a cursor into each that the
next lookup resumes from.

* `sampleAtDistance`, `compareLaps` : the code;
* `bracketing` : the first pair of points around a distance, searched from the start of a trace;
* `compareSteps_eq` : **the cursors change nothing**: every lookup reads what a lookup from the
  start reads;
* `sampleAtDistance_eq` : and that is plain interpolation on the first bracketing pair;
* `compareLaps_agrees` : the comparison, point by point.
-/

namespace TelemetryCloud.LapComparison

open TelemetryCloud.Geometry LapTrace Interpolation

/-! ### The code -/

section Code

variable {K : Type} [Field K] [LinearOrder K] [FloorRing K]

/-- What a trace says at a distance. -/
structure TraceReading (K : Type) where
  elapsedMs : K
  speedKmh : Option K

/-- `LapDeltaPointDto`. -/
structure LapDeltaPoint (K : Type) where
  distM : K
  elapsedAMs : ℤ
  elapsedBMs : ℤ
  deltaMs : ℤ
  speedAKmh : Option K
  speedBKmh : Option K
  deriving DecidableEq

structure LapDelta (K : Type) where
  distanceM : K
  points : List (LapDeltaPoint K)

/-- The reading a fraction `t` of the way between two points. -/
def readBetween (t : K) (start finish : LapTracePoint K K) : TraceReading K where
  elapsedMs := start.elapsedMs + t * (finish.elapsedMs - start.elapsedMs)
  speedKmh :=
    match start.speedKmh, finish.speedKmh with
    | some v, some w => some (roundTo (v + t * (w - v)) 2)
    | some v, none => some v
    | none, w => w

/-- How many points the cursor of `sampleAtDistance` moves on, from what is left of the trace. -/
def advance (distM : K) : List (LapTracePoint K K) → ℕ
  | _ :: next :: rest => if next.distM < distM then advance distM (next :: rest) + 1 else 0
  | _ => 0

/-- `sampleAtDistance`, with the cursor it leaves behind.  No trace compared is empty. -/
def sampleAtDistance (points : List (LapTracePoint K K)) (distM : K) (cursor : ℕ) :
    TraceReading K × ℕ :=
  let i := cursor + advance distM (points.drop cursor)
  match points.drop i with
  | start :: finish :: _ =>
    let span := finish.distM - start.distM
    let t := if 0 < span then min (max ((distM - start.distM) / span) 0) 1 else 0
    (readBetween t start finish, i)
  | [last] => (readBetween 0 last last, i)
  | [] => (⟨0, none⟩, i)

/-- How far lap B is behind lap A, before it is rounded. -/
def unroundedDelta (atA atB : TraceReading K) : K := atB.elapsedMs - atA.elapsedMs

/-- One point of the comparison. -/
def deltaPoint (distM : K) (atA atB : TraceReading K) : LapDeltaPoint K where
  distM := roundTo distM 1
  elapsedAMs := mathRound atA.elapsedMs
  elapsedBMs := mathRound atB.elapsedMs
  deltaMs := mathRound (unroundedDelta atA atB)
  speedAKmh := atA.speedKmh
  speedBKmh := atB.speedKmh

/-- The loop of `compareLaps` along the axis. -/
def compareSteps (a b : List (LapTracePoint K K)) :
    List K → ℕ → ℕ → List (LapDeltaPoint K)
  | [], _, _ => []
  | distM :: rest, cursorA, cursorB =>
    let atA := sampleAtDistance a distM cursorA
    let atB := sampleAtDistance b distM cursorB
    deltaPoint distM atA.1 atB.1 :: compareSteps a b rest atA.2 atB.2

/-- `steps` in `compareLaps`. -/
def stepCount (maxPoints : ℤ) : ℕ := (max (min maxPoints 5000) 2).toNat

/-- The places the two laps are compared at. -/
def axis (distanceM : K) (steps : ℕ) : List K :=
  (List.range steps).map fun i : ℕ => distanceM * (i : K) / ((steps : K) - 1)

/-- `compareLaps`. -/
def compareLaps (a b : List (LapTracePoint K K)) (maxPoints : ℤ) : LapDelta K :=
  match a.getLast?, b.getLast? with
  | some lastA, some lastB =>
    if a.length < 2 ∨ b.length < 2 then ⟨0, []⟩
    else
      let distanceM := min lastA.distM lastB.distM
      ⟨roundTo distanceM 1, compareSteps a b (axis distanceM (stepCount maxPoints)) 0 0⟩
  | _, _ => ⟨0, []⟩

/-! ### Plain interpolation -/

/-- The first two points of a trace around a distance. -/
def bracketing (points : List (LapTracePoint K K)) (distM : K) :
    Option (LapTracePoint K K × LapTracePoint K K) :=
  (points.zip points.tail).find? fun hop => hop.1.distM ≤ distM ∧ distM ≤ hop.2.distM

/-- The reading on those two points. -/
def interpolated (distM : K) (hop : LapTracePoint K K × LapTracePoint K K) : TraceReading K :=
  readBetween (fraction distM hop.1.distM hop.2.distM) hop.1 hop.2

end Code

/-! ### The cursor -/

section Cursor

variable {K : Type} [Field K] [LinearOrder K] [FloorRing K]
  {a b points : List (LapTracePoint K K)} {distM distM' : K}

omit [Field K] [FloorRing K] in
theorem advance_eq_zero (h : ∀ p ∈ points, distM ≤ p.distM) : advance distM points = 0 := by
  unfold advance
  split
  · rename_i next rest
    exact if_neg (not_lt.mpr (h next (List.mem_cons_of_mem _ List.mem_cons_self)))
  · rfl

omit [Field K] [FloorRing K] in
/-- **A search resumed** where an earlier one stopped ends where a search from the start does. -/
theorem advance_add (h : distM ≤ distM') (points : List (LapTracePoint K K)) :
    advance distM points + advance distM' (points.drop (advance distM points)) =
      advance distM' points := by
  induction points with
  | nil => rfl
  | cons start points ih =>
    cases points with
    | nil => rfl
    | cons next rest =>
      by_cases hlt : next.distM < distM
      · have hstep : advance distM (start :: next :: rest) = advance distM (next :: rest) + 1 :=
          if_pos hlt
        have hstep' : advance distM' (start :: next :: rest) = advance distM' (next :: rest) + 1 :=
          if_pos (hlt.trans_le h)
        rw [hstep, hstep', List.drop_succ_cons, ← ih]
        omega
      · have hstay : advance distM (start :: next :: rest) = 0 := if_neg hlt
        rw [hstay, Nat.zero_add, List.drop_zero]

theorem sampleAtDistance_cursor (points : List (LapTracePoint K K)) (distM : K) :
    (sampleAtDistance points distM 0).2 = advance distM points := by
  unfold sampleAtDistance
  rw [List.drop_zero, Nat.zero_add]
  dsimp only
  split <;> rfl

theorem sampleAtDistance_resume (h : distM ≤ distM') :
    sampleAtDistance points distM' (advance distM points) = sampleAtDistance points distM' 0 := by
  unfold sampleAtDistance
  rw [advance_add h, List.drop_zero, Nat.zero_add]

/-- **The cursors change nothing.** -/
theorem compareSteps_eq {axis : List K} (hsorted : (distM :: axis).Pairwise (· ≤ ·)) :
    compareSteps a b axis (advance distM a) (advance distM b) =
      axis.map fun x =>
        deltaPoint x (sampleAtDistance a x 0).1 (sampleAtDistance b x 0).1 := by
  induction axis generalizing distM with
  | nil => rfl
  | cons x axis ih =>
    obtain ⟨hle, hsorted⟩ := List.pairwise_cons.mp hsorted
    have hx := hle x List.mem_cons_self
    simp only [compareSteps, sampleAtDistance_resume hx, sampleAtDistance_cursor, List.map_cons]
    rw [ih hsorted]

/-! ### The first bracketing pair -/

omit [Field K] [FloorRing K] in
theorem bracketing_eq_reach {hop : LapTracePoint K K × LapTracePoint K K}
    (h : reach LapTracePoint.distM distM points = some hop)
    (horigin : ∀ first ∈ points.head?, first.distM ≤ distM) :
    bracketing points distM = some hop := by
  induction points with
  | nil => cases h
  | cons start points ih =>
    cases points with
    | nil => cases h
    | cons next rest =>
      rw [bracketing, List.tail_cons, List.zip_cons_cons]
      rcases lt_or_ge next.distM distM with hlt | hge
      · rw [reach_cons_of_lt hlt] at h
        rw [List.find?_cons_of_neg (by simp [hlt])]
        refine ih h ?_
        intro first hfirst
        cases hfirst
        exact hlt.le
      · rw [reach_cons_of_le hge] at h
        cases h
        exact List.find?_cons_of_pos (decide_eq_true ⟨horigin start rfl, hge⟩)

omit [Field K] [FloorRing K] in
theorem drop_advance {hop : LapTracePoint K K × LapTracePoint K K}
    (h : reach LapTracePoint.distM distM points = some hop) :
    ∃ rest, points.drop (advance distM points) = hop.1 :: hop.2 :: rest := by
  induction points with
  | nil => cases h
  | cons start points ih =>
    cases points with
    | nil => cases h
    | cons next rest =>
      rcases lt_or_ge next.distM distM with hlt | hge
      · have hstep : advance distM (start :: next :: rest) = advance distM (next :: rest) + 1 :=
          if_pos hlt
        rw [reach_cons_of_lt hlt] at h
        rw [hstep, List.drop_succ_cons]
        exact ih h
      · have hstay : advance distM (start :: next :: rest) = 0 := if_neg (not_lt.mpr hge)
        rw [reach_cons_of_le hge] at h
        cases h
        rw [hstay]
        exact ⟨rest, rfl⟩

/-- **A lookup is plain interpolation** on the first bracketing pair: the clamp does nothing. -/
theorem sampleAtDistance_eq [IsStrictOrderedRing K]
    {hop : LapTracePoint K K × LapTracePoint K K}
    (h : reach LapTracePoint.distM distM points = some hop)
    (horigin : ∀ first ∈ points.head?, first.distM ≤ distM) :
    (sampleAtDistance points distM 0).1 = interpolated distM hop := by
  obtain ⟨rest, hdrop⟩ := drop_advance h
  obtain ⟨hlo, hhi⟩ := reach_bounds h horigin
  have hfraction : fraction distM hop.1.distM hop.2.distM =
      if 0 < hop.2.distM - hop.1.distM then
        min (max ((distM - hop.1.distM) / (hop.2.distM - hop.1.distM)) 0) 1 else 0 := by
    have h0 := fraction_nonneg (b := hop.2.distM) hlo
    have h1 := fraction_le_one (a := hop.1.distM) hhi
    unfold fraction at h0 h1 ⊢
    split
    · rename_i hspan
      rw [if_pos hspan] at h0 h1
      rw [max_eq_left h0, min_eq_left h1]
    · rfl
  unfold sampleAtDistance
  rw [List.drop_zero, Nat.zero_add]
  dsimp only
  rw [hdrop, interpolated, hfraction]

end Cursor

/-! ### The comparison -/

section Comparison

variable {K : Type} [Field K] [LinearOrder K]

/-- A trace with an axis: two points at least, from distance `0`, never back along the track and
never back in time. -/
structure IsTrace (points : List (LapTracePoint K K)) : Prop where
  length : 2 ≤ points.length
  origin : ∀ first ∈ points.head?, first.distM = 0
  distances : points.Pairwise fun a b => a.distM ≤ b.distM
  times : points.Pairwise fun a b => a.elapsedMs ≤ b.elapsedMs

/-- How long a trace is. -/
def endM (points : List (LapTracePoint K K)) : K :=
  (points.getLast?.map LapTracePoint.distM).getD 0

variable {a b points : List (LapTracePoint K K)} {distM distM' : K}

theorem IsTrace.endM_nonneg (h : IsTrace points) : 0 ≤ endM points := by
  obtain ⟨hlength, horigin, hdistances, -⟩ := h
  match points, hlength with
  | first :: second :: rest, _ =>
    have hfirst := horigin first rfl
    rw [List.pairwise_cons] at hdistances
    have hlast := List.getLast?_eq_some_getLast (List.cons_ne_nil second rest)
    have hle := hdistances.1 _ (List.getLast_mem (List.cons_ne_nil second rest))
    rw [endM, List.getLast?_cons_cons, hlast]
    rwa [hfirst] at hle

theorem IsTrace.exists_reach (h : IsTrace points) (hle : distM ≤ endM points) :
    ∃ hop, reach LapTracePoint.distM distM points = some hop := by
  refine Interpolation.exists_reach h.length ?_
  intro last hlast
  rw [endM, hlast] at hle
  exact hle

theorem IsTrace.origin_le (h : IsTrace points) (hnonneg : 0 ≤ distM) :
    ∀ first ∈ points.head?, first.distM ≤ distM := by
  intro first hfirst
  rw [h.origin first hfirst]
  exact hnonneg

variable [IsStrictOrderedRing K] [FloorRing K]

/-- A lookup from the start of a trace, on its length. -/
theorem IsTrace.lookup (h : IsTrace points) (hnonneg : 0 ≤ distM) (hle : distM ≤ endM points) :
    ∃ hop, bracketing points distM = some hop ∧
      (sampleAtDistance points distM 0).1 = interpolated distM hop := by
  obtain ⟨hop, hreach⟩ := h.exists_reach hle
  exact ⟨hop, bracketing_eq_reach hreach (h.origin_le hnonneg),
    sampleAtDistance_eq hreach (h.origin_le hnonneg)⟩

/-- Further along, no less time has passed. -/
theorem IsTrace.lookup_mono (h : IsTrace points) (hnonneg : 0 ≤ distM) (hle : distM ≤ distM')
    (hend : distM' ≤ endM points) :
    (sampleAtDistance points distM 0).1.elapsedMs ≤
      (sampleAtDistance points distM' 0).1.elapsedMs := by
  obtain ⟨hop, hreach⟩ := h.exists_reach (hle.trans hend)
  obtain ⟨hop', hreach'⟩ := h.exists_reach hend
  rw [sampleAtDistance_eq hreach (h.origin_le hnonneg),
    sampleAtDistance_eq hreach' (h.origin_le (hnonneg.trans hle))]
  exact reading_mono hle hreach hreach' (h.origin_le hnonneg) h.times

omit [FloorRing K] in
theorem axis_range {distanceM : K} (hnonneg : 0 ≤ distanceM) {steps : ℕ} (hsteps : 2 ≤ steps) :
    (axis distanceM steps).Pairwise (· ≤ ·) ∧
      ∀ x ∈ axis distanceM steps, 0 ≤ x ∧ x ≤ distanceM := by
  have hcount : (0 : K) < (steps : K) - 1 := by
    rw [sub_pos]
    exact_mod_cast hsteps
  constructor
  · rw [axis, List.pairwise_map]
    refine List.pairwise_lt_range.imp ?_
    intro i j hij
    have hcast : (i : K) ≤ (j : K) := Nat.cast_le.mpr hij.le
    exact div_le_div_of_nonneg_right (mul_le_mul_of_nonneg_left hcast hnonneg) hcount.le
  · intro x hx
    obtain ⟨i, hi, rfl⟩ := List.mem_map.mp hx
    have hcast : (i : K) ≤ (steps : K) - 1 := by
      rw [le_sub_iff_add_le]
      exact_mod_cast List.mem_range.mp hi
    refine ⟨div_nonneg (mul_nonneg hnonneg (Nat.cast_nonneg i)) hcount.le, ?_⟩
    rw [div_le_iff₀ hcount]
    exact mul_le_mul_of_nonneg_left hcast hnonneg

omit [Field K] [LinearOrder K] [IsStrictOrderedRing K] [FloorRing K] in
theorem two_le_stepCount (maxPoints : ℤ) : 2 ≤ stepCount maxPoints := by
  unfold stepCount
  omega

/-- The comparison reads both laps from the start at every place. -/
theorem compareLaps_eq (ha : IsTrace a) (hb : IsTrace b) (maxPoints : ℤ) :
    compareLaps a b maxPoints = ⟨roundTo (min (endM a) (endM b)) 1,
      (axis (min (endM a) (endM b)) (stepCount maxPoints)).map fun x =>
        deltaPoint x (sampleAtDistance a x 0).1 (sampleAtDistance b x 0).1⟩ := by
  have hlength := ha.length
  have hlength' := hb.length
  have hlastA := List.getLast?_eq_some_getLast (List.ne_nil_of_length_pos (l := a) (by omega))
  have hlastB := List.getLast?_eq_some_getLast (List.ne_nil_of_length_pos (l := b) (by omega))
  have hnonneg := le_min ha.endM_nonneg hb.endM_nonneg
  have hrange := axis_range hnonneg (two_le_stepCount maxPoints)
  have hstart : ∀ l : List (LapTracePoint K K), IsTrace l → advance 0 l = 0 := by
    intro l hl
    refine advance_eq_zero ?_
    intro p hp
    match l, hl, hp with
    | first :: rest, hl, hp =>
      have hfirst := hl.origin first rfl
      rcases List.mem_cons.mp hp with rfl | hp
      · exact hfirst.ge
      · rw [← hfirst]
        exact (List.pairwise_cons.mp hl.distances).1 p hp
  have hsteps := compareSteps_eq (a := a) (b := b)
    (List.pairwise_cons.mpr ⟨fun x hx => (hrange.2 x hx).1, hrange.1⟩)
  rw [hstart a ha, hstart b hb] at hsteps
  rw [← hsteps]
  unfold compareLaps endM
  rw [hlastA, hlastB]
  dsimp only
  rw [if_neg (by omega)]
  rfl

/-- **The comparison's cursors agree with plain interpolation**: at each of the places, evenly
spaced over the shorter lap, both laps are read on the first pair of points around it. -/
theorem compareLaps_agrees (ha : IsTrace a) (hb : IsTrace b) (maxPoints : ℤ) :
    ((compareLaps a b maxPoints).points.length : ℤ) = max (min maxPoints 5000) 2 ∧
      (∀ i < stepCount maxPoints, ∃ distM hopA hopB,
        distM = min (endM a) (endM b) * (i : K) / ((stepCount maxPoints : K) - 1) ∧
        bracketing a distM = some hopA ∧ bracketing b distM = some hopB ∧
        (compareLaps a b maxPoints).points[i]? =
          some (deltaPoint distM (interpolated distM hopA) (interpolated distM hopB)) ∧
        (compareLaps b a maxPoints).points[i]? =
          some (deltaPoint distM (interpolated distM hopB) (interpolated distM hopA)) ∧
        unroundedDelta (interpolated distM hopB) (interpolated distM hopA) =
          -unroundedDelta (interpolated distM hopA) (interpolated distM hopB)) ∧
      (compareLaps a b maxPoints).points.Pairwise (fun p q => p.elapsedAMs ≤ q.elapsedAMs) ∧
      (compareLaps a b maxPoints).points.Pairwise (fun p q => p.elapsedBMs ≤ q.elapsedBMs) ∧
      ∀ p ∈ (compareLaps a a maxPoints).points, p.deltaMs = 0 := by
  have hrange := axis_range (le_min ha.endM_nonneg hb.endM_nonneg) (two_le_stepCount maxPoints)
  refine ⟨?_, ?_, ?_, ?_, ?_⟩
  · rw [compareLaps_eq ha hb, List.length_map, axis, List.length_map, List.length_range, stepCount]
    omega
  · intro i hi
    have hplace : (axis (min (endM a) (endM b)) (stepCount maxPoints))[i]? =
        some (min (endM a) (endM b) * (i : K) / ((stepCount maxPoints : K) - 1)) := by
      rw [axis, List.getElem?_map, List.getElem?_range hi, Option.map_some]
    obtain ⟨hnonneg, hle⟩ := hrange.2 _ (List.mem_of_getElem? hplace)
    obtain ⟨hopA, hbracketA, hreadA⟩ := ha.lookup hnonneg (hle.trans (min_le_left _ _))
    obtain ⟨hopB, hbracketB, hreadB⟩ := hb.lookup hnonneg (hle.trans (min_le_right _ _))
    refine ⟨_, hopA, hopB, rfl, hbracketA, hbracketB, ?_, ?_, ?_⟩
    · rw [compareLaps_eq ha hb, List.getElem?_map, hplace, Option.map_some, hreadA, hreadB]
    · rw [compareLaps_eq hb ha, min_comm (endM b), List.getElem?_map, hplace, Option.map_some,
        hreadA, hreadB]
    · rw [unroundedDelta, unroundedDelta, neg_sub]
  · rw [compareLaps_eq ha hb, List.pairwise_map]
    refine hrange.1.imp_of_mem ?_
    intro x y hx hy hxy
    exact mathRound_mono (ha.lookup_mono (hrange.2 x hx).1 hxy
      ((hrange.2 y hy).2.trans (min_le_left _ _)))
  · rw [compareLaps_eq ha hb, List.pairwise_map]
    refine hrange.1.imp_of_mem ?_
    intro x y hx hy hxy
    exact mathRound_mono (hb.lookup_mono (hrange.2 x hx).1 hxy
      ((hrange.2 y hy).2.trans (min_le_right _ _)))
  · intro p hp
    rw [compareLaps_eq ha ha] at hp
    obtain ⟨x, -, rfl⟩ := List.mem_map.mp hp
    rw [deltaPoint, unroundedDelta, sub_self]
    exact_mod_cast mathRound_intCast (K := K) 0

end Comparison

/-! ### Two laps -/

/-- A lap that stands still halfway. -/
def pausedLap : List (LapTracePoint ℚ ℚ) :=
  [⟨0, 0, 0, 0, some 40, none, none, none, none, none⟩,
    ⟨10, 1000, 0, 0, some 0, none, none, none, none, none⟩,
    ⟨10, 3000, 0, 0, none, none, none, none, none, none⟩,
    ⟨30, 4000, 0, 0, some 80, none, none, none, none, none⟩]

/-- A steady lap. -/
def steadyLap : List (LapTracePoint ℚ ℚ) :=
  [⟨0, 0, 0, 0, some 36, none, none, none, none, none⟩,
    ⟨28, 2800, 0, 0, some 36, none, none, none, none, none⟩]

theorem isTrace_pausedLap : IsTrace pausedLap :=
  ⟨by decide, by decide +kernel, by decide +kernel, by decide +kernel⟩

theorem isTrace_steadyLap : IsTrace steadyLap :=
  ⟨by decide, by decide +kernel, by decide +kernel, by decide +kernel⟩

theorem compareLaps_agrees_paused :
    ((compareLaps pausedLap steadyLap 15).points.length : ℤ) = 15 ∧
      ∀ p ∈ (compareLaps pausedLap pausedLap 15).points, p.deltaMs = 0 :=
  ⟨(compareLaps_agrees isTrace_pausedLap isTrace_steadyLap 15).1,
    (compareLaps_agrees isTrace_pausedLap isTrace_steadyLap 15).2.2.2.2⟩

end TelemetryCloud.LapComparison
