import TelemetryCloud.DerivedGates
import TelemetryCloud.Interpolation

/-!
# The splits of a lap

`sectorTimes` and `sectorTimesFromGates` over any lap whose times do not fall.

* `timeAtDistance_mono` : **the later of two distances is not reached sooner**, plateaus included;
* `splits_nonneg`, `sectorTimes_eq_nil_iff` : splits on boundaries in order, and when there are none;
* `splits_addUp` : **the splits add up to the lap**, but for half a millisecond at each rounding.
-/

namespace TelemetryCloud.SectorSplits

open TelemetryCloud.Geometry TelemetryCloud.Interpolation
open DerivedGates LapMarkers OptimalTimes

/-! ### Where the boundaries are -/

section Boundaries

variable {K : Type} [Field K] [LinearOrder K] {points : List (LapPoint K)}

/-- `timeAtDistance` reads the time on the first hop that reaches the distance. -/
theorem timeAtDistance_eq {x : K} {hop : LapPoint K × LapPoint K}
    (h : reach LapPoint.distM x points = some hop) :
    timeAtDistance x points = reading LapPoint.distM (fun p => p.timeMs) x hop := by
  induction points with
  | nil => cases h
  | cons a rest ih =>
    cases rest with
    | nil => cases h
    | cons b rest =>
      rcases lt_or_ge b.distM x with hlt | hge
      · rw [reach_cons_of_lt hlt] at h
        rw [timeAtDistance, if_pos hlt]
        exact ih h
      · rw [reach_cons_of_le hge] at h
        cases h
        rw [timeAtDistance, if_neg (not_lt.mpr hge)]
        rfl

variable [IsStrictOrderedRing K]

/-- **The later of two distances is not reached sooner**, and both between the ends of the lap. -/
theorem timeAtDistance_mono {first last : LapPoint K} (hfirst : points.head? = some first)
    (hlast : points.getLast? = some last) (hlength : 2 ≤ points.length)
    (htime : points.Pairwise fun a b => a.timeMs ≤ b.timeMs) {x y : K} (hx : first.distM ≤ x)
    (hxy : x ≤ y) (hy : y ≤ last.distM) :
    first.timeMs ≤ timeAtDistance x points ∧
      timeAtDistance x points ≤ timeAtDistance y points ∧
      timeAtDistance y points ≤ last.timeMs := by
  have hne : points ≠ [] := List.ne_nil_of_length_pos (Nat.lt_of_lt_of_le Nat.zero_lt_two hlength)
  have hhead : ∀ p ∈ points.head?, p.distM ≤ x := by
    intro p hp
    rw [hfirst] at hp
    cases hp
    exact hx
  have hreach : ∀ z, z ≤ last.distM → ∃ hop, reach LapPoint.distM z points = some hop := by
    intro z hz
    refine exists_reach hlength fun p hp => ?_
    rw [hlast] at hp
    cases hp
    exact hz
  obtain ⟨hop, hhop⟩ := hreach x (hxy.trans hy)
  obtain ⟨hop', hhop'⟩ := hreach y hy
  rw [timeAtDistance_eq hhop, timeAtDistance_eq hhop']
  refine ⟨?_, reading_mono hxy hhop hhop' hhead htime, ?_⟩
  · have hmem := head_le htime hne (reach_mem hhop).1
    rw [← Option.some.inj ((List.head?_eq_some_head hne).symm.trans hfirst)]
    exact hmem.trans (reading_bounds hhop hhead htime).1
  · have hmem := le_getLast htime hne (reach_mem hhop').2
    rw [← Option.some.inj ((List.getLast?_eq_some_getLast hne).symm.trans hlast)]
    exact (reading_bounds hhop' (fun p hp => (hhead p hp).trans hxy) htime).2.trans hmem

end Boundaries

/-! ### Splits -/

section Splits

variable {K : Type} [Field K] [LinearOrder K] [FloorRing K] {points : List (LapPoint K)}
  {M : MathLib K}

theorem splits_nonneg [IsStrictOrderedRing K] {boundaries : List K}
    (h : boundaries.Pairwise (· ≤ ·)) : ∀ split ∈ splits boundaries, 0 ≤ split := by
  induction boundaries with
  | nil => exact fun split hsplit => absurd hsplit List.not_mem_nil
  | cons a rest ih =>
    cases rest with
    | nil => exact fun split hsplit => absurd hsplit List.not_mem_nil
    | cons b rest =>
      intro split hsplit
      rw [List.pairwise_cons] at h
      rcases List.mem_cons.mp hsplit with rfl | hsplit
      · have hround := mathRound_mono (sub_nonneg.mpr (h.1 b List.mem_cons_self))
        rwa [← Int.cast_zero, mathRound_intCast] at hround
      · exact ih h.2 split hsplit

/-- A lap that can be split on its distance. -/
def Splittable (points : List (LapPoint K)) (first last : LapPoint K) : Prop :=
  points.head? = some first ∧ points.getLast? = some last ∧ 2 ≤ points.length ∧
    first.distM < last.distM ∧ first.timeMs < last.timeMs

theorem sectorTimes_eq [IsStrictOrderedRing K] {first last : LapPoint K}
    (h : Splittable points first last) {sectorCount : ℕ} (hcount : 1 ≤ sectorCount) :
    sectorTimes points sectorCount = splits ([first.timeMs] ++
      (List.range' 1 (sectorCount - 1)).map (fun i : ℕ => timeAtDistance
        (first.distM + (last.distM - first.distM) * (i : K) / (sectorCount : K)) points) ++
      [last.timeMs]) := by
  obtain ⟨hfirst, hlast, hlength, hdist, htime⟩ := h
  unfold sectorTimes
  rw [hfirst, hlast]
  refine if_neg ?_
  rintro (hless | hless | hless | hless)
  · omega
  · omega
  · exact absurd hless (not_le.mpr (sub_pos.mpr hdist))
  · exact absurd hless (not_le.mpr (sub_pos.mpr htime))

/-- **There are no splits** exactly when the lap has no distance or no time. -/
theorem sectorTimes_eq_nil_iff [IsStrictOrderedRing K] {sectorCount : ℕ} (hcount : 1 ≤ sectorCount) :
    sectorTimes points sectorCount = [] ↔ ¬ ∃ first last, Splittable points first last := by
  constructor
  · rintro hnil ⟨first, last, h⟩
    have hlength := congrArg List.length ((sectorTimes_eq h hcount).symm.trans hnil)
    rw [length_splits] at hlength
    simp only [List.length_append, List.length_map, List.length_range', List.length_singleton,
      List.length_nil] at hlength
    omega
  · intro hno
    unfold sectorTimes
    split
    · next first last hfirst hlast =>
      refine if_pos ?_
      by_contra hsplit
      rw [not_or, not_or, not_or, not_lt, not_lt, not_le, not_le, sub_pos, sub_pos] at hsplit
      exact hno ⟨first, last, hfirst, hlast, hsplit.2.1, hsplit.2.2.1, hsplit.2.2.2⟩
    · rfl

/-- The boundaries on equal fractions of the distance are in order of time. -/
theorem boundaries_pairwise [IsStrictOrderedRing K] {first last : LapPoint K}
    (h : Splittable points first last) (htime : points.Pairwise fun a b => a.timeMs ≤ b.timeMs)
    (sectorCount : ℕ) :
    ([first.timeMs] ++ (List.range' 1 (sectorCount - 1)).map (fun i : ℕ => timeAtDistance
        (first.distM + (last.distM - first.distM) * (i : K) / (sectorCount : K)) points) ++
      [last.timeMs]).Pairwise (· ≤ ·) := by
  obtain ⟨hfirst, hlast, hlength, hdist, hlasts⟩ := h
  have hspan : 0 ≤ last.distM - first.distM := (sub_pos.mpr hdist).le
  -- the distances of the boundaries lie on the lap, and rise
  have hplace : ∀ i : ℕ, i < sectorCount →
      first.distM ≤ first.distM + (last.distM - first.distM) * (i : K) / (sectorCount : K) ∧
      first.distM + (last.distM - first.distM) * (i : K) / (sectorCount : K) ≤ last.distM := by
    intro i hi
    have hcount : (0 : K) < sectorCount := Nat.cast_pos.mpr (Nat.zero_lt_of_lt hi)
    constructor
    · exact le_add_of_nonneg_right (div_nonneg (mul_nonneg hspan (Nat.cast_nonneg i)) hcount.le)
    · rw [← le_sub_iff_add_le', div_le_iff₀ hcount]
      exact mul_le_mul_of_nonneg_left (Nat.cast_le.mpr hi.le) hspan
  have hrise : ∀ i j : ℕ, i ≤ j → (last.distM - first.distM) * (i : K) / (sectorCount : K) ≤
      (last.distM - first.distM) * (j : K) / (sectorCount : K) := fun i j hij =>
    div_le_div_of_nonneg_right (mul_le_mul_of_nonneg_left (Nat.cast_le.mpr hij) hspan)
      (Nat.cast_nonneg _)
  have hmem : ∀ i ∈ List.range' 1 (sectorCount - 1), i < sectorCount := by
    intro i hi
    have := List.mem_range'_1.mp hi
    omega
  rw [List.append_assoc, List.singleton_append, List.pairwise_cons, Lists.pairwise_concat_iff]
  refine ⟨?_, ?_, ?_⟩
  · intro t ht
    rcases List.mem_append.mp ht with ht | ht
    · obtain ⟨i, hi, rfl⟩ := List.mem_map.mp ht
      obtain ⟨hlo, hhi⟩ := hplace i (hmem i hi)
      exact (timeAtDistance_mono hfirst hlast hlength htime hlo le_rfl hhi).1
    · rw [List.mem_singleton.mp ht]
      exact hlasts.le
  · rw [List.pairwise_map]
    have hindices : (List.range' 1 (sectorCount - 1)).Pairwise (· < ·) := List.pairwise_lt_range'
    refine hindices.imp_of_mem fun hi hj hij => ?_
    obtain ⟨hlo, -⟩ := hplace _ (hmem _ hi)
    obtain ⟨-, hhi⟩ := hplace _ (hmem _ hj)
    exact (timeAtDistance_mono hfirst hlast hlength htime hlo
      (add_le_add_right (hrise _ _ hij.le) _) hhi).2.1
  · intro t ht
    obtain ⟨i, hi, rfl⟩ := List.mem_map.mp ht
    obtain ⟨hlo, hhi⟩ := hplace i (hmem i hi)
    exact (timeAtDistance_mono hfirst hlast hlength htime hlo le_rfl hhi).2.2

/-- What the splits of a lap are to its time: none below zero, and no farther from the rounded total
than half a millisecond for each rounding. -/
def AddUp (points : List (LapPoint K)) (times : List ℤ) : Prop :=
  (∀ split ∈ times, 0 ≤ split) ∧ ∃ first last, points.head? = some first ∧
    points.getLast? = some last ∧
    2 * |times.sum - mathRound (last.timeMs - first.timeMs)| ≤ times.length + 1

/-- Splits on boundaries in order add up. -/
theorem addUp_splits [IsStrictOrderedRing K] {first last : LapPoint K}
    (hfirst : points.head? = some first) (hlast : points.getLast? = some last) {mid : List K}
    (hpairwise : ([first.timeMs] ++ mid ++ [last.timeMs]).Pairwise (· ≤ ·)) :
    AddUp points (splits ([first.timeMs] ++ mid ++ [last.timeMs])) := by
  refine ⟨splits_nonneg hpairwise, first, last, hfirst, hlast, ?_⟩
  have hlength : (splits ([first.timeMs] ++ mid ++ [last.timeMs])).length = mid.length + 1 := by
    rw [length_splits]
    simp only [List.length_append, List.length_singleton]
    omega
  have hclose := abs_sum_splits_sub_lt first.timeMs last.timeMs mid
  rw [hlength]
  push_cast
  omega

/-- **The splits add up to the lap.** -/
theorem splits_addUp [IsStrictOrderedRing K] (M : MathLib K) (points : List (LapPoint K))
    (htime : points.Pairwise fun a b => a.timeMs ≤ b.timeMs) (sectorCount : ℕ)
    (hcount : 1 ≤ sectorCount) (gates : List (Gate K)) :
    (sectorTimes points sectorCount = [] ↔ ¬ ∃ first last, Splittable points first last) ∧
      (sectorTimes points sectorCount ≠ [] →
        (sectorTimes points sectorCount).length = sectorCount ∧
          AddUp points (sectorTimes points sectorCount)) ∧
      (sectorTimesFromGates M points gates ≠ [] →
        (sectorTimesFromGates M points gates).length = gates.length + 1 ∧
          AddUp points (sectorTimesFromGates M points gates)) := by
  refine ⟨sectorTimes_eq_nil_iff hcount, fun hne => ⟨?_, ?_⟩, fun hne => ⟨?_, ?_⟩⟩
  · exact (length_sectorTimes points sectorCount).resolve_left hne
  · obtain ⟨first, last, h⟩ := not_not.mp (mt (sectorTimes_eq_nil_iff hcount).mpr hne)
    rw [sectorTimes_eq h hcount]
    exact addUp_splits h.1 h.2.1 (boundaries_pairwise h htime sectorCount)
  · exact (length_sectorTimesFromGates points gates).resolve_left hne
  · cases hcross : crossGates M points gates with
    | none =>
      refine absurd ?_ hne
      unfold sectorTimesFromGates
      rw [hcross]
    | some crossings =>
      obtain ⟨-, first, last, hfirst, hlast, -, horder⟩ := crossGates_iff.mp hcross
      rw [sectorTimesFromGates_eq hcross hfirst hlast]
      exact addUp_splits hfirst hlast (horder.imp le_of_lt)

/-- A lap that stands for a moment where its second sector begins, and three sectors of it. -/
def halting : List (LapPoint ℚ) :=
  [⟨⟨0, 0, 0, none, none⟩, 0⟩, ⟨⟨400, 0, 1 / 1000, none, none⟩, 111⟩,
    ⟨⟨801 / 2, 0, 1 / 1000, none, none⟩, 111⟩, ⟨⟨801, 0, 2 / 1000, none, none⟩, 222⟩,
    ⟨⟨1201, 0, 3 / 1000, none, none⟩, 333⟩]

theorem splits_addUp_halting :
    sectorTimes halting 3 = [400, 401, 400] ∧ AddUp halting (sectorTimes halting 3) ∧
      sectorTimesFromGates flat halting [⟨-1 / 1000, 1 / 400, 1 / 1000, 1 / 400⟩] = [1001, 200] ∧
      AddUp halting
        (sectorTimesFromGates flat halting [⟨-1 / 1000, 1 / 400, 1 / 1000, 1 / 400⟩]) := by
  have hthree : sectorTimes halting 3 = [400, 401, 400] := by decide +kernel
  have hgates : sectorTimesFromGates flat halting [⟨-1 / 1000, 1 / 400, 1 / 1000, 1 / 400⟩]
      = [1001, 200] := by decide +kernel
  have htime : halting.Pairwise fun a b => a.timeMs ≤ b.timeMs := by decide +kernel
  obtain ⟨-, hfractions, hfixed⟩ := splits_addUp flat halting htime 3 (by decide)
    [⟨-1 / 1000, 1 / 400, 1 / 1000, 1 / 400⟩]
  refine ⟨hthree, (hfractions ?_).2, hgates, (hfixed ?_).2⟩
  · rw [hthree]
    exact List.cons_ne_nil _ _
  · rw [hgates]
    exact List.cons_ne_nil _ _

end Splits

end TelemetryCloud.SectorSplits
