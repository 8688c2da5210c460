import TelemetryCloud.Derivation
import Mathlib.Algebra.Order.BigOperators.Group.List
import Mathlib.Algebra.Order.Ring.Rat
import Mathlib.Data.Rat.Floor

/-!
# The optimal lap beside the laps it is built from

A lap's total is rounded once and its splits one by one, and the optimal lap sums the best of the
splits.

* `abs_sum_splits_sub_lt` : splits rounded one by one, against their total rounded once;
* `le_sum_splits`, `eq_sum_splits` : the optimal lap against the splits of any eligible lap, and of
  the one it matches;
* `optimal_close` : **the optimal lap against the totals**: at most a millisecond slower than an
  eligible lap, and only when that lap is the fastest in every sector;
* `timed_derivation` : the rows of a derivation are such laps.
-/

namespace TelemetryCloud.OptimalTimes

open TelemetryCloud.Derivation TelemetryCloud.Geometry
open Gates LapMarkers LapSegmenter OptimalLap

/-! ### The best of the splits -/

theorem map_getD_range (l : List ℤ) : (List.range l.length).map (fun i => l.getD i 0) = l := by
  refine List.ext_getElem (by simp) ?_
  intro i hi hi'
  simp [hi']

section Best

/-- The winner of a sector is one of the laps it was chosen from. -/
theorem bestInSector_mem (i : ℕ) (first : SectoredLap) (laps : List SectoredLap) :
    bestInSector i first laps = first ∨ bestInSector i first laps ∈ laps := by
  induction laps generalizing first with
  | nil => exact .inl rfl
  | cons lap laps ih =>
    rw [bestInSector, List.foldl_cons, ← bestInSector]
    split
    · rcases ih lap with hlap | hmem
      · rw [hlap]
        exact .inr List.mem_cons_self
      · exact .inr (List.mem_cons_of_mem _ hmem)
    · rcases ih first with hfirst | hmem
      · exact .inl hfirst
      · exact .inr (List.mem_cons_of_mem _ hmem)

/-- A plan matches a lap when all its sectors are of that lap. -/
theorem matchesLapNumber_iff {sectors : List BestSector} {n : ℕ} :
    (match sectors with
      | [] => none
      | sector :: others =>
        if others.all (·.lapNumber = sector.lapNumber) then some sector.lapNumber else none) =
      some n ↔ sectors ≠ [] ∧ ∀ sector ∈ sectors, sector.lapNumber = n := by
  cases sectors with
  | nil => exact iff_of_false (fun h => nomatch h) fun h => h.1 rfl
  | cons sector others =>
    exact Lists.ite_all_key_iff.trans (and_iff_right (List.cons_ne_nil sector others)).symm

end Best

section Plan

variable {K : Type} [Field K] {laps : List SectoredLap} {sectorCount : ℕ} {core : OptimalLapCore K}

/-- **What a plan is made of**: for every sector an eligible lap that precedes every eligible lap
there. -/
theorem pickBestSectors_spec (h : pickBestSectors laps sectorCount = some core) :
    ∃ winner : ℕ → SectoredLap,
      (∀ i, winner i ∈ laps ∧ eligible sectorCount (winner i) = true ∧
        ∀ lap ∈ laps, eligible sectorCount lap = true → Precedes i (winner i) lap) ∧
      core.sectors = (List.range sectorCount).map (fun i =>
        ⟨i, (winner i).lapNumber, (winner i).sectorMs.getD i 0⟩) ∧
      core.lapMs = (core.sectors.map BestSector.sectorMs).sum ∧
      core.distanceM = (core.sectors.map fun sector =>
        ((laps.filter (eligible sectorCount)).find? (·.lapNumber = sector.lapNumber)).elim (0 : K)
          fun lap => (lap.distanceM : K) / sectorCount).sum ∧
      core.matchesLapNumber = match core.sectors with
        | [] => none
        | sector :: others =>
          if others.all (·.lapNumber = sector.lapNumber) then some sector.lapNumber else none := by
  unfold pickBestSectors at h
  split at h
  · rename_i first second rest hfilter
    cases h
    refine ⟨fun i => bestInSector i first (first :: second :: rest), ?_, ?_, rfl, ?_, rfl⟩
    · intro i
      have hmem : bestInSector i first (first :: second :: rest) ∈ first :: second :: rest := by
        rcases bestInSector_mem i first (first :: second :: rest) with hfirst | hmem
        · rw [hfirst]
          exact List.mem_cons_self
        · exact hmem
      rw [← hfilter, List.mem_filter] at hmem
      refine ⟨hfilter ▸ hmem.1, hfilter ▸ hmem.2, ?_⟩
      intro lap hlap heligible
      apply (bestInSector_precedes i first (first :: second :: rest)).2
      rw [← hfilter]
      exact List.mem_filter.mpr ⟨hlap, heligible⟩
    · dsimp only
      rw [List.map_map]
      rfl
    · rw [hfilter]
  · cases h

/-- The times of a plan, sector by sector. -/
theorem pickBestSectors_winners (h : pickBestSectors laps sectorCount = some core) :
    ∃ winner : ℕ → SectoredLap,
      (∀ i, winner i ∈ laps ∧ eligible sectorCount (winner i) = true ∧
        ∀ lap ∈ laps, eligible sectorCount lap = true →
          (winner i).sectorMs.getD i 0 ≤ lap.sectorMs.getD i 0) ∧
      core.lapMs = ((List.range sectorCount).map fun i => (winner i).sectorMs.getD i 0).sum ∧
      ∀ n, core.matchesLapNumber = some n →
        0 < sectorCount ∧ ∀ i < sectorCount, (winner i).lapNumber = n := by
  obtain ⟨winner, hwinner, hsectors, hlapMs, -, hmatches⟩ := pickBestSectors_spec h
  refine ⟨winner, ?_, ?_, ?_⟩
  · intro i
    obtain ⟨hmem, heligible, hprecedes⟩ := hwinner i
    exact ⟨hmem, heligible, fun lap hlap hcomplete => (hprecedes lap hlap hcomplete).le⟩
  · rw [hlapMs, hsectors, List.map_map]
    rfl
  · intro n hn
    rw [hmatches] at hn
    obtain ⟨hne, hall⟩ := matchesLapNumber_iff.mp hn
    rw [hsectors] at hne hall
    constructor
    · apply Nat.pos_of_ne_zero
      rintro rfl
      exact hne rfl
    · intro i hi
      exact hall _ (List.mem_map_of_mem (List.mem_range.mpr hi))

/-- **The optimal lap is no slower than the splits of any eligible lap**, and as slow only when that
lap is unbeaten in every sector. -/
theorem le_sum_splits (h : pickBestSectors laps sectorCount = some core) {lap : SectoredLap}
    (hlap : lap ∈ laps) (heligible : eligible sectorCount lap = true) :
    core.lapMs ≤ lap.sectorMs.sum ∧ (core.lapMs = lap.sectorMs.sum →
      ∀ other ∈ laps, eligible sectorCount other = true →
        ∀ i < sectorCount, lap.sectorMs.getD i 0 ≤ other.sectorMs.getD i 0) := by
  obtain ⟨winner, hwinner, hsum, -⟩ := pickBestSectors_winners h
  have hlength : lap.sectorMs.length = sectorCount := (of_decide_eq_true heligible).1
  have hsplits : ((List.range sectorCount).map fun i => lap.sectorMs.getD i 0).sum =
      lap.sectorMs.sum := by
    rw [← hlength, map_getD_range]
  have hbest : ∀ i ∈ List.range sectorCount,
      (winner i).sectorMs.getD i 0 ≤ lap.sectorMs.getD i 0 :=
    fun i _ => (hwinner i).2.2 lap hlap heligible
  rw [hsum, ← hsplits]
  refine ⟨List.sum_le_sum hbest, ?_⟩
  intro heq other hother hcomplete i hi
  by_contra hslower
  rw [not_le] at hslower
  have hbeaten := List.sum_lt_sum _ _ hbest ⟨i, List.mem_range.mpr hi,
    ((hwinner i).2.2 other hother hcomplete).trans_lt hslower⟩
  exact absurd heq hbeaten.ne

/-- **A plan that matches a lap has that lap's splits.** -/
theorem eq_sum_splits (h : pickBestSectors laps sectorCount = some core) {n : ℕ}
    (hn : core.matchesLapNumber = some n) (hnumbers : (laps.map (·.lapNumber)).Nodup) :
    ∃ lap ∈ laps, eligible sectorCount lap = true ∧ lap.lapNumber = n ∧
      core.lapMs = lap.sectorMs.sum := by
  obtain ⟨winner, hwinner, hsum, hmatches⟩ := pickBestSectors_winners h
  obtain ⟨hpos, hall⟩ := hmatches n hn
  have hsame : ∀ i < sectorCount, winner i = winner 0 := fun i hi =>
    List.inj_on_of_nodup_map hnumbers (hwinner i).1 (hwinner 0).1
      ((hall i hi).trans (hall 0 hpos).symm)
  refine ⟨winner 0, (hwinner 0).1, (hwinner 0).2.1, hall 0 hpos, ?_⟩
  have hlength : (winner 0).sectorMs.length = sectorCount :=
    (of_decide_eq_true (hwinner 0).2.1).1
  have hsplits : (List.range sectorCount).map (fun i => (winner i).sectorMs.getD i 0) =
      (List.range sectorCount).map fun i => (winner 0).sectorMs.getD i 0 :=
    List.map_congr_left fun i hi => by rw [hsame i (List.mem_range.mp hi)]
  rw [hsum, hsplits, ← hlength, map_getD_range]

end Plan

/-! ### The splits of a lap and its total -/

section Rounding

variable {K : Type} [Field K] [LinearOrder K] [FloorRing K]

/-- Each split is off by at most half a millisecond. -/
theorem sum_splits_bounds [IsStrictOrderedRing K] (start finish : K) (mid : List K) :
    finish - start - (mid.length + 1 : K) / 2 < (splits ([start] ++ mid ++ [finish])).sum ∧
      (splits ([start] ++ mid ++ [finish])).sum ≤ finish - start + (mid.length + 1 : K) / 2 := by
  induction mid generalizing start with
  | nil =>
    have hlo := lt_mathRound (finish - start)
    have hhi := mathRound_le (finish - start)
    have hsum : (splits ([start] ++ [] ++ [finish])).sum = mathRound (finish - start) :=
      List.sum_singleton
    rw [hsum, List.length_nil, Nat.cast_zero, zero_add]
    exact ⟨hlo, hhi⟩
  | cons b mid ih =>
    obtain ⟨hlo, hhi⟩ := ih b
    have hlo' := lt_mathRound (b - start)
    have hhi' := mathRound_le (b - start)
    have hsum : (splits ([start] ++ b :: mid ++ [finish])).sum =
        mathRound (b - start) + (splits ([b] ++ mid ++ [finish])).sum := List.sum_cons
    rw [hsum, List.length_cons, Int.cast_add, Nat.cast_succ]
    constructor <;> linarith

/-- **Splits rounded one by one, and their total rounded once**, differ by less than half a
millisecond for each rounding. -/
theorem abs_sum_splits_sub_lt [IsStrictOrderedRing K] (start finish : K) (mid : List K) :
    2 * |(splits ([start] ++ mid ++ [finish])).sum - mathRound (finish - start)| <
      mid.length + 2 := by
  obtain ⟨hlo, hhi⟩ := sum_splits_bounds start finish mid
  have hlo' := lt_mathRound (finish - start)
  have hhi' := mathRound_le (finish - start)
  generalize (splits ([start] ++ mid ++ [finish])).sum = total at hlo hhi ⊢
  have hneg : ((-(mid.length + 2) : ℤ) : K) <
      ((2 * (total - mathRound (finish - start)) : ℤ) : K) := by
    push_cast
    linarith
  have hpos : ((2 * (total - mathRound (finish - start)) : ℤ) : K) <
      ((mid.length + 2 : ℤ) : K) := by
    push_cast
    linarith
  rw [Int.cast_lt] at hneg hpos
  have habs := abs_lt.mpr ⟨hneg, hpos⟩
  rwa [abs_mul, abs_two] at habs

/-- The splits of three sectors and their total are a millisecond apart at most. -/
theorem abs_sum_splits_sub_le [IsStrictOrderedRing K] {start finish : K} {mid : List K}
    (h : (splits ([start] ++ mid ++ [finish])).length = DEFAULT_SECTOR_COUNT) :
    |(splits ([start] ++ mid ++ [finish])).sum - mathRound (finish - start)| ≤ 1 := by
  rw [length_splits, List.length_append, List.length_append, List.length_singleton,
    List.length_singleton, DEFAULT_SECTOR_COUNT] at h
  have hlt := abs_sum_splits_sub_lt start finish mid
  omega

variable (M : MathLib K)

/-- A lap with its total and its splits off the same points, as a derivation has them. -/
def Timed (lap : SectoredLap) : Prop :=
  ∃ points first last, points.head? = some first ∧ points.getLast? = some last ∧
    lap.lapMs = mathRound (last.timeMs - first.timeMs) ∧
    ((∃ sectorCount, lap.sectorMs = sectorTimes points sectorCount) ∨
      ∃ gates, lap.sectorMs = sectorTimesFromGates M points gates)

variable {M}

/-- **The splits of an eligible lap and its total** are a millisecond apart at most. -/
theorem Timed.close [IsStrictOrderedRing K] {lap : SectoredLap} (h : Timed M lap)
    (heligible : eligible DEFAULT_SECTOR_COUNT lap = true) :
    |lap.sectorMs.sum - lap.lapMs| ≤ 1 := by
  obtain ⟨points, first, last, hfirst, hlast, hlapMs, hsplits⟩ := h
  have hlength : lap.sectorMs.length = DEFAULT_SECTOR_COUNT := (of_decide_eq_true heligible).1
  have hthree : ∀ mid, lap.sectorMs = splits ([first.timeMs] ++ mid ++ [last.timeMs]) →
      |lap.sectorMs.sum - lap.lapMs| ≤ 1 := by
    intro mid hmid
    rw [hmid] at hlength
    rw [hmid, hlapMs]
    exact abs_sum_splits_sub_le hlength
  have hnone : lap.sectorMs ≠ [] := by
    intro hnil
    rw [hnil] at hlength
    cases hlength
  rcases hsplits with ⟨sectorCount, hsplits⟩ | ⟨gates, hsplits⟩
  · unfold sectorTimes at hsplits
    rw [hfirst, hlast] at hsplits
    dsimp only at hsplits
    split at hsplits
    · exact absurd hsplits hnone
    · exact hthree _ hsplits
  · unfold sectorTimesFromGates at hsplits
    rw [hfirst, hlast] at hsplits
    cases hcross : crossGates M points gates with
    | none =>
      rw [hcross] at hsplits
      exact absurd hsplits hnone
    | some crossings =>
      rw [hcross] at hsplits
      exact hthree _ hsplits

end Rounding

/-! ### The optimal lap and the totals -/

section Main

variable {K : Type} [Field K] [LinearOrder K] [IsStrictOrderedRing K] [FloorRing K] {M : MathLib K}

/-- No eligible lap is quicker in any sector. -/
def Unbeaten (laps : List (OptimalLapInput K)) (lap : OptimalLapInput K) : Prop :=
  ∀ other ∈ laps, eligible DEFAULT_SECTOR_COUNT other.toSectoredLap = true →
    ∀ i < DEFAULT_SECTOR_COUNT, lap.sectorMs.getD i 0 ≤ other.sectorMs.getD i 0

/-- **The optimal lap beside the laps it is built from.**  It is at most a millisecond slower than
an eligible lap, and then that lap is unbeaten in every sector and its own splits sum to a
millisecond more than its total; a lap it matches has the same splits, and a total a millisecond off
at most. -/
theorem optimal_close (laps : List (OptimalLapInput K))
    (htimed : ∀ lap ∈ laps, Timed M lap.toSectoredLap) (plan : OptimalLapDto K)
    (hplan : buildOptimalLap laps = some plan) :
    (∀ lap ∈ laps, eligible DEFAULT_SECTOR_COUNT lap.toSectoredLap = true →
      plan.lapMs ≤ lap.lapMs + 1 ∧ (lap.lapMs < plan.lapMs →
        Unbeaten laps lap ∧ plan.lapMs = lap.sectorMs.sum ∧ lap.sectorMs.sum = lap.lapMs + 1)) ∧
      ∀ n, plan.matchesLapNumber = some n → (laps.map (·.lapNumber)).Nodup →
        ∃ lap ∈ laps, lap.lapNumber = n ∧ plan.lapMs = lap.sectorMs.sum ∧
          |plan.lapMs - lap.lapMs| ≤ 1 := by
  obtain ⟨core, hcore, hdto⟩ := Option.map_eq_some_iff.mp hplan
  have hlapMs : plan.lapMs = core.lapMs := by rw [← hdto]
  have hmatches : plan.matchesLapNumber = core.matchesLapNumber := by rw [← hdto]
  rw [hlapMs, hmatches]
  constructor
  · intro lap hlap heligible
    obtain ⟨hle, hunbeaten⟩ := le_sum_splits hcore (List.mem_map_of_mem hlap) heligible
    have hclose := abs_le.mp ((htimed lap hlap).close heligible)
    refine ⟨by omega, ?_⟩
    intro hslower
    have hsum : core.lapMs = lap.sectorMs.sum := by omega
    refine ⟨?_, hsum, by omega⟩
    intro other hother hcomplete
    exact hunbeaten hsum _ (List.mem_map_of_mem hother) hcomplete
  · intro n hn hnumbers
    have hnumbers' : ((laps.map (·.toSectoredLap)).map (·.lapNumber)).Nodup := by
      rw [List.map_map]
      exact hnumbers
    obtain ⟨_, hmem, heligible, hnumber, hsum⟩ := eq_sum_splits hcore hn hnumbers'
    obtain ⟨lap, hlap, rfl⟩ := List.mem_map.mp hmem
    refine ⟨lap, hlap, hnumber, hsum, ?_⟩
    rw [hsum]
    exact (htimed lap hlap).close heligible

end Main

/-! ### The rows of a derivation -/

section Derived

variable {K : Type} [Field K] [LinearOrder K] [FloorRing K] (M : MathLib K)

/-- A lap whose total and splits are read off the points it carries. -/
def PointTimed (lap : DerivedLap K) : Prop :=
  ∃ first last, lap.points.head? = some first ∧ lap.points.getLast? = some last ∧
    lap.lapMs = mathRound (last.timeMs - first.timeMs) ∧
    ((∃ sectorCount, lap.sectorMs = sectorTimes lap.points sectorCount) ∨
      ∃ gates, lap.sectorMs = sectorTimesFromGates M lap.points gates)

theorem pointTimed_toLap (options : Options K) (n : ℕ) (lap : OpenLap K) :
    PointTimed M (toLap M options n lap) := by
  refine ⟨lap.first, lap.last, rfl, ?_, rfl, ?_⟩
  · show (lap.first :: lap.rest).getLast? = some (lap.rest.getLastD lap.first)
    rw [List.getLast?_cons, List.getLastD_eq_getLast?]
  · unfold toLap
    cases options.sectorGates with
    | some gates => exact .inr ⟨gates, rfl⟩
    | none => exact .inl ⟨options.sectorCount, rfl⟩

theorem pointTimed_derived (reads : Reads K) : ∀ lap ∈ reads.derived M, PointTimed M lap := by
  intro lap hlap
  rw [Reads.derived, segmentLaps_eq] at hlap
  obtain ⟨k, x, -, y, -, -, rfl⟩ := mem_lapsOf M {} _ (accepted_isChain _) hlap
  exact pointTimed_toLap M {} k _

variable {M} in
/-- Splitting a lap on gates takes them off the same points. -/
theorem PointTimed.gated {lap : DerivedLap K} (h : PointTimed M lap) (gates : List (Gate K)) :
    PointTimed M (gated M gates lap) := by
  obtain ⟨first, last, hfirst, hlast, hlapMs, -⟩ := h
  exact ⟨first, last, hfirst, hlast, hlapMs, .inr ⟨gates, rfl⟩⟩

/-- **The rows of a derivation are timed off their own points.** -/
theorem timed_derivation (reads : Reads K) :
    ∀ row ∈ (derivation M reads).laps, Timed M row.toSectoredLap := by
  have hlaps : ∀ lap ∈ (applySectorGates M (reads.derived M) (reads.resolution M)).1,
      PointTimed M lap := by
    unfold applySectorGates
    split
    · exact pointTimed_derived M reads
    · split
      · intro lap hlap
        obtain ⟨whole, hwhole, rfl⟩ := List.mem_map.mp hlap
        exact (pointTimed_derived M reads whole hwhole).gated _
      · exact pointTimed_derived M reads
  intro row hrow
  obtain ⟨i, hi, rfl⟩ := List.mem_mapIdx.mp hrow
  obtain ⟨first, last, hfirst, hlast, hlapMs, hsplits⟩ := hlaps _ (List.getElem_mem hi)
  exact ⟨_, first, last, hfirst, hlast, hlapMs, hsplits⟩

end Derived

section Example

/-- The points of a lap at a steady speed, with one fix on the way. -/
def steadyPoints (start fix finish : ℚ) : List (LapPoint ℚ) :=
  [⟨⟨start, 42, 24, none, none⟩, 0⟩, ⟨⟨fix, 42, 24, none, none⟩, (fix - start) / 50⟩,
    ⟨⟨finish, 42, 24, none, none⟩, (finish - start) / 50⟩]

def steadyLap (lapNumber : ℕ) (start fix finish : ℚ) : OptimalLapInput ℚ where
  lapNumber := lapNumber
  lapMs := mathRound (finish - start)
  distanceM := mathRound ((finish - start) / 50)
  sectorMs := sectorTimes (steadyPoints start fix finish) DEFAULT_SECTOR_COUNT
  brakingPoints := []

/-- A lap of 90 001.6 ms, whose splits round to 30 001 ms each, and a slower one. -/
def twoLaps : List (OptimalLapInput ℚ) :=
  [steadyLap 1 0 50000 (450008 / 5), steadyLap 2 (450008 / 5) 140000 184000]

def flat : MathLib ℚ := ⟨3, fun _ => 1, fun x y => max |x| |y|⟩

theorem timed_steadyLap (lapNumber : ℕ) (start fix finish : ℚ) :
    Timed flat (steadyLap lapNumber start fix finish).toSectoredLap :=
  ⟨steadyPoints start fix finish, _, _, rfl, rfl, rfl, .inl ⟨DEFAULT_SECTOR_COUNT, rfl⟩⟩

theorem timed_twoLaps : ∀ lap ∈ twoLaps, Timed flat lap.toSectoredLap := by
  intro lap hlap
  rw [twoLaps, List.mem_pair] at hlap
  rcases hlap with rfl | rfl <;> exact timed_steadyLap _ _ _ _

/-- The optimal lap of the two is the first one, and a millisecond slower. -/
theorem optimal_slower : (∀ lap ∈ twoLaps, Timed flat lap.toSectoredLap) ∧
    ∃ plan, buildOptimalLap twoLaps = some plan ∧ ∃ lap ∈ twoLaps,
      eligible DEFAULT_SECTOR_COUNT lap.toSectoredLap = true ∧ lap.lapMs < plan.lapMs ∧
        plan.matchesLapNumber = some lap.lapNumber := by
  refine ⟨timed_twoLaps, ?_⟩
  have hplan : ((buildOptimalLap twoLaps).any fun plan => twoLaps.any fun lap =>
      eligible DEFAULT_SECTOR_COUNT lap.toSectoredLap && decide (lap.lapMs < plan.lapMs) &&
        decide (plan.matchesLapNumber = some lap.lapNumber)) = true := by decide +kernel
  obtain ⟨plan, hplan, hany⟩ := (Option.any_eq_true _ _).mp hplan
  obtain ⟨lap, hlap, hall⟩ := List.any_eq_true.mp hany
  rw [Bool.and_eq_true, Bool.and_eq_true, decide_eq_true_eq, decide_eq_true_eq] at hall
  exact ⟨plan, hplan, lap, hlap, hall.1.1, hall.1.2, hall.2⟩

theorem optimal_close_twoLaps : ∃ plan, buildOptimalLap twoLaps = some plan ∧
    (∀ lap ∈ twoLaps, eligible DEFAULT_SECTOR_COUNT lap.toSectoredLap = true →
      plan.lapMs ≤ lap.lapMs + 1) ∧
    ∃ lap ∈ twoLaps, lap.lapNumber = 1 ∧ |plan.lapMs - lap.lapMs| ≤ 1 := by
  have hplan : ((buildOptimalLap twoLaps).any fun plan =>
      decide (plan.matchesLapNumber = some 1)) = true := by decide +kernel
  obtain ⟨plan, hplan, hmatches⟩ := (Option.any_eq_true _ _).mp hplan
  obtain ⟨hall, hmatched⟩ := optimal_close twoLaps timed_twoLaps plan hplan
  obtain ⟨lap, hlap, hnumber, -, hclose⟩ :=
    hmatched 1 (of_decide_eq_true hmatches) (by decide)
  exact ⟨plan, hplan, fun other hother heligible => (hall other hother heligible).1,
    lap, hlap, hnumber, hclose⟩

end Example

end TelemetryCloud.OptimalTimes
