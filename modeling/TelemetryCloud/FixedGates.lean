import TelemetryCloud.DerivedGates

/-!
# Fixed gates and the optimal lap

The splits of a lap are as many as the gates ask for, and `buildOptimalLap` asks for three.

* `countP_storedRows` : how many stored rows have full splits, read off the derived laps;
* `yieldsOptimal_iff` : **known gates yield an optimal lap exactly when there are two of them**;
* `not_yieldsOptimal_oneGate` : one surveyed gate, and two laps that cross it cleanly.
-/

namespace TelemetryCloud.FixedGates

open TelemetryCloud.Derivation TelemetryCloud.Geometry
open DerivedGates Gates LapMarkers LapSegmenter OptimalLap OptimalTimes SectorGates

section Code

variable {K : Type} [Field K] [LinearOrder K] [FloorRing K] (M : MathLib K)

/-- A lap that crosses every gate once, in order, with a millisecond or more for every split. -/
def crossesCleanly (gates : List (Gate K)) (lap : DerivedLap K) : Bool :=
  (crossGates M lap.points gates).isSome ∧
    (sectorTimesFromGates M lap.points gates).all (1 ≤ ·)

/-- The rows a derivation of these laps stores, as they are read back. -/
def storedRows (derived : List (DerivedLap K)) (resolution : Option (SectorGatesResolution K)) :
    List (Lap K) :=
  findBySession (replaceSession (toRows (applySectorGates M derived resolution).1))

/-- The response has an optimal lap, with the sectors of the laps that cross cleanly. -/
def YieldsOptimal (gates : List (Gate K)) (derived : List (DerivedLap K))
    (response : LapsResponse K) : Prop :=
  ∃ plan, response.optimal = some plan ∧ ∀ lap ∈ derived, crossesCleanly M gates lap = true →
    plan.sectors.length = (sectorTimesFromGates M lap.points gates).length

end Code

section Counting

variable {K : Type} [Field K] [LinearOrder K] [FloorRing K] {M : MathLib K}
  {derived : List (DerivedLap K)} {gates : List (Gate K)} {lap : DerivedLap K}

/-- What `eligible` asks of the splits. -/
def fullSplits (sectorCount : ℕ) (sectorMs : List ℤ) : Bool :=
  sectorMs.length = sectorCount ∧ sectorMs.all (0 < ·)

/-- An optimal lap has `DEFAULT_SECTOR_COUNT` sectors. -/
theorem length_sectors {laps : List (OptimalLapInput K)} {plan : OptimalLapDto K}
    (h : buildOptimalLap laps = some plan) : plan.sectors.length = DEFAULT_SECTOR_COUNT := by
  obtain ⟨core, hcore, rfl⟩ := Option.map_eq_some_iff.mp h
  obtain ⟨winner, -, hsectors, -⟩ := pickBestSectors_spec hcore
  show core.sectors.length = DEFAULT_SECTOR_COUNT
  rw [hsectors, List.length_map, List.length_range]

theorem buildOptimalLap_isSome (laps : List (OptimalLapInput K)) :
    (buildOptimalLap laps).isSome ↔
      2 ≤ laps.countP fun lap => fullSplits DEFAULT_SECTOR_COUNT lap.sectorMs := by
  rw [buildOptimalLap, Option.isSome_map, pickBestSectors_isSome, ← List.countP_eq_length_filter,
    List.countP_map]
  rfl

omit [Field K] [LinearOrder K] [FloorRing K] in
/-- **Storing rows and reading them back keeps their splits.** -/
theorem countP_storedRows (p : List ℤ → Bool) (hnumbers : (derived.map (·.lapNumber)).Nodup) :
    (findBySession (replaceSession (toRows derived))).countP (fun row => p row.sectorMs) =
      derived.countP fun lap => p lap.sectorMs := by
  rw [← toRows_numbers] at hnumbers
  rw [replaceSession_eq _ hnumbers]
  calc (findBySession (toRows derived)).countP (fun row => p row.sectorMs)
      = (toRows derived).countP (fun row => p row.sectorMs) :=
        (List.perm_insertionSort _ _).countP_eq _
    _ = ((toRows derived).map fun row => row.sectorMs).countP p := by
        rw [List.countP_map]
        rfl
    _ = (derived.map (·.sectorMs)).countP p := by
        rw [toRows_map (fun row : Lap K => row.sectorMs) (·.sectorMs) fun _ _ => rfl]
    _ = derived.countP fun lap => p lap.sectorMs := by
        rw [List.countP_map]
        rfl

/-- A lap that crosses cleanly has a split more than there are gates. -/
theorem length_of_crossesCleanly (h : crossesCleanly M gates lap = true) :
    (sectorTimesFromGates M lap.points gates).length = gates.length + 1 := by
  obtain ⟨hcross, -⟩ := of_decide_eq_true h
  obtain ⟨crossings, hcrossings⟩ := Option.isSome_iff_exists.mp hcross
  obtain ⟨-, first, last, hfirst, hlast, honce, -⟩ := crossGates_iff.mp hcrossings
  rw [sectorTimesFromGates_eq hcrossings hfirst hlast, length_splits]
  simp only [List.length_append, List.length_map, List.length_singleton, honce.length_eq]
  omega

/-- Two gates give a lap that crosses cleanly the full splits of three sectors. -/
theorem fullSplits_of_crossesCleanly (hgates : gates.length = 2)
    (h : crossesCleanly M gates lap = true) :
    fullSplits DEFAULT_SECTOR_COUNT (sectorTimesFromGates M lap.points gates) = true := by
  have hlength := length_of_crossesCleanly h
  rw [hgates] at hlength
  exact decide_eq_true ⟨hlength, (of_decide_eq_true h).2⟩

/-- Any other number of gates gives no lap the splits of three sectors. -/
theorem length_gates_of_fullSplits
    (h : fullSplits DEFAULT_SECTOR_COUNT (sectorTimesFromGates M lap.points gates) = true) :
    gates.length = 2 := by
  obtain ⟨hlength, -⟩ := of_decide_eq_true h
  rcases length_sectorTimesFromGates (M := M) lap.points gates with hnil | hsplits
  · rw [hnil] at hlength
    cases hlength
  · rw [hsplits, DEFAULT_SECTOR_COUNT] at hlength
    omega

end Counting

section Main

variable {K : Type} [Field K] [LinearOrder K] [FloorRing K] {M : MathLib K}
  {derived : List (DerivedLap K)}

/-- Gates that some lap crosses are applied to all of them. -/
theorem applySectorGates_of_crossesCleanly {r : SectorGatesResolution K}
    (hclean : 2 ≤ derived.countP (crossesCleanly M r.gates)) :
    applySectorGates M derived (some r) =
      (derived.map (gated M r.gates), .gates, r.newlyDerived) := by
  obtain ⟨lap, hlap, hcross⟩ := List.countP_pos_iff.mp (lt_of_lt_of_le Nat.two_pos hclean)
  have hlength := length_of_crossesCleanly hcross
  exact applySectorGates_of_splits hlap (List.ne_nil_of_length_pos (by omega))

/-- The rows of laps split on gates: how many have the full splits. -/
theorem optimal_isSome_iff (session : Session) {r : SectorGatesResolution K}
    (hnumbers : (derived.map (·.lapNumber)).Nodup)
    (hclean : 2 ≤ derived.countP (crossesCleanly M r.gates)) :
    (respond session (storedRows M derived (some r)) none).optimal.isSome ↔
      2 ≤ derived.countP fun lap =>
        fullSplits DEFAULT_SECTOR_COUNT (sectorTimesFromGates M lap.points r.gates) := by
  have hgated : ((derived.map (gated M r.gates)).map (·.lapNumber)).Nodup := by
    rw [List.map_map]
    exact hnumbers
  have hcount := countP_storedRows (fullSplits DEFAULT_SECTOR_COUNT) hgated
  rw [List.countP_map] at hcount
  rw [respond, storedRows, applySectorGates_of_crossesCleanly hclean, buildOptimalLap_isSome,
    List.countP_map]
  exact hcount ▸ Iff.rfl

/-- **Known gates yield an optimal lap exactly when there are two of them**, however many laps cross
them cleanly. -/
theorem yieldsOptimal_iff (session : Session) (known : KnownSectorGatesInput K)
    (input : DeriveSectorGatesInput K) (derived : List (DerivedLap K))
    {r : SectorGatesResolution K} (hknown : knownSectorGates known = some r)
    (hnumbers : (derived.map (·.lapNumber)).Nodup)
    (hclean : 2 ≤ derived.countP (crossesCleanly M r.gates)) :
    YieldsOptimal M r.gates derived
        (respond session (storedRows M derived (resolveSectorGates M known input)) none) ↔
      r.gates.length = 2 := by
  have hresolve : resolveSectorGates M known input = some r := by
    rw [resolveSectorGates, hknown, Option.some_or]
  have hsome := optimal_isSome_iff session hnumbers hclean
  rw [hresolve]
  constructor
  · rintro ⟨plan, hplan, -⟩
    have htwo := hsome.mp (Option.isSome_iff_exists.mpr ⟨plan, hplan⟩)
    obtain ⟨lap, -, hfull⟩ := List.countP_pos_iff.mp (lt_of_lt_of_le Nat.two_pos htwo)
    exact length_gates_of_fullSplits hfull
  · intro hgates
    have hfull : derived.countP (crossesCleanly M r.gates) ≤ derived.countP fun lap =>
        fullSplits DEFAULT_SECTOR_COUNT (sectorTimesFromGates M lap.points r.gates) :=
      List.countP_mono_left fun lap _ => fullSplits_of_crossesCleanly hgates
    obtain ⟨plan, hplan⟩ := Option.isSome_iff_exists.mp (hsome.mpr (hclean.trans hfull))
    refine ⟨plan, hplan, ?_⟩
    intro lap _ hcross
    rw [length_sectors hplan, length_of_crossesCleanly hcross, hgates]
    rfl

end Main

section Example

def finished : Session where
  track := "straight"
  startedAt := 0
  endedAt := some 2400
  status := .completed
  analyzedAt := some 3000
  sectorScheme := some .gates
  closed := fun _ => rfl

def twoStraightLaps : List (DerivedLap ℚ) := [straightLap, { straightLap with lapNumber := 2 }]

/-- A gate across the straight run. -/
def gateAt (lon : ℚ) : Gate ℚ := ⟨-1 / 1000, lon, 1 / 1000, lon⟩

def surveyed (gates : List (Gate ℚ)) : KnownSectorGatesInput ℚ := ⟨some gates, none⟩

theorem yieldsOptimal_iff_twoGates :
    YieldsOptimal flat [gateAt (1 / 2000), gateAt (3 / 2000)] twoStraightLaps
        (respond finished (storedRows flat twoStraightLaps (resolveSectorGates flat
          (surveyed [gateAt (1 / 2000), gateAt (3 / 2000)]) straightInput)) none) ∧
      2 ≤ twoStraightLaps.countP (crossesCleanly flat [gateAt (1 / 2000), gateAt (3 / 2000)]) := by
  have hclean : 2 ≤ twoStraightLaps.countP
      (crossesCleanly flat [gateAt (1 / 2000), gateAt (3 / 2000)]) := by decide +kernel
  have hiff := yieldsOptimal_iff finished (surveyed [gateAt (1 / 2000), gateAt (3 / 2000)])
    straightInput twoStraightLaps rfl (by decide) hclean
  exact ⟨hiff.mpr rfl, hclean⟩

/-- **One surveyed gate**: both laps cross it cleanly, the session reports gates, and there is no
optimal lap. -/
theorem not_yieldsOptimal_oneGate :
    knownSectorGates (surveyed [gateAt (3 / 2000)]) =
        some ⟨[gateAt (3 / 2000)], .surveyed, none⟩ ∧
      2 ≤ twoStraightLaps.countP (crossesCleanly flat [gateAt (3 / 2000)]) ∧
      (applySectorGates flat twoStraightLaps (resolveSectorGates flat
        (surveyed [gateAt (3 / 2000)]) straightInput)).2.1 = .gates ∧
      ¬ YieldsOptimal flat [gateAt (3 / 2000)] twoStraightLaps
        (respond finished (storedRows flat twoStraightLaps (resolveSectorGates flat
          (surveyed [gateAt (3 / 2000)]) straightInput)) none) := by
  refine ⟨rfl, by decide +kernel, by decide +kernel, ?_⟩
  rintro ⟨plan, hplan, -⟩
  have hnone : (respond finished (storedRows flat twoStraightLaps (resolveSectorGates flat
      (surveyed [gateAt (3 / 2000)]) straightInput)) none).optimal.isNone = true := by
    decide +kernel
  rw [hplan] at hnone
  cases hnone

end Example

end TelemetryCloud.FixedGates
