import TelemetryCloud.BrakingZones
import TelemetryCloud.Interpolation
import TelemetryCloud.OptimalTimes

/-!
# The braking points of the optimal lap

`buildOptimalLap` cuts every lap into sectors of equal length and takes a sector's markers from the
lap that won it.  The length is the lap's `distanceM`, which is rounded.

* `buildOptimalLap_spec` : the plan with its winners named, sector by sector;
* `rebasesOwn_iff` : **when the markers of a plan are its winners' own**: always forward, on the
  lap and each once, and nothing is lost from a lap the plan matches exactly when that lap brakes
  nowhere past its rounded length;
* `not_rebasesOwn_lineBraker` : a lap that does.
-/

namespace TelemetryCloud.OptimalBraking

open TelemetryCloud.Geometry LapMarkers OptimalLap OptimalTimes

section Defs

variable {K : Type} [Field K] [LinearOrder K] [FloorRing K]

/-- A lap as `closeLap` leaves it: its length is rounded, and its markers are those of its own
points. -/
def Closed (lap : OptimalLapInput K) : Prop :=
  ∃ (points : List (LapPoint K)) (last : LapPoint K), points.getLast? = some last ∧
    points.Pairwise (fun a b => a.timeMs ≤ b.timeMs) ∧
    points.Pairwise (fun a b => a.distM ≤ b.distM) ∧
    (∀ first ∈ points.head?, first.distM = 0) ∧
    lap.distanceM = mathRound last.distM ∧ lap.brakingPoints = detectBrakingPoints points

/-- The lap that wins a sector: eligible, and before every other eligible lap there. -/
def Wins (laps : List (OptimalLapInput K)) (lap : OptimalLapInput K) (i : ℕ) : Prop :=
  eligible DEFAULT_SECTOR_COUNT lap.toSectoredLap = true ∧
    ∀ other ∈ laps, eligible DEFAULT_SECTOR_COUNT other.toSectoredLap = true →
      Precedes i lap.toSectoredLap other.toSectoredLap

/-- A marker that lies in a lap's slice of a sector: half open, and closed at the end of the lap. -/
def InSlice (lap : OptimalLapInput K) (i : ℕ) (bp : BrakingPoint K) : Prop :=
  (lap.distanceM : K) / (DEFAULT_SECTOR_COUNT : K) * (i : K) ≤ bp.distM ∧
    if i + 1 = DEFAULT_SECTOR_COUNT
    then bp.distM ≤ (lap.distanceM : K) / (DEFAULT_SECTOR_COUNT : K) * ((i + 1 : ℕ) : K)
    else bp.distM < (lap.distanceM : K) / (DEFAULT_SECTOR_COUNT : K) * ((i + 1 : ℕ) : K)

instance (lap : OptimalLapInput K) (i : ℕ) (bp : BrakingPoint K) : Decidable (InSlice lap i bp) :=
  inferInstanceAs (Decidable (_ ∧ _))

/-- Where a sector starts on the stitched axis. -/
def sliceStart (winner : ℕ → OptimalLapInput K) (i : ℕ) : K :=
  ((List.range i).map fun j => ((winner j).distanceM : K) / (DEFAULT_SECTOR_COUNT : K)).sum

/-- A marker with the sector it is taken for and its place among its lap's markers. -/
structure Origin (K : Type) where
  sector : ℕ
  index : ℕ
  marker : BrakingPoint K

/-- A marker on the stitched axis. -/
def rebased (winner : ℕ → OptimalLapInput K) (origin : Origin K) : BrakingPoint K :=
  { origin.marker with
    distM := roundTo (sliceStart winner origin.sector + (origin.marker.distM -
      ((winner origin.sector).distanceM : K) / (DEFAULT_SECTOR_COUNT : K) *
        (origin.sector : K))) 1 }

/-- Each marker in a slice its lap won appears once, and no other. -/
def EachOnce (laps : List (OptimalLapInput K)) (markers : List (BrakingPoint K)) : Prop :=
  ∃ (winner : ℕ → OptimalLapInput K) (origins : List (Origin K)),
    (∀ i < DEFAULT_SECTOR_COUNT, winner i ∈ laps ∧ Wins laps (winner i) i) ∧
    markers = origins.map (rebased winner) ∧
    (∀ origin, origin ∈ origins ↔ origin.sector < DEFAULT_SECTOR_COUNT ∧
      (winner origin.sector).brakingPoints[origin.index]? = some origin.marker ∧
      InSlice (winner origin.sector) origin.sector origin.marker) ∧
    (origins.map fun origin => ((winner origin.sector).lapNumber, origin.index)).Nodup

/-- One marker, moved by no more than it is rounded to. -/
def Unmoved (own marker : BrakingPoint K) : Prop :=
  marker = { own with distM := marker.distM } ∧ |marker.distM - own.distM| ≤ 1 / 20

/-- **The markers of a plan are its winners' own.** -/
structure RebasesOwn (laps : List (OptimalLapInput K)) (plan : OptimalLapDto K) : Prop where
  forward : plan.brakingPoints.Pairwise fun a b => a.distM ≤ b.distM
  onLap : ∀ bp ∈ plan.brakingPoints, -(1 / 20) ≤ bp.distM ∧ bp.distM ≤ plan.distanceM + 1 / 20
  eachOnce : EachOnce laps plan.brakingPoints
  matched : ∀ n, plan.matchesLapNumber = some n →
    ∃ lap ∈ laps, lap.lapNumber = n ∧ List.Forall₂ Unmoved lap.brakingPoints plan.brakingPoints

/-- No lap that wins every sector brakes past its rounded length. -/
def BrakesWithin (laps : List (OptimalLapInput K)) : Prop :=
  ∀ lap ∈ laps, (∀ i < DEFAULT_SECTOR_COUNT, Wins laps lap i) →
    ∀ bp ∈ lap.brakingPoints, bp.distM ≤ lap.distanceM

end Defs

/-! ### The plan and its winners -/

section Plan

variable {K : Type} [Field K] [LinearOrder K] [FloorRing K] {laps : List (OptimalLapInput K)}
  {plan : OptimalLapDto K}

/-- What the loop of `buildOptimalLap` gathers over its sectors. -/
theorem foldl_sectors (winner : ℕ → OptimalLapInput K) (sectorMs : ℕ → ℤ)
    (hfind : ∀ i, laps.reverse.find? (·.lapNumber = (winner i).lapNumber) = some (winner i))
    (sectorCount m : ℕ) :
    ((List.range m).map fun i => (⟨i, (winner i).lapNumber, sectorMs i⟩ : BestSector)).foldl
        (fun (acc : List (BrakingPoint K) × K) sector =>
          match laps.reverse.find? (·.lapNumber = sector.lapNumber) with
          | none => acc
          | some lap =>
            (acc.1 ++ sectorBrakingPoints lap sector.sector sectorCount acc.2,
              acc.2 + (lap.distanceM : K) / sectorCount))
        ([], 0) =
      ((List.range m).flatMap fun i => sectorBrakingPoints (winner i) i sectorCount
          ((List.range i).map fun j => ((winner j).distanceM : K) / sectorCount).sum,
        ((List.range m).map fun j => ((winner j).distanceM : K) / sectorCount).sum) := by
  induction m with
  | zero => rfl
  | succ m ih =>
    rw [List.range_succ, List.map_append, List.foldl_append, ih, List.map_singleton,
      List.foldl_cons, List.foldl_nil]
    dsimp only
    rw [hfind m, List.flatMap_append, List.flatMap_singleton, List.map_append, List.sum_append,
      List.map_singleton, List.sum_singleton]

/-- **A plan with its winners.** -/
theorem buildOptimalLap_spec (hnumbers : (laps.map (·.lapNumber)).Nodup)
    (hplan : buildOptimalLap laps = some plan) :
    ∃ winner : ℕ → OptimalLapInput K, (∀ i, winner i ∈ laps ∧ Wins laps (winner i) i) ∧
      plan.brakingPoints = (List.range DEFAULT_SECTOR_COUNT).flatMap (fun i =>
        sectorBrakingPoints (winner i) i DEFAULT_SECTOR_COUNT (sliceStart winner i)) ∧
      plan.distanceM = sliceStart winner DEFAULT_SECTOR_COUNT ∧
      ∀ n, plan.matchesLapNumber = some n ↔
        ∀ i < DEFAULT_SECTOR_COUNT, (winner i).lapNumber = n := by
  obtain ⟨core, hcore, rfl⟩ := Option.map_eq_some_iff.mp hplan
  obtain ⟨sectored, hsectored, hsectors, -, hdistance, hmatches⟩ := pickBestSectors_spec hcore
  have hpick : ∀ i, ∃ lap ∈ laps, lap.toSectoredLap = sectored i := fun i =>
    List.mem_map.mp (hsectored i).1
  choose winner hmem hwinner using hpick
  have hwins : ∀ i, Wins laps (winner i) i := by
    intro i
    obtain ⟨-, heligible, hprecedes⟩ := hsectored i
    rw [Wins, hwinner i]
    exact ⟨heligible, fun other hother => hprecedes _ (List.mem_map_of_mem hother)⟩
  have hfind : ∀ i, laps.reverse.find? (·.lapNumber = (winner i).lapNumber) =
      some (winner i) := by
    intro i
    refine (Lists.find?_key_iff ?_).mpr ⟨List.mem_reverse.mpr (hmem i), rfl⟩
    rw [List.map_reverse]
    exact List.nodup_reverse.mpr hnumbers
  have hfind' : ∀ i, ((laps.map (·.toSectoredLap)).filter
      (eligible DEFAULT_SECTOR_COUNT)).find? (·.lapNumber = (winner i).lapNumber) =
        some (winner i).toSectoredLap := by
    intro i
    have hkeys : ((laps.map (·.toSectoredLap)).map (·.lapNumber)).Nodup := by
      rw [List.map_map]
      exact hnumbers
    exact (Lists.find?_key_iff (hkeys.sublist (List.filter_sublist.map _))).mpr
      ⟨List.mem_filter.mpr ⟨List.mem_map_of_mem (hmem i), (hwins i).1⟩, rfl⟩
  have hsectors' : core.sectors = (List.range DEFAULT_SECTOR_COUNT).map fun i =>
      ⟨i, (winner i).lapNumber, (sectored i).sectorMs.getD i 0⟩ := by
    rw [hsectors]
    refine List.map_congr_left ?_
    intro i _
    rw [← hwinner i]
  refine ⟨winner, fun i => ⟨hmem i, hwins i⟩, ?_, ?_, ?_⟩
  · dsimp only
    rw [hsectors', List.length_map, List.length_range]
    exact congrArg Prod.fst (foldl_sectors winner (fun i => (sectored i).sectorMs.getD i 0) hfind
      DEFAULT_SECTOR_COUNT DEFAULT_SECTOR_COUNT)
  · dsimp only
    rw [hdistance, hsectors', List.map_map, sliceStart]
    refine congrArg List.sum (List.map_congr_left ?_)
    intro i _
    rw [Function.comp_apply, hfind' i]
    rfl
  · intro n
    dsimp only
    rw [hmatches, matchesLapNumber_iff, hsectors', List.forall_mem_map]
    refine and_iff_right_iff_imp.mpr (fun _ => List.cons_ne_nil _ _) |>.trans ?_
    exact forall_congr' fun i => imp_congr_left List.mem_range

omit [Field K] [LinearOrder K] [FloorRing K] in
/-- Only one lap wins a sector. -/
theorem Wins.unique {a b : OptimalLapInput K} {i : ℕ}
    (hinj : ∀ a ∈ laps, ∀ b ∈ laps, a.lapNumber = b.lapNumber → a = b) (h : Wins laps a i)
    (ha : a ∈ laps) (hb : b ∈ laps) (h' : Wins laps b i) : b = a := by
  have hab := h.2 b hb h'.1
  have hba := h'.2 a ha h.1
  unfold Precedes at hab hba
  exact hinj b hb a ha (by omega)

end Plan

/-! ### One lap -/

section Lap

variable {K : Type} [Field K] [LinearOrder K] [IsStrictOrderedRing K] [FloorRing K]
  {lap : OptimalLapInput K} {i j : ℕ} {bp : BrakingPoint K}

/-- What a closed lap says of its length and its markers. -/
theorem Closed.spec (h : Closed lap) :
    0 ≤ lap.distanceM ∧ lap.brakingPoints.Pairwise (fun a b => a.distM ≤ b.distM) ∧
      ∀ bp ∈ lap.brakingPoints, 0 ≤ bp.distM ∧ roundTo bp.distM 1 = bp.distM := by
  obtain ⟨points, last, hlast, htimes, hdistances, horigin, hlength, hmarkers⟩ := h
  have hnonneg : ∀ p ∈ points, 0 ≤ p.distM := by
    intro p hp
    have hne := List.ne_nil_of_mem hp
    rw [← horigin _ (List.head?_eq_some_head hne)]
    exact Interpolation.head_le hdistances hne hp
  have hzero := mathRound_intCast (K := K) 0
  rw [Int.cast_zero] at hzero
  rw [hlength, hmarkers]
  refine ⟨?_, BrakingZones.detectBrakingPoints_forward htimes hdistances, ?_⟩
  · have hround := mathRound_mono (hnonneg last (List.mem_of_getLast? hlast))
    rwa [hzero] at hround
  · intro bp hbp
    obtain ⟨p, hp, hdistM⟩ := BrakingZones.exists_point_of_marker htimes hbp
    have hround := roundTo_mono (hnonneg p hp) 1
    rw [roundTo_zero] at hround
    rw [hdistM, roundTo_roundTo]
    exact ⟨hround, rfl⟩

omit [FloorRing K] in
theorem sectorCount_pos : (0 : K) < (DEFAULT_SECTOR_COUNT : K) :=
  Nat.cast_pos.mpr (Nat.succ_pos 2)

omit [FloorRing K] in
theorem step_nonneg (hlength : 0 ≤ lap.distanceM) :
    (0 : K) ≤ (lap.distanceM : K) / (DEFAULT_SECTOR_COUNT : K) :=
  div_nonneg (Int.cast_nonneg hlength) sectorCount_pos.le

omit [FloorRing K] in
/-- A marker in a slice is not before its start and not past its end. -/
theorem InSlice.bounds (h : InSlice lap i bp) :
    0 ≤ bp.distM - (lap.distanceM : K) / (DEFAULT_SECTOR_COUNT : K) * (i : K) ∧
      bp.distM - (lap.distanceM : K) / (DEFAULT_SECTOR_COUNT : K) * (i : K) ≤
        (lap.distanceM : K) / (DEFAULT_SECTOR_COUNT : K) := by
  obtain ⟨hlo, hhi⟩ := h
  have hle : bp.distM ≤
      (lap.distanceM : K) / (DEFAULT_SECTOR_COUNT : K) * ((i + 1 : ℕ) : K) := by
    split at hhi
    · exact hhi
    · exact hhi.le
  rw [Nat.cast_succ, mul_add, mul_one] at hle
  exact ⟨sub_nonneg.mpr hlo, by linarith⟩

omit [FloorRing K] in
/-- A slice is wholly before a later one. -/
theorem InSlice.lt {bp' : BrakingPoint K} (hlength : 0 ≤ lap.distanceM) (hij : i < j)
    (hj : j < DEFAULT_SECTOR_COUNT) (h : InSlice lap i bp) (h' : InSlice lap j bp') :
    bp.distM < bp'.distM := by
  have hopen := h.2
  rw [if_neg (by omega)] at hopen
  have hstep : (lap.distanceM : K) / (DEFAULT_SECTOR_COUNT : K) * ((i + 1 : ℕ) : K) ≤
      (lap.distanceM : K) / (DEFAULT_SECTOR_COUNT : K) * (j : K) :=
    mul_le_mul_of_nonneg_left (Nat.cast_le.mpr hij) (step_nonneg hlength)
  exact hopen.trans_le (hstep.trans h'.1)

omit [FloorRing K] in
/-- The slices of a lap together reach from its start to its rounded length. -/
theorem exists_inSlice_iff (hlength : 0 ≤ lap.distanceM) (hnonneg : 0 ≤ bp.distM) :
    (∃ i < DEFAULT_SECTOR_COUNT, InSlice lap i bp) ↔ bp.distM ≤ lap.distanceM := by
  have hcount := sectorCount_pos (K := K)
  have hwhole : (lap.distanceM : K) / (DEFAULT_SECTOR_COUNT : K) * (DEFAULT_SECTOR_COUNT : K) =
      lap.distanceM := div_mul_cancel₀ _ hcount.ne'
  constructor
  · rintro ⟨i, hi, hslice⟩
    have hend : (lap.distanceM : K) / (DEFAULT_SECTOR_COUNT : K) * ((i + 1 : ℕ) : K) ≤
        lap.distanceM := by
      nth_rewrite 2 [← hwhole]
      exact mul_le_mul_of_nonneg_left (Nat.cast_le.mpr hi) (step_nonneg hlength)
    refine le_trans ?_ hend
    rw [Nat.cast_succ, mul_add, mul_one]
    linarith [hslice.bounds.2]
  · intro hle
    by_cases h0 : bp.distM < (lap.distanceM : K) / (DEFAULT_SECTOR_COUNT : K) * ((0 + 1 : ℕ) : K)
    · refine ⟨0, by decide, ?_, h0⟩
      rw [Nat.cast_zero, mul_zero]
      exact hnonneg
    by_cases h1 : bp.distM < (lap.distanceM : K) / (DEFAULT_SECTOR_COUNT : K) * ((1 + 1 : ℕ) : K)
    · exact ⟨1, by decide, not_lt.mp h0, h1⟩
    · refine ⟨2, by decide, not_lt.mp h1, ?_⟩
      exact hle.trans_eq hwhole.symm

omit [FloorRing K] in
/-- **The slices of a lap, one after the other**, are its markers up to its rounded length. -/
theorem flatMap_slices (hlength : 0 ≤ lap.distanceM)
    (hforward : lap.brakingPoints.Pairwise fun a b => a.distM ≤ b.distM)
    (hnonneg : ∀ bp ∈ lap.brakingPoints, 0 ≤ bp.distM) :
    ((List.range DEFAULT_SECTOR_COUNT).flatMap fun i =>
        lap.brakingPoints.filter fun bp => InSlice lap i bp) =
      lap.brakingPoints.filter fun bp => bp.distM ≤ (lap.distanceM : K) := by
  have hinitial : ∀ m ≤ DEFAULT_SECTOR_COUNT, ((List.range m).flatMap fun i =>
      lap.brakingPoints.filter fun bp => InSlice lap i bp) =
        lap.brakingPoints.filter fun bp => ∃ i < m, InSlice lap i bp := by
    intro m
    induction m with
    | zero => simp
    | succ m ih =>
      intro hm
      rw [List.range_succ, List.flatMap_append, List.flatMap_singleton, ih (by omega),
        Lists.filter_append_filter hforward]
      · refine List.filter_congr ?_
        intro bp _
        rw [decide_eq_decide]
        exact Nat.exists_lt_succ_right.symm
      · rintro a b ⟨i, hi, ha⟩ hb
        exact ha.lt hlength hi hm hb
  rw [hinitial DEFAULT_SECTOR_COUNT le_rfl]
  refine List.filter_congr ?_
  intro bp hbp
  rw [decide_eq_decide]
  exact exists_inSlice_iff hlength (hnonneg bp hbp)

end Lap

/-! ### The markers of a plan -/

section Markers

variable {K : Type} [Field K] [LinearOrder K] [FloorRing K] {winner : ℕ → OptimalLapInput K}

/-- All the markers of a plan with these winners. -/
def markers (winner : ℕ → OptimalLapInput K) : List (BrakingPoint K) :=
  (List.range DEFAULT_SECTOR_COUNT).flatMap fun i =>
    sectorBrakingPoints (winner i) i DEFAULT_SECTOR_COUNT (sliceStart winner i)

/-- The markers of one slice with their origins. -/
def originsOf (winner : ℕ → OptimalLapInput K) (i : ℕ) : List (Origin K) :=
  ((winner i).brakingPoints.zipIdx.filter fun entry => InSlice (winner i) i entry.1).map
    fun entry => ⟨i, entry.2, entry.1⟩

theorem sectorBrakingPoints_eq (winner : ℕ → OptimalLapInput K) (i : ℕ) :
    sectorBrakingPoints (winner i) i DEFAULT_SECTOR_COUNT (sliceStart winner i) =
      (originsOf winner i).map (rebased winner) := by
  have hfilter : ((winner i).brakingPoints.zipIdx.filter
      fun entry => InSlice (winner i) i entry.1).map Prod.fst =
        (winner i).brakingPoints.filter fun bp => InSlice (winner i) i bp := by
    conv_rhs => rw [← List.zipIdx_map_fst 0 (winner i).brakingPoints, List.filter_map]
    rfl
  rw [originsOf, List.map_map]
  have hmap : ∀ l : List (BrakingPoint K × ℕ),
      l.map (rebased winner ∘ fun entry => ⟨i, entry.2, entry.1⟩) =
        (l.map Prod.fst).map fun bp => rebased winner ⟨i, 0, bp⟩ := by
    intro l
    rw [List.map_map]
    rfl
  rw [hmap, hfilter]
  rfl

omit [FloorRing K] in
theorem mem_originsOf {i : ℕ} {origin : Origin K} :
    origin ∈ originsOf winner i ↔ origin.sector = i ∧
      (winner i).brakingPoints[origin.index]? = some origin.marker ∧
      InSlice (winner i) i origin.marker := by
  rw [originsOf, List.mem_map]
  constructor
  · rintro ⟨⟨bp, k⟩, hmem, rfl⟩
    obtain ⟨hmem, hslice⟩ := List.mem_filter.mp hmem
    exact ⟨rfl, List.mk_mem_zipIdx_iff_getElem?.mp hmem, of_decide_eq_true hslice⟩
  · obtain ⟨sector, k, bp⟩ := origin
    rintro ⟨rfl, hget, hslice⟩
    exact ⟨(bp, k), List.mem_filter.mpr ⟨List.mk_mem_zipIdx_iff_getElem?.mpr hget,
      decide_eq_true hslice⟩, rfl⟩

omit [FloorRing K] in
theorem originsOf_indices (winner : ℕ → OptimalLapInput K) (i : ℕ) :
    (originsOf winner i).Pairwise fun a b => a.index < b.index := by
  rw [originsOf, List.pairwise_map]
  refine List.Pairwise.sublist List.filter_sublist ?_
  rw [← List.pairwise_map (f := Prod.snd) (R := fun a b => a < b), List.zipIdx_map_snd]
  exact List.pairwise_lt_range'

omit [LinearOrder K] [FloorRing K] in
theorem sliceStart_succ (winner : ℕ → OptimalLapInput K) (i : ℕ) :
    sliceStart winner (i + 1) =
      sliceStart winner i + ((winner i).distanceM : K) / (DEFAULT_SECTOR_COUNT : K) := by
  rw [sliceStart, sliceStart, List.range_succ, List.map_append, List.sum_append,
    List.map_singleton, List.sum_singleton]

variable [IsStrictOrderedRing K] (hclosed : ∀ i, Closed (winner i))

include hclosed

theorem sliceStart_mono {i j : ℕ} (hij : i ≤ j) : sliceStart winner i ≤ sliceStart winner j := by
  induction hij with
  | refl => exact le_rfl
  | step _ ih =>
    rw [sliceStart_succ]
    exact ih.trans (le_add_of_nonneg_right (step_nonneg (hclosed _).spec.1))

omit hclosed in
/-- A rebased marker lies on its own stretch of the stitched axis. -/
theorem rebased_bounds {origin : Origin K}
    (h : InSlice (winner origin.sector) origin.sector origin.marker) :
    roundTo (sliceStart winner origin.sector) 1 ≤ (rebased winner origin).distM ∧
      (rebased winner origin).distM ≤ roundTo (sliceStart winner (origin.sector + 1)) 1 := by
  obtain ⟨hlo, hhi⟩ := h.bounds
  rw [sliceStart_succ]
  exact ⟨roundTo_mono (le_add_of_nonneg_right hlo) 1, roundTo_mono (add_le_add_right hhi _) 1⟩

/-- **The markers stand one after the other.** -/
theorem markers_forward : (markers winner).Pairwise fun a b => a.distM ≤ b.distM := by
  rw [markers, List.pairwise_flatMap]
  constructor
  · intro i _
    obtain ⟨-, hforward, -⟩ := (hclosed i).spec
    rw [sectorBrakingPoints, List.pairwise_map]
    refine (hforward.sublist List.filter_sublist).imp ?_
    intro a b hab
    exact roundTo_mono (by linarith) 1
  · refine List.pairwise_lt_range.imp ?_
    intro i j hij a ha b hb
    rw [sectorBrakingPoints_eq] at ha hb
    obtain ⟨origin, horigin, rfl⟩ := List.mem_map.mp ha
    obtain ⟨origin', horigin', rfl⟩ := List.mem_map.mp hb
    obtain ⟨rfl, -, hslice⟩ := mem_originsOf.mp horigin
    obtain ⟨rfl, -, hslice'⟩ := mem_originsOf.mp horigin'
    exact (rebased_bounds hslice).2.trans
      ((roundTo_mono (sliceStart_mono hclosed hij) 1).trans (rebased_bounds hslice').1)

/-- **The markers lie on the lap.** -/
theorem markers_onLap : ∀ bp ∈ markers winner,
    0 ≤ bp.distM ∧ bp.distM ≤ roundTo (sliceStart winner DEFAULT_SECTOR_COUNT) 1 := by
  intro bp hbp
  obtain ⟨i, hi, hbp⟩ := List.mem_flatMap.mp hbp
  rw [sectorBrakingPoints_eq] at hbp
  obtain ⟨origin, horigin, rfl⟩ := List.mem_map.mp hbp
  obtain ⟨rfl, -, hslice⟩ := mem_originsOf.mp horigin
  obtain ⟨hlo, hhi⟩ := rebased_bounds hslice
  have hstart := roundTo_mono (sliceStart_mono hclosed (Nat.zero_le origin.sector)) 1
  have hzero : sliceStart winner 0 = 0 := rfl
  rw [hzero, roundTo_zero] at hstart
  exact ⟨hstart.trans hlo,
    hhi.trans (roundTo_mono (sliceStart_mono hclosed (List.mem_range.mp hi)) 1)⟩

/-- **Each marker of a won slice appears once.** -/
theorem markers_eachOnce {laps : List (OptimalLapInput K)}
    (hnumbers : (laps.map (·.lapNumber)).Nodup)
    (hwinner : ∀ i, winner i ∈ laps ∧ Wins laps (winner i) i) : EachOnce laps (markers winner) := by
  refine ⟨winner, (List.range DEFAULT_SECTOR_COUNT).flatMap (originsOf winner),
    fun i _ => hwinner i, ?_, ?_, ?_⟩
  · rw [markers, List.map_flatMap]
    exact congrArg (List.range DEFAULT_SECTOR_COUNT).flatMap
      (funext fun i => sectorBrakingPoints_eq winner i)
  · intro origin
    rw [List.mem_flatMap]
    constructor
    · rintro ⟨i, hi, horigin⟩
      obtain ⟨rfl, horigin⟩ := mem_originsOf.mp horigin
      exact ⟨List.mem_range.mp hi, horigin⟩
    · rintro ⟨hi, horigin⟩
      exact ⟨origin.sector, List.mem_range.mpr hi, mem_originsOf.mpr ⟨rfl, horigin⟩⟩
  · rw [List.Nodup, List.pairwise_map, List.pairwise_flatMap]
    constructor
    · intro i _
      refine (originsOf_indices winner i).imp ?_
      intro a b hlt heq
      exact absurd (congrArg Prod.snd heq) hlt.ne
    · refine List.pairwise_lt_range.imp_of_mem ?_
      intro i j _ hj hij a ha b hb heq
      obtain ⟨rfl, hget, hslice⟩ := mem_originsOf.mp ha
      obtain ⟨rfl, hget', hslice'⟩ := mem_originsOf.mp hb
      obtain ⟨hnumber, hindex⟩ := Prod.mk.inj heq
      have hsame : winner a.sector = winner b.sector :=
        List.inj_on_of_nodup_map hnumbers (hwinner _).1 (hwinner _).1 hnumber
      rw [hsame, hindex] at hget
      rw [hsame, Option.some.inj (hget.symm.trans hget')] at hslice
      exact absurd (hslice.lt (hclosed _).spec.1 hij (List.mem_range.mp hj) hslice')
        (lt_irrefl _)

/-- **One lap in every sector**: its own markers up to its rounded length. -/
theorem markers_one {lap : OptimalLapInput K}
    (hsame : ∀ i < DEFAULT_SECTOR_COUNT, winner i = lap) :
    markers winner = lap.brakingPoints.filter fun bp => bp.distM ≤ (lap.distanceM : K) := by
  have hlap : Closed lap := by
    rw [← hsame 0 (by decide)]
    exact hclosed 0
  obtain ⟨hlength, hforward, hspec⟩ := hlap.spec
  have hstart : ∀ i ≤ DEFAULT_SECTOR_COUNT, sliceStart winner i =
      (lap.distanceM : K) / (DEFAULT_SECTOR_COUNT : K) * (i : K) := by
    intro i
    induction i with
    | zero =>
      intro _
      rw [Nat.cast_zero, mul_zero]
      rfl
    | succ i ih =>
      intro hi
      rw [sliceStart_succ, ih (by omega), hsame i hi, Nat.cast_succ, mul_add, mul_one]
  rw [← flatMap_slices hlength hforward fun bp hbp => (hspec bp hbp).1, markers]
  refine List.flatMap_congr ?_
  intro i hi
  have hi := List.mem_range.mp hi
  rw [hsame i hi, hstart i hi.le, sectorBrakingPoints]
  have hkeep : ∀ bp ∈ lap.brakingPoints.filter fun bp => InSlice lap i bp,
      ({ bp with distM := roundTo ((lap.distanceM : K) / (DEFAULT_SECTOR_COUNT : K) * (i : K) +
        (bp.distM - (lap.distanceM : K) / (DEFAULT_SECTOR_COUNT : K) * (i : K))) 1 } :
          BrakingPoint K) = bp := by
    intro bp hbp
    have hround := (hspec bp (List.mem_filter.mp hbp).1).2
    rw [add_sub_cancel, hround]
  exact (List.map_congr_left hkeep).trans (List.map_id' _)

end Markers

/-! ### When the markers are the winners' own -/

section Main

variable {K : Type} [Field K] [LinearOrder K] [IsStrictOrderedRing K] [FloorRing K]

/-- **When the markers of a plan are its winners' own.** -/
theorem rebasesOwn_iff (laps : List (OptimalLapInput K)) (hclosed : ∀ lap ∈ laps, Closed lap)
    (hnumbers : (laps.map (·.lapNumber)).Nodup) (plan : OptimalLapDto K)
    (hplan : buildOptimalLap laps = some plan) : RebasesOwn laps plan ↔ BrakesWithin laps := by
  obtain ⟨winner, hwinner, hmarkers, hdistance, hmatches⟩ := buildOptimalLap_spec hnumbers hplan
  have hclosed' : ∀ i, Closed (winner i) := fun i => hclosed _ (hwinner i).1
  have hmarkers : plan.brakingPoints = markers winner := hmarkers
  have hinj : ∀ a ∈ laps, ∀ b ∈ laps, a.lapNumber = b.lapNumber → a = b := fun a ha b hb =>
    List.inj_on_of_nodup_map hnumbers ha hb
  constructor
  · intro h lap hlap hwins bp hbp
    have hsame : ∀ i < DEFAULT_SECTOR_COUNT, winner i = lap := fun i hi =>
      (hwins i hi).unique hinj hlap (hwinner i).1 (hwinner i).2
    obtain ⟨own, hown, hnumber, hkept⟩ := h.matched lap.lapNumber
      ((hmatches _).mpr fun i hi => by rw [hsame i hi])
    obtain rfl := hinj own hown lap hlap hnumber
    have hlength := hkept.length_eq
    rw [hmarkers, markers_one hclosed' hsame, eq_comm, List.length_filter_eq_length_iff] at hlength
    exact of_decide_eq_true (hlength bp hbp)
  · intro h
    exact {
      forward := by
        rw [hmarkers]
        exact markers_forward hclosed'
      onLap := by
        intro bp hbp
        rw [hmarkers] at hbp
        obtain ⟨hlo, hhi⟩ := markers_onLap hclosed' bp hbp
        have hround := (abs_le.mp (abs_roundTo_sub_le (sliceStart winner DEFAULT_SECTOR_COUNT) 1)).2
        rw [hdistance]
        norm_num at hround ⊢
        exact ⟨by linarith, by linarith⟩
      eachOnce := by
        rw [hmarkers]
        exact markers_eachOnce hclosed' hnumbers hwinner
      matched := by
        intro n hn
        have hall := (hmatches n).mp hn
        have hsame : ∀ i < DEFAULT_SECTOR_COUNT, winner i = winner 0 := fun i hi =>
          hinj _ (hwinner i).1 _ (hwinner 0).1 ((hall i hi).trans (hall 0 (by decide)).symm)
        refine ⟨winner 0, (hwinner 0).1, hall 0 (by decide), ?_⟩
        have hkeep := h (winner 0) (hwinner 0).1 fun i hi => hsame i hi ▸ (hwinner i).2
        rw [hmarkers, markers_one hclosed' hsame, List.filter_eq_self.mpr fun bp hbp =>
          decide_eq_true (hkeep bp hbp)]
        refine List.forall₂_same.mpr ?_
        intro bp _
        refine ⟨rfl, ?_⟩
        rw [sub_self, abs_zero]
        norm_num }

end Main

/-! ### Braking on the line -/

/-- A lap of some points, as `closeLap` leaves it. -/
def closedLap (lapNumber : ℕ) (first : LapPoint ℚ) (rest : List (LapPoint ℚ)) :
    OptimalLapInput ℚ where
  lapNumber := lapNumber
  lapMs := mathRound ((rest.getLastD first).timeMs - first.timeMs)
  distanceM := mathRound (rest.getLastD first).distM
  sectorMs := sectorTimes (first :: rest) DEFAULT_SECTOR_COUNT
  brakingPoints := detectBrakingPoints (first :: rest)

def onGrid : LapPoint ℚ := ⟨⟨0, 42, 24, some 60, none⟩, 0⟩

/-- A lap of 1 000.4 m that brakes for the line from 1 000.2 m on. -/
def lineBraker : OptimalLapInput ℚ :=
  closedLap 1 onGrid [⟨⟨60000, 42, 24, some 20, none⟩, 10002 / 10⟩,
    ⟨⟨60300, 42, 24, some 2, some (-1)⟩, 10004 / 10⟩]

/-- A slower lap. -/
def steady : OptimalLapInput ℚ := closedLap 2 onGrid [⟨⟨63000, 42, 24, some 60, none⟩, 1000⟩]

theorem closed_lineBraker : Closed lineBraker := by
  refine ⟨[onGrid, ⟨⟨60000, 42, 24, some 20, none⟩, 10002 / 10⟩,
    ⟨⟨60300, 42, 24, some 2, some (-1)⟩, 10004 / 10⟩], _, rfl, ?_, ?_, ?_, rfl, rfl⟩ <;>
    decide +kernel

theorem closed_steady : Closed steady := by
  refine ⟨[onGrid, ⟨⟨63000, 42, 24, some 60, none⟩, 1000⟩], _, rfl, ?_, ?_, ?_, rfl, rfl⟩ <;>
    decide +kernel

theorem closed_laps : ∀ lap ∈ [lineBraker, steady], Closed lap := by
  intro lap hlap
  rcases List.mem_pair.mp hlap with rfl | rfl
  · exact closed_lineBraker
  · exact closed_steady

/-- The plan is the first lap, and its marker on the line is lost. -/
theorem lineBraker_lost : ∃ plan, buildOptimalLap [lineBraker, steady] = some plan ∧
    plan.matchesLapNumber = some 1 ∧ plan.brakingPoints = [] ∧
    ¬ RebasesOwn [lineBraker, steady] plan := by
  have hplan : ((buildOptimalLap [lineBraker, steady]).any fun plan =>
      decide (plan.matchesLapNumber = some 1) && decide (plan.brakingPoints = [])) = true := by
    decide +kernel
  obtain ⟨plan, hplan, hlost⟩ := (Option.any_eq_true _ _).mp hplan
  rw [Bool.and_eq_true, decide_eq_true_eq, decide_eq_true_eq] at hlost
  refine ⟨plan, hplan, hlost.1, hlost.2, ?_⟩
  intro h
  obtain ⟨lap, hlap, hnumber, hkept⟩ := h.matched 1 hlost.1
  rw [hlost.2, List.forall₂_nil_right_iff] at hkept
  rcases List.mem_pair.mp hlap with rfl | rfl
  · exact absurd hkept (by decide +kernel)
  · exact absurd hnumber (by decide)

theorem rebasesOwn_iff_lineBraker : ¬ BrakesWithin [lineBraker, steady] := by
  obtain ⟨plan, hplan, -, -, hnot⟩ := lineBraker_lost
  exact fun hwithin =>
    hnot ((rebasesOwn_iff [lineBraker, steady] closed_laps (by decide) plan hplan).mpr hwithin)

theorem not_rebasesOwn_lineBraker : (∀ lap ∈ [lineBraker, steady], Closed lap) ∧
    ([lineBraker, steady].map (·.lapNumber)).Nodup ∧
    lineBraker.brakingPoints.map BrakingPoint.distM = [10002 / 10] ∧
    ∃ plan, buildOptimalLap [lineBraker, steady] = some plan ∧
      plan.matchesLapNumber = some 1 ∧ plan.brakingPoints = [] ∧
      ¬ RebasesOwn [lineBraker, steady] plan :=
  ⟨closed_laps, by decide, by decide +kernel, lineBraker_lost⟩

end TelemetryCloud.OptimalBraking
