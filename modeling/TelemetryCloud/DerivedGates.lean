import TelemetryCloud.Interpolation
import TelemetryCloud.OptimalTimes

/-!
# A derived gate set works for the session it came from

A set is built along one polyline, the centreline or the reference lap's own path, and accepted on
the crossings of the reference lap; the service splits the laps of the session on it, and persists it
for every later one.

* `crossGates_iff` : what it means for a lap to cross a set of gates;
* `accepted_iff_drives` : on which laps a set is accepted;
* `distM_le_of_crossMs_lt` : **the later of two crossings of a lap is no shorter a way round**;
* `length_buildInteriorGates` : a path has a gate for every interior boundary;
* `derived_works` : **a set just derived works**: one gate less than sectors, crossed once each, in
  order and near its place, with all the splits; the service uses it and only persists such sets.
-/

namespace TelemetryCloud.DerivedGates

open TelemetryCloud.Derivation TelemetryCloud.Geometry
open Gates LapMarkers LapSegmenter OptimalTimes SectorGates

/-! ### The crossings of a lap -/

section Crossings

variable {K : Type} [Field K] [LinearOrder K] {M : MathLib K} {points : List (LapPoint K)}
  {gate gate' : Gate K} {gates : List (Gate K)} {crossing crossing' : LapGateCrossing K}
  {crossings : List (LapGateCrossing K)}

omit [Field K] in
/-- What `inOrder` accepts, with the ends of the lap around it, is what is in strict time order. -/
theorem inOrder_iff {previous last : K} : inOrder previous last crossings = true ↔
    (previous :: crossings.map (·.crossMs) ++ [last]).Pairwise (· < ·) := by
  rw [← List.isChain_iff_pairwise]
  induction crossings generalizing previous with
  | nil =>
    rw [List.map_nil, List.singleton_append, List.isChain_pair]
    exact decide_eq_true_iff
  | cons crossing rest ih =>
    rw [inOrder, Bool.and_eq_true, decide_eq_true_iff, List.map_cons, List.cons_append,
      List.cons_append, List.isChain_cons_cons, ih, List.cons_append]

/-- A gate is hit on a hop, from one point of the lap to the next. -/
theorem two_le_length_of_gateHits (h : crossing ∈ gateHits M points gate) : 2 ≤ points.length := by
  obtain ⟨hop, hhop, -⟩ := List.mem_filterMap.mp h
  have hlength := List.length_pos_of_mem hhop
  rw [List.length_zip, List.length_tail] at hlength
  omega

/-- **What crossing a set of gates is**: every gate hit once, one after the other inside the lap. -/
theorem crossGates_iff : crossGates M points gates = some crossings ↔
    gates ≠ [] ∧ ∃ first last, points.head? = some first ∧ points.getLast? = some last ∧
      List.Forall₂ (fun gate crossing => gateHits M points gate = [crossing]) gates crossings ∧
      (first.timeMs :: crossings.map (·.crossMs) ++ [last.timeMs]).Pairwise (· < ·) := by
  unfold crossGates
  split
  · rename_i first last hfirst hlast
    split
    · rename_i hfew
      refine iff_of_false (fun h => by cases h) ?_
      rintro ⟨hgates, -, -, -, -, honce, -⟩
      obtain ⟨gate, rest, rfl⟩ := List.exists_cons_of_ne_nil hgates
      obtain ⟨crossing, _, hcrossing, -⟩ := List.forall₂_cons_left_iff.mp honce
      have hlength := two_le_length_of_gateHits (hcrossing ▸ List.mem_singleton_self crossing)
      rcases hfew with hempty | hfew
      · cases hempty
      · omega
    · rename_i hmany
      rw [not_or, List.isEmpty_iff] at hmany
      rw [Option.filter_eq_some_iff, Lists.mapM_eq_some_iff, inOrder_iff]
      simp only [hfirst, hlast]
      constructor
      · rintro ⟨honce, hinTime⟩
        refine ⟨hmany.1, first, last, rfl, rfl, honce.imp ?_, hinTime⟩
        intro gate crossing hhit
        split at hhit
        · rename_i found hfound
          rw [hfound, Option.some.inj hhit]
        · cases hhit
      · rintro ⟨-, _, _, ⟨⟩, ⟨⟩, honce, hinTime⟩
        refine ⟨honce.imp ?_, hinTime⟩
        intro gate crossing hhit
        rw [hhit]
  · rename_i hnone
    refine iff_of_false (fun h => by cases h) ?_
    rintro ⟨-, first, last, hfirst, hlast, -⟩
    exact hnone first last hfirst hlast

variable [IsStrictOrderedRing K]

/-- A crossing lies on a hop of the lap. -/
theorem exists_hop_of_mem_gateHits (h : crossing ∈ gateHits M points gate) :
    ∃ (i : ℕ) (a b : LapPoint K) (t : K), points[i]? = some a ∧ points[i + 1]? = some b ∧
      a.timeMs < b.timeMs ∧ 0 ≤ t ∧ t ≤ 1 ∧
      crossing.crossMs = a.timeMs + t * (b.timeMs - a.timeMs) ∧
      crossing.distM = a.distM + t * (b.distM - a.distM) := by
  obtain ⟨hop, hhop, hcrossing⟩ := List.mem_filterMap.mp h
  obtain ⟨hit, hhit, rfl⟩ := Option.map_eq_some_iff.mp hcrossing
  obtain ⟨i, hi⟩ := List.mem_iff_getElem?.mp hhop
  obtain ⟨ha, hb⟩ := List.getElem?_zip_eq_some.mp hi
  rw [List.getElem?_tail] at hb
  obtain ⟨hlt, -, ht, ht', hcrossMs⟩ := findGateCrossing_between hhit
  exact ⟨i, hop.1, hop.2, hit.t, ha, hb, hlt, ht, ht', hcrossMs, rfl⟩

/-- **The later of two crossings is further along**, on a lap whose axes do not fall. -/
theorem distM_le_of_crossMs_lt (htime : points.Pairwise fun a b => a.timeMs ≤ b.timeMs)
    (hdist : points.Pairwise fun a b => a.distM ≤ b.distM)
    (h : crossing ∈ gateHits M points gate) (h' : crossing' ∈ gateHits M points gate')
    (hlt : crossing.crossMs < crossing'.crossMs) : crossing.distM ≤ crossing'.distM := by
  obtain ⟨i, a, b, t, ha, hb, hab, ht, ht', hcrossMs, hdistM⟩ := exists_hop_of_mem_gateHits h
  obtain ⟨j, a', b', u, ha', hb', hab', hu, hu', hcrossMs', hdistM'⟩ :=
    exists_hop_of_mem_gateHits h'
  rw [hcrossMs, hcrossMs'] at hlt
  rw [hdistM, hdistM']
  have hdistb := Lists.pairwise_getElem? hdist ha hb (Nat.lt_succ_self i)
  have hdistb' := Lists.pairwise_getElem? hdist ha' hb' (Nat.lt_succ_self j)
  rcases lt_trichotomy i j with hij | rfl | hji
  · -- an earlier hop ends no further along than a later one begins
    have hmid : b.distM ≤ a'.distM := by
      rcases Nat.lt_or_eq_of_le (Nat.succ_le_of_lt hij) with hij | rfl
      · exact Lists.pairwise_getElem? hdist hb ha' hij
      · rw [Option.some.inj (hb.symm.trans ha')]
    calc a.distM + t * (b.distM - a.distM)
        ≤ b.distM := Interpolation.lerp_le hdistb ht'
      _ ≤ a'.distM := hmid
      _ ≤ a'.distM + u * (b'.distM - a'.distM) := Interpolation.le_lerp hdistb' hu
  · -- on one hop the order of the times is the order along it
    cases ha.symm.trans ha'
    cases hb.symm.trans hb'
    refine Interpolation.lerp_mono hdistb ?_
    rw [add_lt_add_iff_left, mul_lt_mul_iff_left₀ (sub_pos.mpr hab)] at hlt
    exact hlt.le
  · -- a later hop does not begin before an earlier one ends
    have hmid : b'.timeMs ≤ a.timeMs := by
      rcases Nat.lt_or_eq_of_le (Nat.succ_le_of_lt hji) with hji | rfl
      · exact Lists.pairwise_getElem? htime hb' ha hji
      · rw [Option.some.inj (hb'.symm.trans ha)]
    have hback : a'.timeMs + u * (b'.timeMs - a'.timeMs) ≤ a.timeMs + t * (b.timeMs - a.timeMs) :=
      (Interpolation.lerp_le hab'.le hu').trans (hmid.trans (Interpolation.le_lerp hab.le ht))
    exact absurd hlt (not_lt.mpr hback)

end Crossings
/-! ### The gates of a path -/

section Build

variable {K : Type} [Field K] [LinearOrder K]

/-- Every place of a path is a point of it. -/
theorem exists_bracketOffset (t : K) {path : List (OffsetPoint K)} (hpath : path ≠ []) :
    ∃ place, bracketOffset t path = some place := by
  induction path with
  | nil => exact absurd rfl hpath
  | cons a path ih =>
    cases path with
    | nil => exact ⟨_, rfl⟩
    | cons b rest =>
      unfold bracketOffset
      dsimp only
      split
      · exact ⟨_, rfl⟩
      · split
        · exact ⟨_, rfl⟩
        · exact ih (List.cons_ne_nil _ _)

variable [FloorRing K] (M : MathLib K)

theorem length_buildInteriorGates {path : List (OffsetPoint K)} (hpath : path ≠ [])
    (totalM halfWidthM : K) (sectorCount : ℕ) :
    (buildInteriorGates M path totalM halfWidthM sectorCount).length = sectorCount - 1 := by
  rw [buildInteriorGates, List.length_filterMap_eq_countP, List.countP_eq_length.mpr,
    List.length_range']
  intro k _
  obtain ⟨place, hplace⟩ := exists_bracketOffset
    (if 0 < totalM then
      remainder (remainder (totalM * (k : K) / (sectorCount : K)) totalM + totalM) totalM
    else 0) hpath
  rw [pointAtDistance, hplace]
  rfl

end Build

/-! ### A set just derived -/

section Works

variable {K : Type} [Field K] [LinearOrder K] [FloorRing K] (M : MathLib K)

/-- **A set of gates works for a lap**: with its first and last point, and its crossings. -/
structure Works (points : List (LapPoint K)) (first last : LapPoint K) (sectorCount : ℕ)
    (gates : List (Gate K)) (crossings : List (LapGateCrossing K)) : Prop where
  count : gates.length + 1 = sectorCount
  once : List.Forall₂ (fun gate crossing => gateHits M points gate = [crossing]) gates crossings
  inTime : (first.timeMs :: crossings.map (·.crossMs) ++ [last.timeMs]).Pairwise (· < ·)
  inDistance : (crossings.map (·.distM)).Pairwise (· ≤ ·)
  near : ∀ (i : ℕ) (crossing : LapGateCrossing K), crossings[i]? = some crossing →
    |crossing.distM - ((i + 1 : ℕ) : K) * last.distM / sectorCount| ≤
      4 / 10 * last.distM / sectorCount
  splits : (sectorTimesFromGates M points gates).length = sectorCount
  total : 2 * |(sectorTimesFromGates M points gates).sum -
    mathRound (last.timeMs - first.timeMs)| ≤ sectorCount + 1

variable {M} {points : List (LapPoint K)} {sectorCount : ℕ} {gates : List (Gate K)}

omit [FloorRing K] in
/-- **What the validation of a candidate checks.** -/
theorem isValidCandidate_iff {lapDistanceM : K} :
    isValidCandidate M points gates lapDistanceM sectorCount = true ↔
      ∃ crossings, crossGates M points gates = some crossings ∧
        ∀ (i : ℕ) (crossing : LapGateCrossing K), crossings[i]? = some crossing →
          |crossing.distM - ((i + 1 : ℕ) : K) * lapDistanceM / sectorCount| ≤
            SANE_BAND_FACTOR * lapDistanceM / sectorCount := by
  unfold isValidCandidate
  cases crossGates M points gates with
  | none => exact iff_of_false (fun h => by cases h) (fun ⟨_, h, _⟩ => by cases h)
  | some crossings =>
    have hnear : ∀ (i : ℕ) (crossing : LapGateCrossing K),
        |crossing.distM - lapDistanceM / sectorCount * ((i + 1 : ℕ) : K)| ≤
            lapDistanceM / sectorCount * SANE_BAND_FACTOR ↔
          |crossing.distM - ((i + 1 : ℕ) : K) * lapDistanceM / sectorCount| ≤
            SANE_BAND_FACTOR * lapDistanceM / sectorCount := by
      intro i crossing
      rw [mul_div_assoc, mul_div_assoc, mul_comm, mul_comm SANE_BAND_FACTOR]
    simp only [List.all_eq_true, Prod.forall, List.mem_zipIdx_iff_getElem?, decide_eq_true_eq, hnear,
      Option.some.injEq, exists_eq_left']
    exact ⟨fun h i crossing => h crossing i, fun h crossing i => h i crossing⟩

variable (M) in
omit [FloorRing K] in
/-- **A lap drives a row of gates**: it hits each of them once, one after the other between its first
point and its last, and near the end of an equal part of its length. -/
def Drives (points : List (LapPoint K)) (gates : List (Gate K)) (sectorCount : ℕ) : Prop :=
  gates ≠ [] ∧ ∃ first last crossings, points.head? = some first ∧ points.getLast? = some last ∧
    List.Forall₂ (fun gate crossing => gateHits M points gate = [crossing]) gates crossings ∧
    (first.timeMs :: crossings.map (·.crossMs) ++ [last.timeMs]).Pairwise (· < ·) ∧
    ∀ (i : ℕ) (crossing : LapGateCrossing K), crossings[i]? = some crossing →
      |crossing.distM - ((i + 1 : ℕ) : K) * last.distM / sectorCount| ≤
        SANE_BAND_FACTOR * last.distM / sectorCount

omit [FloorRing K] in
/-- **A candidate is accepted on a lap that drives it.** -/
theorem accepted_iff_drives :
    isValidCandidate M points gates (points.getLast?.elim 0 (·.distM)) sectorCount = true ↔
      Drives M points gates sectorCount := by
  rw [isValidCandidate_iff, Drives]
  simp only [crossGates_iff]
  constructor
  · rintro ⟨crossings, ⟨hgates, first, last, hfirst, hlast, honce, hinTime⟩, hnear⟩
    rw [hlast] at hnear
    exact ⟨hgates, first, last, crossings, hfirst, hlast, honce, hinTime, hnear⟩
  · rintro ⟨hgates, first, last, crossings, hfirst, hlast, honce, hinTime, hnear⟩
    refine ⟨crossings, ⟨hgates, first, last, hfirst, hlast, honce, hinTime⟩, ?_⟩
    rw [hlast]
    exact hnear

theorem sectorTimesFromGates_eq {crossings : List (LapGateCrossing K)} {first last : LapPoint K}
    (hcross : crossGates M points gates = some crossings) (hfirst : points.head? = some first)
    (hlast : points.getLast? = some last) : sectorTimesFromGates M points gates =
      LapMarkers.splits ([first.timeMs] ++ crossings.map (·.crossMs) ++ [last.timeMs]) := by
  rw [sectorTimesFromGates, hcross, hfirst, hlast]

/-- A candidate gives the lap it was accepted on all its splits. -/
theorem length_splits_of_candidate (h : Candidate M points sectorCount gates)
    (hcount : 2 ≤ sectorCount) :
    gates.length + 1 = sectorCount ∧
      (sectorTimesFromGates M points gates).length = sectorCount := by
  obtain ⟨path, totalM, halfWidthM, hpath, rfl⟩ := h.built
  obtain ⟨crossings, hcross, -⟩ := isValidCandidate_iff.mp h.valid
  obtain ⟨-, first, last, hfirst, hlast, honce, -⟩ := crossGates_iff.mp hcross
  have hlength := length_buildInteriorGates M hpath totalM halfWidthM sectorCount
  rw [sectorTimesFromGates_eq hcross hfirst hlast, length_splits]
  simp only [List.length_append, List.length_map, List.length_singleton, ← honce.length_eq, hlength]
  omega

/-- **A candidate works** for the lap it was accepted on. -/
theorem works_of_candidate [IsStrictOrderedRing K] (h : Candidate M points sectorCount gates)
    (hcount : 2 ≤ sectorCount) (hdist : points.Pairwise fun a b => a.distM ≤ b.distM)
    (htime : points.Pairwise fun a b => a.timeMs ≤ b.timeMs) :
    ∃ first last crossings, points.head? = some first ∧ points.getLast? = some last ∧
      Works M points first last sectorCount gates crossings := by
  obtain ⟨crossings, hcross, hnear⟩ := isValidCandidate_iff.mp h.valid
  obtain ⟨-, first, last, hfirst, hlast, honce, hinTime⟩ := crossGates_iff.mp hcross
  obtain ⟨hgates, hsplits⟩ := length_splits_of_candidate h hcount
  rw [hlast] at hnear
  refine ⟨first, last, crossings, hfirst, hlast, hgates, honce, hinTime, ?_, hnear, hsplits, ?_⟩
  · have hmem : ∀ crossing ∈ crossings, ∃ gate, crossing ∈ gateHits M points gate := by
      intro crossing hcrossing
      obtain ⟨i, hi, rfl⟩ := List.mem_iff_getElem.mp hcrossing
      have hhits := honce.get (honce.length_eq ▸ hi) hi
      exact ⟨_, hhits ▸ List.mem_singleton_self _⟩
    have hlater := (List.pairwise_append.mp (List.pairwise_cons.mp hinTime).2).1
    rw [List.pairwise_map] at hlater ⊢
    refine hlater.imp_of_mem ?_
    intro crossing crossing' hc hc' hlt
    obtain ⟨gate, hhit⟩ := hmem crossing hc
    obtain ⟨gate', hhit'⟩ := hmem crossing' hc'
    exact distM_le_of_crossMs_lt htime hdist hhit hhit' hlt
  · have hsum := abs_sum_splits_sub_lt first.timeMs last.timeMs (crossings.map (·.crossMs))
    rw [← sectorTimesFromGates_eq hcross hfirst hlast, List.length_map, ← honce.length_eq] at hsum
    omega

theorem applySectorGates_of_splits {derived : List (DerivedLap K)} {lap : DerivedLap K}
    {r : SectorGatesResolution K} (hlap : lap ∈ derived)
    (hsplits : sectorTimesFromGates M lap.points r.gates ≠ []) :
    applySectorGates M derived (some r) =
      (derived.map (gated M r.gates), .gates, r.newlyDerived) := by
  refine if_pos (List.any_eq_true.mpr ⟨gated M r.gates lap, List.mem_map_of_mem hlap, ?_⟩)
  rw [gated, decide_eq_true_eq, List.isEmpty_iff]
  exact hsplits

/-- What `applySectorGates` persists was resolved, and some lap has its splits on it. -/
theorem of_applySectorGates {derived : List (DerivedLap K)}
    {resolution : Option (SectorGatesResolution K)} {set : DerivedSectorGates K}
    (h : (applySectorGates M derived resolution).2.2 = some set) :
    ∃ r, resolution = some r ∧ r.newlyDerived = some set ∧
      ∃ lap ∈ derived, sectorTimesFromGates M lap.points r.gates ≠ [] := by
  unfold applySectorGates at h
  split at h
  · cases h
  · rename_i r
    split at h
    · rename_i hany
      obtain ⟨_, hmem, hsplits⟩ := List.any_eq_true.mp hany
      obtain ⟨lap, hlap, rfl⟩ := List.mem_map.mp hmem
      rw [gated, decide_eq_true_eq, List.isEmpty_iff] at hsplits
      exact ⟨r, rfl, h, lap, hlap, hsplits⟩
    · cases h

/-- The set to persist is the resolved one. -/
theorem newlyDerived_of_resolveSectorGates {known : KnownSectorGatesInput K}
    {input : DeriveSectorGatesInput K} {r : SectorGatesResolution K} {set : DerivedSectorGates K}
    (h : resolveSectorGates M known input = some r) (hset : r.newlyDerived = some set) :
    set.gates = r.gates := by
  rcases Option.or_eq_some_iff.mp h with hknown | ⟨-, hfresh⟩
  · unfold knownSectorGates at hknown
    split at hknown <;> cases hknown <;> cases hset
  · obtain ⟨-, hnew⟩ := deriveSectorGates_newlyDerived hfresh
    rw [hnew] at hset
    cases hset
    rfl

variable (M) in
/-- **A set just derived works for the session it came from**: for its reference lap, as a split of
the session's laps, and before it is persisted. -/
theorem derived_works [IsStrictOrderedRing K] :
    (∀ (input : DeriveSectorGatesInput K) (lap : ReferenceLap K) (r : SectorGatesResolution K),
      input.referenceLap = some lap →
      (lap.points.Pairwise fun a b => a.distM ≤ b.distM) →
      (lap.points.Pairwise fun a b => a.timeMs ≤ b.timeMs) →
      deriveSectorGates M input = some r →
      ∃ first last crossings, lap.points.head? = some first ∧ lap.points.getLast? = some last ∧
        Works M lap.points first last input.sectorCount r.gates crossings) ∧
    (∀ (derived : List (DerivedLap K)) (input : DeriveSectorGatesInput K)
      (r : SectorGatesResolution K),
      input.referenceLap = ((fastestLap derived).map fun best =>
        ⟨best.2.points, best.2.distanceM⟩) →
      deriveSectorGates M input = some r →
      applySectorGates M derived (some r) =
        (derived.map (gated M r.gates), .gates, some ⟨r.gates, r.source⟩)) ∧
    ∀ (derived : List (DerivedLap K)) (known : KnownSectorGatesInput K)
      (input : DeriveSectorGatesInput K) (set : DerivedSectorGates K),
      (applySectorGates M derived (resolveSectorGates M known input)).2.2 = some set →
      ∃ lap ∈ derived, sectorTimesFromGates M lap.points set.gates ≠ [] := by
  refine ⟨?_, ?_, ?_⟩
  · intro input lap r hlap hdist htime hderive
    obtain ⟨-, hcount, lap', hlap', hcandidate⟩ := deriveSectorGates_candidate hderive
    cases hlap.symm.trans hlap'
    exact works_of_candidate hcandidate hcount hdist htime
  · intro derived input r hreference hderive
    obtain ⟨hnew, hcount, lap, hlap, hcandidate⟩ := deriveSectorGates_candidate hderive
    rw [hreference] at hlap
    obtain ⟨best, hbest, rfl⟩ := Option.map_eq_some_iff.mp hlap
    have hmem : best.2 ∈ derived := List.mem_of_getElem? (fastestLap_spec hbest).1
    rw [← hnew]
    refine applySectorGates_of_splits hmem ?_
    have hlength : (sectorTimesFromGates M best.2.points r.gates).length = input.sectorCount :=
      (length_splits_of_candidate hcandidate hcount).2
    exact List.ne_nil_of_length_pos (by omega)
  · intro derived known input set hset
    obtain ⟨r, hresolved, hnew, lap, hlap, hsplits⟩ := of_applySectorGates hset
    rw [newlyDerived_of_resolveSectorGates hresolved hnew]
    exact ⟨lap, hlap, hsplits⟩

/-- Four fixes of a straight run past a gate at its start. -/
def straightPoints : List (LapPoint ℚ) :=
  [⟨⟨0, 0, 0, none, none⟩, 0⟩, ⟨⟨400, 0, 1 / 1000, none, none⟩, 111⟩,
    ⟨⟨800, 0, 2 / 1000, none, none⟩, 222⟩, ⟨⟨1200, 0, 3 / 1000, none, none⟩, 333⟩]

def straightLap : DerivedLap ℚ where
  lapNumber := 1
  startedAt := 0
  endedAt := 1200
  lapMs := 1200
  distanceM := 333
  sectorMs := []
  brakingPoints := []
  maxSpeedKmh := none
  minSpeedKmh := none
  points := straightPoints

/-- Two sectors, and no circuit. -/
def straightInput : DeriveSectorGatesInput ℚ where
  sfGate := ⟨-1 / 1000, 0, 1 / 1000, 0⟩
  circuit := none
  referenceLap := some ⟨straightPoints, 333⟩
  sectorCount := 2

theorem derived_works_straightLap : ∃ r first last crossings,
    deriveSectorGates flat straightInput = some r ∧
    Works flat straightPoints first last 2 r.gates crossings ∧
    applySectorGates flat [straightLap] (some r) =
      ([gated flat r.gates straightLap], .gates, some ⟨r.gates, r.source⟩) ∧
    ∃ lap ∈ [straightLap], sectorTimesFromGates flat lap.points r.gates ≠ [] := by
  obtain ⟨r, hr⟩ : ∃ r, deriveSectorGates flat straightInput = some r :=
    Option.isSome_iff_exists.mp (by decide +kernel)
  obtain ⟨hworks, hkept, hpersisted⟩ := derived_works flat
  obtain ⟨first, last, crossings, -, -, hset⟩ :=
    hworks straightInput ⟨straightPoints, 333⟩ r rfl (by decide +kernel) (by decide +kernel) hr
  have happly := hkept [straightLap] straightInput r rfl hr
  refine ⟨r, first, last, crossings, hr, hset, happly, ?_⟩
  refine hpersisted [straightLap] ⟨none, none⟩ straightInput ⟨r.gates, r.source⟩ ?_
  have hresolve : resolveSectorGates flat ⟨none, none⟩ straightInput = some r := hr
  rw [hresolve, happly]

end Works

end TelemetryCloud.DerivedGates
