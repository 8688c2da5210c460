import TelemetryCloud.DerivedGates

/-!
# The winding of a ring

`sector-gates.ts` undoes the winding of a circuit's ring by the shorter way, in index steps, from the
point nearest the start/finish gate to the point nearest a probe on the reference lap.

* `nearestIndex_reverse` : the same point is nearest in the ring listed the other way round;
* `buildDirectedRing_reverse` : walking one ring forwards is walking the other backwards;
* `sameResolution_iff` : **a ring and its reverse give the same gates** unless both ways take the same
  number of steps, and then exactly when the lap drives the gates of neither way round, or of both, and
  they are the same;
* `not_sameResolution_sparse` : a sparse ring, whose probe is nearest the start/finish point itself.
-/

namespace TelemetryCloud.RingWinding

open TelemetryCloud.Geometry DerivedGates Gates LapMarkers LapSegmenter SectorGates

/-! ### What there is to compare -/

section Defs

variable {K : Type} [Field K] [LinearOrder K] [FloorRing K] (M : MathLib K)

/-- The same circuit, its ring listed in reverse order. -/
def reversed {K : Type} (circuit : ReadyCircuit K) : ReadyCircuit K :=
  { circuit with ring := circuit.ring.reverse }

/-- The same gate, up to the order of its two end points. -/
def SameGate {K : Type} (g h : Gate K) : Prop := g = h ∨ g = ⟨h.lat2, h.lon2, h.lat1, h.lon1⟩

/-- The same answer: none, or the same gates from the same source. -/
def SameResolution {K : Type} (r r' : Option (SectorGatesResolution K)) : Prop :=
  Option.Rel (fun r r' => r.source = r'.source ∧ List.Forall₂ SameGate r.gates r'.gates) r r'

/-- Two points of a ring at different distances from a place. -/
def Apart (place p q : LatLon K) : Prop :=
  distanceM M place.lat place.lon p.lat p.lon ≠ distanceM M place.lat place.lon q.lat q.lon

instance (place : LatLon K) : DecidableRel (Apart M place) :=
  fun _ _ => inferInstanceAs (Decidable (_ ≠ _))

/-- `probe` in `detectDirection`. -/
def probe? (points : List (LapPoint K)) : Option (LapPoint K) :=
  (points.find? fun p => DIRECTION_PROBE_M ≤ p.distM).or points.getLast?

def placeOf (point : LapPoint K) : LatLon K := ⟨point.lat, point.lon⟩

/-- Index steps forwards round a ring of `n` points: `forwardSteps`, and `backwardSteps` the other
way. -/
def steps (n i j : ℕ) : ℕ := (j + n - i) % n

/-- As many steps one way round as the other. -/
def Tied (ring : List (LatLon K)) (sfGate : Gate K) (points : List (LapPoint K)) : Prop :=
  ∀ probe, probe? points = some probe →
    steps ring.length (nearestIndex M ring (midpoint sfGate))
        (nearestIndex M ring (placeOf probe)) =
      steps ring.length (nearestIndex M ring (placeOf probe))
        (nearestIndex M ring (midpoint sfGate))

/-- The gates across a ring at the ends of equal parts of its length, counted one way round from the
start/finish point. -/
def gatesAlong (circuit : ReadyCircuit K) (sfGate : Gate K) (sectorCount : ℕ)
    (direction : Direction) : List (Gate K) :=
  buildInteriorGates M
    (buildDirectedRing M circuit.ring (nearestIndex M circuit.ring (midpoint sfGate)) direction)
    circuit.centrelineLengthM (gateHalfWidthM M sfGate) sectorCount

/-- The lap drives the gates of neither way round, or of both, and they are the same. -/
def WaysAgree (circuit : ReadyCircuit K) (sfGate : Gate K) (points : List (LapPoint K))
    (sectorCount : ℕ) : Prop :=
  (∀ direction, ¬ Drives M points (gatesAlong M circuit sfGate sectorCount direction) sectorCount) ∨
  (∀ direction, Drives M points (gatesAlong M circuit sfGate sectorCount direction) sectorCount) ∧
    List.Forall₂ SameGate (gatesAlong M circuit sfGate sectorCount .positive)
      (gatesAlong M circuit sfGate sectorCount .negative)

end Defs

/-! ### The nearest point -/

section Nearest

variable {K : Type} [Field K] [LinearOrder K] (M : MathLib K)

/-- One round of the loop of `nearestIndex`. -/
def nearer (place : LatLon K) (best : Option (K × ℕ)) (here : LatLon K × ℕ) : Option (K × ℕ) :=
  match best with
  | none => some (distanceM M place.lat place.lon here.1.lat here.1.lon, here.2)
  | some (bestM, bestIndex) =>
    if distanceM M place.lat place.lon here.1.lat here.1.lon < bestM then
      some (distanceM M place.lat place.lon here.1.lat here.1.lon, here.2)
    else some (bestM, bestIndex)

theorem nearestIndex_eq (ring : List (LatLon K)) (place : LatLon K) :
    nearestIndex M ring place = (ring.zipIdx.foldl (nearer M place) none).elim 0 Prod.snd := rfl

/-- The loop keeps a point of what it has seen that nothing there is nearer than. -/
theorem foldl_nearer (place : LatLon K) (seen rest : List (LatLon K)) {i : ℕ} {p : LatLon K}
    (hi : seen[i]? = some p)
    (hmin : ∀ q ∈ seen, distanceM M place.lat place.lon p.lat p.lon ≤
      distanceM M place.lat place.lon q.lat q.lon) :
    ∃ (j : ℕ) (q : LatLon K), (seen ++ rest)[j]? = some q ∧
      (∀ r ∈ seen ++ rest, distanceM M place.lat place.lon q.lat q.lon ≤
        distanceM M place.lat place.lon r.lat r.lon) ∧
      (rest.zipIdx seen.length).foldl (nearer M place)
          (some (distanceM M place.lat place.lon p.lat p.lon, i)) =
        some (distanceM M place.lat place.lon q.lat q.lon, j) := by
  induction rest generalizing seen i p with
  | nil =>
    rw [List.append_nil]
    exact ⟨i, p, hi, hmin, rfl⟩
  | cons here rest ih =>
    have hseen : seen ++ here :: rest = (seen ++ [here]) ++ rest := by
      rw [List.append_assoc, List.singleton_append]
    have hlength : seen.length + 1 = (seen ++ [here]).length := by
      rw [List.length_append, List.length_singleton]
    rw [List.zipIdx_cons, List.foldl_cons, nearer, hseen, hlength]
    dsimp only
    split
    · rename_i hlt
      refine ih (seen ++ [here]) List.getElem?_concat_length ?_
      intro q hq
      rcases List.mem_append.mp hq with hq | hq
      · exact hlt.le.trans (hmin q hq)
      · rw [List.mem_singleton.mp hq]
    · rename_i hge
      refine ih (seen ++ [here]) ?_ ?_
      · rw [List.getElem?_append_left (List.getElem?_eq_some_iff.mp hi).1]
        exact hi
      · intro q hq
        rcases List.mem_append.mp hq with hq | hq
        · exact hmin q hq
        · rw [List.mem_singleton.mp hq]
          exact not_lt.mp hge

/-- **`nearestIndex`**: no point of the ring is nearer. -/
theorem nearestIndex_spec {ring : List (LatLon K)} (hring : ring ≠ []) (place : LatLon K) :
    ∃ p, ring[nearestIndex M ring place]? = some p ∧
      ∀ q ∈ ring, distanceM M place.lat place.lon p.lat p.lon ≤
        distanceM M place.lat place.lon q.lat q.lon := by
  obtain ⟨first, rest, rfl⟩ := List.exists_cons_of_ne_nil hring
  obtain ⟨j, q, hj, hmin, hfold⟩ := foldl_nearer M place [first] rest (i := 0) (p := first) rfl
    fun q hq => by rw [List.mem_singleton.mp hq]
  have hindex : nearestIndex M (first :: rest) place = j := by
    rw [nearestIndex_eq, List.zipIdx_cons, List.foldl_cons]
    exact congrArg (fun best : Option (K × ℕ) => best.elim 0 Prod.snd) hfold
  rw [hindex]
  exact ⟨q, hj, hmin⟩

theorem nearestIndex_lt {ring : List (LatLon K)} (hring : ring ≠ []) (place : LatLon K) :
    nearestIndex M ring place < ring.length := by
  obtain ⟨p, hp, -⟩ := nearestIndex_spec M hring place
  exact (List.getElem?_eq_some_iff.mp hp).1

/-- **The same point is nearest in the ring listed the other way round**, when no two points are as
far. -/
theorem nearestIndex_reverse {ring : List (LatLon K)} (hring : ring ≠ []) {place : LatLon K}
    (hapart : ring.Pairwise (Apart M place)) :
    nearestIndex M ring.reverse place = ring.length - 1 - nearestIndex M ring place := by
  obtain ⟨p, hp, hpmin⟩ := nearestIndex_spec M hring place
  obtain ⟨q, hq, hqmin⟩ := nearestIndex_spec M (List.reverse_ne_nil_iff.mpr hring) place
  have hlt := nearestIndex_lt M (List.reverse_ne_nil_iff.mpr hring) place
  have hlt' := nearestIndex_lt M hring place
  rw [List.length_reverse] at hlt
  rw [List.getElem?_reverse hlt] at hq
  have hsame : distanceM M place.lat place.lon p.lat p.lon =
      distanceM M place.lat place.lon q.lat q.lon :=
    le_antisymm (hpmin q (List.mem_of_getElem? hq))
      (hqmin p (List.mem_reverse.mpr (List.mem_of_getElem? hp)))
  have hindex : nearestIndex M ring place =
      ring.length - 1 - nearestIndex M ring.reverse place := by
    rcases lt_trichotomy (nearestIndex M ring place)
      (ring.length - 1 - nearestIndex M ring.reverse place) with hbefore | heq | hafter
    · exact absurd hsame (Lists.pairwise_getElem? hapart hp hq hbefore)
    · exact heq
    · exact absurd hsame.symm (Lists.pairwise_getElem? hapart hq hp hafter)
  omega

end Nearest

/-! ### The walk -/

section Walk

variable {K : Type} [Field K] [LinearOrder K] (M : MathLib K)

/-- The opposite way round. -/
def opposite : Direction → Direction
  | .positive => .negative
  | .negative => .positive

/-- Where step `i` of a backward walk stands, counted from the other end. -/
theorem backward_index {n s i : ℕ} (hs : s < n) (hi : i < n) :
    n - 1 - (n - 1 - s + i) % n = (s + n - i) % n := by
  rcases Nat.lt_or_ge s i with hlt | hge
  · have hforward : (n - 1 - s + i) % n = i - 1 - s := by
      rw [Nat.mod_eq_sub_mod (by omega), Nat.mod_eq_of_lt (by omega)]
      omega
    rw [hforward, Nat.mod_eq_of_lt (by omega)]
    omega
  · have hbackward : (s + n - i) % n = s - i := by
      rw [Nat.mod_eq_sub_mod (by omega), Nat.mod_eq_of_lt (by omega)]
      omega
    rw [hbackward, Nat.mod_eq_of_lt (by omega)]
    omega

omit [LinearOrder K] in
theorem buildDirectedRing_positive (ring : List (LatLon K)) {s : ℕ} (hs : s < ring.length) :
    buildDirectedRing M ring.reverse (ring.length - 1 - s) .positive =
      buildDirectedRing M ring s .negative := by
  unfold buildDirectedRing
  rw [List.length_reverse]
  have hordered : ((List.range ring.length).filterMap fun i =>
        ring.reverse[(ring.length - 1 - s + i) % ring.length]?) =
      (List.range ring.length).filterMap fun i => ring[(s + ring.length - i) % ring.length]? := by
    refine List.filterMap_congr fun i hi => ?_
    rw [List.getElem?_reverse (Nat.mod_lt _ (by omega)), backward_index hs (List.mem_range.mp hi)]
  dsimp only
  rw [hordered]

omit [LinearOrder K] in
/-- **Walking a ring one way is walking its reverse the other way.** -/
theorem buildDirectedRing_reverse {ring : List (LatLon K)} {s : ℕ} (hs : s < ring.length)
    (direction : Direction) :
    buildDirectedRing M ring.reverse (ring.length - 1 - s) direction =
      buildDirectedRing M ring s (opposite direction) := by
  cases direction with
  | positive => exact buildDirectedRing_positive M ring hs
  | negative =>
    have hs' : ring.length - 1 - s < ring.reverse.length := by
      rw [List.length_reverse]
      omega
    have hback := buildDirectedRing_positive M ring.reverse hs'
    rw [List.reverse_reverse, List.length_reverse] at hback
    rw [← hback, opposite]
    congr 1
    omega

/-- The steps forwards on a ring are the steps backwards on its reverse. -/
theorem steps_reverse {n i j : ℕ} (hi : i < n) (hj : j < n) :
    steps n (n - 1 - i) (n - 1 - j) = steps n j i := by
  have hindex : n - 1 - j + n - (n - 1 - i) = i + n - j := by omega
  rw [steps, steps, hindex]

end Walk

/-! ### The two derivations -/

section Main

variable {K : Type} [Field K] [LinearOrder K] [FloorRing K] (M : MathLib K)

omit [FloorRing K] in
theorem detectDirection_eq (ring : List (LatLon K)) (s : ℕ) {points : List (LapPoint K)}
    {probe : LapPoint K} (hprobe : probe? points = some probe) :
    detectDirection M ring s points =
      if steps ring.length s (nearestIndex M ring (placeOf probe)) ≤
          steps ring.length (nearestIndex M ring (placeOf probe)) s
      then .positive else .negative := by
  unfold detectDirection
  rw [← probe?, hprobe]
  rfl

omit [FloorRing K] in
theorem exists_probe {points : List (LapPoint K)} (hpoints : points ≠ []) :
    ∃ probe, probe? points = some probe := by
  obtain ⟨last, hlast⟩ : ∃ last, points.getLast? = some last :=
    ⟨_, List.getLast?_eq_some_getLast hpoints⟩
  rw [probe?, hlast]
  cases points.find? fun p => DIRECTION_PROBE_M ≤ p.distM with
  | none => exact ⟨last, rfl⟩
  | some found => exact ⟨found, rfl⟩

variable {M} {circuit : ReadyCircuit K} {sfGate : Gate K} {points : List (LapPoint K)}
  {sectorCount : ℕ}

/-- What a walk round the ring gives a derivation, before its own path is tried. -/
theorem gatesAlong_reversed (hring : circuit.ring ≠ [])
    (hmid : circuit.ring.Pairwise (Apart M (midpoint sfGate))) (direction : Direction) :
    gatesAlong M (reversed circuit) sfGate sectorCount direction =
      gatesAlong M circuit sfGate sectorCount (opposite direction) := by
  have hlt := nearestIndex_lt M hring (midpoint sfGate)
  rw [gatesAlong, gatesAlong, reversed]
  dsimp only
  rw [nearestIndex_reverse M hring hmid, buildDirectedRing_reverse M hlt]

omit [FloorRing K] in
/-- **The direction on the reversed ring**: the opposite one, but forwards again where both ways are
as long. -/
theorem detectDirection_reverse (hring : circuit.ring ≠ [])
    (hmid : circuit.ring.Pairwise (Apart M (midpoint sfGate))) {probe : LapPoint K}
    (hprobe : probe? points = some probe)
    (hapart : circuit.ring.Pairwise (Apart M (placeOf probe))) :
    (Tied M circuit.ring sfGate points ∧
      detectDirection M circuit.ring (nearestIndex M circuit.ring (midpoint sfGate)) points =
        .positive ∧
      detectDirection M (reversed circuit).ring
        (nearestIndex M (reversed circuit).ring (midpoint sfGate)) points = .positive) ∨
    (¬ Tied M circuit.ring sfGate points ∧
      detectDirection M circuit.ring (nearestIndex M circuit.ring (midpoint sfGate)) points =
        opposite (detectDirection M (reversed circuit).ring
          (nearestIndex M (reversed circuit).ring (midpoint sfGate)) points)) := by
  have hs := nearestIndex_lt M hring (midpoint sfGate)
  have hp := nearestIndex_lt M hring (placeOf probe)
  have htied : Tied M circuit.ring sfGate points ↔
      steps circuit.ring.length (nearestIndex M circuit.ring (midpoint sfGate))
          (nearestIndex M circuit.ring (placeOf probe)) =
        steps circuit.ring.length (nearestIndex M circuit.ring (placeOf probe))
          (nearestIndex M circuit.ring (midpoint sfGate)) := by
    rw [Tied]
    constructor
    · intro h
      exact h probe hprobe
    · intro h other hother
      cases hprobe.symm.trans hother
      exact h
  rw [htied, detectDirection_eq M _ _ hprobe, detectDirection_eq M _ _ hprobe, reversed]
  dsimp only
  rw [List.length_reverse, nearestIndex_reverse M hring hmid, nearestIndex_reverse M hring hapart,
    steps_reverse hs hp, steps_reverse hp hs]
  rcases lt_trichotomy
    (steps circuit.ring.length (nearestIndex M circuit.ring (midpoint sfGate))
      (nearestIndex M circuit.ring (placeOf probe)))
    (steps circuit.ring.length (nearestIndex M circuit.ring (placeOf probe))
      (nearestIndex M circuit.ring (midpoint sfGate))) with hlt | heq | hgt
  · right
    rw [if_pos hlt.le, if_neg (not_le.mpr hlt)]
    exact ⟨hlt.ne, rfl⟩
  · left
    rw [if_pos heq.le, if_pos heq.ge]
    exact ⟨heq, rfl, rfl⟩
  · right
    rw [if_neg (not_le.mpr hgt), if_pos hgt.le]
    exact ⟨hgt.ne', rfl⟩

variable (M) in
/-- Whether the gates of one way round are accepted on a lap. -/
def acceptedAlong (circuit : ReadyCircuit K) (sfGate : Gate K) (points : List (LapPoint K))
    (sectorCount : ℕ) (direction : Direction) : Bool :=
  isValidCandidate M points (gatesAlong M circuit sfGate sectorCount direction)
    (points.getLast?.elim 0 (·.distM)) sectorCount

theorem waysAgree_iff : WaysAgree M circuit sfGate points sectorCount ↔
    (∀ direction, acceptedAlong M circuit sfGate points sectorCount direction = false) ∨
    (∀ direction, acceptedAlong M circuit sfGate points sectorCount direction = true) ∧
      List.Forall₂ SameGate (gatesAlong M circuit sfGate sectorCount .positive)
        (gatesAlong M circuit sfGate sectorCount .negative) := by
  simp only [WaysAgree, acceptedAlong, ← accepted_iff_drives, Bool.not_eq_true]

theorem forall_direction {p : Direction → Prop} : (∀ direction, p direction) ↔
    p .positive ∧ p .negative :=
  ⟨fun h => ⟨h _, h _⟩, fun h direction => by cases direction <;> [exact h.1; exact h.2]⟩

variable (M) in
/-- The answer with the gates of one way round the ring, or else with those of the lap itself. -/
def answer (circuit : ReadyCircuit K) (sfGate : Gate K) (points : List (LapPoint K))
    (sectorCount : ℕ) (direction : Direction) : Option (SectorGatesResolution K) :=
  ((if acceptedAlong M circuit sfGate points sectorCount direction then
      some (gatesAlong M circuit sfGate sectorCount direction) else none).map
    fun gates => fresh gates .centreline).or
  ((deriveFromLap M points sfGate sectorCount).map fun gates => fresh gates .referenceLap)

theorem answer_reversed (hring : circuit.ring ≠ [])
    (hmid : circuit.ring.Pairwise (Apart M (midpoint sfGate))) (direction : Direction) :
    answer M (reversed circuit) sfGate points sectorCount direction =
      answer M circuit sfGate points sectorCount (opposite direction) := by
  rw [answer, answer, acceptedAlong, acceptedAlong, gatesAlong_reversed hring hmid]

omit [Field K] [LinearOrder K] [FloorRing K] in
theorem sameGate_refl (gates : List (Gate K)) : List.Forall₂ SameGate gates gates :=
  List.forall₂_same.mpr fun _ _ => .inl rfl

omit [Field K] [LinearOrder K] [FloorRing K] in
theorem sameResolution_refl (r : Option (SectorGatesResolution K)) : SameResolution r r := by
  cases r with
  | none => exact .none
  | some r => exact .some ⟨rfl, sameGate_refl r.gates⟩

/-- **The two answers are the same exactly when the two ways agree.** -/
theorem sameResolution_answer :
    SameResolution (answer M circuit sfGate points sectorCount .positive)
        (answer M circuit sfGate points sectorCount .negative) ↔
      WaysAgree M circuit sfGate points sectorCount := by
  have hlap : ∀ (gates : List (Gate K)),
      ¬ SameResolution (some (fresh gates .centreline))
          ((deriveFromLap M points sfGate sectorCount).map fun gates => fresh gates .referenceLap) ∧
        ¬ SameResolution
          ((deriveFromLap M points sfGate sectorCount).map fun gates => fresh gates .referenceLap)
          (some (fresh gates .centreline)) := by
    intro gates
    cases deriveFromLap M points sfGate sectorCount with
    | none => exact ⟨fun h => (nomatch h), fun h => (nomatch h)⟩
    | some own =>
      constructor
      · rintro ⟨hsource, -⟩
        cases hsource
      · rintro ⟨hsource, -⟩
        cases hsource
  rw [waysAgree_iff, forall_direction, forall_direction]
  unfold answer
  cases hpos : acceptedAlong M circuit sfGate points sectorCount .positive <;>
    cases hneg : acceptedAlong M circuit sfGate points sectorCount .negative
  · simp [sameResolution_refl]
  · simpa using (hlap _).2
  · simpa using (hlap _).1
  · simp only [if_true, Option.map_some, Option.some_or, Bool.true_eq_false, false_and, true_and,
      false_or]
    constructor
    · rintro ⟨-, hgates⟩
      exact hgates
    · intro hgates
      exact .some ⟨rfl, hgates⟩

/-- Where a derivation looks at the ring. -/
structure UsesRing (input : DeriveSectorGatesInput K) (lap : ReferenceLap K)
    (circuit : ReadyCircuit K) : Prop where
  referenceLap : input.referenceLap = some lap
  points : 3 ≤ lap.points.length
  sectors : 2 ≤ input.sectorCount
  length : circuit.centrelineLengthM ≠ 0

theorem deriveSectorGates_eq {input : DeriveSectorGatesInput K} {lap : ReferenceLap K}
    (h : UsesRing input lap circuit) (hcircuit : input.circuit = some circuit)
    (hring : 3 ≤ circuit.ring.length) :
    deriveSectorGates M input =
      answer M circuit input.sfGate lap.points input.sectorCount
        (detectDirection M circuit.ring (nearestIndex M circuit.ring (midpoint input.sfGate))
          lap.points) := by
  have hsizes : ¬ (lap.points.length < 3 ∨ input.sectorCount < 2) := by
    have hpoints := h.points
    have hsectors := h.sectors
    omega
  unfold deriveSectorGates
  rw [h.referenceLap]
  dsimp only
  rw [if_neg hsizes, hcircuit]
  dsimp only
  rw [if_pos ⟨hring, h.length⟩]
  rfl

/-- Where it does not, it does not matter which ring there is. -/
theorem deriveSectorGates_unused {input : DeriveSectorGatesInput K} (circuit' : ReadyCircuit K)
    (h : ∀ lap, ¬ UsesRing input lap circuit) (hcircuit : input.circuit = some circuit)
    (hlength : circuit'.centrelineLengthM = circuit.centrelineLengthM) :
    deriveSectorGates M { input with circuit := some circuit' } = deriveSectorGates M input := by
  unfold deriveSectorGates
  dsimp only
  rw [hcircuit]
  cases hlap : input.referenceLap with
  | none => rfl
  | some lap =>
    dsimp only
    by_cases hsizes : lap.points.length < 3 ∨ input.sectorCount < 2
    · rw [if_pos hsizes, if_pos hsizes]
    · have hzero : circuit.centrelineLengthM = 0 := by
        by_contra hne
        exact h lap ⟨hlap, by omega, by omega, hne⟩
      rw [hlength, hzero]
      simp

/-- **When a ring and its reverse give the same gates.**  Unless as many index steps lead one way
round as the other, always; and then, since both rings are walked forwards, exactly when the reference
lap drives the gates of neither way round, or of both, and they are the same. -/
theorem sameResolution_iff (input : DeriveSectorGatesInput K) (hcircuit : input.circuit = some circuit)
    (hring : 3 ≤ circuit.ring.length)
    (hmid : circuit.ring.Pairwise (Apart M (midpoint input.sfGate)))
    (hprobe : ∀ lap probe, input.referenceLap = some lap → probe? lap.points = some probe →
      circuit.ring.Pairwise (Apart M (placeOf probe))) :
    SameResolution (deriveSectorGates M input)
        (deriveSectorGates M { input with circuit := some (reversed circuit) }) ↔
      ∀ lap, UsesRing input lap circuit → Tied M circuit.ring input.sfGate lap.points →
        WaysAgree M circuit input.sfGate lap.points input.sectorCount := by
  have hne : circuit.ring ≠ [] := List.ne_nil_of_length_pos (by omega)
  by_cases huses : ∃ lap, UsesRing input lap circuit
  · obtain ⟨lap, huses⟩ := huses
    have hring' : 3 ≤ (reversed circuit).ring.length := by
      rw [reversed, List.length_reverse]
      exact hring
    have huses' : UsesRing { input with circuit := some (reversed circuit) } lap
        (reversed circuit) := ⟨huses.referenceLap, huses.points, huses.sectors, huses.length⟩
    have hpoints : 0 < lap.points.length := by
      have := huses.points
      omega
    obtain ⟨probe, hfound⟩ := exists_probe (List.ne_nil_of_length_pos hpoints)
    have honly : (∀ other, UsesRing input other circuit →
        Tied M circuit.ring input.sfGate other.points →
        WaysAgree M circuit input.sfGate other.points input.sectorCount) ↔
        (Tied M circuit.ring input.sfGate lap.points →
          WaysAgree M circuit input.sfGate lap.points input.sectorCount) := by
      constructor
      · intro h
        exact h lap huses
      · intro h other hother
        cases huses.referenceLap.symm.trans hother.referenceLap
        exact h
    rw [honly, deriveSectorGates_eq huses hcircuit hring, deriveSectorGates_eq huses' rfl hring']
    rcases detectDirection_reverse hne hmid hfound (hprobe lap probe huses.referenceLap hfound) with
      ⟨htied, hforwards, hforwards'⟩ | ⟨hsteps, hdirection⟩
    · -- both rings are walked forwards, which is backwards on the ring itself
      rw [hforwards, hforwards', answer_reversed hne hmid, opposite, sameResolution_answer]
      exact ⟨fun h _ => h, fun h => h htied⟩
    · rw [answer_reversed hne hmid, ← hdirection]
      exact iff_of_true (sameResolution_refl _) fun htied => absurd htied hsteps
  · have hunused : ∀ lap, ¬ UsesRing input lap circuit := fun lap h => huses ⟨lap, h⟩
    rw [deriveSectorGates_unused (reversed circuit) hunused hcircuit rfl]
    exact iff_of_true (sameResolution_refl _) fun lap h => absurd h (hunused lap)

end Main

section Example

/-- A square circuit of four points, a kilometre apart. -/
def squareCircuit : ReadyCircuit ℚ :=
  ⟨[⟨0, 0⟩, ⟨0, 1 / 100⟩, ⟨1 / 100, 1 / 100⟩, ⟨1 / 100, 0⟩], 111226 / 25⟩

/-- A lap of the square in the order of its ring, with these fixes on its first side. -/
def squareInput (early : List (LapPoint ℚ)) : DeriveSectorGatesInput ℚ where
  sfGate := ⟨-1 / 10000, 0, 1 / 10000, 0⟩
  circuit := some squareCircuit
  referenceLap := some {
    points := ⟨⟨0, 0, 0, none, none⟩, 0⟩ :: early ++
      [⟨⟨400, 0, 1 / 100, none, none⟩, 5566 / 5⟩,
        ⟨⟨800, 1 / 100, 1 / 100, none, none⟩, 55613 / 25⟩,
        ⟨⟨1200, 1 / 100, 0, none, none⟩, 83443 / 25⟩, ⟨⟨1600, 0, 0, none, none⟩, 111226 / 25⟩]
    distanceM := 4449 }

/-- A fix 111 m past the line: the nearest point of the ring is the one on the line. -/
def earlyFix : LapPoint ℚ := ⟨⟨100, 0, 1 / 1000, none, none⟩, 2783 / 25⟩

/-- The reference lap's probe, and what is asked of it. -/
def probeMeets (input : DeriveSectorGatesInput ℚ) (ask : LapPoint ℚ → Bool) : Bool :=
  input.referenceLap.all fun lap => (probe? lap.points).all ask

theorem of_probeMeets {input : DeriveSectorGatesInput ℚ} {ask : LapPoint ℚ → Bool}
    (h : probeMeets input ask = true) {lap : ReferenceLap ℚ} {probe : LapPoint ℚ}
    (hlap : input.referenceLap = some lap) (hprobe : probe? lap.points = some probe) :
    ask probe = true := by
  rw [probeMeets, hlap, Option.all_some, hprobe, Option.all_some] at h
  exact h

/-- Without the early fix the probe is nearest the second point, one step forwards and three back. -/
theorem sameResolution_iff_square : SameResolution (deriveSectorGates flatMath (squareInput []))
    (deriveSectorGates flatMath
      { squareInput [] with circuit := some (reversed squareCircuit) }) := by
  have hprobe : probeMeets (squareInput []) (fun probe =>
      decide (squareCircuit.ring.Pairwise (Apart flatMath (placeOf probe)))) = true := by
    decide +kernel
  have hsteps : probeMeets (squareInput []) (fun probe =>
      decide (steps 4 (nearestIndex flatMath squareCircuit.ring (midpoint (squareInput []).sfGate))
          (nearestIndex flatMath squareCircuit.ring (placeOf probe)) ≠
        steps 4 (nearestIndex flatMath squareCircuit.ring (placeOf probe))
          (nearestIndex flatMath squareCircuit.ring (midpoint (squareInput []).sfGate)))) = true := by
    decide +kernel
  refine (sameResolution_iff (squareInput []) rfl (by decide) (by decide +kernel) ?_).mpr ?_
  · intro lap probe hlap hfound
    exact of_decide_eq_true (of_probeMeets hprobe hlap hfound)
  · intro lap huses htied
    obtain ⟨probe, hfound⟩ := exists_probe (List.ne_nil_of_length_pos
      (lt_of_lt_of_le (by decide) huses.points))
    exact absurd (htied probe hfound)
      (of_decide_eq_true (of_probeMeets hsteps huses.referenceLap hfound))

/-- **A sparse ring**: the probe is nearest the start/finish point itself, both rings are walked in
the order they are listed, and only one of them gives the reference lap's sectors. -/
theorem not_sameResolution_sparse :
    3 ≤ squareCircuit.ring.length ∧
      squareCircuit.ring.Pairwise (Apart flatMath (midpoint (squareInput [earlyFix]).sfGate)) ∧
      probeMeets (squareInput [earlyFix]) (fun probe =>
        decide (squareCircuit.ring.Pairwise (Apart flatMath (placeOf probe)))) = true ∧
      ¬ SameResolution (deriveSectorGates flatMath (squareInput [earlyFix]))
        (deriveSectorGates flatMath
          { squareInput [earlyFix] with circuit := some (reversed squareCircuit) }) := by
  refine ⟨by decide, by decide +kernel, by decide +kernel, fun hsame => ?_⟩
  have hsource : ∀ {r r' : Option (SectorGatesResolution ℚ)}, SameResolution r r' →
      r.map (·.source) = r'.map (·.source) := by
    rintro _ _ (⟨hsource, -⟩ | _)
    · exact congrArg some hsource
    · rfl
  exact absurd (hsource hsame) (by decide +kernel)

end Example

end TelemetryCloud.RingWinding
