import TelemetryCloud.LapMarkers

/-!
# Where sector gates come from

`sector-gates.ts`: the gates somebody already knows, or a fresh set on the circuit's centreline, or
on the reference lap's own path; a fresh set is only handed back when the reference lap crosses every
gate of it once, in order, near where it should.

* `knownSectorGates`, `deriveSectorGates`, `resolveSectorGates` : the code;
* `deriveSectorGates_candidate` : a fresh set was built along some path and accepted on the reference
  lap;
* `deriveSectorGates_newlyDerived` : it is not empty, and is its own `newlyDerived`;
* `resolveSectorGates_persisted` : once persisted, a fresh set is what every later read resolves to.
-/

namespace TelemetryCloud.SectorGates

open TelemetryCloud.Geometry Gates LapMarkers

inductive SectorGatesSource
  | surveyed
  | centreline
  | referenceLap
  deriving DecidableEq

/-- `DerivedSectorGates`; the time it was derived at is read by nothing. -/
structure DerivedSectorGates (K : Type) where
  gates : List (Gate K)
  source : SectorGatesSource

structure SectorGatesResolution (K : Type) where
  gates : List (Gate K)
  source : SectorGatesSource
  newlyDerived : Option (DerivedSectorGates K)

@[ext] structure LatLon (K : Type) where
  lat : K
  lon : K

/-- A point with its distance along a path. -/
structure OffsetPoint (K : Type) extends LatLon K where
  distM : K

/-- `ReadyCircuit`: the centreline of a track map that is ready. -/
structure ReadyCircuit (K : Type) where
  ring : List (LatLon K)
  centrelineLengthM : K

structure ReferenceLap (K : Type) where
  points : List (LapPoint K)
  distanceM : ℤ

structure KnownSectorGatesInput (K : Type) where
  surveyedGates : Option (List (Gate K))
  persistedDerivedGates : Option (DerivedSectorGates K)

/-- `DeriveSectorGatesInput`; a ring comes with its length. -/
structure DeriveSectorGatesInput (K : Type) where
  sfGate : Gate K
  circuit : Option (ReadyCircuit K)
  referenceLap : Option (ReferenceLap K)
  sectorCount : ℕ := DEFAULT_SECTOR_COUNT

section Code

variable {K : Type} [Field K] [LinearOrder K] [FloorRing K] (M : MathLib K)

def SANE_BAND_FACTOR : K := 4 / 10
def DIRECTION_PROBE_M : K := 50

def toOffset (point : LapPoint K) : OffsetPoint K := ⟨⟨point.lat, point.lon⟩, point.distM⟩

omit [Field K] [LinearOrder K] [FloorRing K] in
/-- `knownSectorGates`: an empty list of gates is as good as none. -/
def knownSectorGates (input : KnownSectorGatesInput K) : Option (SectorGatesResolution K) :=
  match input.surveyedGates, input.persistedDerivedGates with
  | some (gate :: gates), _ => some ⟨gate :: gates, .surveyed, none⟩
  | _, some ⟨gate :: gates, source⟩ => some ⟨gate :: gates, source, none⟩
  | _, _ => none

/-! ### Construction and validation -/

def gateHalfWidthM (gate : Gate K) : K := distanceM M gate.lat1 gate.lon1 gate.lat2 gate.lon2 / 2

def midpoint (gate : Gate K) : LatLon K :=
  ⟨(gate.lat1 + gate.lat2) / 2, (gate.lon1 + gate.lon2) / 2⟩

/-- `%` on numbers: what is left of `x` after as many whole `y` as fit towards zero. -/
def remainder (x y : K) : K := x - y * (if 0 ≤ x / y then ⌊x / y⌋ else ⌈x / y⌉)

/-- The points of a path that bracket an offset, and the point of the path there. -/
def bracketOffset (t : K) : List (OffsetPoint K) → Option (LatLon K × OffsetPoint K × OffsetPoint K)
  | a :: b :: rest =>
    if t ≤ b.distM then
      let span := b.distM - a.distM
      let frac := if 0 < span then (t - a.distM) / span else 0
      some (⟨a.lat + frac * (b.lat - a.lat), a.lon + frac * (b.lon - a.lon)⟩, a, b)
    else
      match rest with
      | [] => some (b.toLatLon, a, b)
      | _ => bracketOffset t (b :: rest)
  | [only] => some (only.toLatLon, only, only)
  | [] => none

/-- `pointAtDistance`. -/
def pointAtDistance (path : List (OffsetPoint K)) (targetM totalM : K) :
    Option (LatLon K × OffsetPoint K × OffsetPoint K) :=
  bracketOffset (if 0 < totalM then remainder (remainder targetM totalM + totalM) totalM else 0) path

/-- `perpendicularGateAt`, in the frame of `localFrame` at the centre. -/
def perpendicularGateAt (a b : OffsetPoint K) (center : LatLon K) (halfWidthM : K) : Gate K :=
  let mLon := metersPerDegLon M center.lat
  let dx := (b.lon - center.lon) * mLon - (a.lon - center.lon) * mLon
  let dy := (b.lat - center.lat) * METERS_PER_DEG_LAT - (a.lat - center.lat) * METERS_PER_DEG_LAT
  let len := if M.hypot dx dy = 0 then 1 else M.hypot dx dy
  let ux := -dy / len
  let uy := dx / len
  { lat1 := center.lat + uy * halfWidthM / METERS_PER_DEG_LAT
    lon1 := center.lon + ux * halfWidthM / mLon
    lat2 := center.lat + -uy * halfWidthM / METERS_PER_DEG_LAT
    lon2 := center.lon + -ux * halfWidthM / mLon }

/-- `buildInteriorGates`; a path has at least one point. -/
def buildInteriorGates (path : List (OffsetPoint K)) (totalM halfWidthM : K) (sectorCount : ℕ) :
    List (Gate K) :=
  (List.range' 1 (sectorCount - 1)).filterMap fun k : ℕ =>
    (pointAtDistance path (totalM * (k : K) / (sectorCount : K)) totalM).map
      fun (center, a, b) => perpendicularGateAt M a b center halfWidthM

/-- `isValidCandidate`. -/
def isValidCandidate (points : List (LapPoint K)) (gates : List (Gate K)) (lapDistanceM : K)
    (sectorCount : ℕ) : Bool :=
  match crossGates M points gates with
  | none => false
  | some crossings =>
    let idealStep := lapDistanceM / sectorCount
    crossings.zipIdx.all fun (crossing, i) =>
      |crossing.distM - idealStep * ((i + 1 : ℕ) : K)| ≤ idealStep * SANE_BAND_FACTOR

/-! ### From the centreline -/

/-- `nearestIndex`: the first of the nearest points. -/
def nearestIndex (ring : List (LatLon K)) (point : LatLon K) : ℕ :=
  (ring.zipIdx.foldl (fun best (p, i) =>
      let d := distanceM M point.lat point.lon p.lat p.lon
      match best with
      | none => some (d, i)
      | some (bestM, bestIndex) => if d < bestM then some (d, i) else some (bestM, bestIndex))
    none).elim 0 Prod.snd

/-- `detectDirection`. -/
def detectDirection (ring : List (LatLon K)) (sfIndex : ℕ) (points : List (LapPoint K)) :
    Direction :=
  match (points.find? fun p => DIRECTION_PROBE_M ≤ p.distM).or points.getLast? with
  | none => .positive
  | some probe =>
    let probeIndex := nearestIndex M ring ⟨probe.lat, probe.lon⟩
    let n := ring.length
    if (probeIndex + n - sfIndex) % n ≤ (sfIndex + n - probeIndex) % n then .positive else .negative

/-- A path from `prev` on, with the distance at every point. -/
def offsetsFrom (prev : OffsetPoint K) : List (LatLon K) → List (OffsetPoint K)
  | [] => []
  | p :: rest =>
    let next : OffsetPoint K := ⟨p, prev.distM + distanceM M prev.lat prev.lon p.lat p.lon⟩
    next :: offsetsFrom next rest

/-- `buildDirectedRing`: from the start index round to it again. -/
def buildDirectedRing (ring : List (LatLon K)) (startIndex : ℕ) (direction : Direction) :
    List (OffsetPoint K) :=
  let n := ring.length
  let ordered := (List.range n).filterMap fun i =>
    match direction with
    | .positive => ring[(startIndex + i) % n]?
    | .negative => ring[(startIndex + n - i) % n]?
  match ordered with
  | [] => []
  | first :: rest => ⟨first, 0⟩ :: offsetsFrom M ⟨first, 0⟩ (rest ++ [first])

/-- `deriveFromCentreline`. -/
def deriveFromCentreline (circuit : ReadyCircuit K) (sfGate : Gate K) (points : List (LapPoint K))
    (sectorCount : ℕ) : Option (List (Gate K)) :=
  let sfIndex := nearestIndex M circuit.ring (midpoint sfGate)
  let direction := detectDirection M circuit.ring sfIndex points
  let candidate := buildInteriorGates M (buildDirectedRing M circuit.ring sfIndex direction)
    circuit.centrelineLengthM (gateHalfWidthM M sfGate) sectorCount
  let lapDistanceM := points.getLast?.elim 0 (·.distM)
  if isValidCandidate M points candidate lapDistanceM sectorCount then some candidate else none

/-! ### From the reference lap -/

/-- `deriveFromLap`. -/
def deriveFromLap (points : List (LapPoint K)) (sfGate : Gate K) (sectorCount : ℕ) :
    Option (List (Gate K)) :=
  let lapDistanceM := points.getLast?.elim 0 (·.distM)
  if lapDistanceM ≤ 0 then none
  else
    let candidate := buildInteriorGates M (points.map toOffset) lapDistanceM
      (gateHalfWidthM M sfGate) sectorCount
    if isValidCandidate M points candidate lapDistanceM sectorCount then some candidate else none

/-- A set just derived. -/
def fresh (gates : List (Gate K)) (source : SectorGatesSource) : SectorGatesResolution K :=
  ⟨gates, source, some ⟨gates, source⟩⟩

/-- `deriveSectorGates`. -/
def deriveSectorGates (input : DeriveSectorGatesInput K) : Option (SectorGatesResolution K) :=
  match input.referenceLap with
  | none => none
  | some lap =>
    if lap.points.length < 3 ∨ input.sectorCount < 2 then none
    else
      let centreline := match input.circuit with
        | some circuit =>
          if 3 ≤ circuit.ring.length ∧ circuit.centrelineLengthM ≠ 0 then
            deriveFromCentreline M circuit input.sfGate lap.points input.sectorCount
          else none
        | none => none
      (centreline.map fun gates => fresh gates .centreline).or
        ((deriveFromLap M lap.points input.sfGate input.sectorCount).map
          fun gates => fresh gates .referenceLap)

/-- `resolveSectorGates`: the whole ladder. -/
def resolveSectorGates (known : KnownSectorGatesInput K) (input : DeriveSectorGatesInput K) :
    Option (SectorGatesResolution K) :=
  (knownSectorGates known).or (deriveSectorGates M input)

end Code

/-! ### Fresh sets -/

section Fresh

variable {K : Type} [Field K] [LinearOrder K] [FloorRing K] {M : MathLib K}

omit [FloorRing K] in
theorem ne_nil_of_isValidCandidate {points : List (LapPoint K)} {gates : List (Gate K)}
    {lapDistanceM : K} {sectorCount : ℕ}
    (h : isValidCandidate M points gates lapDistanceM sectorCount = true) : gates ≠ [] := by
  rintro rfl
  unfold isValidCandidate crossGates at h
  cases hfirst : points.head? <;> cases hlast : points.getLast? <;> simp [hfirst, hlast] at h

variable (M) in
/-- Gates built along some path and accepted on a lap. -/
structure Candidate (points : List (LapPoint K)) (sectorCount : ℕ) (gates : List (Gate K)) :
    Prop where
  built : ∃ (path : List (OffsetPoint K)) (totalM halfWidthM : K), path ≠ [] ∧
    gates = buildInteriorGates M path totalM halfWidthM sectorCount
  valid : isValidCandidate M points gates (points.getLast?.elim 0 (·.distM)) sectorCount = true

omit [LinearOrder K] [FloorRing K] in
theorem buildDirectedRing_ne_nil {ring : List (LatLon K)} (hring : ring ≠ []) (startIndex : ℕ)
    (direction : Direction) : buildDirectedRing M ring startIndex direction ≠ [] := by
  have hpos : 0 < ring.length := List.length_pos_of_ne_nil hring
  have hfirst : ∀ i, ∃ p, ring[i % ring.length]? = some p := fun i =>
    ⟨_, List.getElem?_eq_getElem (Nat.mod_lt i hpos)⟩
  unfold buildDirectedRing
  obtain ⟨n, hn⟩ := Nat.exists_eq_succ_of_ne_zero hpos.ne'
  cases direction
  · obtain ⟨p, hp⟩ := hfirst (startIndex + 0)
    dsimp only
    rw [hn, List.range_succ_eq_map, List.filterMap_cons_some (hn ▸ hp)]
    exact List.cons_ne_nil _ _
  · obtain ⟨p, hp⟩ := hfirst (startIndex + ring.length - 0)
    dsimp only
    rw [hn, List.range_succ_eq_map, List.filterMap_cons_some (hn ▸ hp)]
    exact List.cons_ne_nil _ _

theorem candidate_of_deriveFromCentreline {circuit : ReadyCircuit K} {sfGate : Gate K}
    {points : List (LapPoint K)} {sectorCount : ℕ} {gates : List (Gate K)}
    (hring : circuit.ring ≠ [])
    (h : deriveFromCentreline M circuit sfGate points sectorCount = some gates) :
    Candidate M points sectorCount gates := by
  unfold deriveFromCentreline at h
  dsimp only at h
  split at h
  · rename_i hvalid
    cases h
    exact ⟨⟨_, _, _, buildDirectedRing_ne_nil hring _ _, rfl⟩, hvalid⟩
  · cases h

theorem candidate_of_deriveFromLap {points : List (LapPoint K)} {sfGate : Gate K} {sectorCount : ℕ}
    {gates : List (Gate K)} (hpoints : points ≠ [])
    (h : deriveFromLap M points sfGate sectorCount = some gates) :
    Candidate M points sectorCount gates := by
  unfold deriveFromLap at h
  dsimp only at h
  split at h
  · cases h
  · split at h
    · rename_i hvalid
      cases h
      exact ⟨⟨_, _, _, fun hnil => hpoints (List.map_eq_nil_iff.mp hnil), rfl⟩, hvalid⟩
    · cases h

/-- **A derivation**: a candidate of the reference lap, handed over to be persisted as it is. -/
theorem deriveSectorGates_candidate {input : DeriveSectorGatesInput K}
    {r : SectorGatesResolution K} (h : deriveSectorGates M input = some r) :
    r.newlyDerived = some ⟨r.gates, r.source⟩ ∧ 2 ≤ input.sectorCount ∧
      ∃ lap, input.referenceLap = some lap ∧
        Candidate M lap.points input.sectorCount r.gates := by
  unfold deriveSectorGates at h
  split at h
  · cases h
  · rename_i lap hlap
    split at h
    · cases h
    · rename_i hsize
      rw [not_or, not_lt, not_lt] at hsize
      dsimp only at h
      have hpoints : lap.points ≠ [] := List.ne_nil_of_length_pos (by omega)
      rcases Option.or_eq_some_iff.mp h with h | ⟨-, h⟩
      · obtain ⟨gates, hgates, rfl⟩ := Option.map_eq_some_iff.mp h
        split at hgates
        · rename_i circuit _
          split at hgates
          · rename_i hring
            have hring : circuit.ring ≠ [] := List.ne_nil_of_length_pos (by omega)
            exact ⟨rfl, hsize.2, lap, hlap, candidate_of_deriveFromCentreline hring hgates⟩
          · cases hgates
        · cases hgates
      · obtain ⟨gates, hgates, rfl⟩ := Option.map_eq_some_iff.mp h
        exact ⟨rfl, hsize.2, lap, hlap, candidate_of_deriveFromLap hpoints hgates⟩

/-- **A fresh set**: not empty, and handed over to be persisted as it is. -/
theorem deriveSectorGates_newlyDerived {input : DeriveSectorGatesInput K}
    {r : SectorGatesResolution K} (h : deriveSectorGates M input = some r) :
    r.gates ≠ [] ∧ r.newlyDerived = some ⟨r.gates, r.source⟩ := by
  obtain ⟨hnew, -, lap, -, hcandidate⟩ := deriveSectorGates_candidate h
  exact ⟨ne_nil_of_isValidCandidate hcandidate.valid, hnew⟩

omit [Field K] [LinearOrder K] [FloorRing K] in
theorem knownSectorGates_persisted {surveyed : Option (List (Gate K))}
    {persisted : Option (DerivedSectorGates K)} {set : DerivedSectorGates K}
    (hnone : knownSectorGates ⟨surveyed, persisted⟩ = none) (hne : set.gates ≠ []) :
    knownSectorGates ⟨surveyed, some set⟩ = some ⟨set.gates, set.source, none⟩ := by
  obtain ⟨gate, gates, hcons⟩ := List.exists_cons_of_ne_nil hne
  obtain ⟨setGates, source⟩ := set
  subst hcons
  unfold knownSectorGates at hnone ⊢
  match surveyed with
  | none => rfl
  | some [] => rfl
  | some (_ :: _) => cases hnone

/-- **Once persisted, a fresh set is what every later read resolves to**, whatever it would derive
itself. -/
theorem resolveSectorGates_persisted {surveyed : Option (List (Gate K))}
    {persisted : Option (DerivedSectorGates K)} {input : DeriveSectorGatesInput K}
    {r : SectorGatesResolution K} {set : DerivedSectorGates K}
    (h : resolveSectorGates M ⟨surveyed, persisted⟩ input = some r)
    (hset : r.newlyDerived = some set) (later : DeriveSectorGatesInput K) :
    resolveSectorGates M ⟨surveyed, some set⟩ later = some ⟨r.gates, r.source, none⟩ := by
  rcases Option.or_eq_some_iff.mp h with hknown | ⟨hnone, hfresh⟩
  · unfold knownSectorGates at hknown
    split at hknown <;> cases hknown <;> cases hset
  · obtain ⟨hne, hnew⟩ := deriveSectorGates_newlyDerived hfresh
    rw [hnew, Option.some.injEq] at hset
    subst hset
    rw [resolveSectorGates, knownSectorGates_persisted hnone hne]
    rfl

end Fresh

end TelemetryCloud.SectorGates
