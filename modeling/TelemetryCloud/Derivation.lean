import TelemetryCloud.LapTrace
import TelemetryCloud.OptimalLap
import TelemetryCloud.SectorGates
import Mathlib.Data.List.Chain

/-!
# One derivation: from what it reads to the rows it stores

The tables `AnalysisService` reads and writes, and the pure part of `derive`: the sector gates it
applies to the laps, the rows it builds from them and the response it gives.

* `Reads`, `derivation` : what a derivation reads decides its rows, their scheme and the gates it
  persists;
* `derivation_congr` : the segmented laps and the resolved sector gates decide its rows and their
  scheme, `agree_persisted` ;
* `derivation_rows` : **the rows of one derivation are a lap table**: numbered from 1, sharing their
  boundaries, one of them the best.
-/

namespace TelemetryCloud.Derivation

open TelemetryCloud.Geometry Gates LapMarkers LapSegmenter LapTrace OptimalLap SectorGates

/-! ### The tables -/

inductive SessionStatus
  | live
  | completed
  | aborted
  deriving DecidableEq

inductive SectorScheme
  | gates
  | distance
  deriving DecidableEq

/-- A row of `tracks`. -/
structure Track (K : Type) where
  id : ℕ
  slug : String
  deviceTrackIds : List String
  sfLat1 : K
  sfLon1 : K
  sfLat2 : K
  sfLon2 : K
  sectorGates : Option (List (Gate K))
  derivedSectorGates : Option (DerivedSectorGates K)
  updatedAt : ℤ

/-- A row of `sessions`; one that is not live has its end. -/
structure Session where
  track : String
  startedAt : ℤ
  endedAt : Option ℤ
  status : SessionStatus
  analyzedAt : Option ℤ
  sectorScheme : Option SectorScheme
  closed : status ≠ .live → endedAt.isSome = true

/-- A row of `laps`. -/
structure Lap (K : Type) extends OptimalLapInput K where
  startedAt : ℤ
  endedAt : ℤ
  maxSpeedKmh : Option K
  minSpeedKmh : Option K
  isBest : Bool

/-- The tables, by session where every read is of one session; `circuits` is what the track map
service answers for a track when asked now. -/
structure Database (K : Type) where
  sessions : ℕ → Option Session
  tracks : List (Track K)
  samples : ℕ → List (StoredSample K)
  laps : ℕ → List (Lap K)
  circuits : ℕ → Option (ReadyCircuit K)

/-- A track's start/finish gate. -/
def gateOf {K : Type} (track : Track K) : Gate K :=
  ⟨track.sfLat1, track.sfLon1, track.sfLat2, track.sfLon2⟩

section Writes

variable {K : Type}

/-- `setDerivedSectorGates`: the update moves the row's `updatedAt`. -/
def Database.setDerivedSectorGates (db : Database K) (trackId : ℕ) (set : DerivedSectorGates K)
    (updatedAt : ℤ) : Database K :=
  { db with
    tracks := db.tracks.map fun track =>
      if track.id = trackId then { track with derivedSectorGates := some set, updatedAt }
      else track }

def Database.setLaps (db : Database K) (sessionId : ℕ) (laps : List (Lap K)) : Database K :=
  { db with laps := Function.update db.laps sessionId laps }

/-- `setAnalyzedAt`. -/
def Database.setAnalyzedAt (db : Database K) (sessionId : ℕ) (analyzedAt : ℤ)
    (sectorScheme : SectorScheme) : Database K :=
  { db with
    sessions := Function.update db.sessions sessionId
      ((db.sessions sessionId).map fun session =>
        { session with analyzedAt := some analyzedAt, sectorScheme := some sectorScheme }) }

/-- `SessionsService.update` with another track. -/
def Database.patchTrack (db : Database K) (sessionId : ℕ) (track : String) : Database K :=
  { db with
    sessions := Function.update db.sessions sessionId
      ((db.sessions sessionId).map fun session => { session with track }) }

/-- A sample whose instant and number are there already is dropped. -/
def insertSample (samples : List (StoredSample K)) (sample : StoredSample K) :
    List (StoredSample K) :=
  if samples.any fun row => row.time = sample.time ∧ row.seq = sample.seq then samples
  else samples ++ [sample]

def Database.arrive (db : Database K) (sessionId : ℕ) (sample : StoredSample K) : Database K :=
  { db with
    samples := Function.update db.samples sessionId
      (insertSample (db.samples sessionId) sample) }

/-- A track row is written over. -/
def Database.setTrack (db : Database K) (track : Track K) : Database K :=
  { db with tracks := db.tracks.map fun row => if row.id = track.id then track else row }

end Writes

/-! ### `TracksService.resolve` -/

/-- What `trim` takes off the ends of a string. -/
def isSpace (c : Char) : Bool :=
  c.toNat ∈ [9, 10, 11, 12, 13, 32, 0xa0, 0x1680, 0x2028, 0x2029, 0x202f, 0x205f, 0x3000, 0xfeff] ∨
    (0x2000 ≤ c.toNat ∧ c.toNat ≤ 0x200a)

def trim (s : String) : String :=
  String.ofList ((((s.toList.dropWhile isSpace).reverse).dropWhile isSpace).reverse)

/-- `TracksService.resolve`, with the database's `lower`: the row whose slug the name is, in any
case, or one of whose device ids. -/
def resolve {K : Type} (lower : String → String) (tracks : List (Track K)) (track : String) :
    Option (Track K) :=
  if trim track = "" then none
  else tracks.find? fun row =>
    lower row.slug = lower (trim track) ∨ trim track ∈ row.deviceTrackIds

/-! ### `AnalysisSamplesRepository` -/

section Samples

variable {K : Type}

def countRange (samples : List (StoredSample K)) (lo hi : ℤ) : ℕ :=
  samples.countP fun row => lo ≤ row.time ∧ row.time ≤ hi

def findRange (samples : List (StoredSample K)) (lo hi : ℤ) : List (AnalysisSample K) :=
  (SampleTable.range (·.time) StoredSample.seq samples lo hi).map (·.toAnalysisSample)

end Samples

/-! ### `LapsRepository` -/

section Laps

variable {K : Type}

/-- `ORDER BY "lapNumber"`. -/
def findBySession (rows : List (Lap K)) : List (Lap K) :=
  rows.insertionSort fun a b => a.lapNumber ≤ b.lapNumber

/-- `insertIgnoringDuplicates`: a row whose number is taken is dropped. -/
def insertIgnoringDuplicates (rows laps : List (Lap K)) : List (Lap K) :=
  laps.foldl (fun rows lap =>
    if rows.any (·.lapNumber = lap.lapNumber) then rows else rows ++ [lap]) rows

/-- `replaceSession`: delete and insert in one transaction. -/
def replaceSession (laps : List (Lap K)) : List (Lap K) := insertIgnoringDuplicates [] laps

end Laps

/-! ### The rows of a derivation -/

section Rows

variable {K : Type}

/-- The quickest of some laps and where it stands: `best` so far, the rest from `i` on. -/
def fastestFrom (best : ℕ × DerivedLap K) : ℕ → List (DerivedLap K) → ℕ × DerivedLap K
  | _, [] => best
  | i, lap :: rest => fastestFrom (if lap.lapMs < best.2.lapMs then (i, lap) else best) (i + 1) rest

/-- `fastestLap`, with its index: the code compares laps by identity. -/
def fastestLap : List (DerivedLap K) → Option (ℕ × DerivedLap K)
  | [] => none
  | first :: rest => some (fastestFrom (0, first) 1 rest)

/-- One row of `toRows`. -/
def toRow (lap : DerivedLap K) (isBest : Bool) : Lap K where
  lapNumber := lap.lapNumber
  lapMs := lap.lapMs
  distanceM := lap.distanceM
  sectorMs := lap.sectorMs
  brakingPoints := lap.brakingPoints
  startedAt := lap.startedAt
  endedAt := lap.endedAt
  maxSpeedKmh := lap.maxSpeedKmh
  minSpeedKmh := lap.minSpeedKmh
  isBest := isBest

/-- `toRows`. -/
def toRows (derived : List (DerivedLap K)) : List (Lap K) :=
  derived.mapIdx fun i lap => toRow lap ((fastestLap derived).any (·.1 = i))

/-- The inputs of one derivation: the track row, the samples and, where the gates are not known yet,
the circuit. -/
structure Reads (K : Type) where
  track : Track K
  samples : List (AnalysisSample K)
  circuit : Option (ReadyCircuit K)

/-- The gates on a track row, surveyed or persisted. -/
def known (track : Track K) : KnownSectorGatesInput K :=
  ⟨track.sectorGates, track.derivedSectorGates⟩

/-- The result of a derivation. -/
structure DerivedRows (K : Type) where
  laps : List (Lap K)
  sectorScheme : SectorScheme
  newlyDerived : Option (DerivedSectorGates K)

end Rows

section Derive

variable {K : Type} [Field K] [LinearOrder K] [FloorRing K] (M : MathLib K)

/-- The laps on the start/finish gate alone. -/
def Reads.derived (reads : Reads K) : List (DerivedLap K) :=
  segmentLaps M {} (gateOf reads.track) reads.samples

/-- The sector gates a derivation resolves to: `knownSectorGates`, or what `deriveSectorGatesFor`
finds with the circuit. -/
def Reads.resolution (reads : Reads K) : Option (SectorGatesResolution K) :=
  resolveSectorGates M (known reads.track) {
    sfGate := gateOf reads.track
    circuit := reads.circuit
    referenceLap := (fastestLap (reads.derived M)).map fun best =>
      ⟨best.2.points, best.2.distanceM⟩ }

/-- A lap split on gates. -/
def gated (gates : List (Gate K)) (lap : DerivedLap K) : DerivedLap K :=
  { lap with sectorMs := sectorTimesFromGates M lap.points gates }

/-- `applySectorGates`: the gates are only kept when some lap has splits on them. -/
def applySectorGates (derived : List (DerivedLap K))
    (resolution : Option (SectorGatesResolution K)) :
    List (DerivedLap K) × SectorScheme × Option (DerivedSectorGates K) :=
  match resolution with
  | none => (derived, .distance, none)
  | some r =>
    if (derived.map (gated M r.gates)).any (¬ ·.sectorMs.isEmpty) then
      (derived.map (gated M r.gates), .gates, r.newlyDerived)
    else (derived, .distance, none)

/-- Some lap crosses the resolved gates cleanly. -/
def Reads.usesGates (reads : Reads K) : Bool :=
  (reads.resolution M).any fun r =>
    ((reads.derived M).map (gated M r.gates)).any (¬ ·.sectorMs.isEmpty)

/-- **What a derivation makes of what it read.** -/
def derivation (reads : Reads K) : DerivedRows K :=
  let applied := applySectorGates M (reads.derived M) (reads.resolution M)
  ⟨toRows applied.1, applied.2.1, applied.2.2⟩

end Derive

/-! ### The response -/

inductive AnalysisSkipReason
  | sessionLive
  | noTrackGate
  | noSamples
  | tooManySamples
  | noCrossings
  deriving DecidableEq

structure LapsResponse (K : Type) where
  laps : List (Lap K)
  analyzedAt : Option ℤ
  optimal : Option (OptimalLapDto K)
  sectorScheme : Option SectorScheme
  reason : Option AnalysisSkipReason

/-- `respond`. -/
def respond {K : Type} [Field K] [LinearOrder K] [FloorRing K] (session : Session)
    (laps : List (Lap K)) (reason : Option AnalysisSkipReason) : LapsResponse K where
  laps := laps
  analyzedAt := session.analyzedAt
  optimal := buildOptimalLap (laps.map (·.toOptimalLapInput))
  sectorScheme := session.sectorScheme
  reason := reason

/-! ### Inserting rows -/

section Insert

variable {K : Type}

theorem insertIgnoringDuplicates_append (rows laps : List (Lap K))
    (h : ((rows ++ laps).map fun lap => lap.lapNumber).Nodup) :
    insertIgnoringDuplicates rows laps = rows ++ laps := by
  induction laps generalizing rows with
  | nil => rw [List.append_nil, insertIgnoringDuplicates, List.foldl_nil]
  | cons lap laps ih =>
    have hfresh : rows.any (·.lapNumber = lap.lapNumber) = false := by
      rw [List.any_eq_false]
      intro row hrow heq
      rw [List.map_append, List.nodup_append] at h
      exact h.2.2 _ (List.mem_map_of_mem hrow) _ (List.mem_map_of_mem List.mem_cons_self)
        (of_decide_eq_true heq)
    have hstep := ih (rows ++ [lap]) (by rwa [List.append_assoc, List.singleton_append])
    rw [insertIgnoringDuplicates, List.foldl_cons, hfresh]
    rw [insertIgnoringDuplicates, List.append_assoc, List.singleton_append] at hstep
    exact hstep

/-- Rows whose numbers are all taken change nothing. -/
theorem insertIgnoringDuplicates_taken (rows laps : List (Lap K))
    (h : ∀ lap ∈ laps, ∃ row ∈ rows, row.lapNumber = lap.lapNumber) :
    insertIgnoringDuplicates rows laps = rows := by
  induction laps with
  | nil => rfl
  | cons lap laps ih =>
    obtain ⟨row, hrow, heq⟩ := h lap List.mem_cons_self
    have htaken : rows.any (·.lapNumber = lap.lapNumber) = true :=
      List.any_eq_true.mpr ⟨row, hrow, decide_eq_true heq⟩
    rw [insertIgnoringDuplicates, List.foldl_cons, htaken]
    exact ih fun other hother => h other (List.mem_cons_of_mem _ hother)

theorem insertIgnoringDuplicates_two (rows laps more : List (Lap K)) :
    insertIgnoringDuplicates rows (laps ++ more) =
      insertIgnoringDuplicates (insertIgnoringDuplicates rows laps) more :=
  List.foldl_append

/-- Into no rows, rows of different numbers go as they are. -/
theorem replaceSession_eq (laps : List (Lap K))
    (h : (laps.map fun lap => lap.lapNumber).Nodup) : replaceSession laps = laps :=
  insertIgnoringDuplicates_append [] laps h

/-- Laps that only go on from the stored rows are stored whole. -/
theorem insertIgnoringDuplicates_prefix {rows laps : List (Lap K)} (hpre : rows <+: laps)
    (h : (laps.map fun lap => lap.lapNumber).Nodup) : insertIgnoringDuplicates rows laps = laps := by
  obtain ⟨more, rfl⟩ := hpre
  rw [insertIgnoringDuplicates_two,
    insertIgnoringDuplicates_taken rows rows fun lap hlap => ⟨lap, hlap, rfl⟩]
  exact insertIgnoringDuplicates_append rows more h

/-- No more laps than there are rows: all their numbers are taken. -/
theorem insertIgnoringDuplicates_of_length_le {rows laps : List (Lap K)}
    (hrows : (rows.map fun row => row.lapNumber) = List.range' 1 rows.length)
    (hlaps : (laps.map fun lap => lap.lapNumber) = List.range' 1 laps.length)
    (hle : laps.length ≤ rows.length) : insertIgnoringDuplicates rows laps = rows := by
  refine insertIgnoringDuplicates_taken rows laps fun lap hlap => ?_
  have hnumber : lap.lapNumber ∈ List.range' 1 laps.length := by
    rw [← hlaps]
    exact List.mem_map_of_mem hlap
  have htaken : lap.lapNumber ∈ rows.map fun row => row.lapNumber := by
    rw [hrows]
    rw [List.mem_range'_1] at hnumber ⊢
    omega
  exact List.mem_map.mp htaken

end Insert

/-! ### The fastest lap -/

section Fastest

variable {K : Type}

theorem fastestFrom_spec (before laps : List (DerivedLap K)) (best : ℕ × DerivedLap K)
    (hbest : before[best.1]? = some best.2) :
    (before ++ laps)[(fastestFrom best before.length laps).1]? =
        some (fastestFrom best before.length laps).2 ∧
      (fastestFrom best before.length laps).2.lapMs ≤ best.2.lapMs ∧
      ∀ lap ∈ laps, (fastestFrom best before.length laps).2.lapMs ≤ lap.lapMs := by
  induction laps generalizing before best with
  | nil =>
    rw [List.append_nil, fastestFrom]
    exact ⟨hbest, le_refl _, fun lap h => absurd h List.not_mem_nil⟩
  | cons lap laps ih =>
    have hlt : best.1 < before.length := (List.getElem?_eq_some_iff.mp hbest).1
    have hnext : (before ++ [lap])[(if lap.lapMs < best.2.lapMs then (before.length, lap)
        else best).1]? = some (if lap.lapMs < best.2.lapMs then (before.length, lap) else best).2 := by
      split
      · exact List.getElem?_concat_length
      · rw [List.getElem?_append_left hlt]
        exact hbest
    have hstep := ih (before ++ [lap]) _ hnext
    rw [List.append_assoc, List.singleton_append, List.length_append, List.length_singleton] at hstep
    have hnew : (if lap.lapMs < best.2.lapMs then (before.length, lap) else best).2.lapMs ≤
          best.2.lapMs ∧
        (if lap.lapMs < best.2.lapMs then (before.length, lap) else best).2.lapMs ≤ lap.lapMs := by
      split
      · rename_i h
        exact ⟨h.le, le_refl _⟩
      · rename_i h
        exact ⟨le_refl _, not_lt.mp h⟩
    rw [fastestFrom]
    obtain ⟨hget, hle, hall⟩ := hstep
    refine ⟨hget, hle.trans hnew.1, fun other hother => ?_⟩
    rcases List.mem_cons.mp hother with rfl | hother
    · exact hle.trans hnew.2
    · exact hall other hother

/-- **The fastest lap**: a lap of the list, and none is quicker. -/
theorem fastestLap_spec {laps : List (DerivedLap K)} {best : ℕ × DerivedLap K}
    (h : fastestLap laps = some best) :
    laps[best.1]? = some best.2 ∧ ∀ lap ∈ laps, best.2.lapMs ≤ lap.lapMs := by
  cases laps with
  | nil => cases h
  | cons first rest =>
    cases h
    obtain ⟨hget, hle, hall⟩ := fastestFrom_spec [first] rest (0, first) rfl
    refine ⟨hget, fun lap hlap => ?_⟩
    rcases List.mem_cons.mp hlap with rfl | hlap
    · exact hle
    · exact hall lap hlap

end Fastest

/-! ### The rows of one derivation -/

/-- **A lap table**: numbered from 1, sharing their boundaries, and one row of it the best. -/
structure LapRows {K : Type} (rows : List (Lap K)) : Prop where
  numbered : (rows.map fun row => row.lapNumber) = List.range' 1 rows.length
  shared : rows.IsChain fun a b => a.endedAt = b.startedAt
  best : ∃ (k : ℕ) (best : Lap K), rows[k]? = some best ∧ best.isBest = true ∧
    (∀ row ∈ rows, best.lapMs ≤ row.lapMs) ∧
    ∀ (i : ℕ) (row : Lap K), rows[i]? = some row → row.isBest = true → i = k

theorem LapRows.nodup {K : Type} {rows : List (Lap K)} (h : LapRows rows) :
    (rows.map fun row => row.lapNumber).Nodup := by
  rw [h.numbered]
  exact List.nodup_range'

section LapRows

variable {K : Type} {derived : List (DerivedLap K)}

theorem toRows_map {α : Type} (f : Lap K → α) (g : DerivedLap K → α)
    (h : ∀ lap isBest, f (toRow lap isBest) = g lap) :
    (toRows derived).map f = derived.map g := by
  refine List.ext_getElem? fun i => ?_
  rw [toRows, List.getElem?_map, List.getElem?_map, List.getElem?_mapIdx, Option.map_map]
  exact congrArg (fun f => derived[i]?.map f) (funext fun lap => h lap _)

theorem toRows_numbers : (toRows derived).map (fun row => row.lapNumber) =
    derived.map (·.lapNumber) :=
  toRows_map _ _ fun _ _ => rfl

theorem toRows_lapRows (hne : derived ≠ [])
    (hnumbered : derived.map (·.lapNumber) = List.range' 1 derived.length)
    (hshared : derived.IsChain fun a b => a.endedAt = b.startedAt) : LapRows (toRows derived) where
  numbered := by
    rw [toRows_numbers, hnumbered, toRows, List.length_mapIdx]
  shared := by
    have hbounds : (toRows derived).map (fun row => (row.startedAt, row.endedAt)) =
        derived.map fun lap => (lap.startedAt, lap.endedAt) :=
      toRows_map _ _ fun _ _ => rfl
    have hchain : (derived.map fun lap => (lap.startedAt, lap.endedAt)).IsChain
        fun a b => a.2 = b.1 := (List.isChain_map _).mpr hshared
    rw [← hbounds, List.isChain_map] at hchain
    exact hchain
  best := by
    obtain ⟨best, hbest⟩ : ∃ best, fastestLap derived = some best := by
      cases derived with
      | nil => exact absurd rfl hne
      | cons first rest => exact ⟨_, rfl⟩
    obtain ⟨hget, hmin⟩ := fastestLap_spec hbest
    have hrow : ∀ i, (toRows derived)[i]? = derived[i]?.map fun lap =>
        toRow lap (decide (best.1 = i)) := by
      intro i
      rw [toRows, List.getElem?_mapIdx, hbest, Option.any_some]
    refine ⟨best.1, toRow best.2 (decide (best.1 = best.1)), ?_, decide_eq_true rfl, ?_, ?_⟩
    · rw [hrow, hget, Option.map_some]
    · intro row hmem
      have hms := List.mem_map_of_mem (f := fun row : Lap K => row.lapMs) hmem
      rw [toRows_map (fun row : Lap K => row.lapMs) (·.lapMs) (fun _ _ => rfl)] at hms
      obtain ⟨lap, hlap, heq⟩ := List.mem_map.mp hms
      rw [← heq]
      exact hmin lap hlap
    · intro i row hi hisBest
      rw [hrow] at hi
      obtain ⟨lap, -, rfl⟩ := Option.map_eq_some_iff.mp hi
      exact (of_decide_eq_true hisBest).symm

end LapRows

section Derived

variable {K : Type} [Field K] [LinearOrder K] [FloorRing K] (M : MathLib K)

/-- Splitting laps on gates moves nothing but their splits. -/
theorem applySectorGates_map {α : Type} (f : DerivedLap K → α)
    (hf : ∀ gates lap, f (gated M gates lap) = f lap) (derived : List (DerivedLap K))
    (resolution : Option (SectorGatesResolution K)) :
    (applySectorGates M derived resolution).1.map f = derived.map f := by
  unfold applySectorGates
  cases resolution with
  | none => rfl
  | some r =>
    dsimp only
    split
    · rw [List.map_map]
      exact List.map_congr_left fun lap _ => hf r.gates lap
    · rfl

/-- What neither the gates nor the flag of the best lap touch is read off the segmented laps. -/
theorem derivation_map {α : Type} (f : Lap K → α) (g : DerivedLap K → α)
    (hrow : ∀ lap isBest, f (toRow lap isBest) = g lap)
    (hgated : ∀ gates lap, g (gated M gates lap) = g lap) (reads : Reads K) :
    (derivation M reads).laps.map f = (reads.derived M).map g := by
  rw [derivation, toRows_map f g hrow]
  exact applySectorGates_map M g hgated (reads.derived M) (reads.resolution M)

theorem length_derivation (reads : Reads K) :
    (derivation M reads).laps.length = (reads.derived M).length := by
  have hmap := congrArg List.length (derivation_map M (fun row => row.lapNumber) (·.lapNumber)
    (fun _ _ => rfl) (fun _ _ => rfl) reads)
  rwa [List.length_map, List.length_map] at hmap

theorem derivation_sectorScheme (reads : Reads K) :
    (derivation M reads).sectorScheme = if reads.usesGates M then .gates else .distance := by
  rw [derivation, Reads.usesGates]
  unfold applySectorGates
  cases reads.resolution M with
  | none => rfl
  | some r =>
    rw [Option.any_some]
    dsimp only
    split <;> rfl

/-- **The rows of one derivation are a lap table.** -/
theorem derivation_rows {reads : Reads K} (hne : reads.derived M ≠ []) :
    LapRows (derivation M reads).laps := by
  have hmap := @applySectorGates_map K _ _ _ M
  refine toRows_lapRows ?_ ?_ ?_
  · intro hnil
    have := congrArg List.length (hmap (·.lapNumber) (fun _ _ => rfl) (reads.derived M)
      (reads.resolution M))
    rw [hnil, List.length_map, List.length_map] at this
    exact hne (List.length_eq_zero_iff.mp this.symm)
  · have hlength := congrArg List.length (hmap (·.lapNumber) (fun _ _ => rfl) (reads.derived M)
      (reads.resolution M))
    rw [List.length_map, List.length_map] at hlength
    rw [hmap (·.lapNumber) (fun _ _ => rfl), hlength]
    have hnumbers := lapsOf_numbers M {} (reads.samples.filterMap AnalysisSample.point?) 1
      (accepted (passages (projectGate M (gateOf reads.track))
        (reads.samples.filterMap AnalysisSample.point?)))
    rw [← segmentLaps_eq] at hnumbers
    have hcount := congrArg List.length hnumbers
    rw [List.length_map, List.length_range'] at hcount
    rw [Reads.derived, hcount]
    exact hnumbers
  · have hshared : (reads.derived M).IsChain fun a b => a.endedAt = b.startedAt := by
      rw [Reads.derived, segmentLaps_eq]
      exact lapsOf_isChain M {} _ 1 _
    have hchain : ((reads.derived M).map fun lap => (lap.startedAt, lap.endedAt)).IsChain
        fun a b => a.2 = b.1 := (List.isChain_map _).mpr hshared
    rw [← hmap (fun lap => (lap.startedAt, lap.endedAt)) (fun _ _ => rfl) (reads.derived M)
      (reads.resolution M), List.isChain_map] at hchain
    exact hchain

/-- Two derivations agree: they segmented the same laps and resolved the same sector gates. -/
structure Agree (a b : Reads K) : Prop where
  laps : a.derived M = b.derived M
  sectorGates : (a.resolution M).map (·.gates) = (b.resolution M).map (·.gates)

theorem Agree.refl (a : Reads K) : Agree M a a := ⟨rfl, rfl⟩

/-- The gates alone decide how the laps are split. -/
theorem applySectorGates_congr (derived : List (DerivedLap K))
    {r r' : Option (SectorGatesResolution K)} (h : r.map (·.gates) = r'.map (·.gates)) :
    (applySectorGates M derived r).1 = (applySectorGates M derived r').1 ∧
      (applySectorGates M derived r).2.1 = (applySectorGates M derived r').2.1 := by
  unfold applySectorGates
  cases r with
  | none =>
    cases r' with
    | none => exact ⟨rfl, rfl⟩
    | some r' => cases h
  | some r =>
    cases r' with
    | none => cases h
    | some r' =>
      rw [Option.map_some, Option.map_some, Option.some.injEq] at h
      dsimp only
      rw [h]
      split <;> exact ⟨rfl, rfl⟩

/-- **Derivations that agree store the same rows and the same scheme.** -/
theorem derivation_congr {a b : Reads K} (h : Agree M a b) :
    (derivation M a).laps = (derivation M b).laps ∧
      (derivation M a).sectorScheme = (derivation M b).sectorScheme := by
  have happlied := applySectorGates_congr M (a.derived M) h.sectorGates
  rw [derivation, derivation, ← h.laps]
  exact ⟨congrArg toRows happlied.1, happlied.2⟩

theorem usesGates_congr {a b : Reads K} (h : Agree M a b) : a.usesGates M = b.usesGates M := by
  have hgates := h.sectorGates
  rw [Reads.usesGates, Reads.usesGates, h.laps]
  cases ha : a.resolution M with
  | none =>
    rw [ha, Option.map_none, eq_comm, Option.map_eq_none_iff] at hgates
    rw [hgates]
  | some r =>
    rw [ha, Option.map_some, eq_comm, Option.map_eq_some_iff] at hgates
    obtain ⟨r', hb, heq⟩ := hgates
    rw [hb, Option.any_some, Option.any_some, heq]

/-- **A derivation that reads back the gates another one persisted agrees with it**, whatever circuit
there is by then. -/
theorem agree_persisted {reads later : Reads K} {set : DerivedSectorGates K}
    (hset : (derivation M reads).newlyDerived = some set)
    (hsamples : later.samples = reads.samples) (hgate : gateOf later.track = gateOf reads.track)
    (hsurveyed : later.track.sectorGates = reads.track.sectorGates)
    (hderived : later.track.derivedSectorGates = some set) : Agree M reads later := by
  refine ⟨by rw [Reads.derived, Reads.derived, hsamples, hgate], ?_⟩
  unfold derivation applySectorGates at hset
  cases hres : reads.resolution M with
  | none =>
    rw [hres] at hset
    cases hset
  | some r =>
    rw [hres] at hset
    dsimp only at hset
    split at hset
    · rw [Reads.resolution, known] at hres
      have hlater := resolveSectorGates_persisted hres hset {
        sfGate := gateOf later.track
        circuit := later.circuit
        referenceLap := (fastestLap (later.derived M)).map fun best =>
          ⟨best.2.points, best.2.distanceM⟩ }
      rw [Reads.resolution, known, hsurveyed, hderived, hlater]
      rfl
    · cases hset

end Derived

end TelemetryCloud.Derivation
