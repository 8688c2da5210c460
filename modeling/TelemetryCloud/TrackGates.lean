import TelemetryCloud.AnalysisRuns
import TelemetryCloud.Lists

/-!
# One set of sector gates per track

Any number of first derivations and recomputes of the sessions at a track without surveyed gates, one
database call at a time, while the map of the track becomes ready.  Each run reads the gates with the
track, may derive its own, and writes them to the track much later.

* `persistedGates`, `segmented` : the gates on a track's row, and the laps of a session;
* `KeepsGates` : what a run that persists gates, or stamps a session, must not do;
* `Inv`, `inv_step` : what every step meeting it keeps;
* `one_gate_set` : **every session stamped with gates is split on the gates of the track's row**;
* `coldTrack_two_sets` : two sessions of a cold track, derived at once, are split on two sets.
-/

namespace TelemetryCloud.TrackGates

open TelemetryCloud.Geometry TelemetryCloud.Derivation TelemetryCloud.Lists
open Gates LapMarkers LapSegmenter LapTrace SectorGates AnalysisService AnalysisRuns Runs

/-! ### What does not change -/

section Tables

variable {K : Type}

/-- A track row but for its derived gates. -/
def bareTrack (track : Track K) : Track K := { track with derivedSectorGates := none, updatedAt := 0 }

/-- A session row but for its stamp. -/
def bareSession (session : Session) : Session :=
  { session with analyzedAt := none, sectorScheme := none }

/-- The tables differ only in what derivations write. -/
structure Same (db₀ db : Database K) : Prop where
  samples : db.samples = db₀.samples
  sessions : ∀ id, (db.sessions id).map bareSession = (db₀.sessions id).map bareSession
  tracks : db.tracks.map bareTrack = db₀.tracks.map bareTrack

/-- A session row of one of the tables is, but for its stamp, in the other. -/
theorem Same.session {db₀ db : Database K} (h : Same db₀ db) {id : ℕ} {session : Session}
    (hsession : db.sessions id = some session) :
    ∃ session₀, db₀.sessions id = some session₀ ∧ bareSession session₀ = bareSession session := by
  have hbare := h.sessions id
  rw [hsession, Option.map_some, eq_comm, Option.map_eq_some_iff] at hbare
  exact hbare

theorem Same.trackIds {db₀ db : Database K} (h : Same db₀ db) :
    db.tracks.map (·.id) = db₀.tracks.map (·.id) := by
  have hbare := congrArg (List.map fun row : Track K => row.id) h.tracks
  rw [List.map_map, List.map_map] at hbare
  exact hbare

/-- Which row a name resolves to does not depend on derived gates. -/
theorem resolve_bare (lower : String → String) (tracks : List (Track K)) (name : String) :
    (resolve lower tracks name).map bareTrack = resolve lower (tracks.map bareTrack) name := by
  unfold resolve
  split
  · rfl
  · rw [List.find?_map]
    rfl

theorem mem_of_resolve {lower : String → String} {tracks : List (Track K)} {name : String}
    {track : Track K} (h : resolve lower tracks name = some track) : track ∈ tracks := by
  unfold resolve at h
  split at h
  · cases h
  · exact List.mem_of_find?_eq_some h

/-- The derived gates on the row of a track; no gate is as good as no list. -/
def persistedGates (db : Database K) (trackId : ℕ) : Option (List (Gate K)) :=
  (db.tracks.find? (·.id = trackId)).bind fun row =>
    (knownSectorGates ⟨none, row.derivedSectorGates⟩).map (·.gates)

/-- The track has no surveyed gates. -/
def Unsurveyed (track : Track K) : Prop := knownSectorGates ⟨track.sectorGates, none⟩ = none

/-- Without surveyed gates, the gates known are the derived ones. -/
theorem known_of_unsurveyed {track : Track K} (h : Unsurveyed track) :
    knownSectorGates (known track) = knownSectorGates ⟨none, track.derivedSectorGates⟩ := by
  unfold Unsurveyed knownSectorGates at h
  unfold known knownSectorGates
  match hs : track.sectorGates, track.derivedSectorGates with
  | none, _ => rfl
  | some [], none => rfl
  | some [], some ⟨[], _⟩ => rfl
  | some [], some ⟨_ :: _, _⟩ => rfl
  | some (gate :: gates), _ =>
    rw [hs] at h
    cases h

theorem unsurveyed_bare {track track' : Track K} (h : bareTrack track = bareTrack track') :
    Unsurveyed track ↔ Unsurveyed track' := by
  have hgates : track.sectorGates = track'.sectorGates :=
    (congrArg Track.sectorGates h :)
  rw [Unsurveyed, Unsurveyed, hgates]

/-- The tables before any derivation: the ids of the tracks are a key, and the track has no surveyed
gates. -/
structure NoSurvey (db : Database K) (trackId : ℕ) : Prop where
  keys : (db.tracks.map (·.id)).Nodup
  unsurveyed : ∀ row ∈ db.tracks, row.id = trackId → Unsurveyed row

/-- The same once derivations wrote to them. -/
theorem NoSurvey.same {db₀ db : Database K} {trackId : ℕ} (h : NoSurvey db₀ trackId)
    (hsame : Same db₀ db) : NoSurvey db trackId where
  keys := by
    rw [hsame.trackIds]
    exact h.keys
  unsurveyed := by
    intro row hrow hid
    have hbare : bareTrack row ∈ db₀.tracks.map bareTrack := by
      rw [← hsame.tracks]
      exact List.mem_map_of_mem hrow
    obtain ⟨row₀, hrow₀, heq⟩ := List.mem_map.mp hbare
    rw [← unsurveyed_bare heq]
    refine h.unsurveyed row₀ hrow₀ ?_
    rw [← hid]
    exact (congrArg Track.id heq :)

/-- The gates on the track's row are those of any row with its id. -/
theorem persistedGates_of_mem {db : Database K} (hkeys : (db.tracks.map (·.id)).Nodup)
    {row : Track K} (hrow : row ∈ db.tracks) :
    persistedGates db row.id = (knownSectorGates ⟨none, row.derivedSectorGates⟩).map (·.gates) := by
  have hfind : db.tracks.find? (·.id = row.id) = some row := (find?_key_iff hkeys).mpr ⟨hrow, rfl⟩
  rw [persistedGates, hfind, Option.bind_some]

/-- A track that is read has the gates on its row. -/
theorem NoSurvey.read {db : Database K} {trackId : ℕ} (h : NoSurvey db trackId) {track : Track K}
    (htrack : track ∈ db.tracks) (hid : track.id = trackId) :
    persistedGates db trackId = (knownSectorGates (known track)).map (·.gates) := by
  rw [known_of_unsurveyed (h.unsurveyed track htrack hid), ← hid]
  exact persistedGates_of_mem h.keys htrack

/-! ### The write of derived gates -/

variable (db : Database K) (trackId : ℕ) (set : DerivedSectorGates K) (updatedAt : ℤ)

theorem setDerivedSectorGates_bare :
    (db.setDerivedSectorGates trackId set updatedAt).tracks.map bareTrack =
      db.tracks.map bareTrack := by
  show (db.tracks.map _).map bareTrack = _
  rw [List.map_map]
  refine List.map_congr_left fun row _ => ?_
  show bareTrack (if row.id = trackId then _ else row) = bareTrack row
  split
  · rfl
  · rfl

/-- **The row of a track after the write**: `find?` by id, which the write leaves alone. -/
theorem find?_setDerivedSectorGates (id : ℕ) :
    (db.setDerivedSectorGates trackId set updatedAt).tracks.find? (·.id = id) =
      (db.tracks.find? (·.id = id)).map fun row =>
        if row.id = trackId then { row with derivedSectorGates := some set, updatedAt } else row := by
  show (db.tracks.map _).find? _ = _
  rw [List.find?_map]
  refine congrArg (Option.map _) (congrArg (fun p => List.find? p db.tracks) (funext fun row => ?_))
  show decide ((if row.id = trackId then _ else row : Track K).id = id) = decide (row.id = id)
  split
  · rfl
  · rfl

/-- The gates of other tracks stay. -/
theorem persistedGates_setDerivedSectorGates_of_ne {id : ℕ} (hid : id ≠ trackId) :
    persistedGates (db.setDerivedSectorGates trackId set updatedAt) id = persistedGates db id := by
  rw [persistedGates, persistedGates, find?_setDerivedSectorGates]
  cases hfind : db.tracks.find? (·.id = id) with
  | none => rfl
  | some row =>
    obtain ⟨-, hrow⟩ := of_find?_key hfind
    have hne : row.id ≠ trackId := by
      rw [hrow]
      exact hid
    rw [Option.map_some, if_neg hne]

/-- **The gates of the track are those written.** -/
theorem persistedGates_setDerivedSectorGates (hkeys : (db.tracks.map (·.id)).Nodup)
    (hne : set.gates ≠ []) (hrow : trackId ∈ db.tracks.map (·.id)) :
    persistedGates (db.setDerivedSectorGates trackId set updatedAt) trackId = some set.gates := by
  obtain ⟨row, hmem, hid⟩ := List.mem_map.mp hrow
  have hfind : db.tracks.find? (·.id = trackId) = some row := (find?_key_iff hkeys).mpr ⟨hmem, hid⟩
  rw [persistedGates, find?_setDerivedSectorGates, hfind, Option.map_some, Option.bind_some,
    if_pos hid]
  have hknown : knownSectorGates ⟨none, some set⟩ = some ⟨set.gates, set.source, none⟩ :=
    @knownSectorGates_persisted K none none set rfl hne
  show (knownSectorGates ⟨none, some set⟩).map _ = _
  rw [hknown, Option.map_some]

end Tables

section Code

variable {K : Type} [Field K] [LinearOrder K] [FloorRing K] (M : MathLib K) (lower : String → String)

/-- The track a completed session is at, and its laps on the start/finish gate. -/
def segmented (db : Database K) (id : ℕ) : Option (ℕ × List (DerivedLap K)) :=
  (db.sessions id).bind fun session =>
    (resolve lower db.tracks session.track).map fun track =>
      (track.id, segmentLaps M {} (gateOf track)
        (findRange (db.samples id) session.startedAt (session.endedAt.getD 0)))

theorem segmented_bare (db : Database K) (id : ℕ) : segmented M lower db id =
    ((db.sessions id).map bareSession).bind fun session =>
      ((resolve lower db.tracks session.track).map bareTrack).map fun track =>
        (track.id, segmentLaps M {} (gateOf track)
          (findRange (db.samples id) session.startedAt (session.endedAt.getD 0))) := by
  rw [segmented, Option.bind_map]
  refine congrArg _ (funext fun session => ?_)
  show _ = Option.map _ (Option.map bareTrack (resolve lower db.tracks session.track))
  rw [Option.map_map]
  rfl

theorem segmented_same {db₀ db : Database K} (h : Same db₀ db) (id : ℕ) :
    segmented M lower db id = segmented M lower db₀ id := by
  rw [segmented_bare, segmented_bare, h.sessions, h.samples]
  refine congrArg _ (funext fun session => ?_)
  rw [resolve_bare, resolve_bare, h.tracks]

/-- The run is about to stamp the session, and the rows stored are its own. -/
def Owns (s : System K) (r id : ℕ) : Prop :=
  ∃ f own, s.runs r = some f ∧ f.run.sessionId = id ∧ f.run.phase = .stamping own ∧
    s.db.laps id = (derivation M own).laps

/-- **What a run must not do to the gates of the track.**  Where it persists a set, the row has no
derived gates yet, or these; where it stamps its session with gates, the rows stored are its own, or
those of another run that is about to stamp the session. -/
def KeepsGates (trackId : ℕ) (s : System K) : Event K → Prop
  | .advance r _ => ∀ f, s.runs r = some f →
    match f.run.phase with
    | .persisting reads => reads.track.id = trackId → ∀ set,
      (derivation M reads).newlyDerived = some set →
        persistedGates s.db trackId = none ∨ persistedGates s.db trackId = some set.gates
    | .stamping own => own.track.id = trackId → own.usesGates M = true →
      s.db.laps f.run.sessionId = (derivation M own).laps ∨
        ∃ r', r' ≠ r ∧ Owns M s r' f.run.sessionId
    | _ => True
  | _ => True

end Code

/-- A derivation starts or goes on, or the map of a track becomes ready. -/
def Derives {K : Type} : Event K → Prop
  | .getLaps .. => True
  | .recompute .. => True
  | .advance .. => True
  | .restart _ => True
  | .setCircuit .. => True
  | _ => False

/-! ### The invariant -/

section Invariant

variable {K : Type} [Field K] [LinearOrder K] [FloorRing K] (M : MathLib K) (lower : String → String)
  (db₀ : Database K) (trackId : ℕ)

/-- The run has the row of its session's track, and the gates known on it are on the row still. -/
structure HasTrack (db : Database K) (session : Session) (track : Track K) : Prop where
  row : (resolve lower db₀.tracks session.track).map bareTrack = some (bareTrack track)
  gates : track.id = trackId → ∀ r, knownSectorGates (known track) = some r →
    persistedGates db trackId = some r.gates

/-- The run has the laps of its session, and there are some. -/
structure HasLaps (id : ℕ) (track : Track K) (samples : List (AnalysisSample K)) : Prop where
  laps : segmented M lower db₀ id = some (track.id, segmentLaps M {} (gateOf track) samples)
  ne_nil : segmentLaps M {} (gateOf track) samples ≠ []

/-- If the run splits its laps on gates, they are on the row of the track. -/
def OnRow (db : Database K) (reads : Reads K) : Prop :=
  reads.track.id = trackId → reads.usesGates M = true → ∀ r, reads.resolution M = some r →
    persistedGates db trackId = some r.gates

/-- What a run has read is what it goes on with. -/
def PhaseOk (db : Database K) (id : ℕ) (session : Session) : Phase K → Prop
  | .resolving => session.status ≠ .live
  | .counting track => session.status ≠ .live ∧ HasTrack lower db₀ trackId db session track
  | .reading track upTo _ =>
    HasTrack lower db₀ trackId db session track ∧ upTo = session.endedAt.getD 0
  | .mapping track samples =>
    HasLaps M lower db₀ id track samples ∧ knownSectorGates (known track) = none
  | .persisting reads =>
    HasLaps M lower db₀ id reads.track reads.samples ∧ knownSectorGates (known reads.track) = none
  | .writing reads =>
    HasLaps M lower db₀ id reads.track reads.samples ∧ OnRow M trackId db reads
  | .stamping reads =>
    HasLaps M lower db₀ id reads.track reads.samples ∧ OnRow M trackId db reads
  | _ => True

structure RunOk (db : Database K) (run : Run K) : Prop where
  session : (db₀.sessions run.sessionId).map bareSession = some (bareSession run.session)
  phase : PhaseOk M lower db₀ trackId db run.sessionId run.session run.phase

/-- The rows of the session are its laps, split on the gates of the track's row. -/
def Split (db : Database K) (id : ℕ) (laps : List (DerivedLap K)) : Prop :=
  ∃ gates, persistedGates db trackId = some gates ∧
    (db.laps id).map (·.sectorMs) = laps.map fun lap => sectorTimesFromGates M lap.points gates

/-- **What holds of every state**: the rows of a session are those of some derivation of its laps; and
where it is stamped with gates, they are split on the gates of the track, or the run they are of is
about to stamp it. -/
structure Inv (s : System K) : Prop where
  same : Same db₀ s.db
  runs : ∀ r f, s.runs r = some f → RunOk M lower db₀ trackId s.db f.run
  rows : ∀ id, s.db.laps id = [] ∨ ∃ reads track, segmented M lower db₀ id =
    some (track, reads.derived M) ∧ reads.derived M ≠ [] ∧ s.db.laps id = (derivation M reads).laps
  settled : ∀ id session laps, s.db.sessions id = some session → session.analyzedAt.isSome = true →
    session.sectorScheme = some .gates → segmented M lower db₀ id = some (trackId, laps) →
    Split M trackId s.db id laps ∨ ∃ r, Owns M s r id

variable {M lower db₀ trackId}

/-- Gates that are on the row stay there. -/
def GatesStay (trackId : ℕ) (db db' : Database K) : Prop :=
  ∀ gates, persistedGates db trackId = some gates → persistedGates db' trackId = some gates

omit [Field K] [LinearOrder K] [FloorRing K] in
theorem GatesStay.of_tracks {db db' : Database K} (h : db'.tracks = db.tracks) :
    GatesStay trackId db db' := by
  intro gates hgates
  rw [persistedGates, h]
  exact hgates

omit [Field K] [LinearOrder K] [FloorRing K] in
theorem HasTrack.stay {db db' : Database K} {session : Session} {track : Track K}
    (hstay : GatesStay trackId db db') (h : HasTrack lower db₀ trackId db session track) :
    HasTrack lower db₀ trackId db' session track :=
  ⟨h.row, fun hid r hr => hstay _ (h.gates hid r hr)⟩

theorem OnRow.stay {db db' : Database K} {reads : Reads K} (hstay : GatesStay trackId db db')
    (h : OnRow M trackId db reads) : OnRow M trackId db' reads :=
  fun hid huses r hr => hstay _ (h hid huses r hr)

theorem RunOk.stay {db db' : Database K} {run : Run K} (hstay : GatesStay trackId db db')
    (h : RunOk M lower db₀ trackId db run) : RunOk M lower db₀ trackId db' run := by
  refine ⟨h.session, ?_⟩
  have hphase := h.phase
  obtain ⟨id, session, replace, phase⟩ := run
  cases phase with
  | counting track => exact ⟨hphase.1, hphase.2.stay hstay⟩
  | reading track upTo count => exact ⟨hphase.1.stay hstay, hphase.2⟩
  | writing reads => exact ⟨hphase.1, hphase.2.stay hstay⟩
  | stamping reads => exact ⟨hphase.1, hphase.2.stay hstay⟩
  | _ => exact hphase

variable {s : System K} {db : Database K} {memos : ℕ → NoCrossings}

/-- **The frame of the invariant**: a step that leaves the rows, the stamps, the gates and the runs
about to stamp as they are. -/
theorem Inv.frame (h : Inv M lower db₀ trackId s) {runs : ℕ → Option (InFlight K)}
    (hsame : Same db₀ db) (hlaps : db.laps = s.db.laps) (hsessions : db.sessions = s.db.sessions)
    (hstay : GatesStay trackId s.db db)
    (hruns : ∀ r f, runs r = some f → s.runs r = some f ∨ RunOk M lower db₀ trackId db f.run)
    (hstamps : ∀ r f own, s.runs r = some f → f.run.phase = .stamping own → runs r = some f) :
    Inv M lower db₀ trackId ⟨db, memos, runs⟩ where
  same := hsame
  runs := by
    intro r f hf
    rcases hruns r f hf with hold | hnew
    · exact (h.runs r f hold).stay hstay
    · exact hnew
  rows := by
    intro id
    show db.laps id = [] ∨ _
    rw [hlaps]
    exact h.rows id
  settled := by
    intro id session laps hsession hanalyzed hscheme hsegmented
    change db.sessions id = some session at hsession
    rw [hsessions] at hsession
    rcases h.settled id session laps hsession hanalyzed hscheme hsegmented with hsplit | howns
    · obtain ⟨gates, hgates, hsplit⟩ := hsplit
      refine .inl ⟨gates, hstay gates hgates, ?_⟩
      show (db.laps id).map _ = _
      rw [hlaps]
      exact hsplit
    · obtain ⟨r, f, own, hf, hid, hphase, hown⟩ := howns
      refine .inr ⟨r, f, own, hstamps r f own hf hphase, hid, hphase, ?_⟩
      show db.laps id = _
      rw [hlaps]
      exact hown

/-- Where one run goes on, the others are as they were. -/
theorem Inv.runs_update (h : Inv M lower db₀ trackId s) {r : ℕ} {f? : Option (InFlight K)}
    (hstay : GatesStay trackId s.db db)
    (hnew : ∀ f, f? = some f → RunOk M lower db₀ trackId db f.run) :
    ∀ r' f, Function.update s.runs r f? r' = some f → RunOk M lower db₀ trackId db f.run := by
  intro r' f hf
  by_cases hr : r' = r
  · subst hr
    rw [Function.update_self] at hf
    exact hnew f hf
  · rw [Function.update_of_ne hr] at hf
    exact RunOk.stay hstay (h.runs r' f hf)

/-- A run that is not about to stamp may start, end or go on. -/
theorem Inv.frame_run (h : Inv M lower db₀ trackId s) {r : ℕ} {f? : Option (InFlight K)}
    (hsame : Same db₀ db) (hlaps : db.laps = s.db.laps) (hsessions : db.sessions = s.db.sessions)
    (hstay : GatesStay trackId s.db db)
    (hold : ∀ f own, s.runs r = some f → f.run.phase ≠ .stamping own)
    (hnew : ∀ f, f? = some f → RunOk M lower db₀ trackId db f.run) :
    Inv M lower db₀ trackId ⟨db, memos, Function.update s.runs r f?⟩ := by
  refine h.frame hsame hlaps hsessions hstay ?_ ?_
  · intro r' f hf
    by_cases hr : r' = r
    · subst hr
      rw [Function.update_self] at hf
      exact .inr (hnew f hf)
    · rw [Function.update_of_ne hr] at hf
      exact .inl hf
  · intro r' f own hf hphase
    by_cases hr : r' = r
    · subst hr
      exact absurd hphase (hold f own hf)
    · rw [Function.update_of_ne hr]
      exact hf

theorem PhaseOk.segmented {id : ℕ} {session : Session} {phase : Phase K}
    (h : PhaseOk M lower db₀ trackId db id session phase) : Segmented M phase := by
  cases phase with
  | mapping track samples => exact h.1.ne_nil
  | persisting reads => exact h.1.ne_nil
  | writing reads => exact h.1.ne_nil
  | stamping reads => exact h.1.ne_nil
  | _ => trivial

/-! ### The gates a run splits on -/

variable {reads : Reads K}

/-- Without known gates, a run that splits its laps on gates hands them over to be persisted. -/
theorem newlyDerived_of_usesGates (hknown : knownSectorGates (known reads.track) = none)
    (huses : reads.usesGates M = true) {r : SectorGatesResolution K}
    (hr : reads.resolution M = some r) :
    (derivation M reads).newlyDerived = some ⟨r.gates, r.source⟩ := by
  have hfresh := hr
  rw [Reads.resolution, resolveSectorGates, hknown, Option.none_or] at hfresh
  obtain ⟨-, hnew⟩ := deriveSectorGates_newlyDerived hfresh
  rw [Reads.usesGates, hr, Option.any_some] at huses
  unfold derivation applySectorGates
  rw [hr]
  dsimp only
  rw [if_pos huses, hnew]

/-- Without known gates, a run that hands none over splits on none. -/
theorem OnRow.of_newlyDerived (hknown : knownSectorGates (known reads.track) = none)
    (hnew : (derivation M reads).newlyDerived = none) : OnRow M trackId db reads := by
  intro _ huses r hr
  rw [newlyDerived_of_usesGates hknown huses hr] at hnew
  cases hnew

/-- The set handed over is the one the laps are split on, and not empty. -/
theorem resolution_of_newlyDerived (hknown : knownSectorGates (known reads.track) = none)
    {set : DerivedSectorGates K} (hset : (derivation M reads).newlyDerived = some set) :
    set.gates ≠ [] ∧ ∀ r, reads.resolution M = some r → r.gates = set.gates := by
  unfold derivation applySectorGates at hset
  cases hr : reads.resolution M with
  | none =>
    rw [hr] at hset
    cases hset
  | some r =>
    rw [hr] at hset
    dsimp only at hset
    rw [Reads.resolution, resolveSectorGates, hknown, Option.none_or] at hr
    obtain ⟨hne, hnew⟩ := deriveSectorGates_newlyDerived hr
    split at hset
    · rw [hnew, Option.some.injEq] at hset
      subst hset
      refine ⟨hne, fun r' hr' => ?_⟩
      cases hr'
      rfl
    · cases hset

/-- **The rows of a run that splits on gates.** -/
theorem derivation_sectorMs (huses : reads.usesGates M = true) {r : SectorGatesResolution K}
    (hr : reads.resolution M = some r) :
    (derivation M reads).laps.map (·.sectorMs) =
      (reads.derived M).map fun lap => sectorTimesFromGates M lap.points r.gates := by
  rw [Reads.usesGates, hr, Option.any_some] at huses
  unfold derivation applySectorGates
  rw [hr]
  dsimp only
  rw [if_pos huses, toRows_map (fun row => row.sectorMs) (fun lap => lap.sectorMs) fun _ _ => rfl,
    List.map_map]
  rfl

/-! ### The calls before the rows -/

variable (M lower db₀ trackId) in
/-- What a call leaves: the tables but for gates, the gates that are there, and a run in order. -/
structure Keeps (db : Database K) (after : After K) : Prop where
  same : Same db₀ after.db
  stay : GatesStay trackId db after.db
  goesOn : ∀ next, after.run = .inl next → RunOk M lower db₀ trackId after.db next

variable {run : Run K} {memo : NoCrossings} {after : After K}

theorem keeps_goOn {db' : Database K} {phase : Phase K} (h : RunOk M lower db₀ trackId db run)
    (hsame : Same db₀ db') (hstay : GatesStay trackId db db')
    (hphase : PhaseOk M lower db₀ trackId db' run.sessionId run.session phase) :
    Keeps M lower db₀ trackId db (goOn db' memo run phase) where
  same := hsame
  stay := hstay
  goesOn next hnext := by
    cases hnext
    exact ⟨h.session, hphase⟩

theorem keeps_answer {response : LapsResponse K} (hsame : Same db₀ db) :
    Keeps M lower db₀ trackId db ⟨db, memo, .inr response⟩ where
  same := hsame
  stay := .of_tracks rfl
  goesOn next hnext := by cases hnext

omit [Field K] [LinearOrder K] [FloorRing K] in
/-- A run that finds its track has the row, and the gates on it. -/
theorem HasTrack.of_resolve (hsurvey : NoSurvey db₀ trackId) (hsame : Same db₀ db)
    {session : Session} {track : Track K} (h : resolve lower db.tracks session.track = some track) :
    HasTrack lower db₀ trackId db session track where
  row := by
    rw [resolve_bare, ← hsame.tracks, ← resolve_bare, h]
    rfl
  gates := by
    intro hid r hr
    rw [(hsurvey.same hsame).read (mem_of_resolve h) hid, hr, Option.map_some]

/-- A run that reads the samples of its session has the laps of the session. -/
theorem HasLaps.of_findRange (hsame : Same db₀ db) {id : ℕ} {session : Session} {track : Track K}
    (hsession : (db₀.sessions id).map bareSession = some (bareSession session))
    (htrack : HasTrack lower db₀ trackId db session track)
    (hne : segmentLaps M {} (gateOf track)
      (findRange (db.samples id) session.startedAt (session.endedAt.getD 0)) ≠ []) :
    HasLaps M lower db₀ id track
      (findRange (db.samples id) session.startedAt (session.endedAt.getD 0)) where
  laps := by
    rw [segmented_bare, hsession, Option.bind_some, hsame.samples]
    show Option.map _ ((resolve lower db₀.tracks session.track).map bareTrack) = _
    rw [htrack.row]
    rfl
  ne_nil := hne

/-- **The write of derived gates**, where the row has none yet or the same. -/
theorem keeps_persisting (hsurvey : NoSurvey db₀ trackId) (hsame : Same db₀ db)
    (h : RunOk M lower db₀ trackId db run) (hlaps : HasLaps M lower db₀ run.sessionId reads.track
      reads.samples)
    (hknown : knownSectorGates (known reads.track) = none) {set : DerivedSectorGates K}
    (hset : (derivation M reads).newlyDerived = some set)
    (hkeeps : reads.track.id = trackId →
      persistedGates db trackId = none ∨ persistedGates db trackId = some set.gates)
    (updatedAt : ℤ) :
    Keeps M lower db₀ trackId db
      (goOn (db.setDerivedSectorGates reads.track.id set updatedAt) memo run (.writing reads)) := by
  obtain ⟨hne, hgates⟩ := resolution_of_newlyDerived hknown hset
  have hrow : reads.track.id ∈ db.tracks.map (·.id) := by
    rw [hsame.trackIds]
    obtain ⟨session, -, hsegmented⟩ := Option.bind_eq_some_iff.mp hlaps.laps
    obtain ⟨track, htrack, hpair⟩ := Option.map_eq_some_iff.mp hsegmented
    rw [← (Prod.mk.inj hpair).1]
    exact List.mem_map_of_mem (mem_of_resolve htrack)
  have hwritten := persistedGates_setDerivedSectorGates db reads.track.id set updatedAt
    (hsurvey.same hsame).keys hne hrow
  refine keeps_goOn h ?_ ?_ ⟨hlaps, ?_⟩
  · refine ⟨hsame.samples, hsame.sessions, ?_⟩
    rw [setDerivedSectorGates_bare]
    exact hsame.tracks
  · intro gates hold
    by_cases hid : reads.track.id = trackId
    · subst hid
      rw [hwritten]
      rcases hkeeps rfl with hnone | hsome
      · rw [hnone] at hold
        cases hold
      · rw [← hsome]
        exact hold
    · rw [persistedGates_setDerivedSectorGates_of_ne db _ set updatedAt (Ne.symm hid)]
      exact hold
  · intro hid _ r hr
    subst hid
    rw [hwritten, hgates r hr]

/-- **Every call before the rows are written.** -/
theorem keeps_advance (hsurvey : NoSurvey db₀ trackId) (hsame : Same db₀ db)
    (h : RunOk M lower db₀ trackId db run) (env : Env)
    (hwriting : ∀ reads, run.phase ≠ .writing reads)
    (hstamping : ∀ reads, run.phase ≠ .stamping reads)
    (hkeeps : ∀ reads, run.phase = .persisting reads → reads.track.id = trackId → ∀ set,
      (derivation M reads).newlyDerived = some set →
        persistedGates db trackId = none ∨ persistedGates db trackId = some set.gates) :
    Keeps M lower db₀ trackId db (advance M lower env db memo run) := by
  have hstay : GatesStay trackId db db := .of_tracks rfl
  have hphase := h.phase
  have hskip : ∀ memo reason, Keeps M lower db₀ trackId db (goOn db memo run (.skipping reason)) :=
    fun memo reason => keeps_goOn h hsame hstay trivial
  obtain ⟨id, session, replace, phase⟩ := run
  cases phase with
  | writing reads => exact absurd rfl (hwriting reads)
  | stamping reads => exact absurd rfl (hstamping reads)
  | listing => exact keeps_answer hsame
  | skipping reason => exact keeps_answer hsame
  | readingBack analyzedAt reads => exact keeps_answer hsame
  | resolving =>
    simp only [advance]
    split
    · exact hskip _ _
    · rename_i track htrack
      exact keeps_goOn h hsame hstay ⟨hphase, .of_resolve hsurvey hsame htrack⟩
  | counting track =>
    obtain ⟨hlive, htrack⟩ := hphase
    simp only [advance]
    split
    · exact hskip _ _
    · split
      · exact hskip _ _
      · split
        · exact hskip _ _
        · refine keeps_goOn h hsame hstay ⟨htrack, ?_⟩
          obtain ⟨endedAt, hended⟩ := Option.isSome_iff_exists.mp (session.closed hlive)
          show session.endedAt.getD env.now = session.endedAt.getD 0
          rw [hended]
          rfl
  | reading track upTo count =>
    obtain ⟨htrack, hupTo⟩ := hphase
    change upTo = session.endedAt.getD 0 at hupTo
    subst hupTo
    simp only [advance]
    split
    · exact hskip _ _
    · rename_i hne
      have hlaps := HasLaps.of_findRange hsame h.session htrack
        fun hnil => hne (List.isEmpty_iff.mpr hnil)
      split
      · rename_i hknown
        obtain ⟨r, hr⟩ := Option.isSome_iff_exists.mp hknown
        refine keeps_goOn h hsame hstay ⟨hlaps, fun hid _ r' hr' => ?_⟩
        rw [Reads.resolution, resolveSectorGates, hr, Option.some_or, Option.some.injEq] at hr'
        subst hr'
        exact htrack.gates hid r hr
      · rename_i hknown
        exact keeps_goOn h hsame hstay ⟨hlaps, Option.not_isSome_iff_eq_none.mp hknown⟩
  | mapping track samples =>
    obtain ⟨hlaps, hknown⟩ := hphase
    simp only [advance]
    split
    · exact keeps_goOn h hsame hstay ⟨hlaps, hknown⟩
    · rename_i hnew
      exact keeps_goOn h hsame hstay
        ⟨hlaps, .of_newlyDerived hknown (Option.not_isSome_iff_eq_none.mp hnew)⟩
  | persisting reads =>
    obtain ⟨hlaps, hknown⟩ := hphase
    simp only [advance]
    split
    · rename_i hnew
      exact keeps_goOn h hsame hstay ⟨hlaps, .of_newlyDerived hknown hnew⟩
    · rename_i set hset
      exact keeps_persisting hsurvey hsame h hlaps hknown hset
        (fun hid => hkeeps reads rfl hid set hset) env.updatedAt

/-! ### The rows and the stamp -/

variable {r node id : ℕ} {session : Session} {replace : Bool} {own : Reads K}
  {f? : Option (InFlight K)}

/-- Another run about to stamp its own rows still is. -/
theorem Owns.of_ne {r' id' : ℕ} (h : Owns M s r' id') (hne : r' ≠ r)
    (hlaps : db.laps id' = s.db.laps id') :
    Owns M ⟨db, memos, Function.update s.runs r f?⟩ r' id' := by
  obtain ⟨f, own, hf, hid, hphase, hown⟩ := h
  refine ⟨f, own, ?_, hid, hphase, ?_⟩
  · show Function.update s.runs r f? r' = some f
    rw [Function.update_of_ne hne]
    exact hf
  · show db.laps id' = _
    rw [hlaps]
    exact hown

/-- A run of another session, or one that stamps nothing yet, is another run. -/
theorem Owns.ne {r' id' : ℕ} {f : InFlight K} (h : Owns M s r' id') (hrun : s.runs r = some f)
    (hf : f.run.sessionId ≠ id' ∨ ∀ own, f.run.phase ≠ .stamping own) : r' ≠ r := by
  obtain ⟨f', own, hf', hid, hphase, -⟩ := h
  intro hr
  subst hr
  rw [hrun, Option.some.injEq] at hf'
  subst hf'
  rcases hf with hne | hnot
  · exact hne hid
  · exact hnot own hphase

/-- A run writes its own rows, or finds as many there. -/
theorem Inv.rowsAfter (h : Inv M lower db₀ trackId s) (replace : Bool)
    (hlaps : HasLaps M lower db₀ id own.track own.samples) :
    rowsAfter (s.db.laps id) (derivation M own).laps replace = (derivation M own).laps ∨
      rowsAfter (s.db.laps id) (derivation M own).laps replace = s.db.laps id := by
  have hrows := derivation_rows M hlaps.ne_nil
  cases replace with
  | true => exact .inl (replaceSession_eq _ hrows.nodup)
  | false =>
    show insertIgnoringDuplicates _ _ = _ ∨ insertIgnoringDuplicates _ _ = _
    rcases h.rows id with hnil | ⟨reads, track, hsegmented, hne, hstored⟩
    · left
      rw [hnil]
      exact replaceSession_eq _ hrows.nodup
    · right
      have hsame : own.derived M = reads.derived M := by
        have hpair := hlaps.laps
        rw [hsegmented, Option.some.injEq] at hpair
        exact (Prod.mk.inj hpair).2.symm
      rw [hstored]
      refine insertIgnoringDuplicates_of_length_le (derivation_rows M hne).numbered hrows.numbered ?_
      rw [length_derivation, length_derivation, hsame]

/-- **A run writes its rows.** -/
theorem inv_writing (h : Inv M lower db₀ trackId s)
    (hrun : s.runs r = some ⟨node, ⟨id, session, replace, .writing own⟩⟩) :
    Inv M lower db₀ trackId
      ⟨s.db.setLaps id (rowsAfter (s.db.laps id) (derivation M own).laps replace), memos,
        Function.update s.runs r (some ⟨node, ⟨id, session, replace, .stamping own⟩⟩)⟩ := by
  have hok := h.runs r _ hrun
  obtain ⟨hlaps, hgates⟩ : HasLaps M lower db₀ id own.track own.samples ∧
    OnRow M trackId s.db own := hok.phase
  have hnot : ∀ f own', s.runs r = some f → f.run.phase ≠ .stamping own' := by
    intro f own' hf hphase
    rw [hrun, Option.some.injEq] at hf
    subst hf
    cases hphase
  have hnew : ∀ db : Database K, GatesStay trackId s.db db →
      RunOk M lower db₀ trackId db ⟨id, session, replace, .stamping own⟩ :=
    fun db hstay => ⟨hok.session, hlaps, hgates.stay hstay⟩
  rcases h.rowsAfter replace hlaps with hrows | hrows
  · rw [hrows]
    constructor
    · exact ⟨h.same.samples, h.same.sessions, h.same.tracks⟩
    · refine h.runs_update (.of_tracks rfl) fun f hf => ?_
      cases hf
      exact hnew _ (.of_tracks rfl)
    · intro id'
      show Function.update s.db.laps id _ id' = [] ∨ _
      by_cases hid : id' = id
      · subst hid
        exact .inr ⟨own, own.track.id, hlaps.laps, hlaps.ne_nil, Function.update_self _ _ _⟩
      · rw [Function.update_of_ne hid]
        show _ ∨ ∃ reads track, _ ∧ _ ∧ Function.update s.db.laps id _ id' = _
        rw [Function.update_of_ne hid]
        exact h.rows id'
    · intro id' row laps hsession hanalyzed hscheme hsegmented
      by_cases hid : id' = id
      · subst hid
        exact .inr ⟨r, _, own, Function.update_self _ _ _, rfl, rfl, Function.update_self _ _ _⟩
      · have hother : (s.db.setLaps id (derivation M own).laps).laps id' = s.db.laps id' :=
          Function.update_of_ne hid _ _
        rcases h.settled id' row laps hsession hanalyzed hscheme hsegmented with hsplit | howns
        · obtain ⟨gates, hgates, hsplit⟩ := hsplit
          refine .inl ⟨gates, hgates, ?_⟩
          rw [hother]
          exact hsplit
        · obtain ⟨r', howns⟩ := howns
          exact .inr ⟨r', howns.of_ne (howns.ne hrun (.inl (Ne.symm hid))) hother⟩
  · rw [hrows]
    apply h.frame_run
    · exact ⟨h.same.samples, h.same.sessions, h.same.tracks⟩
    · exact Function.update_eq_self id s.db.laps
    · rfl
    · exact .of_tracks rfl
    · exact hnot
    · intro f hf
      cases hf
      exact hnew _ (.of_tracks rfl)

/-- **A run stamps its session.** -/
theorem inv_stamping (h : Inv M lower db₀ trackId s) (now : ℤ)
    (hrun : s.runs r = some ⟨node, ⟨id, session, replace, .stamping own⟩⟩)
    (hkeeps : own.track.id = trackId → own.usesGates M = true →
      s.db.laps id = (derivation M own).laps ∨ ∃ r', r' ≠ r ∧ Owns M s r' id) :
    Inv M lower db₀ trackId
      ⟨s.db.setAnalyzedAt id now (derivation M own).sectorScheme, memos,
        Function.update s.runs r (some ⟨node, ⟨id, session, replace, .readingBack now own⟩⟩)⟩ := by
  have hok := h.runs r _ hrun
  obtain ⟨hlaps, hgates⟩ : HasLaps M lower db₀ id own.track own.samples ∧
    OnRow M trackId s.db own := hok.phase
  constructor
  · refine ⟨h.same.samples, fun id' => ?_, h.same.tracks⟩
    show (Function.update s.db.sessions id _ id').map bareSession = _
    rw [← h.same.sessions]
    by_cases hid : id' = id
    · subst hid
      rw [Function.update_self, Option.map_map]
      rfl
    · rw [Function.update_of_ne hid]
  · refine h.runs_update (.of_tracks rfl) fun f hf => ?_
    cases hf
    exact ⟨hok.session, trivial⟩
  · exact h.rows
  · intro id' row laps hsession hanalyzed hscheme hsegmented
    change Function.update s.db.sessions id _ id' = some row at hsession
    by_cases hid : id' = id
    · subst hid
      rw [Function.update_self] at hsession
      obtain ⟨old, -, rfl⟩ := Option.map_eq_some_iff.mp hsession
      have hpair := hlaps.laps
      rw [hsegmented, Option.some.injEq] at hpair
      obtain ⟨htrack, hderived⟩ := Prod.mk.inj hpair
      have huses : own.usesGates M = true := by
        change some (derivation M own).sectorScheme = some .gates at hscheme
        rw [derivation_sectorScheme, Option.some.injEq] at hscheme
        split at hscheme
        · assumption
        · cases hscheme
      rcases hkeeps htrack.symm huses with hown | hother
      · left
        obtain ⟨r, hr, -⟩ := (Option.any_eq_true _ _).mp huses
        refine ⟨r.gates, hgates htrack.symm huses r hr, ?_⟩
        show (s.db.laps id').map _ = _
        rw [hown, derivation_sectorMs huses hr, hderived]
        rfl
      · obtain ⟨r', hne, howns⟩ := hother
        exact .inr ⟨r', howns.of_ne hne rfl⟩
    · rw [Function.update_of_ne hid] at hsession
      rcases h.settled id' row laps hsession hanalyzed hscheme hsegmented with hsplit | howns
      · exact .inl hsplit
      · obtain ⟨r', howns⟩ := howns
        exact .inr ⟨r', howns.of_ne (howns.ne hrun (.inl (Ne.symm hid))) rfl⟩

/-! ### Every step -/

/-- One database call of a run. -/
theorem inv_advance (hsurvey : NoSurvey db₀ trackId) (h : Inv M lower db₀ trackId s) {f : InFlight K}
    (env : Env) (hrun : s.runs r = some f) (hkeeps : KeepsGates M trackId s (.advance r env)) :
    Inv M lower db₀ trackId (advanced M lower s r f env) := by
  obtain ⟨node, ⟨id, session, replace, phase⟩⟩ := f
  have hmine := hkeeps _ hrun
  by_cases hwriting : ∃ own, phase = .writing own
  · obtain ⟨own, rfl⟩ := hwriting
    exact inv_writing h hrun
  · by_cases hstamping : ∃ own, phase = .stamping own
    · obtain ⟨own, rfl⟩ := hstamping
      exact inv_stamping h env.now hrun hmine
    · have hnotWriting : ∀ own, phase ≠ .writing own := fun own heq => hwriting ⟨own, heq⟩
      have hnotStamping : ∀ own, phase ≠ .stamping own := fun own heq => hstamping ⟨own, heq⟩
      have hok := h.runs r _ hrun
      have hafter : Keeps M lower db₀ trackId s.db
          (advance M lower env s.db (s.memos node) ⟨id, session, replace, phase⟩) := by
        refine keeps_advance hsurvey h.same hok env hnotWriting hnotStamping ?_
        intro reads hphase
        change phase = .persisting reads at hphase
        subst hphase
        exact hmine
      have haside := advance_aside M lower env s.db (s.memos node) ⟨id, session, replace, phase⟩
        hok.phase.segmented hnotWriting hnotStamping
      apply h.frame_run hafter.same haside.laps haside.sessions hafter.stay
      · intro f own hf
        rw [hrun, Option.some.injEq] at hf
        subst hf
        exact hnotStamping own
      · intro f hf
        obtain ⟨next, hnext, rfl⟩ := Option.map_eq_some_iff.mp hf
        exact hafter.goesOn next (Sum.getLeft?_eq_some_iff.mp hnext)

/-- A call that starts has the session row. -/
theorem inv_started (h : Inv M lower db₀ trackId s) {run : Session → Run K}
    (hrun : ∀ session, (run session).sessionId = id ∧ (run session).session = session ∧
      ∀ db, PhaseOk M lower db₀ trackId db id session (run session).phase)
    {t : System K} (hstep : started ⟨s.db, memos, s.runs⟩ r node id run = some t) :
    Inv M lower db₀ trackId t := by
  unfold started at hstep
  split at hstep
  · cases hstep
  · rename_i hfree
    obtain ⟨session, hsession, rfl⟩ := Option.map_eq_some_iff.mp hstep
    apply h.frame_run h.same rfl rfl (.of_tracks rfl)
    · intro f own hf
      change ¬(s.runs r).isSome at hfree
      rw [hf] at hfree
      exact absurd rfl hfree
    · intro f hf
      cases hf
      obtain ⟨hid, hrow, hphase⟩ := hrun session
      constructor
      · show (db₀.sessions (run session).sessionId).map bareSession =
          some (bareSession (run session).session)
        rw [hid, hrow, ← h.same.sessions]
        change s.db.sessions id = some session at hsession
        rw [hsession, Option.map_some]
      · show PhaseOk M lower db₀ trackId _ (run session).sessionId (run session).session _
        rw [hid, hrow]
        exact hphase s.db

theorem phaseOk_derivePhase (session : Session) (db : Database K) :
    PhaseOk M lower db₀ trackId db id session (derivePhase session) := by
  unfold derivePhase
  split
  · trivial
  · rename_i hlive
    exact hlive

/-- **Every step that keeps the gates of the track keeps the invariant.** -/
theorem inv_step (hsurvey : NoSurvey db₀ trackId) (h : Inv M lower db₀ trackId s) {e : Event K}
    (hderives : Derives e) (hkeeps : KeepsGates M trackId s e) {t : System K}
    (hstep : step M lower s e = some t) : Inv M lower db₀ trackId t := by
  cases e with
  | getLaps r node id =>
    have hrun : ∀ session, (getLapsRun (K := K) id session).sessionId = id ∧
        (getLapsRun (K := K) id session).session = session ∧
        ∀ db, PhaseOk M lower db₀ trackId db id session (getLapsRun id session).phase := by
      refine fun session => ⟨rfl, rfl, fun db => ?_⟩
      show PhaseOk M lower db₀ trackId db id session (if _ then .listing else derivePhase session)
      split
      · trivial
      · exact phaseOk_derivePhase session db
    exact inv_started h hrun hstep
  | recompute r node id =>
    have hrun : ∀ session, (recomputeRun (K := K) id session).sessionId = id ∧
        (recomputeRun (K := K) id session).session = session ∧
        ∀ db, PhaseOk M lower db₀ trackId db id session (recomputeRun id session).phase :=
      fun session => ⟨rfl, rfl, phaseOk_derivePhase session⟩
    exact inv_started h hrun hstep
  | advance r env =>
    obtain ⟨f, hrun, rfl⟩ := Option.map_eq_some_iff.mp hstep
    exact inv_advance hsurvey h env hrun hkeeps
  | restart node =>
    cases hstep
    exact h.frame h.same rfl rfl (.of_tracks rfl) (fun _ _ hf => .inl hf) (fun _ _ _ hf _ => hf)
  | setCircuit id circuit =>
    cases hstep
    refine h.frame ?_ rfl rfl (.of_tracks rfl) (fun _ _ hf => .inl hf) (fun _ _ _ hf _ => hf)
    exact ⟨h.same.samples, h.same.sessions, h.same.tracks⟩
  | crash r => exact hderives.elim
  | arrive id sample => exact hderives.elim
  | setTrack track => exact hderives.elim
  | putSession id session => exact hderives.elim

theorem inv_start (hfresh : Fresh db₀) : Inv M lower db₀ trackId (start db₀) where
  same := ⟨rfl, fun _ => rfl, rfl⟩
  runs r f hf := by cases hf
  rows id := .inl (hfresh.1 id)
  settled id session laps hsession hanalyzed := by
    rw [hfresh.2 id session hsession] at hanalyzed
    cases hanalyzed

omit [Field K] [LinearOrder K] [FloorRing K] in
/-- The gates on the row are the derived gates it has. -/
theorem row_of_persistedGates {gates : List (Gate K)} (h : persistedGates db trackId = some gates) :
    ∃ row set, db.tracks.find? (·.id = trackId) = some row ∧
      row.derivedSectorGates = some set ∧ set.gates = gates := by
  obtain ⟨row, hrow, hknown⟩ := Option.bind_eq_some_iff.mp h
  obtain ⟨r, hr, rfl⟩ := Option.map_eq_some_iff.mp hknown
  unfold knownSectorGates at hr
  split at hr
  · rename_i hsurveyed
    cases hsurveyed
  · rename_i hderived _
    cases hr
    exact ⟨row, _, hrow, hderived, rfl⟩
  · cases hr

end Invariant

/-! ### Every run -/

section Result

variable {K : Type} [Field K] [LinearOrder K] [FloorRing K] (M : MathLib K) (lower : String → String)

/-- **One gate set**: the sessions at the track that are stamped with gates have their laps split on
the derived gates of the track's row. -/
def OneGateSet (db : Database K) (trackId : ℕ) : Prop :=
  ∀ id session laps, db.sessions id = some session → session.analyzedAt.isSome = true →
    session.sectorScheme = some .gates → segmented M lower db id = some (trackId, laps) →
      ∃ row set, db.tracks.find? (·.id = trackId) = some row ∧ row.derivedSectorGates = some set ∧
        (db.laps id).map (·.sectorMs) = laps.map fun lap => sectorTimesFromGates M lap.points set.gates

/-- **One gate set per track**: in every run of derivations that keep the gates of a track without
surveyed ones, whenever no derivation is in flight, the sessions at the track that are stamped with
gates are split on the gates of its row. -/
theorem one_gate_set (db : Database K) (trackId : ℕ) (hfresh : Fresh db)
    (hsurvey : NoSurvey db trackId) (es : List (Event K)) (s : System K)
    (hrun : run (step M lower) (start db) es = some s) (hderives : ∀ e ∈ es, Derives e)
    (hkeeps : Meets (step M lower) (KeepsGates M trackId) (start db) es)
    (hquiet : ∀ r, s.runs r = none) : OneGateSet M lower s.db trackId := by
  have hmeets : Meets (step M lower) (fun s e => KeepsGates M trackId s e ∧ Derives e) (start db) es :=
    meets_and (step M lower) hkeeps (meets_of_forall (step M lower) hderives _)
  have hinv : Inv M lower db trackId s := by
    refine run_invariant (step M lower) ?_ es (start db) s (inv_start hfresh) hmeets hrun
    intro s e t hs hC hstep
    exact inv_step hsurvey hs hC.2 hC.1 hstep
  intro id session laps hsession hanalyzed hscheme hsegmented
  rw [segmented_same M lower hinv.same] at hsegmented
  rcases hinv.settled id session laps hsession hanalyzed hscheme hsegmented with hsplit | howns
  · obtain ⟨gates, hgates, hsplit⟩ := hsplit
    obtain ⟨row, set, hrow, hset, rfl⟩ := row_of_persistedGates hgates
    exact ⟨row, set, hrow, hset, hsplit⟩
  · obtain ⟨r, f, own, hf, -⟩ := howns
    rw [hquiet r] at hf
    cases hf

/-- A run that starts has one of the first `n` names. -/
def NamesBelow (n : ℕ) : Event K → Prop
  | .getLaps r _ _ => r < n
  | .recompute r _ _ => r < n
  | _ => True

/-- Only what started is in flight. -/
theorem runs_above {n : ℕ} {es : List (Event K)} {db : Database K} {s : System K}
    (hnames : ∀ e ∈ es, NamesBelow n e) (hrun : run (step M lower) (start db) es = some s) :
    ∀ r, n ≤ r → s.runs r = none := by
  refine run_invariant (step M lower) (I := fun s => ∀ r, n ≤ r → s.runs r = none) ?_ es (start db) s
    (fun _ _ => rfl) (meets_of_forall (step M lower) hnames _) hrun
  intro s e t hs hname hstep r' hr'
  have hupdate : ∀ {r : ℕ} {f? : Option (InFlight K)}, r < n →
      Function.update s.runs r f? r' = none := by
    intro r f? hr
    rw [Function.update_of_ne (show r' ≠ r by omega)]
    exact hs r' hr'
  have hstarted : ∀ {memos : ℕ → NoCrossings} {r node id : ℕ} {first : Session → Run K}, r < n →
      started ⟨s.db, memos, s.runs⟩ r node id first = some t → t.runs r' = none := by
    intro memos r node id first hr h
    unfold started at h
    split at h
    · cases h
    · obtain ⟨session, -, rfl⟩ := Option.map_eq_some_iff.mp h
      exact hupdate hr
  -- a run in flight has one of the names
  have hflying : ∀ {r : ℕ} {f : InFlight K}, s.runs r = some f → r < n := by
    intro r f hf
    by_contra hge
    rw [hs r (not_lt.mp hge)] at hf
    cases hf
  cases e with
  | getLaps r node id => exact hstarted hname hstep
  | recompute r node id => exact hstarted hname hstep
  | advance r env =>
    obtain ⟨f, hf, rfl⟩ := Option.map_eq_some_iff.mp hstep
    exact hupdate (hflying hf)
  | crash r =>
    obtain ⟨f, hf, rfl⟩ := Option.map_eq_some_iff.mp hstep
    exact hupdate (hflying hf)
  | putSession id session =>
    rw [step] at hstep
    split at hstep
    · cases hstep
      exact hs r' hr'
    · cases hstep
  | restart node =>
    cases hstep
    exact hs r' hr'
  | arrive id sample =>
    cases hstep
    exact hs r' hr'
  | setTrack track =>
    cases hstep
    exact hs r' hr'
  | setCircuit id circuit =>
    cases hstep
    exact hs r' hr'

end Result

/-! ### Two sessions of a cold track -/

/-- A fix at an instant. -/
def fix (time : ℤ) (lat lon : ℚ) : AnalysisSample ℚ :=
  ⟨time, some lat, some lon, none, none, none, none, none, none⟩

/-- Once round a rectangle, `b` degrees high, over the line at its start and at its end. -/
def loop (b : ℚ) : List (StoredSample ℚ) :=
  [fix 0 0 (-1 / 10000), fix 100 0 (1 / 10000), fix 600 0 (3 / 1000), fix 1100 (b / 2) (3 / 1000),
    fix 1600 b (3 / 1000), fix 2100 b 0, fix 2600 b (-3 / 1000), fix 3100 (b / 2) (-3 / 1000),
    fix 3600 0 (-3 / 1000), fix 4100 0 (-1 / 10000), fix 4200 0 (1 / 10000)].map
    fun sample => ⟨sample, 0⟩

def loopSession : Session := ⟨"meridian", 0, some 5000, .completed, none, none, fun _ => rfl⟩

/-- Two sessions on a track without gates, the second on a line of its own. -/
def coldDatabase (b : ℚ) : Database ℚ where
  sessions id := if id < 2 then some loopSession else none
  tracks := [AnalysisMemo.seeded 1 "meridian" meridianGate]
  samples id := if id = 0 then loop (3 / 1000) else loop b
  laps _ := []
  circuits _ := none

/-- Database calls of a run. -/
def callsOf (r n : ℕ) : List (Event ℚ) := List.replicate n (.advance r ⟨9000, 9000⟩)

/-- The sessions are opened at once, on two instances: both read the track before either has persisted
its gates. -/
def bothAtOnce : List (Event ℚ) :=
  [.getLaps 0 0 0, .getLaps 1 1 1] ++ callsOf 0 1 ++ callsOf 1 1 ++ callsOf 0 7 ++ callsOf 1 7

/-- One after the other. -/
def oneByOne : List (Event ℚ) :=
  .getLaps 0 0 0 :: callsOf 0 8 ++ .getLaps 1 1 1 :: callsOf 1 6

theorem fresh_coldDatabase (b : ℚ) : Fresh (coldDatabase b) := by
  refine ⟨fun _ => rfl, fun id session h => ?_⟩
  change (if id < 2 then some loopSession else none) = some session at h
  split at h
  · cases h
    rfl
  · cases h

theorem noSurvey_coldDatabase (b : ℚ) : NoSurvey (coldDatabase b) 1 where
  keys := List.nodup_singleton 1
  unsurveyed := by
    intro row hrow _
    rw [List.mem_singleton.mp hrow]
    rfl

/-- The session is stamped with gates. -/
def stampedGates (db : Database ℚ) (sessionId : ℕ) : Bool :=
  (db.sessions sessionId).any fun session =>
    session.analyzedAt.isSome ∧ session.sectorScheme = some .gates

/-- It is not split on the gates of the track's row. -/
def splitOnOthers (db : Database ℚ) (sessionId : ℕ) : Bool :=
  (segmented flatMath id db sessionId).any fun place => place.1 = 1 ∧
    (db.tracks.find? (·.id = 1)).all fun row => row.derivedSectorGates.all fun set =>
      (db.laps sessionId).map (·.sectorMs) ≠
        place.2.map fun lap => sectorTimesFromGates flatMath lap.points set.gates

theorem not_oneGateSet {db : Database ℚ} {sessionId : ℕ} (hstamped : stampedGates db sessionId = true)
    (hothers : splitOnOthers db sessionId = true) : ¬OneGateSet flatMath id db 1 := by
  intro hone
  obtain ⟨session, hsession, hstamp⟩ := (Option.any_eq_true _ _).mp hstamped
  obtain ⟨hanalyzed, hscheme⟩ := of_decide_eq_true hstamp
  obtain ⟨⟨trackId, laps⟩, hsegmented, hplace⟩ := (Option.any_eq_true _ _).mp hothers
  obtain ⟨htrack, hrows⟩ := of_decide_eq_true hplace
  change trackId = 1 at htrack
  subst htrack
  obtain ⟨row, set, hrow, hset, hsplit⟩ :=
    hone sessionId session laps hsession hanalyzed hscheme hsegmented
  rw [hrow, Option.all_some, hset, Option.all_some] at hrows
  exact of_decide_eq_true hrows hsplit

/-- Where two runs started, two are not in flight. -/
theorem quiet_of_two {b : ℚ} {es : List (Event ℚ)} {s : System ℚ} (hnames : ∀ e ∈ es, NamesBelow 2 e)
    (hrun : run (step flatMath id) (start (coldDatabase b)) es = some s)
    (hquiet : ((s.runs 0).isNone && (s.runs 1).isNone) = true) : ∀ r, s.runs r = none := by
  rw [Bool.and_eq_true, Option.isNone_iff_eq_none, Option.isNone_iff_eq_none] at hquiet
  intro r
  match r with
  | 0 => exact hquiet.1
  | 1 => exact hquiet.2
  | r + 2 => exact runs_above flatMath id hnames hrun (r + 2) (by omega)

/-- **Two sessions of a cold track, opened at once**: each derives gates from its own best lap, and the
second persists its set over the one the first session was split on. -/
theorem coldTrack_two_sets :
    ∃ s, Fresh (coldDatabase (5 / 1000)) ∧ NoSurvey (coldDatabase (5 / 1000)) 1 ∧
      run (step flatMath id) (start (coldDatabase (5 / 1000))) bothAtOnce = some s ∧
      (∀ e ∈ bothAtOnce, Derives e) ∧ (∀ r, s.runs r = none) ∧ ¬OneGateSet flatMath id s.db 1 := by
  have htest : (run (step flatMath id) (start (coldDatabase (5 / 1000))) bothAtOnce).any (fun s =>
      ((s.runs 0).isNone && (s.runs 1).isNone) && (stampedGates s.db 0 && splitOnOthers s.db 0)) =
        true := by decide +kernel
  obtain ⟨s, hs, htest⟩ := (Option.any_eq_true _ _).mp htest
  rw [Bool.and_eq_true, Bool.and_eq_true (stampedGates _ _)] at htest
  obtain ⟨hquiet, hstamped, hothers⟩ := htest
  have hnames : ∀ e ∈ bothAtOnce, NamesBelow 2 e := by simp [bothAtOnce, callsOf, NamesBelow]
  refine ⟨s, fresh_coldDatabase _, noSurvey_coldDatabase _, hs, ?_, quiet_of_two hnames hs hquiet,
    not_oneGateSet hstamped hothers⟩
  simp [bothAtOnce, callsOf, Derives]

deriving instance DecidableEq for OptimalLap.OptimalLapInput, Lap

/-- A test of the condition: nothing is persisted over, and a run stamps its own rows. -/
def keepsAlone (s : System ℚ) : Event ℚ → Bool
  | .advance r _ => (s.runs r).all fun f =>
    match f.run.phase with
    | .persisting _ => (persistedGates s.db 1).isNone
    | .stamping own => s.db.laps f.run.sessionId = (derivation flatMath own).laps
    | _ => true
  | _ => true

theorem keepsGates_of_alone (s : System ℚ) (e : Event ℚ) (h : keepsAlone s e = true) :
    KeepsGates flatMath 1 s e := by
  cases e with
  | advance r env =>
    intro f hf
    simp only [keepsAlone, hf, Option.all_some] at h
    cases hphase : f.run.phase with
    | persisting reads =>
      rw [hphase] at h
      exact fun _ _ _ => .inl (Option.isNone_iff_eq_none.mp h)
    | stamping own =>
      rw [hphase] at h
      exact fun _ _ => .inl (of_decide_eq_true h)
    | _ => trivial
  | _ => trivial

/-- Opened one after the other, both are split on the gates the first one derived. -/
theorem one_gate_set_oneByOne :
    ∃ s, run (step flatMath id) (start (coldDatabase (61 / 20000))) oneByOne = some s ∧
      stampedGates s.db 0 = true ∧ stampedGates s.db 1 = true ∧ OneGateSet flatMath id s.db 1 := by
  have htest : (run (step flatMath id) (start (coldDatabase (61 / 20000))) oneByOne).any (fun s =>
      ((s.runs 0).isNone && (s.runs 1).isNone) && (stampedGates s.db 0 && stampedGates s.db 1)) =
        true := by decide +kernel
  have hcheck : check (step flatMath id) (fun s e => keepsAlone s e)
      (start (coldDatabase (61 / 20000))) oneByOne = true := by decide +kernel
  obtain ⟨s, hs, htest⟩ := (Option.any_eq_true _ _).mp htest
  rw [Bool.and_eq_true, Bool.and_eq_true (stampedGates _ _)] at htest
  obtain ⟨hquiet, hzero, hone⟩ := htest
  have hnames : ∀ e ∈ oneByOne, NamesBelow 2 e := by simp [oneByOne, callsOf, NamesBelow]
  have hderives : ∀ e ∈ oneByOne, Derives e := by simp [oneByOne, callsOf, Derives]
  exact ⟨s, hs, hzero, hone, one_gate_set flatMath id _ 1 (fresh_coldDatabase _)
    (noSurvey_coldDatabase _) oneByOne s hs hderives (meets_of_check _ keepsGates_of_alone hcheck)
    (quiet_of_two hnames hs hquiet)⟩

end TelemetryCloud.TrackGates
