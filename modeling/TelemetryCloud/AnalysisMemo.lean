import TelemetryCloud.AnalysisService
import TelemetryCloud.Runs

/-!
# The no-crossings memo

One `AnalysisService` with its memo over the tables, and everything that moves them: calls of
`getLaps` and `recompute`, patches of a session's track, corrections of a track's gate, and samples.

* `getLaps`, `recompute`, `step` : the calls, each to its answer, and the other events;
* `scannedGates` : the start/finish gate each session was last segmented on, read off a run;
* `remembered_inv` : what a memo entry says of the samples and of that gate;
* `getLaps_unmasked_iff` : **a call answers as with an empty memo exactly when an entry it finds was
  computed with the gate its track has**, or that gate finds no lap either;
* `patchedTrack_masked` : where a patch between two tracks seeded together masks the laps.
-/

namespace TelemetryCloud.AnalysisMemo

open TelemetryCloud.Geometry TelemetryCloud.Derivation
open Gates LapSegmenter LapTrace SectorGates AnalysisService Runs

/-! ### The calls -/

/-- One instance of the service, and the tables. -/
structure Node (K : Type) where
  db : Database K
  noCrossings : NoCrossings

inductive Event (K : Type)
  | getLaps (sessionId : ℕ) (env : Env)
  | recompute (sessionId : ℕ) (env : Env)
  /-- `SessionsService.update`. -/
  | update (sessionId : ℕ) (track : String)
  /-- A corrected start/finish gate; the update moves the row's `updatedAt`. -/
  | correctGate (trackId : ℕ) (gate : Gate K) (updatedAt : ℤ)
  | arrive (sessionId : ℕ) (sample : StoredSample K)

/-- A row with another start/finish gate. -/
def withGate {K : Type} (track : Track K) (gate : Gate K) (updatedAt : ℤ) : Track K :=
  { track with
    sfLat1 := gate.lat1
    sfLon1 := gate.lon1
    sfLat2 := gate.lat2
    sfLon2 := gate.lon2
    updatedAt }

/-- A track's gate is corrected. -/
def correctGate {K : Type} (db : Database K) (trackId : ℕ) (gate : Gate K) (updatedAt : ℤ) :
    Database K :=
  { db with
    tracks := db.tracks.map fun track =>
      if track.id = trackId then withGate track gate updatedAt else track }

section Code

variable {K : Type} [Field K] [LinearOrder K] [FloorRing K] (M : MathLib K) (lower : String → String)

/-- A run of one call to its answer. -/
def call (node : Node K) (env : Env) (run : Run K) : Node K × Option (LapsResponse K) :=
  match finish M lower env 9 node.db node.noCrossings run with
  | some after => (⟨after.db, after.noCrossings⟩, after.run.getRight?)
  | none => (node, none)

/-- `getLaps`; without the session it throws. -/
def getLaps (node : Node K) (sessionId : ℕ) (env : Env) : Node K × Option (LapsResponse K) :=
  match node.db.sessions sessionId with
  | none => (node, none)
  | some session => call M lower node env (getLapsRun sessionId session)

/-- `recompute`. -/
def recompute (node : Node K) (sessionId : ℕ) (env : Env) : Node K × Option (LapsResponse K) :=
  match node.db.sessions sessionId with
  | none => (node, none)
  | some session =>
    call M lower { node with noCrossings := node.noCrossings.delete sessionId } env
      (recomputeRun sessionId session)

def step (node : Node K) : Event K → Option (Node K)
  | .getLaps sessionId env => some (getLaps M lower node sessionId env).1
  | .recompute sessionId env => some (recompute M lower node sessionId env).1
  | .update sessionId track => some { node with db := node.db.patchTrack sessionId track }
  | .correctGate trackId gate updatedAt =>
    if node.db.tracks.all fun track => track.id = trackId → track.updatedAt < updatedAt then
      some { node with db := correctGate node.db trackId gate updatedAt }
    else none
  | .arrive sessionId sample => some { node with db := node.db.arrive sessionId sample }

/-! ### The gates of a run -/

/-- The gate a derivation with this memo finds no lap on, when it gets past the memo. -/
def fruitlessGate (db : Database K) (memo : NoCrossings) (sessionId : ℕ) (session : Session)
    (env : Env) : Option (Gate K) :=
  (scan lower db sessionId session env).bind fun (track, count) =>
    if memo.get sessionId ≠ some ⟨count, track.updatedAt⟩ ∧
        segmentLaps M {} (gateOf track) (windowSamples db sessionId session env) = [] then
      some (gateOf track)
    else none

def withFruitless (gates : ℕ → Option (Gate K)) (sessionId : ℕ) (gate : Option (Gate K)) :
    ℕ → Option (Gate K) :=
  match gate with
  | none => gates
  | some gate => Function.update gates sessionId (some gate)

/-- The start/finish gate each session was last found without laps on, after one more event. -/
def fruitless (node : Node K) (e : Event K) (gates : ℕ → Option (Gate K)) : ℕ → Option (Gate K) :=
  match e with
  | .getLaps sessionId env =>
    match node.db.sessions sessionId with
    | none => gates
    | some session =>
      if session.analyzedAt.isSome then gates
      else withFruitless gates sessionId
        (fruitlessGate M lower node.db node.noCrossings sessionId session env)
  | .recompute sessionId env =>
    match node.db.sessions sessionId with
    | none => gates
    | some session => withFruitless gates sessionId
        (fruitlessGate M lower node.db (node.noCrossings.delete sessionId) sessionId session env)
  | _ => gates

/-- **The start/finish gate each session was last found without laps on**, in a run from an instance
that has just started. -/
def fruitlessGates (db : Database K) (es : List (Event K)) : ℕ → Option (Gate K) :=
  history (step M lower) (fruitless M lower) ⟨db, .empty⟩ (fun _ => none) es

end Code

/-! ### What an entry says -/

section Tables

variable {K : Type}

/-- Samples that grew without the window getting fuller have the same window. -/
theorem findRange_of_prefix {old samples : List (StoredSample K)} {lo hi : ℤ}
    (hpre : old <+: samples) (hcount : countRange old lo hi = countRange samples lo hi) :
    findRange old lo hi = findRange samples lo hi := by
  obtain ⟨more, rfl⟩ := hpre
  rw [countRange, countRange, List.countP_append] at hcount
  have hmore : more.countP (fun row => lo ≤ row.time ∧ row.time ≤ hi) = 0 := by omega
  have hfilter : more.filter (fun row => lo ≤ row.time ∧ row.time ≤ hi) = [] := by
    rw [← List.length_eq_zero_iff, ← List.countP_eq_length_filter]
    exact hmore
  rw [findRange, findRange, SampleTable.range, SampleTable.range, List.filter_append, hfilter,
    List.append_nil]

theorem prefix_insertSample (samples : List (StoredSample K)) (sample : StoredSample K) :
    samples <+: insertSample samples sample := by
  rw [insertSample]
  split
  · exact List.prefix_refl _
  · exact List.prefix_append _ _

theorem sameWindows_patchTrack (db : Database K) (sessionId : ℕ) (track : String) :
    SameWindows db (db.patchTrack sessionId track) := by
  refine ⟨rfl, fun other session h => ?_⟩
  by_cases hid : other = sessionId
  · subst hid
    refine ⟨{ session with track }, ?_, rfl, rfl, rfl⟩
    rw [Database.patchTrack]
    dsimp only
    rw [Function.update_self, h]
    rfl
  · refine ⟨session, ?_, rfl, rfl, rfl⟩
    rw [Database.patchTrack]
    dsimp only
    rw [Function.update_of_ne hid, h]

end Tables

section Remembered

variable {K : Type} [Field K] [LinearOrder K] [FloorRing K] (M : MathLib K)

/-- What a memo entry says: the session is over, and with as many samples in its window it had no
lap on the gate. -/
def Fruitless (db : Database K) (gates : ℕ → Option (Gate K)) (entry : ℕ × NoCrossingsMemo) : Prop :=
  ∃ session endedAt gate old, db.sessions entry.1 = some session ∧ session.status ≠ .live ∧
    session.endedAt = some endedAt ∧ gates entry.1 = some gate ∧ old <+: db.samples entry.1 ∧
    countRange old session.startedAt endedAt = entry.2.sampleCount ∧
    segmentLaps M {} gate (findRange old session.startedAt endedAt) = []

/-- Every entry of the memo says so. -/
def Remembered (node : Node K) (gates : ℕ → Option (Gate K)) : Prop :=
  ∀ entry ∈ node.noCrossings.entries, Fruitless M node.db gates entry

variable {M} {gates : ℕ → Option (Gate K)} {db db' : Database K}

theorem Fruitless.mono {entry : ℕ × NoCrossingsMemo} (h : Fruitless M db gates entry)
    (hdb : SameWindows db db') : Fruitless M db' gates entry := by
  obtain ⟨session, endedAt, gate, old, hsession, hlive, hend, hgate, hold, hcount, hnone⟩ := h
  obtain ⟨session', hsession', hstart', hend', hstatus'⟩ := hdb.sessions _ _ hsession
  refine ⟨session', endedAt, gate, old, hsession', by rwa [hstatus'], hend'.trans hend, hgate, ?_,
    ?_, ?_⟩
  · rw [hdb.samples]
    exact hold
  · rw [hstart']
    exact hcount
  · rw [hstart']
    exact hnone

theorem Remembered.mono {memo memo' : NoCrossings} (h : Remembered M ⟨db, memo⟩ gates)
    (hdb : SameWindows db db') (hmemo : memo'.entries ⊆ memo.entries) :
    Remembered M ⟨db', memo'⟩ gates :=
  fun entry he => (h entry (hmemo he)).mono hdb

/-- A sample more takes nothing back. -/
theorem remembered_arrive {memo : NoCrossings} (h : Remembered M ⟨db, memo⟩ gates) (sessionId : ℕ)
    (sample : StoredSample K) : Remembered M ⟨db.arrive sessionId sample, memo⟩ gates := by
  intro entry he
  obtain ⟨session, endedAt, gate, old, hsession, hlive, hend, hgate, hold, hcount, hnone⟩ := h entry he
  refine ⟨session, endedAt, gate, old, hsession, hlive, hend, hgate, ?_, hcount, hnone⟩
  by_cases hid : entry.1 = sessionId
  · rw [Database.arrive]
    dsimp only
    rw [hid, Function.update_self]
    rw [hid] at hold
    exact hold.trans (prefix_insertSample _ sample)
  · rw [Database.arrive]
    dsimp only
    rw [Function.update_of_ne hid]
    exact hold

variable (lower : String → String) {memo : NoCrossings} {id : ℕ} {session : Session} {env : Env}

/-- One derivation, on its own. -/
theorem remembered_derive (h : Remembered M ⟨db, memo⟩ gates) (hsession : db.sessions id = some session)
    (replace : Bool) :
    Remembered M (call M lower ⟨db, memo⟩ env ⟨id, session, replace, derivePhase session⟩).1
      (withFruitless gates id (fruitlessGate M lower db memo id session env)) := by
  unfold call fruitlessGate
  dsimp only
  cases hscan : scan lower db id session env with
  | none =>
    obtain ⟨reason, hfinish⟩ := finish_unscanned M lower replace hscan
    rw [hfinish]
    exact h
  | some found =>
    obtain ⟨track, count⟩ := found
    rw [Option.bind_some]
    dsimp only
    by_cases hhit : memo.get id = some ⟨count, track.updatedAt⟩
    · rw [finish_hit M lower memo replace hscan hhit, if_neg (fun h => h.1 hhit)]
      exact h
    · by_cases hnone : segmentLaps M {} (gateOf track) (windowSamples db id session env) = []
      · rw [finish_noCrossings M lower memo replace hscan hhit hnone, if_pos ⟨hhit, hnone⟩]
        obtain ⟨hlive, -, hcount, -, -⟩ := scan_eq_some lower hscan
        obtain ⟨endedAt, hend⟩ := Option.isSome_iff_exists.mp (session.closed hlive)
        intro entry he
        rcases NoCrossings.mem_remember he with rfl | ⟨he, hne⟩
        · rw [hend, Option.getD_some] at hcount
          rw [windowSamples, hend, Option.getD_some] at hnone
          exact ⟨session, endedAt, gateOf track, db.samples id, hsession, hlive, hend,
            Function.update_self _ _ _, List.prefix_refl _, hcount, hnone⟩
        · obtain ⟨other, endedAt', gate, old, h1, h2, h3, h4, h5, h6, h7⟩ := h entry he
          refine ⟨other, endedAt', gate, old, h1, h2, h3, ?_, h5, h6, h7⟩
          rw [withFruitless, Function.update_of_ne hne]
          exact h4
      · obtain ⟨after, response, hfinish, -, hsub, hsame, -, -⟩ :=
          finish_laps M lower memo replace hscan hhit hnone
        rw [hfinish, if_neg (fun h => hnone h.2)]
        exact h.mono hsame hsub

theorem remembered_step {node next : Node K} {e : Event K} (h : Remembered M node gates)
    (hstep : step M lower node e = some next) :
    Remembered M next (fruitless M lower node e gates) := by
  cases e with
  | getLaps id env =>
    cases hstep
    unfold getLaps fruitless
    dsimp only
    cases hsession : node.db.sessions id with
    | none => exact h
    | some session =>
      dsimp only
      rw [getLapsRun]
      by_cases hanalyzed : session.analyzedAt.isSome
      · rw [if_pos hanalyzed, if_pos hanalyzed]
        exact h
      · rw [if_neg hanalyzed, if_neg hanalyzed]
        exact remembered_derive lower h hsession false
  | recompute id env =>
    cases hstep
    unfold recompute fruitless
    dsimp only
    cases hsession : node.db.sessions id with
    | none => exact h
    | some session =>
      exact remembered_derive lower
        (h.mono (.refl node.db) fun entry he => (NoCrossings.mem_delete.mp he).1) hsession true
  | update id track =>
    cases hstep
    exact h.mono (sameWindows_patchTrack node.db id track) (List.Subset.refl _)
  | correctGate trackId gate updatedAt =>
    rw [step] at hstep
    split at hstep
    · cases hstep
      exact h.mono ⟨rfl, fun _ session h => ⟨session, h, rfl, rfl, rfl⟩⟩ (List.Subset.refl _)
    · cases hstep
  | arrive id sample =>
    cases hstep
    exact remembered_arrive h id sample

/-- **In every run the memo's entries say what they say.** -/
theorem remembered_inv (db : Database K) (es : List (Event K)) (node : Node K)
    (hrun : run (step M lower) ⟨db, .empty⟩ es = some node) :
    Remembered M node (fruitlessGates M lower db es) := by
  refine history_invariant (step M lower) (fruitless M lower) (I := Remembered M) ?_ es _ node _ ?_
    hrun
  · intro s g e t h hstep
    exact remembered_step lower h hstep
  · intro entry he
    cases he

end Remembered

/-! ### Does the memo mask an answer? -/

section Masked

variable {K : Type} [Field K] [LinearOrder K] [FloorRing K] (M : MathLib K) (lower : String → String)

/-- The memo entry a `getLaps` call finds, if it finds one, was computed with the start/finish gate
the session's track has now, or that gate finds no lap either. -/
def EntryHolds (gates : ℕ → Option (Gate K)) (node : Node K) (id : ℕ) (env : Env) : Prop :=
  ∀ session track count, node.db.sessions id = some session → session.analyzedAt = none →
    scan lower node.db id session env = some (track, count) →
    node.noCrossings.get id = some ⟨count, track.updatedAt⟩ →
    gates id = some (gateOf track) ∨
      segmentLaps M {} (gateOf track) (windowSamples node.db id session env) = []

variable {M} {node : Node K} {id : ℕ} {session : Session} {env : Env} {track : Track K} {count : ℕ}

/-- An entry computed with the gate of now is still right. -/
theorem segmentLaps_of_entry {gates : ℕ → Option (Gate K)} (h : Remembered M node gates)
    (hsession : node.db.sessions id = some session)
    (hscan : scan lower node.db id session env = some (track, count))
    (hhit : node.noCrossings.get id = some ⟨count, track.updatedAt⟩)
    (hgate : gates id = some (gateOf track)) :
    segmentLaps M {} (gateOf track) (windowSamples node.db id session env) = [] := by
  obtain ⟨row, endedAt, gate, old, hrow, -, hend, hgate', hold, hcount, hnone⟩ :=
    h _ (NoCrossings.mem_of_get hhit)
  rw [hsession, Option.some.injEq] at hrow
  subst hrow
  rw [hgate, Option.some.injEq] at hgate'
  subst hgate'
  obtain ⟨-, -, hnow, -, -⟩ := scan_eq_some lower hscan
  rw [hend, Option.getD_some] at hnow
  rw [windowSamples, hend, Option.getD_some,
    ← findRange_of_prefix hold (hcount.trans hnow.symm)]
  exact hnone

/-- A call on an unanalyzed session is a derivation. -/
theorem getLaps_derive (hsession : node.db.sessions id = some session)
    (hanalyzed : session.analyzedAt = none) (memo : NoCrossings) :
    getLaps M lower ⟨node.db, memo⟩ id env =
      call M lower ⟨node.db, memo⟩ env ⟨id, session, false, derivePhase session⟩ := by
  rw [getLaps]
  dsimp only
  rw [hsession]
  dsimp only
  rw [getLapsRun, hanalyzed, Option.isSome_none, if_neg Bool.false_ne_true]

/-- A call that finds an entry and would find a lap answers otherwise than with an empty memo. -/
theorem getLaps_masked (hsession : node.db.sessions id = some session)
    (hanalyzed : session.analyzedAt = none)
    (hscan : scan lower node.db id session env = some (track, count))
    (hhit : node.noCrossings.get id = some ⟨count, track.updatedAt⟩)
    (hsome : segmentLaps M {} (gateOf track) (windowSamples node.db id session env) ≠ []) :
    (getLaps M lower node id env).2 ≠ (getLaps M lower ⟨node.db, .empty⟩ id env).2 := by
  obtain ⟨after, response, hfinish, hanswer, -, -, hreason, -⟩ :=
    finish_laps M lower .empty false hscan (NoCrossings.get_empty_ne _ _) hsome
  rw [getLaps_derive lower hsession hanalyzed, getLaps_derive lower hsession hanalyzed, call, call,
    finish_hit M lower _ false hscan hhit, hfinish]
  dsimp only
  rw [hanswer, Sum.getRight?_inr, Sum.getRight?_inr, ne_eq, Option.some.injEq]
  intro h
  rw [← h] at hreason
  cases hreason

/-- A call that finds no entry, or finds one where there is no lap, answers as with an empty memo. -/
theorem getLaps_unmasked (hsession : node.db.sessions id = some session)
    (hanalyzed : session.analyzedAt = none)
    (h : ∀ track count, scan lower node.db id session env = some (track, count) →
      node.noCrossings.get id = some ⟨count, track.updatedAt⟩ →
      segmentLaps M {} (gateOf track) (windowSamples node.db id session env) = []) :
    (getLaps M lower node id env).2 = (getLaps M lower ⟨node.db, .empty⟩ id env).2 := by
  rw [getLaps_derive lower hsession hanalyzed, getLaps_derive lower hsession hanalyzed, call, call]
  dsimp only
  cases hscan : scan lower node.db id session env with
  | none =>
    obtain ⟨reason, hfinish⟩ := finish_unscanned M lower false hscan
    rw [hfinish, hfinish]
  | some found =>
    obtain ⟨track, count⟩ := found
    have hmiss := NoCrossings.get_empty_ne id ⟨count, track.updatedAt⟩
    by_cases hhit : node.noCrossings.get id = some ⟨count, track.updatedAt⟩
    · have hnone := h track count hscan hhit
      rw [finish_hit M lower _ false hscan hhit,
        finish_noCrossings M lower _ false hscan hmiss hnone]
    · by_cases hnone : segmentLaps M {} (gateOf track) (windowSamples node.db id session env) = []
      · rw [finish_noCrossings M lower _ false hscan hhit hnone,
          finish_noCrossings M lower _ false hscan hmiss hnone]
      · obtain ⟨after, response, hfinish, hanswer, -, -, -, hother⟩ :=
          finish_laps M lower node.noCrossings false hscan hhit hnone
        obtain ⟨after', hfinish', hanswer'⟩ := hother .empty hmiss
        rw [hfinish, hfinish']
        dsimp only
        rw [hanswer, hanswer']

variable (M) in
/-- **In every run, a `getLaps` call answers as with an empty memo exactly when the entry it finds
was computed with the start/finish gate the track has now**, or that gate finds no lap either. -/
theorem getLaps_unmasked_iff (db : Database K) (es : List (Event K)) (node : Node K)
    (hrun : run (step M lower) ⟨db, .empty⟩ es = some node) (id : ℕ) (env : Env) :
    (getLaps M lower node id env).2 = (getLaps M lower ⟨node.db, .empty⟩ id env).2 ↔
      EntryHolds M lower (fruitlessGates M lower db es) node id env := by
  have hinv := remembered_inv lower db es node hrun
  constructor
  · intro heq session track count hsession hanalyzed hscan hhit
    right
    by_contra hsome
    exact getLaps_masked lower hsession hanalyzed hscan hhit hsome heq
  · intro hholds
    cases hsession : node.db.sessions id with
    | none =>
      rw [getLaps, getLaps]
      dsimp only
      rw [hsession]
    | some session =>
      cases hanalyzed : session.analyzedAt with
      | some analyzedAt =>
        rw [getLaps, getLaps]
        dsimp only
        rw [hsession]
        dsimp only
        rw [getLapsRun, hanalyzed, Option.isSome_some, if_pos rfl]
        rfl
      | none =>
        refine getLaps_unmasked lower hsession hanalyzed fun track count hscan hhit => ?_
        rcases hholds session track count hsession hanalyzed hscan hhit with hgate | hnone
        · exact segmentLaps_of_entry lower hinv hsession hscan hhit hgate
        · exact hnone

end Masked

/-! ### Two tracks seeded together -/

/-- A track with its gate, as the seed writes it. -/
def seeded (id : ℕ) (slug : String) (gate : Gate ℚ) : Track ℚ :=
  ⟨id, slug, [], gate.lat1, gate.lon1, gate.lat2, gate.lon2, none, none, 5⟩

/-- A line a degree away from every pass. -/
def farGate : Gate ℚ := ⟨-1 / 10000, 1, 1 / 10000, 1⟩

/-- A completed session with the two passes, on the track `slug`. -/
def passesSession (slug : String) : Session :=
  ⟨slug, 0, some 6000, .completed, none, none, fun _ => rfl⟩

/-- Two tracks seeded by one statement, and one session with the two passes on the wrong one. -/
def seededDatabase : Database ℚ where
  sessions id := if id = 0 then some (passesSession "far") else none
  tracks := [seeded 0 "far" farGate, seeded 1 "meridian" meridianGate]
  samples id := if id = 0 then twoPassesRows else []
  laps _ := []
  circuits _ := none

theorem segmentLaps_farGate : segmentLaps flatMath {} farGate twoPasses = [] := by
  have hpath : twoPasses.filterMap AnalysisSample.point? =
      [⟨(0 : ℤ), 0, -1 / 10000, none, none⟩, ⟨(100 : ℤ), 0, 1 / 10000, none, none⟩,
        ⟨(5000 : ℤ), 0, -1 / 10000, none, none⟩, ⟨(5100 : ℤ), 0, 1 / 10000, none, none⟩] := rfl
  have hpassages : passages (projectGate flatMath farGate)
      (twoPasses.filterMap AnalysisSample.point?) = [] := by
    rw [hpath]
    simp only [passages, passagesFrom, passage?, findGateCrossing, intersectGate, projectGate,
      flatMath, farGate, toFix, isStationary, metersPerDegLon, METERS_PER_DEG_LAT, MAX_FIX_GAP_MS]
    norm_num [abs_of_pos]
  rw [segmentLaps_eq, hpassages]
  rfl

theorem scan_far (env : Env) : scan id seededDatabase 0 (passesSession "far") env =
    some (seeded 0 "far" farGate, 4) := by
  rfl

/-- The entry the first call writes. -/
def farMemo : NoCrossings := ⟨[(0, ⟨4, 5⟩)]⟩

theorem getLaps_far (env : Env) :
    (getLaps flatMath id ⟨seededDatabase, .empty⟩ 0 env).1 = ⟨seededDatabase, farMemo⟩ := by
  rw [@getLaps_derive ℚ _ _ _ flatMath id ⟨seededDatabase, .empty⟩ 0 (passesSession "far") env rfl
    rfl, call]
  dsimp only
  rw [finish_noCrossings flatMath id .empty false (scan_far env)
    (NoCrossings.get_empty_ne _ _) segmentLaps_farGate]
  rfl

/-- Read again on the same track, the entry answers as the samples do. -/
theorem getLaps_unmasked_iff_far :
    (getLaps flatMath id ⟨seededDatabase, farMemo⟩ 0 ⟨7000, 7000⟩).2 =
      (getLaps flatMath id ⟨seededDatabase, .empty⟩ 0 ⟨7000, 7000⟩).2 := by
  have hrun : run (step flatMath id) ⟨seededDatabase, .empty⟩ [.getLaps 0 ⟨7000, 7000⟩] =
      some ⟨seededDatabase, farMemo⟩ := by
    rw [run_cons, step, getLaps_far]
    rfl
  refine (getLaps_unmasked_iff flatMath id seededDatabase _ ⟨seededDatabase, farMemo⟩ hrun 0
    ⟨7000, 7000⟩).mpr ?_
  intro session track count hsession _ hscan _
  right
  cases hsession
  rw [scan_far] at hscan
  cases hscan
  exact segmentLaps_farGate

/-- **A patch between two tracks seeded together masks the laps**: read on the wrong track, patched
to the right one, the session still answers that it has no crossings. -/
theorem patchedTrack_masked :
    ∃ (es : List (Event ℚ)) (node : Node ℚ) (env : Env),
      run (step flatMath id) ⟨seededDatabase, .empty⟩ es = some node ∧
        (getLaps flatMath id node 0 env).2 ≠ (getLaps flatMath id ⟨node.db, .empty⟩ 0 env).2 := by
  refine ⟨[.getLaps 0 ⟨7000, 7000⟩, .update 0 "meridian"],
    ⟨seededDatabase.patchTrack 0 "meridian", farMemo⟩, ⟨8000, 8000⟩, ?_, ?_⟩
  · rw [run_cons, step, getLaps_far]
    rfl
  · refine @getLaps_masked ℚ _ _ _ flatMath id ⟨_, farMemo⟩ 0 (passesSession "meridian") _
      (seeded 1 "meridian" meridianGate) 4 rfl rfl rfl rfl ?_
    intro hnone
    obtain ⟨lap, hlap, -⟩ := twoPasses_lap
    have hwindow : segmentLaps flatMath {} meridianGate twoPasses = [] := hnone
    rw [hwindow] at hlap
    cases hlap

end TelemetryCloud.AnalysisMemo
