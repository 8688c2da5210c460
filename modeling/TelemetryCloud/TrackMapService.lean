import TelemetryCloud.AnalysisService
import TelemetryCloud.Runs
import Mathlib.Data.Rat.Defs

/-!
# The track map service

`TrackMapService.get` on any number of API instances, over the table `track_maps`.  A *get* is a
call, a *fetch* the promise of `fetchAndPersist`, which the calls of one instance share.  One event
starts a call, answers its read, settles the request to Overpass, answers the upsert or the re-read
of `save`, or lets the deadline of a call pass.

* `fetchOrJoin`, `rowOf`, `upsert`, `step` : the code;
* `step_rows` : the only write, and what it writes;
* `ready_kept_iff` : **in which runs an outline once obtained is never lost**;
* `map_never_fails_iff` : **in which runs the map fails no view**: no call is rejected by anything
  but its own first read, and every derivation that asked for the map persists its laps.

`buildTrackMap` is any function of the response, and may throw.
-/

namespace TelemetryCloud.TrackMapService

open TelemetryCloud.Derivation TelemetryCloud.Geometry
open AnalysisService SectorGates LapSegmenter LapTrace Gates Runs

/-! ### Rows -/

inductive TrackMapStatus
  | ready
  | unavailable
  deriving DecidableEq, Repr

/-- `TrackMapFeature`: the circuit or a corner of it, a point being its longitude and latitude. -/
inductive TrackMapFeature (K : Type)
  | circuit (lengthM widthM : K) (coordinates : List (K × K))
  | corner (name : String) (coordinates : List (K × K))

structure TrackMapBbox (K : Type) where
  minLat : K
  minLon : K
  maxLat : K
  maxLon : K

/-- A row of `track_maps`. -/
structure TrackMap (K : Type) where
  trackId : ℕ
  status : TrackMapStatus
  geojson : Option (List (TrackMapFeature K))
  bbox : Option (TrackMapBbox K)
  centrelineLengthM : Option K
  source : Option String
  attribution : Option String
  osmDataTimestamp : Option ℤ
  fetchedAt : ℤ
  failureReason : Option String

/-- `BuildOutcome`. -/
inductive BuildOutcome (K : Type)
  | built (geojson : List (TrackMapFeature K)) (bbox : TrackMapBbox K) (centrelineLengthM : K)
      (osmDataTimestamp : Option ℤ)
  | rejected (reason : String)

def DEFAULT_ATTRIBUTION : String := "Map data © OpenStreetMap contributors, ODbL 1.0"

section Rows

variable {K : Type}

/-- An UNAVAILABLE row. -/
def unavailable (trackId : ℕ) (fetchedAt : ℤ) (failureReason : String) : TrackMap K where
  trackId := trackId
  status := .unavailable
  geojson := none
  bbox := none
  centrelineLengthM := none
  source := none
  attribution := none
  osmDataTimestamp := none
  fetchedAt := fetchedAt
  failureReason := some failureReason

/-- The upsert on the row of a track: the columns the new row sets go over those there. -/
def upsert (existing : Option (TrackMap K)) (row : TrackMap K) : TrackMap K :=
  match existing with
  | none => row
  | some old =>
    { row with
      geojson := row.geojson.or old.geojson
      bbox := row.bbox.or old.bbox
      centrelineLengthM := row.centrelineLengthM.or old.centrelineLengthM
      source := row.source.or old.source
      attribution := row.attribution.or old.attribution
      osmDataTimestamp := row.osmDataTimestamp.or old.osmDataTimestamp
      failureReason := row.failureReason.or old.failureReason }

@[simp] theorem upsert_status (existing : Option (TrackMap K)) (row : TrackMap K) :
    (upsert existing row).status = row.status := by
  cases existing <;> rfl

/-- The ring of the circuit, if the feature is it. -/
def TrackMapFeature.ring? : TrackMapFeature K → Option (List (LatLon K))
  | .circuit _ _ coordinates => some (coordinates.map fun point => ⟨point.2, point.1⟩)
  | .corner _ _ => none

/-- `readyCircuit`; no row is the answer `PENDING`. -/
def readyCircuit [Zero K] (trackMap : Option (TrackMap K)) : Option (ReadyCircuit K) :=
  match trackMap with
  | none => none
  | some row =>
    if row.status ≠ .ready then none
    else (row.geojson.bind (·.findSome? TrackMapFeature.ring?)).map fun ring =>
      ⟨ring, row.centrelineLengthM.getD 0⟩

end Rows

/-! ### State -/

/-- How a call can be rejected: by its own first read, or by `save`. -/
inductive Failure
  | read
  | save
  deriving DecidableEq, Repr

/-- Where a fetch is suspended. -/
inductive FetchPc (K : Type)
  | fetching
  | upserting (row : TrackMap K)
  | rereading

structure Fetch (K : Type) where
  node : ℕ
  track : Track K
  pc : FetchPc K

/-- Where a call is suspended, or what it was answered: `none` is `PENDING`. -/
inductive GetPc (K : Type)
  | finding
  | waiting (fetch : ℕ)
  | answered (result : Except Failure (Option (TrackMap K)))

structure Get (K : Type) where
  node : ℕ
  track : Track K
  pc : GetPc K

/-- The table by track, the fetches in flight by instance and track, and the calls; a fetch has the
name of the call that started it. -/
structure State (K : Type) where
  rows : ℕ → Option (TrackMap K)
  inflight : ℕ → ℕ → Option ℕ
  fetches : ℕ → Option (Fetch K)
  gets : ℕ → Option (Get K)

def init {K : Type} : State K := ⟨fun _ => none, fun _ _ => none, fun _ => none, fun _ => none⟩

inductive Event (K Response : Type)
  | get (g node : ℕ) (track : Track K)
  | found (g : ℕ) (now : ℤ) (ok : Bool)
  | overpass (f : ℕ) (now : ℤ) (answer : Except String Response)
  | upserted (f : ℕ) (ok : Bool)
  | reread (f : ℕ) (ok : Bool)
  | deadline (g : ℕ)

/-- The part of the configuration that decides anything here. -/
structure Config where
  TRACK_MAP_FETCH_ENABLED : Option Bool
  TRACK_MAP_RETRY_AFTER_HOURS : ℚ

def Config.fetchEnabled (config : Config) : Bool := config.TRACK_MAP_FETCH_ENABLED ≠ some false

/-- `isStaleUnavailable`. -/
def Config.isStaleUnavailable {K : Type} (config : Config) (now : ℤ) (row : TrackMap K) : Bool :=
  row.status = .unavailable &&
    config.TRACK_MAP_RETRY_AFTER_HOURS * 3600000 < (now - row.fetchedAt : ℤ)

/-! ### Steps -/

namespace State

variable {K : Type} (s : State K)

/-- The call is answered. -/
def answer (g : ℕ) (get : Get K) (result : Except Failure (Option (TrackMap K))) : State K :=
  { s with gets := Function.update s.gets g (some { get with pc := .answered result }) }

/-- `fetchOrJoin`, and the call awaits the fetch. -/
def fetchOrJoin (g : ℕ) (get : Get K) : State K :=
  match s.inflight get.node get.track.id with
  | some f => { s with gets := Function.update s.gets g (some { get with pc := .waiting f }) }
  | none =>
    { s with
      inflight := Function.update s.inflight get.node
        (Function.update (s.inflight get.node) get.track.id (some g))
      fetches := Function.update s.fetches g (some ⟨get.node, get.track, .fetching⟩)
      gets := Function.update s.gets g (some { get with pc := .waiting g }) }

/-- What the settling of the fetch `f` makes of a call. -/
def settled (f : ℕ) (result : Except Failure (Option (TrackMap K))) (get : Get K) : Get K :=
  match get.pc with
  | .waiting f' => if f' = f then { get with pc := .answered result } else get
  | _ => get

/-- The fetch settles: it is in flight no longer, and whoever awaits it is answered. -/
def settle (f : ℕ) (fetch : Fetch K) (result : Except Failure (Option (TrackMap K))) : State K :=
  { s with
    inflight := Function.update s.inflight fetch.node
      (Function.update (s.inflight fetch.node) fetch.track.id none)
    fetches := Function.update s.fetches f none
    gets := fun g => (s.gets g).map (settled f result) }

def advance (f : ℕ) (fetch : Fetch K) (pc : FetchPc K) : State K :=
  { s with fetches := Function.update s.fetches f (some { fetch with pc }) }

/-- The write of `save`. -/
def upsertRow (row : TrackMap K) : State K :=
  let stored := upsert (s.rows row.trackId) row
  { s with rows := Function.update s.rows row.trackId (some stored) }

theorem upsertRow_self (row : TrackMap K) :
    (s.upsertRow row).rows row.trackId = some (upsert (s.rows row.trackId) row) :=
  Function.update_self ..

theorem upsertRow_of_ne (row : TrackMap K) {trackId : ℕ} (h : trackId ≠ row.trackId) :
    (s.upsertRow row).rows trackId = s.rows trackId :=
  Function.update_of_ne h ..

end State

section Code

variable {K Response : Type} (config : Config)
  (buildTrackMap : Response → Gate K → Except String (BuildOutcome K))
  (copyright : Response → Option String)

/-- The row `fetchAndPersist` saves.  Whatever throws before the row is built ends in the `catch`;
the promise of `save` itself is returned, not awaited, so its rejection does not. -/
def rowOf (track : Track K) (now : ℤ) (answer : Except String Response) : TrackMap K :=
  match answer with
  | .error _ => unavailable track.id now "fetch-failed"
  | .ok response =>
    match buildTrackMap response (gateOf track) with
    | .error _ => unavailable track.id now "fetch-failed"
    | .ok (.rejected reason) => unavailable track.id now reason
    | .ok (.built geojson bbox centrelineLengthM osmDataTimestamp) =>
      { trackId := track.id
        status := .ready
        geojson := some geojson
        bbox := some bbox
        centrelineLengthM := some centrelineLengthM
        source := some "overpass"
        attribution := some ((copyright response).getD DEFAULT_ATTRIBUTION)
        osmDataTimestamp := osmDataTimestamp
        fetchedAt := now
        failureReason := none }

/-- `get` from the answer to its read on. -/
def afterFind (s : State K) (g : ℕ) (get : Get K) (now : ℤ) : State K :=
  match s.rows get.track.id with
  | some existing =>
    if !config.isStaleUnavailable now existing then s.answer g get (.ok (some existing))
    else if !config.fetchEnabled then s.answer g get (.ok (some existing))
    else s.fetchOrJoin g get
  | none =>
    if !config.fetchEnabled then
      s.answer g get (.ok (some (unavailable get.track.id now "fetch-disabled")))
    else s.fetchOrJoin g get

def step (s : State K) : Event K Response → Option (State K)
  | .get g node track =>
    match s.gets g, s.fetches g with
    | none, none => some { s with gets := Function.update s.gets g (some ⟨node, track, .finding⟩) }
    | _, _ => none
  | .found g now ok =>
    (s.gets g).bind fun get =>
      match get.pc with
      | .finding =>
        if ok then some (afterFind config s g get now) else some (s.answer g get (.error .read))
      | _ => none
  | .overpass f now answer =>
    (s.fetches f).bind fun fetch =>
      match fetch.pc with
      | .fetching =>
        some (s.advance f fetch
          (.upserting (rowOf buildTrackMap copyright fetch.track now answer)))
      | _ => none
  | .upserted f ok =>
    (s.fetches f).bind fun fetch =>
      match fetch.pc with
      | .upserting row =>
        if ok then some ((s.upsertRow row).advance f fetch .rereading)
        else some (s.settle f fetch (.error .save))
      | _ => none
  | .reread f ok =>
    (s.fetches f).bind fun fetch =>
      match fetch.pc with
      | .rereading =>
        match ok, s.rows fetch.track.id with
        | true, some row => some (s.settle f fetch (.ok (some row)))
        | _, _ => some (s.settle f fetch (.error .save))
      | _ => none
  | .deadline g =>
    (s.gets g).bind fun get =>
      match get.pc with
      | .waiting _ => some (s.answer g get (.ok none))
      | _ => none

end Code

/-! ### An outline that was obtained -/

section Ready

variable {K Response : Type} {config : Config}
  {buildTrackMap : Response → Gate K → Except String (BuildOutcome K)}
  {copyright : Response → Option String}

/-- The track's row is READY. -/
def Ready (s : State K) (trackId : ℕ) : Prop :=
  ∃ row, s.rows trackId = some row ∧ row.status = .ready

theorem afterFind_rows (s : State K) (g : ℕ) (get : Get K) (now : ℤ) :
    (afterFind config s g get now).rows = s.rows := by
  have hjoin : (s.fetchOrJoin g get).rows = s.rows := by
    unfold State.fetchOrJoin
    split <;> rfl
  unfold afterFind
  split
  · split
    · rfl
    · split
      · rfl
      · exact hjoin
  · split
    · rfl
    · exact hjoin

/-- **What one step writes**: nothing, or the row of a fetch that has come to its `save`. -/
theorem step_rows {s t : State K} {e : Event K Response}
    (h : step config buildTrackMap copyright s e = some t) :
    t.rows = s.rows ∨ ∃ f fetch row, e = .upserted f true ∧ s.fetches f = some fetch ∧
      fetch.pc = .upserting row ∧ t.rows = (s.upsertRow row).rows := by
  cases e with
  | get g node track =>
    simp only [step] at h
    split at h
    · cases h
      exact .inl rfl
    · cases h
  | found g now ok =>
    obtain ⟨get, -, h⟩ := Option.bind_eq_some_iff.mp h
    split at h
    · split at h
      · cases h
        exact .inl (afterFind_rows s g get now)
      · cases h
        exact .inl rfl
    · cases h
  | overpass f now answer =>
    obtain ⟨fetch, -, h⟩ := Option.bind_eq_some_iff.mp h
    split at h
    · cases h
      exact .inl rfl
    · cases h
  | upserted f ok =>
    obtain ⟨fetch, hfetch, h⟩ := Option.bind_eq_some_iff.mp h
    split at h
    · rename_i row hpc
      split at h
      · rename_i hok
        cases h
        exact .inr ⟨f, fetch, row, by rw [hok], hfetch, hpc, rfl⟩
      · cases h
        exact .inl rfl
    · cases h
  | reread f ok =>
    obtain ⟨fetch, -, h⟩ := Option.bind_eq_some_iff.mp h
    split at h
    · split at h <;>
        · cases h
          exact .inl rfl
    · cases h
  | deadline g =>
    obtain ⟨get, -, h⟩ := Option.bind_eq_some_iff.mp h
    split at h
    · cases h
      exact .inl rfl
    · cases h

/-- No fetch that came to nothing is saved over an outline: when the upsert of an UNAVAILABLE row
takes effect, the row of the track is not READY. -/
def KeepsReady (s : State K) (e : Event K Response) : Prop :=
  ∀ f fetch row, e = .upserted f true → s.fetches f = some fetch → fetch.pc = .upserting row →
    row.status = .unavailable → ¬ Ready s row.trackId

/-- **Which single step can lose an outline.** -/
theorem step_ready_iff {s t : State K} {e : Event K Response}
    (h : step config buildTrackMap copyright s e = some t) :
    (∀ trackId, Ready s trackId → Ready t trackId) ↔ KeepsReady s e := by
  have hwrite : ∀ {f fetch row}, e = .upserted f true → s.fetches f = some fetch →
      fetch.pc = .upserting row → t.rows = (s.upsertRow row).rows := by
    intro f fetch row he hfetch hpc
    rw [he, step, hfetch, Option.bind_some] at h
    simp only [hpc, if_true, Option.some.injEq] at h
    rw [← h]
    rfl
  constructor
  · intro hkeep f fetch row he hfetch hpc hstatus hready
    obtain ⟨stored, hstored, hstoredStatus⟩ := hkeep _ hready
    rw [hwrite he hfetch hpc, s.upsertRow_self, Option.some.injEq] at hstored
    rw [← hstored, upsert_status, hstatus] at hstoredStatus
    cases hstoredStatus
  · intro hkeeps trackId hready
    rcases step_rows h with hsame | ⟨f, fetch, row, he, hfetch, hpc, hrows⟩
    · rwa [Ready, hsame]
    · by_cases hid : trackId = row.trackId
      · subst hid
        refine ⟨_, by rw [hrows, s.upsertRow_self], ?_⟩
        rw [upsert_status]
        cases hstatus : row.status with
        | ready => rfl
        | unavailable => exact absurd hready (hkeeps f fetch row he hfetch hpc hstatus)
      · rwa [Ready, hrows, s.upsertRow_of_ne row hid]

/-- **In which runs an outline once obtained is never lost**: exactly those in which no upsert of an
UNAVAILABLE row finds the row of its track READY. -/
theorem ready_kept_iff (es : List (Event K Response)) (t : State K)
    (h : run (step config buildTrackMap copyright) init es = some t) :
    (∀ pre post u v trackId, pre ++ post <+: es →
        run (step config buildTrackMap copyright) init pre = some u →
        run (step config buildTrackMap copyright) u post = some v →
        Ready u trackId → Ready v trackId) ↔
      Meets (step config buildTrackMap copyright) KeepsReady init es := by
  apply Iff.symm
  apply stable_iff (step config buildTrackMap copyright) (I := fun _ => True) ?_ ?_ es init t
    trivial h
  · intro s e t _ _
    trivial
  · intro s e t _ hs
    have hiff := step_ready_iff hs
    constructor
    · intro hkeep
      exact hiff.mp hkeep
    · intro hkeeps
      exact hiff.mpr hkeeps

end Ready

/-! ### Calls and fetches -/

section Fetches

variable {K Response : Type} {config : Config}
  {buildTrackMap : Response → Gate K → Except String (BuildOutcome K)}
  {copyright : Response → Option String}

/-- Whoever waits, waits for a fetch that is in flight; what `inflight` names is; and a fetch about
to re-read the row of its track has written it. -/
structure Sound (s : State K) : Prop where
  waiting : ∀ g get f, s.gets g = some get → get.pc = .waiting f → (s.fetches f).isSome = true
  starting : ∀ g get, s.gets g = some get → get.pc = .finding → s.fetches g = none
  inflight : ∀ node trackId f, s.inflight node trackId = some f →
    ∃ fetch, s.fetches f = some fetch ∧ fetch.node = node ∧ fetch.track.id = trackId
  upserting : ∀ f fetch row, s.fetches f = some fetch → fetch.pc = .upserting row →
    row.trackId = fetch.track.id
  rereading : ∀ f fetch, s.fetches f = some fetch → fetch.pc = .rereading →
    (s.rows fetch.track.id).isSome = true

theorem sound_init : Sound (init : State K) where
  waiting := by simp [init]
  starting := by simp [init]
  inflight := by simp [init]
  upserting := by simp [init]
  rereading := by simp [init]

/-- A call may be answered or started at any time. -/
theorem Sound.setGet {s : State K} (h : Sound s) (g : ℕ) (get : Get K)
    (hwaiting : ∀ f, get.pc = .waiting f → (s.fetches f).isSome = true)
    (hstarting : get.pc = .finding → s.fetches g = none) :
    Sound { s with gets := Function.update s.gets g (some get) } where
  waiting := by
    intro g' get' f hget hpc
    replace hget : Function.update s.gets g (some get) g' = some get' := hget
    by_cases hg : g' = g
    · rw [hg, Function.update_self, Option.some.injEq] at hget
      subst hget
      exact hwaiting f hpc
    · rw [Function.update_of_ne hg] at hget
      exact h.waiting g' get' f hget hpc
  starting := by
    intro g' get' hget hpc
    replace hget : Function.update s.gets g (some get) g' = some get' := hget
    by_cases hg : g' = g
    · subst hg
      rw [Function.update_self, Option.some.injEq] at hget
      subst hget
      exact hstarting hpc
    · rw [Function.update_of_ne hg] at hget
      exact h.starting g' get' hget hpc
  inflight := h.inflight
  upserting := h.upserting
  rereading := h.rereading

theorem Sound.answer {s : State K} (h : Sound s) (g : ℕ) (get : Get K)
    (result : Except Failure (Option (TrackMap K))) : Sound (s.answer g get result) :=
  h.setGet g _ (fun _ hpc => by cases hpc) (fun hpc => by cases hpc)

/-- A fetch may start under a free name, and go on. -/
theorem Sound.setFetch {s : State K} (h : Sound s) (f : ℕ) (fetch : Fetch K)
    (hsame : ∀ old, s.fetches f = some old → fetch.node = old.node ∧ fetch.track = old.track)
    (hstarted : ∀ get, s.gets f = some get → get.pc ≠ .finding)
    (hupserting : ∀ row, fetch.pc = .upserting row → row.trackId = fetch.track.id)
    (hrereading : fetch.pc = .rereading → (s.rows fetch.track.id).isSome = true) :
    Sound { s with fetches := Function.update s.fetches f (some fetch) } where
  waiting := by
    intro g get f' hget hpc
    show (Function.update s.fetches f (some fetch) f').isSome = true
    by_cases hf : f' = f
    · rw [hf, Function.update_self]
      rfl
    · rw [Function.update_of_ne hf]
      exact h.waiting g get f' hget hpc
  starting := by
    intro g get hget hpc
    have hne : g ≠ f := by
      intro hgf
      subst hgf
      exact hstarted get hget hpc
    show Function.update s.fetches f (some fetch) g = none
    rw [Function.update_of_ne hne]
    exact h.starting g get hget hpc
  inflight := by
    intro node trackId f' hinflight
    obtain ⟨old, hold, hnode, htrack⟩ := h.inflight node trackId f' hinflight
    show ∃ fetch', Function.update s.fetches f (some fetch) f' = some fetch' ∧ _
    by_cases hf : f' = f
    · subst hf
      obtain ⟨hnode', htrack'⟩ := hsame old hold
      refine ⟨fetch, Function.update_self .., hnode'.trans hnode, ?_⟩
      rw [htrack']
      exact htrack
    · exact ⟨old, (Function.update_of_ne hf ..).trans hold, hnode, htrack⟩
  upserting := by
    intro f' fetch' row hfetch hpc
    replace hfetch : Function.update s.fetches f (some fetch) f' = some fetch' := hfetch
    by_cases hf : f' = f
    · rw [hf, Function.update_self, Option.some.injEq] at hfetch
      subst hfetch
      exact hupserting row hpc
    · rw [Function.update_of_ne hf] at hfetch
      exact h.upserting f' fetch' row hfetch hpc
  rereading := by
    intro f' fetch' hfetch hpc
    replace hfetch : Function.update s.fetches f (some fetch) f' = some fetch' := hfetch
    by_cases hf : f' = f
    · rw [hf, Function.update_self, Option.some.injEq] at hfetch
      subst hfetch
      exact hrereading hpc
    · rw [Function.update_of_ne hf] at hfetch
      exact h.rereading f' fetch' hfetch hpc

/-- **`fetchOrJoin`**: the call awaits the fetch in flight, or one of its own. -/
theorem Sound.fetchOrJoin {s : State K} (h : Sound s) {g : ℕ} {get : Get K}
    (hget : s.gets g = some get) (hpc : get.pc = .finding) : Sound (s.fetchOrJoin g get) := by
  have hfree := h.starting g get hget hpc
  unfold State.fetchOrJoin
  split
  · rename_i f hinflight
    obtain ⟨fetch, hfetch, -⟩ := h.inflight _ _ f hinflight
    apply h.setGet g _ ?_ (fun hpc => by cases hpc)
    intro f' hf'
    cases hf'
    rw [hfetch]
    rfl
  · -- the call stops finding, its fetch starts, the call waits for it, and `inflight` names it
    have hstopped := h.answer g get (.ok none)
    have hnew : ∀ old, s.fetches g = some old → get.node = old.node ∧ get.track = old.track := by
      intro old hold
      rw [hfree] at hold
      cases hold
    have hanswered : ∀ get', (s.answer g get (.ok none)).gets g = some get' →
        get'.pc ≠ .finding := by
      intro get' hget' hfinding
      obtain rfl := Option.some.inj ((Function.update_self g _ s.gets).symm.trans hget')
      cases hfinding
    have hstarted := hstopped.setFetch g ⟨get.node, get.track, .fetching⟩ hnew hanswered
      (fun row hpc => by cases hpc) (fun hpc => by cases hpc)
    have hinflight : ∀ f, GetPc.waiting (K := K) g = .waiting f →
        (Function.update s.fetches g (some ⟨get.node, get.track, .fetching⟩) f).isSome = true := by
      intro f hpc
      cases hpc
      rw [Function.update_self]
      rfl
    have hwaits := hstarted.setGet g { get with pc := .waiting g } hinflight
      (fun hpc => by cases hpc)
    simp only [State.answer, Function.update_idem] at hwaits
    refine ⟨hwaits.waiting, hwaits.starting, ?_, hwaits.upserting, hwaits.rereading⟩
    intro node trackId f hinflight
    by_cases hkey : node = get.node ∧ trackId = get.track.id
    · obtain ⟨rfl, rfl⟩ := hkey
      simp only [Function.update_self, Option.some.injEq] at hinflight
      subst hinflight
      exact ⟨_, Function.update_self .., rfl, rfl⟩
    · apply hwaits.inflight node trackId f
      rw [← hinflight]
      by_cases hnode : node = get.node
      · subst hnode
        show _ = Function.update s.inflight get.node _ get.node trackId
        rw [Function.update_self, Function.update_of_ne]
        exact fun htrack => hkey ⟨rfl, htrack⟩
      · show _ = Function.update s.inflight get.node _ node trackId
        rw [Function.update_of_ne hnode]

/-- A call that is not answered by the settling of `f` does not wait for it. -/
theorem settled_waiting {f f' : ℕ} {result : Except Failure (Option (TrackMap K))} {get : Get K}
    (h : (State.settled f result get).pc = .waiting f') : get.pc = .waiting f' ∧ f' ≠ f := by
  unfold State.settled at h
  split at h
  · rename_i w hw
    split at h
    · cases h
    · rename_i hne
      rw [hw] at h
      cases h
      exact ⟨hw, hne⟩
  · rename_i hno
    exact absurd h (hno f')

theorem settled_finding {f : ℕ} {result : Except Failure (Option (TrackMap K))} {get : Get K}
    (h : (State.settled f result get).pc = .finding) : get.pc = .finding := by
  unfold State.settled at h
  split at h
  · split at h
    · cases h
    · exact h
  · exact h

/-- **A fetch settles**, and nobody waits for it any longer. -/
theorem Sound.settle {s : State K} (h : Sound s) {f : ℕ} {fetch : Fetch K}
    (hfetch : s.fetches f = some fetch) (result : Except Failure (Option (TrackMap K))) :
    Sound (s.settle f fetch result) where
  waiting := by
    intro g get f' hget hpc
    obtain ⟨old, hold, rfl⟩ := Option.map_eq_some_iff.mp hget
    obtain ⟨hwaiting, hne⟩ := settled_waiting hpc
    show (Function.update s.fetches f none f').isSome = true
    rw [Function.update_of_ne hne]
    exact h.waiting g old f' hold hwaiting
  starting := by
    intro g get hget hpc
    obtain ⟨old, hold, rfl⟩ := Option.map_eq_some_iff.mp hget
    have hfree := h.starting g old hold (settled_finding hpc)
    show Function.update s.fetches f none g = none
    by_cases hg : g = f
    · rw [hg, Function.update_self]
    · rw [Function.update_of_ne hg, hfree]
  inflight := by
    intro node trackId f' hinflight
    replace hinflight : Function.update s.inflight fetch.node
      (Function.update (s.inflight fetch.node) fetch.track.id none) node trackId = some f' := hinflight
    have hold : s.inflight node trackId = some f' ∧ ¬ (node = fetch.node ∧ trackId = fetch.track.id) := by
      by_cases hnode : node = fetch.node
      · subst hnode
        rw [Function.update_self] at hinflight
        by_cases htrack : trackId = fetch.track.id
        · rw [htrack, Function.update_self] at hinflight
          cases hinflight
        · rw [Function.update_of_ne htrack] at hinflight
          exact ⟨hinflight, fun hkey => htrack hkey.2⟩
      · rw [Function.update_of_ne hnode] at hinflight
        exact ⟨hinflight, fun hkey => hnode hkey.1⟩
    obtain ⟨fetch', hfetch', hnode, htrack⟩ := h.inflight node trackId f' hold.1
    refine ⟨fetch', ?_, hnode, htrack⟩
    have hne : f' ≠ f := by
      intro hf
      rw [hf, hfetch, Option.some.injEq] at hfetch'
      subst hfetch'
      exact hold.2 ⟨hnode.symm, htrack.symm⟩
    exact (Function.update_of_ne hne ..).trans hfetch'
  upserting := by
    intro f' fetch' row hfetch' hpc
    replace hfetch' : Function.update s.fetches f none f' = some fetch' := hfetch'
    by_cases hf : f' = f
    · rw [hf, Function.update_self] at hfetch'
      cases hfetch'
    · rw [Function.update_of_ne hf] at hfetch'
      exact h.upserting f' fetch' row hfetch' hpc
  rereading := by
    intro f' fetch' hfetch' hpc
    replace hfetch' : Function.update s.fetches f none f' = some fetch' := hfetch'
    by_cases hf : f' = f
    · rw [hf, Function.update_self] at hfetch'
      cases hfetch'
    · rw [Function.update_of_ne hf] at hfetch'
      exact h.rereading f' fetch' hfetch' hpc

/-- A row is written. -/
theorem Sound.upsertRow {s : State K} (h : Sound s) (row : TrackMap K) :
    Sound (s.upsertRow row) where
  waiting := h.waiting
  starting := h.starting
  inflight := h.inflight
  upserting := h.upserting
  rereading := by
    intro f fetch hfetch hpc
    by_cases hid : fetch.track.id = row.trackId
    · rw [hid, s.upsertRow_self]
      rfl
    · rw [s.upsertRow_of_ne row hid]
      exact h.rereading f fetch hfetch hpc

@[simp] theorem rowOf_trackId (track : Track K) (now : ℤ) (answer : Except String Response) :
    (rowOf buildTrackMap copyright track now answer).trackId = track.id := by
  unfold rowOf
  split
  · rfl
  · split <;> rfl

/-- A fetch goes on. -/
theorem Sound.advance {s : State K} (h : Sound s) {f : ℕ} {fetch : Fetch K}
    (hfetch : s.fetches f = some fetch) {pc : FetchPc K}
    (hupserting : ∀ row, pc = .upserting row → row.trackId = fetch.track.id)
    (hrereading : pc = .rereading → (s.rows fetch.track.id).isSome = true) :
    Sound (s.advance f fetch pc) := by
  apply h.setFetch f { fetch with pc } ?_ ?_ hupserting hrereading
  · intro old hold
    obtain rfl := Option.some.inj (hfetch.symm.trans hold)
    exact ⟨rfl, rfl⟩
  · intro get hget hfinding
    rw [h.starting f get hget hfinding] at hfetch
    cases hfetch

theorem Sound.afterFind {s : State K} (h : Sound s) {g : ℕ} {get : Get K}
    (hget : s.gets g = some get) (hpc : get.pc = .finding) (now : ℤ) :
    Sound (afterFind config s g get now) := by
  unfold TrackMapService.afterFind
  split
  · split
    · exact h.answer g get _
    · split
      · exact h.answer g get _
      · exact h.fetchOrJoin hget hpc
  · split
    · exact h.answer g get _
    · exact h.fetchOrJoin hget hpc

theorem sound_step {s t : State K} {e : Event K Response} (h : Sound s)
    (hs : step config buildTrackMap copyright s e = some t) : Sound t := by
  cases e with
  | get g node track =>
    simp only [step] at hs
    split at hs
    · rename_i hfree
      cases hs
      exact h.setGet g _ (fun _ hpc => by cases hpc) (fun _ => hfree)
    · cases hs
  | found g now ok =>
    obtain ⟨get, hget, hs⟩ := Option.bind_eq_some_iff.mp hs
    split at hs
    · rename_i hpc
      split at hs
      · cases hs
        exact h.afterFind hget hpc now
      · cases hs
        exact h.answer g get _
    · cases hs
  | overpass f now answer =>
    obtain ⟨fetch, hfetch, hs⟩ := Option.bind_eq_some_iff.mp hs
    split at hs
    · cases hs
      apply h.advance hfetch ?_ (fun hpc => by cases hpc)
      intro row hpc
      cases hpc
      exact rowOf_trackId fetch.track now answer
    · cases hs
  | upserted f ok =>
    obtain ⟨fetch, hfetch, hs⟩ := Option.bind_eq_some_iff.mp hs
    split at hs
    · rename_i row hpc
      split at hs
      · cases hs
        apply (h.upsertRow row).advance hfetch (fun _ hpc => by cases hpc)
        intro _
        rw [← h.upserting f fetch row hfetch hpc, s.upsertRow_self]
        rfl
      · cases hs
        exact h.settle hfetch _
    · cases hs
  | reread f ok =>
    obtain ⟨fetch, hfetch, hs⟩ := Option.bind_eq_some_iff.mp hs
    split at hs
    · split at hs <;>
        · cases hs
          exact h.settle hfetch _
    · cases hs
  | deadline g =>
    obtain ⟨get, -, hs⟩ := Option.bind_eq_some_iff.mp hs
    split at hs
    · cases hs
      exact h.answer g get _
    · cases hs

theorem sound_run (es : List (Event K Response)) (t : State K)
    (h : run (step config buildTrackMap copyright) init es = some t) : Sound t :=
  run_invariant_of_step _ (fun _ _ _ hi hs => sound_step hi hs) es _ t sound_init h

end Fetches

/-! ### No call is failed by the map -/

section Unfailed

variable {K Response : Type} {config : Config}
  {buildTrackMap : Response → Gate K → Except String (BuildOutcome K)}
  {copyright : Response → Option String}

/-- No call was rejected by `save`. -/
def Unfailed (s : State K) : Prop :=
  ∀ g get, s.gets g = some get → get.pc ≠ .answered (.error .save)

/-- The fetch whose `save` the event rejects, in its upsert or its re-read. -/
def rejectedSave : Event K Response → Option ℕ
  | .upserted f false | .reread f false => some f
  | _ => none

/-- No `save` of a fetch is rejected while a call waits for the fetch. -/
def SavesUnwaited (s : State K) (e : Event K Response) : Prop :=
  ∀ f, rejectedSave e = some f → ∀ g get, s.gets g = some get → get.pc ≠ .waiting f

theorem Unfailed.setGet {s : State K} (h : Unfailed s) (g : ℕ) (get : Get K)
    (hget : get.pc ≠ .answered (.error .save)) {t : State K}
    (ht : t.gets = Function.update s.gets g (some get)) : Unfailed t := by
  intro g' get' hget'
  rw [ht] at hget'
  by_cases hg : g' = g
  · rw [hg, Function.update_self, Option.some.injEq] at hget'
    rwa [← hget']
  · rw [Function.update_of_ne hg] at hget'
    exact h g' get' hget'

theorem Unfailed.afterFind {s : State K} (h : Unfailed s) (g : ℕ) (get : Get K) (now : ℤ) :
    Unfailed (afterFind config s g get now) := by
  have hanswer : ∀ map, Unfailed (s.answer g get (.ok map)) := by
    intro map
    exact h.setGet g { get with pc := .answered (.ok map) } (fun hpc => by cases hpc) rfl
  have hjoin : Unfailed (s.fetchOrJoin g get) := by
    unfold State.fetchOrJoin
    split
    · rename_i f _
      exact h.setGet g { get with pc := .waiting f } (fun hpc => by cases hpc) rfl
    · exact h.setGet g { get with pc := .waiting g } (fun hpc => by cases hpc) rfl
  unfold TrackMapService.afterFind
  split
  · split
    · exact hanswer _
    · split
      · exact hanswer _
      · exact hjoin
  · split
    · exact hanswer _
    · exact hjoin

/-- What the settling of a fetch does to the calls: those that wait for it fail with it. -/
theorem settle_unfailed_iff {s : State K} (h : Unfailed s) (f : ℕ) (fetch : Fetch K)
    (result : Except Failure (Option (TrackMap K))) :
    Unfailed (s.settle f fetch result) ↔
      (result = .error .save → ∀ g get, s.gets g = some get → get.pc ≠ .waiting f) := by
  constructor
  · intro hunfailed hresult g get hget hpc
    apply hunfailed g (State.settled f result get)
    · show (s.gets g).map _ = _
      rw [hget]
      rfl
    · rw [State.settled, hpc, hresult]
      simp only [if_true]
  · intro hwaits g get hget hpc
    obtain ⟨old, hold, rfl⟩ := Option.map_eq_some_iff.mp hget
    unfold State.settled at hpc
    split at hpc
    · rename_i w hw
      split at hpc
      · rename_i hwf
        cases hpc
        exact hwaits rfl g old hold (hw.trans (congrArg GetPc.waiting hwf))
      · exact h g old hold hpc
    · exact h g old hold hpc

/-- **Which single step fails a call.** -/
theorem step_unfailed_iff {s t : State K} {e : Event K Response} (hsound : Sound s)
    (h : Unfailed s) (hs : step config buildTrackMap copyright s e = some t) :
    Unfailed t ↔ SavesUnwaited s e := by
  -- an event that rejects no `save` fails nobody
  have hquiet : rejectedSave e = none → Unfailed t → (Unfailed t ↔ SavesUnwaited s e) := by
    intro hno ht
    refine ⟨fun _ f he => ?_, fun _ => ht⟩
    rw [hno] at he
    cases he
  have hsettle : ∀ f fetch, rejectedSave e = some f → t = s.settle f fetch (.error .save) →
      (Unfailed t ↔ SavesUnwaited s e) := by
    intro f fetch he ht
    rw [ht, settle_unfailed_iff h]
    constructor
    · intro hwaits f' he'
      obtain rfl := Option.some.inj (he.symm.trans he')
      exact hwaits rfl
    · intro hwaits _
      exact hwaits f he
  cases e with
  | get g node track =>
    simp only [step] at hs
    split at hs
    · cases hs
      exact hquiet rfl
        (h.setGet g ⟨node, track, .finding⟩ (fun hpc => by cases hpc) rfl)
    · cases hs
  | found g now ok =>
    apply hquiet rfl
    obtain ⟨get, hget, hs⟩ := Option.bind_eq_some_iff.mp hs
    split at hs
    · split at hs
      · cases hs
        exact h.afterFind g get now
      · cases hs
        exact h.setGet g { get with pc := .answered (.error .read) } (fun hpc => by cases hpc) rfl
    · cases hs
  | overpass f now answer =>
    apply hquiet rfl
    obtain ⟨fetch, hfetch, hs⟩ := Option.bind_eq_some_iff.mp hs
    split at hs
    · cases hs
      exact h
    · cases hs
  | upserted f ok =>
    obtain ⟨fetch, hfetch, hs⟩ := Option.bind_eq_some_iff.mp hs
    split at hs
    · cases ok with
      | true =>
        cases hs
        exact hquiet rfl h
      | false =>
        cases hs
        exact hsettle f fetch rfl rfl
    · cases hs
  | reread f ok =>
    obtain ⟨fetch, hfetch, hs⟩ := Option.bind_eq_some_iff.mp hs
    split at hs
    · rename_i hpc
      obtain ⟨row, hrow⟩ := Option.isSome_iff_exists.mp (hsound.rereading f fetch hfetch hpc)
      rw [hrow] at hs
      cases ok with
      | true =>
        cases hs
        apply hquiet rfl
        exact (settle_unfailed_iff h f fetch _).mpr fun hresult => by cases hresult
      | false =>
        cases hs
        exact hsettle f fetch rfl rfl
    · cases hs
  | deadline g =>
    apply hquiet rfl
    obtain ⟨get, -, hs⟩ := Option.bind_eq_some_iff.mp hs
    split at hs
    · cases hs
      exact h.setGet g { get with pc := .answered (.ok none) } (fun hpc => by cases hpc) rfl
    · cases hs

/-- A call that waits need not wait longer than its deadline. -/
theorem waiting_answers {s : State K} {g : ℕ} {get : Get K} {f : ℕ} (hget : s.gets g = some get)
    (hpc : get.pc = .waiting f) :
    step config buildTrackMap copyright s (.deadline g) = some (s.answer g get (.ok none)) := by
  rw [step, hget, Option.bind_some, hpc]

end Unfailed

/-! ### The derivation that asks for the map -/

section Derivations

variable {K : Type} [Field K] [LinearOrder K] [FloorRing K] (M : MathLib K) (lower : String → String)

/-- `derive` from the answer of `getTrackMap` on, its database calls succeeding: a rejection is not
caught on the way. -/
def deriveWith (env : Env) (db : Database K) (memo : NoCrossings) (run : AnalysisService.Run K)
    (track : Track K) (samples : List (AnalysisSample K))
    (answer : Except Failure (Option (TrackMap K))) : Except Failure (Option (After K)) :=
  answer.map fun map =>
    finish M lower env 6
      { db with circuits := Function.update db.circuits track.id (readyCircuit map) } memo
      { run with phase := .mapping track samples }

/-- The derivation comes to its answer, and the laps it derived with the map it was given, of which
there are some, have gone into the session. -/
def Persists (env : Env) (db : Database K) (memo : NoCrossings) (run : AnalysisService.Run K)
    (track : Track K) (samples : List (AnalysisSample K))
    (answer : Except Failure (Option (TrackMap K))) : Prop :=
  ∃ map after response laps, answer = .ok map ∧
    deriveWith M lower env db memo run track samples answer = .ok (some after) ∧
    after.run = .inr response ∧ laps = (derivation M ⟨track, samples, readyCircuit map⟩).laps ∧
    laps ≠ [] ∧ after.db.laps run.sessionId =
      if run.replace then replaceSession laps
      else insertIgnoringDuplicates (db.laps run.sessionId) laps

/-- Written, stamped and read back. -/
theorem finish_writing (env : Env) (n : ℕ) (db : Database K) (memo : NoCrossings)
    (run : AnalysisService.Run K) (reads : Reads K) :
    ∃ after response, finish M lower env (n + 3) db memo { run with phase := .writing reads } =
        some after ∧ after.run = .inr response ∧
      after.db.laps run.sessionId =
        if run.replace then replaceSession (derivation M reads).laps
        else insertIgnoringDuplicates (db.laps run.sessionId) (derivation M reads).laps := by
  refine ⟨_, _, rfl, rfl, ?_⟩
  show Function.update db.laps run.sessionId _ run.sessionId = _
  rw [Function.update_self]

/-- **A derivation that is given a map, or none, persists its laps.** -/
theorem persists_ok (env : Env) (db : Database K) (memo : NoCrossings)
    (run : AnalysisService.Run K) (track : Track K) (samples : List (AnalysisSample K))
    (hlaps : segmentLaps M {} (gateOf track) samples ≠ []) (map : Option (TrackMap K)) :
    Persists M lower env db memo run track samples (.ok map) := by
  have hne : (derivation M ⟨track, samples, readyCircuit map⟩).laps ≠ [] := by
    intro hnil
    have hlength := length_derivation M ⟨track, samples, readyCircuit map⟩
    rw [hnil] at hlength
    exact hlaps (List.length_eq_zero_iff.mp hlength.symm)
  -- with or without gates to persist first, the run comes to the write of its laps
  obtain ⟨mapped, hmapped⟩ : ∃ mapped, mapped =
      { db with circuits := Function.update db.circuits track.id (readyCircuit map) } := ⟨_, rfl⟩
  have hcircuit : mapped.circuits track.id = readyCircuit map := by
    rw [hmapped]
    exact Function.update_self ..
  have hwriting : ∃ n db', db'.laps = mapped.laps ∧
      finish M lower env 6 mapped memo { run with phase := .mapping track samples } =
      finish M lower env (n + 3) db' memo
        { run with phase := .writing ⟨track, samples, readyCircuit map⟩ } := by
    cases hnew : (derivation M ⟨track, samples, readyCircuit map⟩).newlyDerived with
    | none =>
      refine ⟨2, mapped, rfl, ?_⟩
      rw [finish]
      simp only [advance, hcircuit, hnew, Option.isSome_none, Bool.false_eq_true, if_false, goOn]
    | some set =>
      refine ⟨1, mapped.setDerivedSectorGates track.id set env.updatedAt, rfl, ?_⟩
      rw [finish]
      simp only [advance, hcircuit, hnew, Option.isSome_some, if_true, goOn]
      rw [finish]
      simp only [advance, hnew, goOn]
  obtain ⟨n, db', hsame, hfinish⟩ := hwriting
  obtain ⟨after, response, hafter, hanswer, hstored⟩ := finish_writing M lower env n db' memo run
    ⟨track, samples, readyCircuit map⟩
  refine ⟨map, after, response, _, rfl, ?_, hanswer, rfl, hne, ?_⟩
  · rw [deriveWith, Except.map, ← hmapped, hfinish, hafter]
  · rw [hstored, hsame, hmapped]

/-- Every call that was answered, but for one whose own read failed, was given a map or `PENDING`,
and every derivation with laps that asked for it persists them. -/
def NeverFails (s : State K) : Prop :=
  ∀ g get answer, s.gets g = some get → get.pc = .answered answer → answer ≠ .error .read →
    (∃ map, answer = .ok map) ∧
      ∀ env db memo run track samples, segmentLaps M {} (gateOf track) samples ≠ [] →
        Persists M lower env db memo run track samples answer

theorem neverFails_iff (s : State K) : NeverFails M lower s ↔ Unfailed s := by
  constructor
  · intro h g get hget hpc
    obtain ⟨⟨map, hmap⟩, -⟩ := h g get _ hget hpc (fun hread => by cases hread)
    cases hmap
  · intro h g get answer hget hpc hread
    cases answer with
    | ok map =>
      refine ⟨⟨map, rfl⟩, ?_⟩
      intro env db memo run track samples hlaps
      exact persists_ok M lower env db memo run track samples hlaps map
    | error failure =>
      cases failure with
      | read => exact absurd rfl hread
      | save => exact absurd hpc (h g get hget)

variable {Response : Type} {config : Config}
  {buildTrackMap : Response → Gate K → Except String (BuildOutcome K)}
  {copyright : Response → Option String}

/-- **In which runs the map fails no view**: exactly those in which no `save` is rejected while a
call waits for its fetch.  A call that waits is answered at its deadline at the latest. -/
theorem map_never_fails_iff (es : List (Event K Response)) (t : State K)
    (h : run (step config buildTrackMap copyright) init es = some t) :
    ((∀ pre u, pre <+: es → run (step config buildTrackMap copyright) init pre = some u →
        NeverFails M lower u) ↔
      Meets (step config buildTrackMap copyright) SavesUnwaited init es) ∧
    ∀ g get f, t.gets g = some get → get.pc = .waiting f →
      ∃ t' get', step config buildTrackMap copyright t (.deadline g) = some t' ∧
        t'.gets g = some get' ∧ get'.pc = .answered (.ok none) := by
  constructor
  · have hempty : Unfailed (init : State K) := by
      intro g get hget
      cases hget
    have hprefixes := meets_iff_prefixes (step config buildTrackMap copyright)
      (C := SavesUnwaited) (I := Sound) (J := Unfailed) (fun s e t hi hs => sound_step hi hs)
      (fun s e t hi hj hs => step_unfailed_iff hi hj hs) es init t sound_init hempty h
    rw [hprefixes]
    constructor
    · intro hnever pre u hpre hu
      exact (neverFails_iff M lower u).mp (hnever pre u hpre hu)
    · intro hunfailed pre u hpre hu
      exact (neverFails_iff M lower u).mpr (hunfailed pre u hpre hu)
  · intro g get f hget hpc
    exact ⟨_, _, waiting_answers hget hpc, Function.update_self .., rfl⟩

end Derivations

section Example

def exampleConfig : Config := ⟨none, 24⟩

def exampleTrack (id : ℕ) : Track ℚ :=
  ⟨id, "serres-automotive", [], 41, 23, 42, 23, none, none, 0⟩

/-- A builder that places every response. -/
def exampleBuilder (_ : Unit) (_ : Gate ℚ) : Except String (BuildOutcome ℚ) :=
  .ok (.built [] ⟨41, 23, 42, 24⟩ 3175 none)

/-- A call finds nothing, fetches and is answered with the outline. -/
def coldTrack : List (Event ℚ Unit) :=
  [.get 0 0 (exampleTrack 1), .found 0 1000 true, .overpass 0 2000 (.ok ()), .upserted 0 true,
    .reread 0 true]

/-- An event that upserts no UNAVAILABLE row. -/
def savesOutline (s : State ℚ) : Event ℚ Unit → Bool
  | .upserted f true => (s.fetches f).all fun fetch => match fetch.pc with
    | .upserting row => row.status ≠ .unavailable
    | _ => true
  | _ => true

theorem keepsReady_of_savesOutline (s : State ℚ) (e : Event ℚ Unit) (h : savesOutline s e = true) :
    KeepsReady s e := by
  intro f fetch row he hfetch hpc hstatus
  subst he
  simp [savesOutline, hfetch, hpc, hstatus] at h

/-- The outline is there, and was never lost on the way. -/
theorem ready_kept_iff_coldTrack :
    ∃ t, run (step exampleConfig exampleBuilder fun _ => none) init coldTrack = some t ∧ Ready t 1 ∧
      ∀ pre post u v trackId, pre ++ post <+: coldTrack →
        run (step exampleConfig exampleBuilder fun _ => none) init pre = some u →
        run (step exampleConfig exampleBuilder fun _ => none) u post = some v →
        Ready u trackId → Ready v trackId :=
  ⟨_, rfl, ⟨_, rfl, rfl⟩, (ready_kept_iff coldTrack _ rfl).mpr
    (meets_of_check _ keepsReady_of_savesOutline rfl)⟩

/-- Two instances fetch one cold track; the first obtains the outline, the second is turned away by
Overpass. -/
def outlineLost : List (Event ℚ Unit) :=
  [.get 0 0 (exampleTrack 1), .get 1 1 (exampleTrack 1), .found 0 1000 true, .found 1 1000 true,
    .overpass 0 2000 (.ok ()), .upserted 0 true, .overpass 1 2000 (.error "429"),
    .upserted 1 true]

/-- **An outline that was obtained is overwritten by a failed fetch.** -/
theorem outlineLost_unready : ¬ ∀ (es : List (Event ℚ Unit)) (t : State ℚ),
    run (step exampleConfig exampleBuilder fun _ => none) init es = some t →
    ∀ pre post u v trackId, pre ++ post <+: es →
      run (step exampleConfig exampleBuilder fun _ => none) init pre = some u →
      run (step exampleConfig exampleBuilder fun _ => none) u post = some v →
      Ready u trackId → Ready v trackId := by
  intro h
  obtain ⟨row, hrow, hstatus⟩ := h outlineLost _ rfl (outlineLost.take 6) (outlineLost.drop 6) _ _ 1
    (List.take_append_drop 6 outlineLost ▸ List.prefix_refl _) rfl rfl ⟨_, rfl, rfl⟩
  cases hrow
  cases hstatus

theorem savesUnwaited_of_saved (s : State ℚ) (e : Event ℚ Unit)
    (h : (rejectedSave e).isNone = true) : SavesUnwaited s e := by
  intro f hf
  rw [hf] at h
  cases h

theorem map_never_fails_iff_coldTrack :
    ∃ t, run (step exampleConfig exampleBuilder fun _ => none) init coldTrack = some t ∧
      ∀ pre u, pre <+: coldTrack →
        run (step exampleConfig exampleBuilder fun _ => none) init pre = some u →
        NeverFails flatMath id u :=
  ⟨_, rfl, (map_never_fails_iff flatMath id coldTrack _ rfl).1.mpr
    (meets_of_check _ savesUnwaited_of_saved rfl)⟩

/-- Overpass turns the fetch of a call away, and the database the row that says so. -/
def saveRejected : List (Event ℚ Unit) :=
  [.get 0 0 (exampleTrack 1), .found 0 1000 true, .overpass 0 2000 (.error "429"),
    .upserted 0 false]

/-- **A call that is rejected because of the map.** -/
theorem saveRejected_fails : ¬ ∀ (es : List (Event ℚ Unit)) (t : State ℚ),
    run (step exampleConfig exampleBuilder fun _ => none) init es = some t →
    NeverFails flatMath id t := by
  intro h
  obtain ⟨⟨map, hmap⟩, -⟩ := h saveRejected _ rfl 0 _ (.error .save) rfl rfl (fun hread => by cases hread)
  cases hmap

end Example

end TelemetryCloud.TrackMapService
