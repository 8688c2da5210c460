import TelemetryCloud.IngestWire
import TelemetryCloud.Lists
import Mathlib.Logic.Function.Basic

/-!
# Ingest handlers: a message becomes samples

`TelemetryService.handleFrame` and `handleBackfill` as functions of the ingest state: the `sessions`
table, the context cache of `DeviceRegistryService`, and what they hand on (the samples enqueued for
the hypertable, the samples published live, the drops counted).  The database answers every call
here; the handlers suspended at their awaits are in `IngestSystem`, over the definitions of this
file.

* `resolve_spec` : what `DeviceRegistryService.resolve` answers and what it leaves behind;
* `handleFrames_enqueued` : frames delivered one by one enqueue the frames that validate on their
  own, all placed by one context;
* `handleBackfill_eq_handleFrames_iff` : **when a batch and its frames delivered on their own
  enqueue the same samples**.  Validation is where they differ: the schema version of a nested frame
  is not looked at, and one malformed frame costs the whole batch.
-/

namespace TelemetryCloud.IngestService

open IngestWire TelemetryCloud.Lists

/-! ### Rows, contexts and samples -/

/-- A row of `cars` as ingest reads it. -/
structure CarRef where
  id : ℕ
  ownerId : ℕ
  deriving DecidableEq, Repr

inductive SessionStatus
  | live
  | completed
  | aborted
  deriving DecidableEq, Repr

/-- A row of `sessions`.  Instants are milliseconds of the server's clock; a session made over REST
has no `deviceSessionId` and no `deviceMonoStartMs`. -/
structure SessionRef where
  id : ℕ
  carId : ℕ
  driverId : ℕ
  track : String
  startedAt : ℤ
  endedAt : Option ℤ
  status : SessionStatus
  deviceSessionId : Option String
  deviceMonoStartMs : Option ℕ
  deriving DecidableEq, Repr

/-- No `monoStartMs` is `NaN`. -/
structure SessionContext where
  sessionId : ℕ
  carId : ℕ
  anchorMs : ℤ
  monoStartMs : Option ℕ
  deriving DecidableEq, Repr

/-- A row on its way to `telemetry_samples`.  No `time` is the `Invalid Date`. -/
structure TelemetrySample where
  time : Option ℤ
  sessionId : ℕ
  carId : ℕ
  seq : ℕ
  rpm : Option (Within (0 : ℤ) 20000)
  coolantC : Option ℚ
  oilC : Option ℚ
  speedKmh : Option {q : ℚ // 0 ≤ q}
  lat : Option (Within (-90 : ℚ) 90)
  lon : Option (Within (-180 : ℚ) 180)
  gLat : Option ℚ
  gLon : Option ℚ
  gVert : Option ℚ
  lapNumber : Option ℕ
  lapMs : Option ℕ
  ext : Option (List (String × Json))

/-- The largest instant a `Date` holds, in milliseconds either side of the epoch. -/
def MAX_DATE_MS : ℕ := 8640000000000000

/-- `new Date(ms)`. -/
def date (ms : ℤ) : Option ℤ := if ms.natAbs ≤ MAX_DATE_MS then some ms else none

/-- Where on the server's clock the context puts a reading of the device's counter. -/
def SessionContext.instant (context : SessionContext) (monoMs : ℕ) : Option ℤ :=
  context.monoStartMs.map fun monoStart : ℕ => context.anchorMs + ((monoMs : ℤ) - monoStart)

/-- `DeviceRegistryService.sampleTime`. -/
def sampleTime (context : SessionContext) (monoMs : ℕ) : Option ℤ :=
  (context.instant monoMs).bind date

/-- `TelemetryService.toSample`. -/
def toSample (context : SessionContext) (frame : TelemetryFrame) : TelemetrySample where
  time := sampleTime context frame.mono
  sessionId := context.sessionId
  carId := context.carId
  seq := frame.seq
  rpm := frame.rpm
  coolantC := frame.coolant
  oilC := frame.oil
  speedKmh := frame.speed
  lat := frame.lat
  lon := frame.lon
  gLat := frame.gx
  gLon := frame.gy
  gVert := frame.gz
  lapNumber := frame.lap
  lapMs := frame.lapMs
  ext := frame.ext

/-- `IngestSessionsService.findByDeviceSessionId`. -/
def findByDeviceSessionId (sessions : List SessionRef) (sid : String) : Option SessionRef :=
  sessions.find? fun row => row.deviceSessionId = some sid

/-- The row `openSession` creates.  A column set to `undefined` is `NULL`. -/
def createSession (id : ℕ) (now : ℤ) (car : CarRef) (sid : String) (monoMs : Option ℕ)
    (track : Option String) : SessionRef where
  id := id
  carId := car.id
  driverId := car.ownerId
  track := match track with
    | none | some "" => "unknown"
    | some name => name
  startedAt := now
  endedAt := none
  status := .live
  deviceSessionId := some sid
  deviceMonoStartMs := monoMs

/-- The ownership rule of `openSession`: a `sid` that is another car's gives no session. -/
def ownSession (car : CarRef) (row : SessionRef) : Option SessionRef :=
  if row.carId = car.id then some row else none

/-- The context `DeviceRegistryService.load` builds from the row, where `Number(undefined)` is `NaN`. -/
def contextOf (row : SessionRef) (monoMs : Option ℕ) : SessionContext where
  sessionId := row.id
  carId := row.carId
  anchorMs := row.startedAt
  monoStartMs := row.deviceMonoStartMs.or monoMs

theorem findByDeviceSessionId_eq_some {sessions : List SessionRef} {sid : String} {row : SessionRef}
    (h : findByDeviceSessionId sessions sid = some row) :
    row ∈ sessions ∧ row.deviceSessionId = some sid :=
  ⟨List.mem_of_find?_eq_some h, by simpa using List.find?_some h⟩

@[simp] theorem createSession_deviceSessionId (id : ℕ) (now : ℤ) (car : CarRef) (sid : String)
    (monoMs : Option ℕ) (track : Option String) :
    (createSession id now car sid monoMs track).deviceSessionId = some sid := rfl

@[simp] theorem createSession_carId (id : ℕ) (now : ℤ) (car : CarRef) (sid : String)
    (monoMs : Option ℕ) (track : Option String) :
    (createSession id now car sid monoMs track).carId = car.id := rfl

/-! ### The handlers, with a database that answers -/

/-- What the handlers read and write.  `contexts` are the resolved promises of the cache; `enqueued`
is everything handed to `TelemetryWriterService`, `published` everything handed to
`LivePublisherService.publishFrame`, `drops` every drop counted. -/
structure Ingest where
  sessions : List SessionRef
  nextId : ℕ
  contexts : String × String → Option SessionContext
  enqueued : List TelemetrySample
  published : List TelemetrySample
  drops : List DropReason

section Handlers

variable (isUUID : String → Bool) (findCarByDeviceId : String → Option CarRef) (now : ℤ)

/-- `IngestSessionsService.openSession`. -/
def openSession (st : Ingest) (car : CarRef) (sid : String) (monoMs : Option ℕ)
    (track : Option String) : Option SessionRef × Ingest :=
  match findByDeviceSessionId st.sessions sid with
  | some existing => (ownSession car existing, st)
  | none =>
    let row := createSession st.nextId now car sid monoMs track
    (some row, { st with sessions := st.sessions ++ [row], nextId := st.nextId + 1 })

/-- `DeviceRegistryService.load`. -/
def load (st : Ingest) (deviceId sid : String) (monoMs : Option ℕ) (track : Option String) :
    Option SessionContext × Ingest :=
  match findCarByDeviceId deviceId with
  | none => (none, st)
  | some car =>
    let opened := openSession now st car sid monoMs track
    (opened.1.map (contextOf · monoMs), opened.2)

/-- `DeviceRegistryService.resolve`: only a context that was found stays in the cache. -/
def registryResolve (st : Ingest) (deviceId sid : String) (monoMs : Option ℕ)
    (track : Option String) : Option SessionContext × Ingest :=
  match st.contexts (deviceId, sid) with
  | some context => (some context, st)
  | none =>
    let loaded := load findCarByDeviceId now st deviceId sid monoMs track
    (loaded.1, { loaded.2 with
      contexts := Function.update loaded.2.contexts (deviceId, sid) loaded.1 })

def countDrop (st : Ingest) (reason : DropReason) : Ingest :=
  { st with drops := st.drops ++ [reason] }

/-- `TelemetryService.resolve`. -/
def resolve (st : Ingest) (deviceId sid : String) (monoMs : Option ℕ) (track : Option String) :
    Option SessionContext × Ingest :=
  let resolved := registryResolve findCarByDeviceId now st deviceId sid monoMs track
  match resolved.1 with
  | some context => (some context, resolved.2)
  | none => (none, countDrop resolved.2 .unknownDevice)

/-- `TelemetryService.handleFrame`. -/
def handleFrame (deviceId : String) (st : Ingest) (payload : Json) : Ingest :=
  match parse (decodeFrame isUUID) payload with
  | .error reason => countDrop st reason
  | .ok frame =>
    let resolved := resolve findCarByDeviceId now st deviceId frame.sid (some frame.mono) none
    match resolved.1 with
    | none => resolved.2
    | some context =>
      let sample := toSample context frame
      { resolved.2 with
        published := resolved.2.published ++ [sample]
        enqueued := resolved.2.enqueued ++ [sample] }

/-- `TelemetryService.handleBackfill`.  That `frames` is not empty is part of `BackfillBatch`; a
`TypeError` ends in the log of the controller. -/
def handleBackfill (deviceId : String) (st : Ingest) (payload : Json) : Ingest :=
  match parse (decodeBatch isUUID) payload with
  | .error reason => countDrop st reason
  | .ok batch =>
    match batch.first.mono with
    | none => st
    | some monoMs =>
      let resolved := resolve findCarByDeviceId now st deviceId batch.sid monoMs none
      match resolved.1 with
      | none => resolved.2
      | some context =>
        { resolved.2 with
          enqueued := resolved.2.enqueued ++ batch.ownFrames.map (toSample context) }

/-- The frames of a batch delivered to `handleFrame` one after another. -/
def handleFrames (deviceId : String) (st : Ingest) (payloads : List Json) : Ingest :=
  payloads.foldl (handleFrame isUUID findCarByDeviceId now deviceId) st

/-- The device is a car of the platform and `sid` is not another car's run. -/
def resolves (st : Ingest) (deviceId sid : String) : Bool :=
  (st.contexts (deviceId, sid)).isSome ||
    match findCarByDeviceId deviceId, findByDeviceSessionId st.sessions sid with
    | none, _ => false
    | some _, none => true
    | some car, some row => row.carId = car.id

end Handlers

/-! ### What `resolve` does -/

section Resolve

variable {findCarByDeviceId : String → Option CarRef} {now : ℤ} {deviceId sid : String}

variable (findCarByDeviceId now deviceId sid) in
/-- `resolve` answers with a context exactly when the device and the `sid` resolve. -/
theorem resolve_isSome (st : Ingest) (monoMs : Option ℕ) (track : Option String) :
    (resolve findCarByDeviceId now st deviceId sid monoMs track).1.isSome =
      resolves findCarByDeviceId st deviceId sid := by
  simp only [resolve, registryResolve, load, openSession, resolves, ownSession]
  cases st.contexts (deviceId, sid) with
  | some context => rfl
  | none =>
    cases findCarByDeviceId deviceId with
    | none => rfl
    | some car =>
      cases findByDeviceSessionId st.sessions sid with
      | none => rfl
      | some row => by_cases hown : row.carId = car.id <;> simp [hown]

/-- A context that was found is in the cache afterwards. -/
theorem resolve_cached {st : Ingest} {monoMs : Option ℕ} {track : Option String}
    {context : SessionContext}
    (h : (resolve findCarByDeviceId now st deviceId sid monoMs track).1 = some context) :
    (resolve findCarByDeviceId now st deviceId sid monoMs track).2.contexts (deviceId, sid) =
      some context := by
  simp only [resolve, registryResolve] at h ⊢
  cases hc : st.contexts (deviceId, sid) with
  | some cached =>
    rw [hc] at h
    rw [← h]
    exact hc
  | none =>
    rw [hc] at h
    cases hl : (load findCarByDeviceId now st deviceId sid monoMs track).1 with
    | none => simp only [hl, reduceCtorEq] at h
    | some loaded =>
      simp only [hl] at h ⊢
      rw [Function.update_self, h]

/-- `resolve` hands nothing on. -/
theorem resolve_enqueued (st : Ingest) (monoMs : Option ℕ) (track : Option String) :
    (resolve findCarByDeviceId now st deviceId sid monoMs track).2.enqueued = st.enqueued := by
  have hload : (load findCarByDeviceId now st deviceId sid monoMs track).2.enqueued =
      st.enqueued := by
    simp only [load, openSession]
    cases findCarByDeviceId deviceId with
    | none => rfl
    | some car => cases findByDeviceSessionId st.sessions sid <;> rfl
  have hregistry : (registryResolve findCarByDeviceId now st deviceId sid monoMs track).2.enqueued =
      st.enqueued := by
    simp only [registryResolve]
    cases st.contexts (deviceId, sid) with
    | some context => rfl
    | none => exact hload
  simp only [resolve]
  split
  · exact hregistry
  · exact hregistry

/-- What does not resolve still does not after it was looked up. -/
theorem resolves_resolve {st : Ingest} (monoMs : Option ℕ) (track : Option String)
    (h : resolves findCarByDeviceId st deviceId sid = false) :
    resolves findCarByDeviceId (resolve findCarByDeviceId now st deviceId sid monoMs track).2
      deviceId sid = false := by
  have hnone := resolve_isSome findCarByDeviceId now deviceId sid st monoMs track
  rw [h] at hnone
  simp only [resolve, registryResolve, load, openSession, resolves, ownSession] at h hnone ⊢
  cases hc : st.contexts (deviceId, sid) with
  | some context => simp [hc] at h
  | none =>
    cases hcar : findCarByDeviceId deviceId with
    | none => simp [countDrop]
    | some car =>
      cases hrow : findByDeviceSessionId st.sessions sid with
      | none => simp [hc, hcar, hrow] at h
      | some row =>
        have hown : row.carId ≠ car.id := by simpa [hc, hcar, hrow] using h
        simp [countDrop, hrow, hown]

end Resolve

/-! ### Frames one by one -/

section Frames

variable (isUUID : String → Bool)

/-- The frames among `payloads` that validate on their own. -/
def accepted (payloads : List Json) : List TelemetryFrame :=
  payloads.filterMap fun payload => (parse (decodeFrame isUUID) payload).toOption

variable {isUUID} {findCarByDeviceId : String → Option CarRef} {now : ℤ} {deviceId sid : String}

theorem accepted_cons_error {payload : Json} {reason : DropReason}
    (h : parse (decodeFrame isUUID) payload = .error reason) (rest : List Json) :
    accepted isUUID (payload :: rest) = accepted isUUID rest := by
  simp [accepted, h, Except.toOption]

theorem accepted_cons_ok {payload : Json} {frame : TelemetryFrame}
    (h : parse (decodeFrame isUUID) payload = .ok frame) (rest : List Json) :
    accepted isUUID (payload :: rest) = frame :: accepted isUUID rest := by
  simp [accepted, h, Except.toOption]

theorem parse_decodeFrame_sid {payload : Json} {frame : TelemetryFrame}
    (hsid : payload.get "sid" = some (.str sid))
    (h : parse (decodeFrame isUUID) payload = .ok frame) : frame.sid = sid := by
  have hframe := decodeFrame_sid (parse_eq_ok.mp h).2
  rw [hsid, Option.some.injEq, Json.str.injEq] at hframe
  exact hframe.symm

theorem handleFrames_cons (st : Ingest) (payload : Json) (rest : List Json) :
    handleFrames isUUID findCarByDeviceId now deviceId st (payload :: rest) =
      handleFrames isUUID findCarByDeviceId now deviceId
        (handleFrame isUUID findCarByDeviceId now deviceId st payload) rest := rfl

theorem handleFrame_error {st : Ingest} {payload : Json} {reason : DropReason}
    (h : parse (decodeFrame isUUID) payload = .error reason) :
    handleFrame isUUID findCarByDeviceId now deviceId st payload = countDrop st reason := by
  simp only [handleFrame, h]

/-- A frame that validates and resolves becomes one sample, and its context is cached. -/
theorem handleFrame_resolved {st : Ingest} {payload : Json} {frame : TelemetryFrame}
    {context : SessionContext} (hp : parse (decodeFrame isUUID) payload = .ok frame)
    (hc : (resolve findCarByDeviceId now st deviceId frame.sid (some frame.mono) none).1 = some context) :
    (handleFrame isUUID findCarByDeviceId now deviceId st payload).enqueued =
        st.enqueued ++ [toSample context frame] ∧
      (handleFrame isUUID findCarByDeviceId now deviceId st payload).contexts
        (deviceId, frame.sid) = some context := by
  simp only [handleFrame, hp, hc, resolve_enqueued, resolve_cached hc, and_self]

variable (now) in
/-- A frame that does not resolve changes nothing but the count of drops. -/
theorem handleFrame_unresolved {st : Ingest} {payload : Json} {frame : TelemetryFrame}
    (hp : parse (decodeFrame isUUID) payload = .ok frame)
    (h : resolves findCarByDeviceId st deviceId frame.sid = false) :
    (handleFrame isUUID findCarByDeviceId now deviceId st payload).enqueued = st.enqueued ∧
      resolves findCarByDeviceId (handleFrame isUUID findCarByDeviceId now deviceId st payload)
        deviceId frame.sid = false := by
  have hnone : (resolve findCarByDeviceId now st deviceId frame.sid (some frame.mono) none).1 = none := by
    rw [← Option.not_isSome_iff_eq_none, resolve_isSome, h]
    exact Bool.false_ne_true
  have hstep : handleFrame isUUID findCarByDeviceId now deviceId st payload =
      (resolve findCarByDeviceId now st deviceId frame.sid (some frame.mono) none).2 := by
    simp only [handleFrame, hp, hnone]
  rw [hstep]
  exact ⟨resolve_enqueued _ _ _, resolves_resolve _ _ h⟩

/-- A frame whose run is in the cache: the context is the cached one. -/
theorem resolve_of_cached {st : Ingest} {context : SessionContext}
    (hc : st.contexts (deviceId, sid) = some context) (monoMs : Option ℕ)
    (track : Option String) :
    (resolve findCarByDeviceId now st deviceId sid monoMs track).1 = some context := by
  simp only [resolve, registryResolve, hc]

/-- Counting a drop changes no answer of `resolve`. -/
theorem resolve_countDrop (st : Ingest) (reason : DropReason) (monoMs : Option ℕ)
    (track : Option String) :
    (resolve findCarByDeviceId now (countDrop st reason) deviceId sid monoMs track).1 =
      (resolve findCarByDeviceId now st deviceId sid monoMs track).1 := by
  simp only [resolve, registryResolve, load, openSession, countDrop]
  cases st.contexts (deviceId, sid) with
  | some context => rfl
  | none =>
    cases findCarByDeviceId deviceId with
    | none => rfl
    | some car =>
      cases findByDeviceSessionId st.sessions sid with
      | none => rfl
      | some row => cases hrow : ownSession car row <;> simp [hrow]

/-- **Frames delivered one by one**, when the run resolves: every frame that validates becomes one
sample, placed by the context the first of them resolved. -/
theorem handleFrames_enqueued (payloads : List Json)
    (hsid : ∀ payload ∈ payloads, payload.get "sid" = some (.str sid)) (st : Ingest)
    {context : SessionContext}
    (hctx : ∀ first ∈ (accepted isUUID payloads).head?,
      (resolve findCarByDeviceId now st deviceId sid (some first.mono) none).1 = some context) :
    (handleFrames isUUID findCarByDeviceId now deviceId st payloads).enqueued =
      st.enqueued ++ (accepted isUUID payloads).map (toSample context) := by
  induction payloads generalizing st with
  | nil => simp [handleFrames, accepted]
  | cons payload rest ih =>
    have hrest := fun q hq => hsid q (List.mem_cons_of_mem _ hq)
    rw [handleFrames_cons]
    cases hp : parse (decodeFrame isUUID) payload with
    | error reason =>
      rw [accepted_cons_error hp] at hctx ⊢
      rw [handleFrame_error hp, ih hrest]
      · rfl
      · intro first hfirst
        rw [resolve_countDrop]
        exact hctx first hfirst
    | ok frame =>
      obtain rfl : frame.sid = sid := parse_decodeFrame_sid (hsid _ List.mem_cons_self) hp
      rw [accepted_cons_ok hp] at hctx ⊢
      obtain ⟨henqueued, hcached⟩ := handleFrame_resolved hp (hctx frame rfl)
      -- the first frame put its context into the cache, and the others find it there
      rw [ih hrest _ (fun _ _ => resolve_of_cached hcached _ _), henqueued]
      simp

/-- Frames of a run that does not resolve leave nothing. -/
theorem handleFrames_unresolved (payloads : List Json)
    (hsid : ∀ payload ∈ payloads, payload.get "sid" = some (.str sid)) (st : Ingest)
    (h : resolves findCarByDeviceId st deviceId sid = false) :
    (handleFrames isUUID findCarByDeviceId now deviceId st payloads).enqueued = st.enqueued := by
  induction payloads generalizing st with
  | nil => rfl
  | cons payload rest ih =>
    have hrest := fun q hq => hsid q (List.mem_cons_of_mem _ hq)
    rw [handleFrames_cons]
    cases hp : parse (decodeFrame isUUID) payload with
    | error reason =>
      rw [handleFrame_error hp]
      exact ih hrest (countDrop st reason) h
    | ok frame =>
      obtain rfl : frame.sid = sid := parse_decodeFrame_sid (hsid _ List.mem_cons_self) hp
      obtain ⟨henqueued, hstill⟩ := handleFrame_unresolved now hp h
      rw [ih hrest _ hstill, henqueued]

end Frames

/-! ### The batch -/

section Batch

variable {isUUID : String → Bool} {findCarByDeviceId : String → Option CarRef} {now : ℤ}
  {deviceId sid : String}

theorem parse_toOption (payload : Json) :
    (parse (decodeFrame isUUID) payload).toOption =
      if versionOk payload then decodeFrame isUUID payload else none := by
  cases hp : parse (decodeFrame isUUID) payload with
  | ok frame =>
    obtain ⟨hv, hd⟩ := parse_eq_ok.mp hp
    simp [Except.toOption, hv, hd]
  | error reason =>
    by_cases hv : versionOk payload = true
    · cases hd : decodeFrame isUUID payload with
      | none => simp [Except.toOption]
      | some frame =>
        rw [parse_eq_ok.mpr ⟨hv, hd⟩] at hp
        cases hp
    · simp [Except.toOption, hv]

/-- Of frames that all decode, the ones with the version of this build are accepted. -/
theorem accepted_length {payloads : List Json}
    (h : ∀ payload ∈ payloads, (decodeFrame isUUID payload).isSome = true) :
    (accepted isUUID payloads).length = payloads.countP versionOk := by
  rw [accepted, List.length_filterMap_eq_countP]
  refine List.countP_congr fun payload hmem => ?_
  have hsome := h payload hmem
  by_cases hv : versionOk payload = true <;> simp [parse_toOption, hv, hsome]

theorem accepted_eq_nil_iff {payloads : List Json} : accepted isUUID payloads = [] ↔
    ∀ payload ∈ payloads, (parse (decodeFrame isUUID) payload).isOk = false := by
  rw [accepted, List.filterMap_eq_nil_iff]
  refine forall₂_congr fun payload _ => ?_
  cases parse (decodeFrame isUUID) payload <;> simp [Except.toOption, Except.isOk, Except.toBool]

/-- Of frames that all decode, as many are accepted as there are when every one has the version of
this build, and then these are the frames. -/
theorem accepted_of_mapM {payloads : List Json} {frames : List TelemetryFrame}
    (h : payloads.mapM (decodeFrame isUUID) = some frames) :
    (frames.length = (accepted isUUID payloads).length →
      ∀ payload ∈ payloads, versionOk payload = true) ∧
    ((∀ payload ∈ payloads, versionOk payload = true) → accepted isUUID payloads = frames) := by
  obtain ⟨hfilterMap, hdecodes⟩ := mapM_eq_some h
  constructor
  · intro hlen
    have hall : payloads.length = frames.length := by
      rw [hfilterMap, List.length_filterMap_eq_countP, List.countP_eq_length.mpr hdecodes]
    rw [accepted_length hdecodes, ← hall] at hlen
    exact List.countP_eq_length.mp hlen.symm
  · intro hv
    rw [hfilterMap]
    refine List.filterMap_congr fun payload hpayload => ?_
    rw [parse_toOption, if_pos (hv payload hpayload)]

/-- A batch whose elements carry its `sid` is one of frames, all its own. -/
theorem decodeBatch_frames {payload : Json} {elems : List Json} {batch : BackfillBatch}
    (hframes : payload.get "frames" = some (.arr elems))
    (hsid : ∀ elem ∈ elems, elem.get "sid" = payload.get "sid")
    (h : decodeBatch isUUID payload = some batch) :
    ∃ frames, elems.mapM (decodeFrame isUUID) = some frames ∧ batch.frames = frames.map .frame ∧
      batch.ownFrames = frames := by
  obtain ⟨hbatch, elems', helems', hmapM⟩ := decodeBatch_eq_some h
  obtain rfl : elems = elems' := by
    rw [hframes, Option.some.injEq, Json.arr.injEq] at helems'
    exact helems'
  rw [hbatch] at hsid
  rw [mapM_decodeElement hsid] at hmapM
  obtain ⟨frames, hdecoded, hmap⟩ := Option.map_eq_some_iff.mp hmapM
  refine ⟨frames, hdecoded, hmap.symm, ?_⟩
  rw [BackfillBatch.ownFrames_eq hmap.symm, List.filter_eq_self]
  intro frame hframe
  rw [(mapM_eq_some hdecoded).1, List.mem_filterMap] at hframe
  obtain ⟨elem, helem, hdecode⟩ := hframe
  have hs := decodeFrame_sid hdecode
  rw [hsid elem helem, Option.some.injEq, Json.str.injEq] at hs
  exact decide_eq_true hs.symm

/-- A batch that validates and resolves: one sample for each frame of its own, placed by the context
its first frame resolves to. -/
theorem handleBackfill_enqueued {st : Ingest} {payload : Json} {batch : BackfillBatch}
    (hp : parse (decodeBatch isUUID) payload = .ok batch) {first : TelemetryFrame}
    (hfirst : batch.first = .frame first) {context : SessionContext}
    (hc : (resolve findCarByDeviceId now st deviceId batch.sid (some first.mono) none).1 =
      some context) :
    (handleBackfill isUUID findCarByDeviceId now deviceId st payload).enqueued =
      st.enqueued ++ batch.ownFrames.map (toSample context) := by
  simp only [handleBackfill, hp, hfirst, BatchElement.mono, hc, resolve_enqueued]

/-- A batch that does not validate, or whose run does not resolve, leaves nothing. -/
theorem handleBackfill_nothing {st : Ingest} {payload : Json}
    (h : ∀ batch, parse (decodeBatch isUUID) payload = .ok batch →
      resolves findCarByDeviceId st deviceId batch.sid = false) :
    (handleBackfill isUUID findCarByDeviceId now deviceId st payload).enqueued = st.enqueued := by
  cases hp : parse (decodeBatch isUUID) payload with
  | error reason =>
    simp only [handleBackfill, hp]
    rfl
  | ok batch =>
    have hnone : ∀ monoMs,
        (resolve findCarByDeviceId now st deviceId batch.sid monoMs none).1 = none := by
      intro monoMs
      rw [← Option.not_isSome_iff_eq_none, resolve_isSome, h batch hp]
      exact Bool.false_ne_true
    cases hmono : batch.first.mono with
    | none => simp only [handleBackfill, hp, hmono]
    | some monoMs => simp only [handleBackfill, hp, hmono, hnone, resolve_enqueued]

/-- **When a batch and its frames on their own agree.**  They enqueue the same samples exactly when
the run does not resolve (then neither stores anything), or the batch validates and every frame in
it has the schema version of this build, or the batch does not validate and neither does any of its
frames. -/
theorem handleBackfill_eq_handleFrames_iff (st : Ingest) (payload : Json) (elems : List Json)
    (hframes : payload.get "frames" = some (.arr elems))
    (hpayload : payload.get "sid" = some (.str sid))
    (hsid : ∀ elem ∈ elems, elem.get "sid" = payload.get "sid") :
    (handleBackfill isUUID findCarByDeviceId now deviceId st payload).enqueued =
        (handleFrames isUUID findCarByDeviceId now deviceId st elems).enqueued ↔
      resolves findCarByDeviceId st deviceId sid = false ∨
        ((parse (decodeBatch isUUID) payload).isOk = true ∧
          ∀ elem ∈ elems, versionOk elem = true) ∨
        ((parse (decodeBatch isUUID) payload).isOk = false ∧
          ∀ elem ∈ elems, (parse (decodeFrame isUUID) elem).isOk = false) := by
  have hsid' : ∀ elem ∈ elems, elem.get "sid" = some (.str sid) :=
    fun elem helem => (hsid elem helem).trans hpayload
  have hbatchSid : ∀ batch, parse (decodeBatch isUUID) payload = .ok batch → batch.sid = sid := by
    intro batch hp
    have hb := (decodeBatch_eq_some (parse_eq_ok.mp hp).2).1
    rw [hpayload, Option.some.injEq, Json.str.injEq] at hb
    exact hb.symm
  by_cases hres : resolves findCarByDeviceId st deviceId sid = false
  · rw [handleBackfill_nothing fun batch hp => hbatchSid batch hp ▸ hres,
      handleFrames_unresolved elems hsid' st hres]
    simp only [hres, true_or]
  have hfound : ∀ monoMs, ∃ context,
      (resolve findCarByDeviceId now st deviceId sid monoMs none).1 = some context := by
    intro monoMs
    rw [← Option.isSome_iff_exists, resolve_isSome]
    exact Bool.eq_true_of_not_eq_false hres
  -- the context of the first accepted frame, whichever that is
  obtain ⟨context, hctx⟩ : ∃ context, ∀ first ∈ (accepted isUUID elems).head?,
      (resolve findCarByDeviceId now st deviceId sid (some first.mono) none).1 = some context := by
    cases hhead : (accepted isUUID elems).head? with
    | none => exact ⟨⟨0, 0, 0, none⟩, by simp⟩
    | some first =>
      obtain ⟨context, hcontext⟩ := hfound (some first.mono)
      exact ⟨context, by simpa using hcontext⟩
  rw [handleFrames_enqueued elems hsid' st hctx]
  cases hp : parse (decodeBatch isUUID) payload with
  | error reason =>
    rw [handleBackfill_nothing fun batch hok => by rw [hp] at hok; cases hok]
    rw [← accepted_eq_nil_iff, List.self_eq_append_right, List.map_eq_nil_iff]
    simp [Except.isOk, Except.toBool, hres]
  | ok batch =>
    obtain ⟨frames, hmapM, hbatchFrames, hown⟩ :=
      decodeBatch_frames hframes hsid (parse_eq_ok.mp hp).2
    obtain ⟨first, hhead, hfirst⟩ := BackfillBatch.first_eq hbatchFrames
    obtain ⟨hversions, hframesAre⟩ := accepted_of_mapM hmapM
    obtain rfl := hbatchSid batch hp
    obtain ⟨context', hctx'⟩ := hfound (some first.mono)
    rw [handleBackfill_enqueued hp hfirst hctx', hown, List.append_cancel_left_eq]
    simp only [hres, Except.isOk, Except.toBool, true_and, false_or, reduceCtorEq, false_and,
      or_false]
    constructor
    · intro heq
      have hlen := congrArg List.length heq
      rw [List.length_map, List.length_map] at hlen
      exact hversions hlen
    · intro hv
      have hacc := hframesAre hv
      have hsame := (hctx first (hacc ▸ hhead)).symm.trans hctx'
      rw [hacc, Option.some.inj hsame]

end Batch

section Example

/-- The `sid` of the example messages. -/
def exampleSid : String := "6f9619ff-8b86-4d01-b42d-00c04fc964ff"

/-- A registry that knows one device, `car-7`. -/
def exampleCars (deviceId : String) : Option CarRef :=
  if deviceId = "car-7" then some ⟨1, 2⟩ else none

/-- A frame with nothing but what is mandatory. -/
def exampleFrame (v : ℚ) (seq mono : ℚ) : Json :=
  .obj [("v", .num v), ("sid", .str exampleSid), ("seq", .num seq), ("mono", .num mono)]

def exampleBatch (frames : List Json) : Json :=
  .obj [("v", .num 1), ("sid", .str exampleSid), ("frames", .arr frames)]

theorem exampleFrame_sid (v seq mono : ℚ) :
    (exampleFrame v seq mono).get "sid" = some (.str exampleSid) := rfl

theorem exampleBatch_sid (frames : List Json) :
    (exampleBatch frames).get "sid" = some (.str exampleSid) := rfl

/-- Nothing stored, nothing cached. -/
def Ingest.empty : Ingest := ⟨[], 1, fun _ => none, [], [], []⟩

/-- Two frames of this build's version come out of a batch as they come out on their own. -/
theorem handleBackfill_eq_handleFrames_twoFrames :
    (handleBackfill (· == exampleSid) exampleCars 1000 "car-7" .empty
        (exampleBatch [exampleFrame 1 0 500, exampleFrame 1 1 600])).enqueued =
      (handleFrames (· == exampleSid) exampleCars 1000 "car-7" .empty
        [exampleFrame 1 0 500, exampleFrame 1 1 600]).enqueued :=
  (handleBackfill_eq_handleFrames_iff .empty _ _ rfl (exampleBatch_sid _)
    (by simp [exampleFrame_sid, exampleBatch_sid])).mpr (by decide)

/-- A frame of schema version 2 is enqueued out of a batch and dropped on its own. -/
theorem handleBackfill_ne_handleFrames_nestedVersion :
    ¬ ∀ (st : Ingest) (deviceId sid : String) (payload : Json) (elems : List Json),
      payload.get "frames" = some (.arr elems) → elems.length ≤ 1000 →
      payload.get "sid" = some (.str sid) →
      (∀ elem ∈ elems, elem.get "sid" = payload.get "sid") →
      (handleBackfill (· == exampleSid) exampleCars 1000 deviceId st payload).enqueued =
        (handleFrames (· == exampleSid) exampleCars 1000 deviceId st elems).enqueued := by
  intro h
  have heq := h .empty "car-7" exampleSid
    (exampleBatch [exampleFrame 1 0 500, exampleFrame 2 1 600])
    [exampleFrame 1 0 500, exampleFrame 2 1 600] rfl (by decide) rfl
    (by simp [exampleFrame_sid, exampleBatch_sid])
  have hlen := congrArg List.length heq
  revert hlen
  decide

end Example

end TelemetryCloud.IngestService
