import TelemetryCloud.IngestSystem

/-!
# Whose message a sample comes from

The broker lets a device publish under its own `deviceId` only, so every message has a publisher.  A
ledger kept beside a run of `IngestSystem` records the publisher of every handler, and with every
sample handed to the writer and every event announced the publisher of the message it comes from.
No step reads the ledger.

* `deliver_cases`, `query_effect`, `resume_effect` : what one event does, with nothing left out;
* `Traced` : what a handler is at work on belongs to the car of its publisher;
* `attribution` : **telemetry is attributed to the publishing car only**;
* `held_run` : what a handler holds was brought by its publisher.
-/

namespace TelemetryCloud.IngestProvenance

open IngestWire IngestService IngestSystem Runs

/-! ### What of a session no step changes -/

/-- The columns of a session row that a context is built from and that a car or a `sid` finds it
by. -/
structure Mark where
  id : ℕ
  carId : ℕ
  sid : Option String
  startedAt : ℤ
  monoStartMs : Option ℕ
  deriving DecidableEq

def mark (row : SessionRef) : Mark :=
  ⟨row.id, row.carId, row.deviceSessionId, row.startedAt, row.deviceMonoStartMs⟩

def marks (st : State) : List Mark := st.sessions.map mark

/-- The context is built from the row of the run `sid`. -/
def Placed (st : State) (sid : String) (context : SessionContext) : Prop :=
  ∃ clock : Option ℕ,
    (⟨context.sessionId, context.carId, some sid, context.anchorMs, clock⟩ : Mark) ∈ marks st ∧
      clock.or context.monoStartMs = context.monoStartMs

theorem closeSession_marks (st : State) (now : ℤ) (carId : ℕ) (sid : String) :
    marks (st.closeSession now carId sid) = marks st :=
  st.closeSession_map now carId sid mark fun _ => rfl

theorem mem_marks {st : State} {row : SessionRef} (h : row ∈ st.sessions) : mark row ∈ marks st :=
  List.mem_map_of_mem h

/-! ### What one event does -/

section Effects

variable {isUUID : String → Bool} {findCarByDeviceId : String → Option CarRef}

/-- The handlers that await the load of their own run, by the topics they come from. -/
inductive Awaiting (isUUID : String → Bool) (payload : Json) : Topic → String → (ℕ → Handler) → Prop
  | frame (frame : TelemetryFrame) (h : parse (decodeFrame isUUID) payload = .ok frame) :
      Awaiting isUUID payload .telemetry frame.sid (.frame frame)
  | backfill (batch : BackfillBatch) (h : parse (decodeBatch isUUID) payload = .ok batch) :
      Awaiting isUUID payload .backfill batch.sid (.backfill batch)
  | start (sid : String) : Awaiting isUUID payload .session sid .start

/-- A message is dropped, or turned into a handler: it awaits a load of its own device and run, an old
one or a new one, or it is a stop. -/
inductive Delivered (isUUID : String → Bool) (st : State) (now : ℤ) (deviceId : String)
    (payload : Json) (topic : Topic) : State → Prop
  | dropped (reason : DropReason) :
      Delivered isUUID st now deviceId payload topic (st.countDrop reason)
  | throws : Delivered isUUID st now deviceId payload topic st
  | awaits (sid : String) (monoMs : Option ℕ) (track : Option String) (handler : ℕ → Handler)
      (h : Awaiting isUUID payload topic sid handler) :
      Delivered isUUID st now deviceId payload topic
        ((st.resolve now deviceId sid monoMs track).2.spawn
          (handler (st.resolve now deviceId sid monoMs track).1))
  | stops (sid : String) :
      Delivered isUUID st now deviceId payload topic (st.spawn (.stopCar deviceId sid))

theorem deliver_cases (st : State) (now : ℤ) (deviceId : String) (payload : Json) (topic : Topic) :
    Delivered isUUID st now deviceId payload topic
      (deliver isUUID st now deviceId payload topic) := by
  cases topic with
  | telemetry =>
    simp only [deliver]
    cases hp : parse (decodeFrame isUUID) payload with
    | error reason => exact .dropped reason
    | ok frame => exact .awaits frame.sid (some frame.mono) none (.frame frame) (.frame frame hp)
  | backfill =>
    simp only [deliver]
    cases hp : parse (decodeBatch isUUID) payload with
    | error reason => exact .dropped reason
    | ok batch =>
      cases hmono : batch.first.mono with
      | none =>
        simp only [hmono]
        exact .throws
      | some monoMs =>
        simp only [hmono]
        exact .awaits batch.sid monoMs none (.backfill batch) (.backfill batch hp)
  | session =>
    simp only [deliver]
    cases parse (decodeSessionEvent isUUID) payload with
    | error reason => exact .dropped reason
    | ok event =>
      cases hevent : event.event with
      | start =>
        simp only [hevent]
        exact .awaits event.sid (some event.mono) event.track .start (.start event.sid)
      | stop =>
        simp only [hevent]
        exact .stops event.sid

/-- What a load has come to after its call is answered, and the session rows there are then. -/
inductive Loaded (findCarByDeviceId : String → Option CarRef) (st : State) (l : Load) :
    LoadPc → List SessionRef → Prop
  | moves (car : CarRef) (hcar : loadCar l.pc = some car ∨ findCarByDeviceId l.deviceId = some car)
      (pc : LoadPc) (hpc : loadCar pc = some car) : Loaded findCarByDeviceId st l pc st.sessions
  | ends (pc : LoadPc) (hpc : pc = .failed ∨ pc = .done none) :
      Loaded findCarByDeviceId st l pc st.sessions
  | found (car : CarRef) (hcar : loadCar l.pc = some car) (row : SessionRef)
      (hrow : row ∈ st.sessions) (hsid : row.deviceSessionId = some l.sid)
      (hown : row.carId = car.id) :
      Loaded findCarByDeviceId st l (.done (some (contextOf row l.monoMs))) st.sessions
  | opened (car : CarRef) (hcar : loadCar l.pc = some car) (startedAt : ℤ)
      (hnew : findByDeviceSessionId st.sessions l.sid = none) :
      Loaded findCarByDeviceId st l (.done (some (contextOf
          (createSession st.nextId startedAt car l.sid l.monoMs l.track) l.monoMs)))
        (st.sessions ++ [createSession st.nextId startedAt car l.sid l.monoMs l.track])

/-- What a step of a load leaves alone. -/
structure LoadFrame (st : State) (i : ℕ) (l : Load) (pc : LoadPc) (st' : State) : Prop where
  loads : st'.loads = Function.update st.loads i (some { l with pc })
  nextLoad : st'.nextLoad = st.nextLoad
  contexts : ∀ key entry, st'.contexts key = some entry → st.contexts key = some entry
  handlers : st'.handlers = st.handlers
  nextHandler : st'.nextHandler = st.nextHandler
  announced : st'.announced = st.announced

/-- What is cached after a forget was cached before. -/
theorem of_forgotten {st : State} {deviceId sid : String} (key : String × String)
    (entry : CacheEntry)
    (h : Function.update st.contexts (deviceId, sid) none key = some entry) :
    st.contexts key = some entry := by
  by_cases hkey : key = (deviceId, sid)
  · rw [hkey, Function.update_self] at h
    cases h
  · rwa [Function.update_of_ne hkey] at h

theorem settle_loadFrame (st : State) (i : ℕ) (l : Load) (pc : LoadPc) :
    LoadFrame st i l pc (st.settle i l pc) ∧ (st.settle i l pc).sessions = st.sessions := by
  cases pc with
  | done context =>
    cases context with
    | some context => exact ⟨⟨rfl, rfl, fun _ _ h => h, rfl, rfl, rfl⟩, rfl⟩
    | none => exact ⟨⟨rfl, rfl, of_forgotten, rfl, rfl, rfl⟩, rfl⟩
  | _ => exact ⟨⟨rfl, rfl, of_forgotten, rfl, rfl, rfl⟩, rfl⟩

theorem advanceLoad_loadFrame (st : State) (i : ℕ) (l : Load) (pc : LoadPc) :
    LoadFrame st i l pc (st.advanceLoad i l pc) :=
  ⟨rfl, rfl, fun _ _ h => h, rfl, rfl, rfl⟩

/-- **What the answer to a load's call does**: where the load goes on to, and what is left alone. -/
theorem query_effect {st st' : State} {i : ℕ} {now : ℤ} {ok : Bool}
    (h : query findCarByDeviceId st i now ok = some st') :
    ∃ l pc, st.loads i = some l ∧ LoadFrame st i l pc st' ∧
      Loaded findCarByDeviceId st l pc st'.sessions := by
  obtain ⟨l, hl, hqueried⟩ := query_cases h
  refine ⟨l, ?_⟩
  cases hqueried with
  | ends pc hpc =>
    obtain ⟨hframe, hsessions⟩ := settle_loadFrame st i l pc
    rw [hsessions]
    exact ⟨pc, hl, hframe, .ends pc hpc⟩
  | moves car hcar pc hpc => exact ⟨pc, hl, advanceLoad_loadFrame st i l pc, .moves car hcar pc hpc⟩
  | found car hcar row hrow hsid hown =>
    obtain ⟨hframe, -⟩ := settle_loadFrame st i l (.done (some (contextOf row l.monoMs)))
    exact ⟨_, hl, hframe, .found car hcar row hrow hsid hown⟩
  | opened car hcar startedAt hnew =>
    exact ⟨_, hl, ⟨rfl, rfl, fun _ _ h => h, rfl, rfl, rfl⟩, .opened car hcar startedAt hnew⟩

/-- Where a handler goes on to, and the session rows there are then. -/
inductive Resumed (findCarByDeviceId : String → Option CarRef) (st : State) :
    Handler → Option Handler → List SessionRef → Prop
  | ends (handler : Handler) : Resumed findCarByDeviceId st handler none st.sessions
  | carFound (deviceId sid : String) (car : CarRef) (hcar : findCarByDeviceId deviceId = some car) :
      Resumed findCarByDeviceId st (.stopCar deviceId sid) (some (.stopClose deviceId sid car))
        st.sessions
  | closes (deviceId sid : String) (car : CarRef) (now : ℤ)
      (hany : st.sessions.any (State.closes car.id sid) = true) :
      Resumed findCarByDeviceId st (.stopClose deviceId sid car)
        (some (.stopReread deviceId sid car)) (st.closeSession now car.id sid).sessions
  | notLive (deviceId sid : String) (car : CarRef) :
      Resumed findCarByDeviceId st (.stopClose deviceId sid car)
        (some (.stopFlush deviceId sid car none)) st.sessions
  | rereads (deviceId sid : String) (car : CarRef) :
      Resumed findCarByDeviceId st (.stopReread deviceId sid car)
        (some (.stopFlush deviceId sid car (findByDeviceSessionId st.sessions sid))) st.sessions
  | announces (deviceId sid : String) (car : CarRef) (row : SessionRef) :
      Resumed findCarByDeviceId st (.stopFlush deviceId sid car (some row))
        (some (.stopAnnounce deviceId sid)) st.sessions

/-- The events an event of the process announces on the live bus. -/
def announcing (st : State) : IngestSystem.Event → List Announcement
  | .resume h _ _ =>
    match st.handlers h with
    | some (.start i) =>
      ((st.found i).map fun context => ⟨context.carId, context.sessionId, .start⟩).toList
    | some (.stopFlush _ _ car (some row)) => [⟨car.id, row.id, .stop⟩]
    | _ => []
  | _ => []

/-- What a step of a handler leaves alone. -/
structure HandlerFrame (st : State) (h : ℕ) (next : Option Handler) (st' : State) : Prop where
  handlers : st'.handlers = Function.update st.handlers h next
  nextHandler : st'.nextHandler = st.nextHandler
  loads : st'.loads = st.loads
  nextLoad : st'.nextLoad = st.nextLoad
  contexts : ∀ key entry, st'.contexts key = some entry → st.contexts key = some entry

/-- **What letting a handler go on does**, with nothing left out. -/
theorem resume_effect {st st' : State} {h : ℕ} {now : ℤ} {ok : Bool}
    (hs : resume findCarByDeviceId st h now ok = some st') :
    ∃ handler next, st.handlers h = some handler ∧ HandlerFrame st h next st' ∧
      Resumed findCarByDeviceId st handler next st'.sessions ∧
      st'.announced = st.announced ++ announcing st (.resume h now ok) := by
  obtain ⟨handler, hh, hs⟩ := Option.bind_eq_some_iff.mp hs
  -- the handlers that end here, having counted a drop at most
  have hend : ∀ handler drops,
      st' = { st with handlers := Function.update st.handlers h none, drops := drops } →
      HandlerFrame st h none st' ∧ Resumed findCarByDeviceId st handler none st'.sessions ∧
        st'.announced = st.announced ++ [] := by
    rintro handler drops rfl
    exact ⟨⟨rfl, rfl, rfl, rfl, fun _ _ h => h⟩, .ends _, (List.append_nil _).symm⟩
  simp only [announcing, hh]
  cases handler with
  | frame frame i =>
    refine ⟨.frame frame i, none, rfl, ?_⟩
    rcases afterLoad_cases hs with ⟨context, hf, rfl⟩ | ⟨hf, rfl | rfl⟩ <;>
      exact ⟨⟨rfl, rfl, rfl, rfl, fun _ _ h => h⟩, .ends _, (List.append_nil _).symm⟩
  | backfill batch i =>
    refine ⟨.backfill batch i, none, rfl, ?_⟩
    rcases afterLoad_cases hs with ⟨context, hf, rfl⟩ | ⟨hf, rfl | rfl⟩ <;>
      exact ⟨⟨rfl, rfl, rfl, rfl, fun _ _ h => h⟩, .ends _, (List.append_nil _).symm⟩
  | start i =>
    refine ⟨.start i, none, rfl, ?_⟩
    rcases afterLoad_cases hs with ⟨context, hf, rfl⟩ | ⟨hf, rfl | rfl⟩
    · refine ⟨⟨rfl, rfl, rfl, rfl, fun _ _ h => h⟩, .ends _, ?_⟩
      simp only [hf]
      rfl
    · refine ⟨⟨rfl, rfl, rfl, rfl, fun _ _ h => h⟩, .ends _, ?_⟩
      simp only [hf]
      exact (List.append_nil _).symm
    · refine ⟨⟨rfl, rfl, rfl, rfl, fun _ _ h => h⟩, .ends _, ?_⟩
      simp only [hf]
      exact (List.append_nil _).symm
  | stopCar deviceId sid =>
    cases ok with
    | false =>
      cases hs
      exact ⟨_, none, rfl, hend _ _ rfl⟩
    | true =>
      simp only [if_true] at hs
      cases hcar : findCarByDeviceId deviceId with
      | none =>
        rw [hcar] at hs
        cases hs
        exact ⟨_, none, rfl, hend _ _ rfl⟩
      | some car =>
        rw [hcar] at hs
        cases hs
        exact ⟨_, some (.stopClose deviceId sid car), rfl, ⟨rfl, rfl, rfl, rfl, fun _ _ h => h⟩,
          .carFound deviceId sid car hcar, (List.append_nil _).symm⟩
  | stopClose deviceId sid car =>
    cases ok with
    | false =>
      cases hs
      exact ⟨_, none, rfl, hend _ _ rfl⟩
    | true =>
      simp only [if_true] at hs
      split at hs
      · rename_i hany
        cases hs
        exact ⟨_, some (.stopReread deviceId sid car), rfl, ⟨rfl, rfl, rfl, rfl, fun _ _ h => h⟩,
          .closes deviceId sid car now hany, (List.append_nil _).symm⟩
      · cases hs
        exact ⟨_, some (.stopFlush deviceId sid car none), rfl,
          ⟨rfl, rfl, rfl, rfl, fun _ _ h => h⟩, .notLive deviceId sid car, (List.append_nil _).symm⟩
  | stopReread deviceId sid car =>
    cases ok with
    | false =>
      cases hs
      exact ⟨_, none, rfl, hend _ _ rfl⟩
    | true =>
      cases hs
      exact ⟨_, some (.stopFlush deviceId sid car (findByDeviceSessionId st.sessions sid)), rfl,
        ⟨rfl, rfl, rfl, rfl, fun _ _ h => h⟩, .rereads deviceId sid car, (List.append_nil _).symm⟩
  | stopFlush deviceId sid car session =>
    cases session with
    | some row =>
      cases hs
      exact ⟨_, some (.stopAnnounce deviceId sid), rfl, ⟨rfl, rfl, rfl, rfl, fun _ _ h => h⟩,
        .announces deviceId sid car row, rfl⟩
    | none =>
      cases hs
      exact ⟨_, none, rfl, ⟨rfl, rfl, rfl, rfl, of_forgotten⟩, .ends _,
        (List.append_nil _).symm⟩
  | stopAnnounce deviceId sid =>
    cases hs
    exact ⟨_, none, rfl, ⟨rfl, rfl, rfl, rfl, of_forgotten⟩, .ends _,
      (List.append_nil _).symm⟩

end Effects

/-! ### What the process is at work on -/

section Tracing

variable {isUUID : String → Bool} {findCarByDeviceId : String → Option CarRef}

/-- The handler is at work on a message of the device `d`. -/
def WorksFor (findCarByDeviceId : String → Option CarRef) (st : State) (d : String) :
    Handler → Prop
  | .frame frame i => ∃ l, st.loads i = some l ∧ l.deviceId = d ∧ l.sid = frame.sid
  | .backfill batch i => ∃ l, st.loads i = some l ∧ l.deviceId = d ∧ l.sid = batch.sid
  | .start i => ∃ l, st.loads i = some l ∧ l.deviceId = d
  | .stopCar deviceId _ => deviceId = d
  | .stopClose deviceId _ car => deviceId = d ∧ findCarByDeviceId d = some car
  | .stopReread deviceId sid car => deviceId = d ∧ findCarByDeviceId d = some car ∧
      ∃ m ∈ marks st, m.sid = some sid ∧ m.carId = car.id
  | .stopFlush deviceId _ car session => deviceId = d ∧ findCarByDeviceId d = some car ∧
      ∀ row, session = some row → ∃ m ∈ marks st, m.id = row.id ∧ m.carId = car.id
  | .stopAnnounce deviceId _ => deviceId = d

/-- Sessions have `sid`s of their own; what is cached, loading or loaded for a device and a run is
its car's and its run's; every handler is at work for its publisher. -/
structure Traced (findCarByDeviceId : String → Option CarRef) (st : State)
    (publisher : ℕ → Option String) : Prop where
  sids : ∀ a ∈ marks st, ∀ b ∈ marks st, ∀ sid, a.sid = some sid → b.sid = some sid → a = b
  loadsBelow : ∀ i, st.nextLoad ≤ i → st.loads i = none
  handlersBelow : ∀ h, st.nextHandler ≤ h → st.handlers h = none
  cached : ∀ deviceId sid entry, st.contexts (deviceId, sid) = some entry →
    ∃ l, st.loads entry.resolving = some l ∧ l.deviceId = deviceId ∧ l.sid = sid
  loading : ∀ i l, st.loads i = some l → ∀ car, loadCar l.pc = some car →
    findCarByDeviceId l.deviceId = some car
  loaded : ∀ i l, st.loads i = some l → ∀ context, l.pc = .done (some context) →
    Placed st l.sid context ∧ ∃ car, findCarByDeviceId l.deviceId = some car ∧ context.carId = car.id
  working : ∀ h handler, st.handlers h = some handler →
    ∃ d, publisher h = some d ∧ WorksFor findCarByDeviceId st d handler

theorem traced_init : Traced findCarByDeviceId init fun _ => none where
  sids := by simp [marks, init]
  loadsBelow := by simp [init]
  handlersBelow := by simp [init]
  cached := by simp [init]
  loading := by simp [init]
  loaded := by simp [init]
  working := by simp [init]

theorem WorksFor.mono {st st' : State} {d : String} {handler : Handler}
    (h : WorksFor findCarByDeviceId st d handler)
    (hloads : ∀ i l, st.loads i = some l →
      ∃ l', st'.loads i = some l' ∧ l'.deviceId = l.deviceId ∧ l'.sid = l.sid)
    (hmarks : ∀ m ∈ marks st, m ∈ marks st') : WorksFor findCarByDeviceId st' d handler := by
  cases handler with
  | frame frame i =>
    obtain ⟨l, hl, hd, hsid⟩ := h
    obtain ⟨l', hl', hd', hsid'⟩ := hloads i l hl
    exact ⟨l', hl', hd'.trans hd, hsid'.trans hsid⟩
  | backfill batch i =>
    obtain ⟨l, hl, hd, hsid⟩ := h
    obtain ⟨l', hl', hd', hsid'⟩ := hloads i l hl
    exact ⟨l', hl', hd'.trans hd, hsid'.trans hsid⟩
  | start i =>
    obtain ⟨l, hl, hd⟩ := h
    obtain ⟨l', hl', hd', -⟩ := hloads i l hl
    exact ⟨l', hl', hd'.trans hd⟩
  | stopReread deviceId sid car =>
    obtain ⟨hd, hcar, m, hm, hmark⟩ := h
    exact ⟨hd, hcar, m, hmarks m hm, hmark⟩
  | stopFlush deviceId sid car session =>
    obtain ⟨hd, hcar, hrow⟩ := h
    refine ⟨hd, hcar, fun row hsession => ?_⟩
    obtain ⟨m, hm, hmark⟩ := hrow row hsession
    exact ⟨m, hmarks m hm, hmark⟩
  | stopCar deviceId sid => exact h
  | stopClose deviceId sid car => exact h
  | stopAnnounce deviceId sid => exact h

/-- The context of a row that is there. -/
theorem placed_contextOf {st : State} {row : SessionRef} {sid : String} (hrow : row ∈ st.sessions)
    (hsid : row.deviceSessionId = some sid) (monoMs : Option ℕ) :
    Placed st sid (contextOf row monoMs) := by
  refine ⟨row.deviceMonoStartMs, ?_, ?_⟩
  · rw [← hsid]
    exact mem_marks hrow
  · rw [contextOf, ← Option.or_assoc, Option.or_self]

theorem Placed.mono {st st' : State} {sid : String} {context : SessionContext}
    (h : Placed st sid context) (hmarks : ∀ m ∈ marks st, m ∈ marks st') :
    Placed st' sid context := by
  obtain ⟨clock, hmem, hclock⟩ := h
  exact ⟨clock, hmarks _ hmem, hclock⟩

variable {publisher : ℕ → Option String}

/-- A message arrives: no handler is waiting under its number. -/
theorem Traced.publish {st : State} (h : Traced findCarByDeviceId st publisher) (d : String) :
    Traced findCarByDeviceId st (Function.update publisher st.nextHandler (some d)) where
  sids := h.sids
  loadsBelow := h.loadsBelow
  handlersBelow := h.handlersBelow
  cached := h.cached
  loading := h.loading
  loaded := h.loaded
  working := by
    intro j handler hj
    have hne : j ≠ st.nextHandler := by
      intro heq
      rw [h.handlersBelow j (Nat.le_of_eq heq.symm)] at hj
      cases hj
    rw [Function.update_of_ne hne]
    exact h.working j handler hj

theorem Traced.spawn {st : State} (h : Traced findCarByDeviceId st publisher) {d : String}
    {handler : Handler} (hw : WorksFor findCarByDeviceId st d handler) :
    Traced findCarByDeviceId (st.spawn handler)
      (Function.update publisher st.nextHandler (some d)) where
  sids := h.sids
  loadsBelow := h.loadsBelow
  handlersBelow := by
    intro j hj
    replace hj : st.nextHandler + 1 ≤ j := hj
    show Function.update st.handlers st.nextHandler (some handler) j = none
    rw [Function.update_of_ne (by omega)]
    exact h.handlersBelow j (by omega)
  cached := h.cached
  loading := h.loading
  loaded := h.loaded
  working := by
    intro j handler' hj
    replace hj : Function.update st.handlers st.nextHandler (some handler) j = some handler' := hj
    by_cases hjn : j = st.nextHandler
    · subst hjn
      rw [Function.update_self, Option.some.injEq] at hj
      subst hj
      exact ⟨d, Function.update_self .., hw⟩
    · rw [Function.update_of_ne hjn] at hj ⊢
      exact h.working j handler' hj

/-- `DeviceRegistryService.resolve` hands out a load of the device and the run it is asked for. -/
theorem Traced.resolve {st : State} (h : Traced findCarByDeviceId st publisher) (now : ℤ)
    (deviceId sid : String) (monoMs : Option ℕ) (track : Option String) :
    Traced findCarByDeviceId (st.resolve now deviceId sid monoMs track).2 publisher ∧
      (st.resolve now deviceId sid monoMs track).2.nextHandler = st.nextHandler ∧
      ∃ l, (st.resolve now deviceId sid monoMs track).2.loads
        (st.resolve now deviceId sid monoMs track).1 = some l ∧ l.deviceId = deviceId ∧ l.sid = sid := by
  unfold State.resolve
  cases hc : st.contexts (deviceId, sid) with
  | some entry =>
    refine ⟨⟨h.sids, h.loadsBelow, h.handlersBelow, ?_, h.loading, h.loaded, h.working⟩,
      rfl, h.cached deviceId sid entry hc⟩
    intro deviceId' sid' entry' hentry
    replace hentry : Function.update st.contexts (deviceId, sid)
      (some { entry with expiresAt := now + CONTEXT_TTL_MS }) (deviceId', sid') = some entry' := hentry
    by_cases hkey : (deviceId', sid') = (deviceId, sid)
    · rw [hkey, Function.update_self, Option.some.injEq] at hentry
      rw [Prod.mk.injEq] at hkey
      obtain ⟨rfl, rfl⟩ := hkey
      subst hentry
      exact h.cached deviceId' sid' entry hc
    · rw [Function.update_of_ne hkey] at hentry
      exact h.cached deviceId' sid' entry' hentry
  | none =>
    -- the number of the new load is one no load has had
    have hfresh : ∀ {j : ℕ} {l : Load}, st.loads j = some l → j ≠ st.nextLoad := by
      intro j l hl heq
      rw [h.loadsBelow j (Nat.le_of_eq heq.symm)] at hl
      cases hl
    have hkeep : ∀ {j : ℕ} {l : Load}, st.loads j = some l →
        Function.update st.loads st.nextLoad (some ⟨deviceId, sid, monoMs, track, .findCar⟩) j =
          some l := by
      intro j l hl
      rw [Function.update_of_ne (hfresh hl), hl]
    refine ⟨⟨h.sids, ?_, h.handlersBelow, ?_, ?_, ?_, ?_⟩, rfl, ?_⟩
    · intro j hj
      replace hj : st.nextLoad + 1 ≤ j := hj
      show Function.update st.loads st.nextLoad _ j = none
      rw [Function.update_of_ne (by omega)]
      exact h.loadsBelow j (by omega)
    · intro deviceId' sid' entry' hentry
      replace hentry : Function.update st.contexts (deviceId, sid)
        (some ⟨st.nextLoad, now + CONTEXT_TTL_MS⟩) (deviceId', sid') = some entry' := hentry
      by_cases hkey : (deviceId', sid') = (deviceId, sid)
      · rw [hkey, Function.update_self, Option.some.injEq] at hentry
        rw [Prod.mk.injEq] at hkey
        obtain ⟨rfl, rfl⟩ := hkey
        subst hentry
        exact ⟨_, Function.update_self .., rfl, rfl⟩
      · rw [Function.update_of_ne hkey] at hentry
        obtain ⟨l, hl, hd, hsid⟩ := h.cached deviceId' sid' entry' hentry
        exact ⟨l, hkeep hl, hd, hsid⟩
    · intro j l hl car hcar
      by_cases hj : j = st.nextLoad
      · subst hj
        replace hl := (Function.update_self ..).symm.trans hl
        cases hl
        cases hcar
      · exact h.loading j l ((Function.update_of_ne hj ..).symm.trans hl) car hcar
    · intro j l hl context hcontext
      by_cases hj : j = st.nextLoad
      · subst hj
        replace hl := (Function.update_self ..).symm.trans hl
        cases hl
        cases hcontext
      · exact h.loaded j l ((Function.update_of_ne hj ..).symm.trans hl) context hcontext
    · intro j handler hj
      obtain ⟨d, hd, hw⟩ := h.working j handler hj
      exact ⟨d, hd, hw.mono (fun i l hl => ⟨l, hkeep hl, rfl, rfl⟩) fun m hm => hm⟩
    · exact ⟨_, Function.update_self .., rfl, rfl⟩

theorem Traced.deliver {st : State} (h : Traced findCarByDeviceId st publisher) (now : ℤ)
    (deviceId : String) (payload : Json) (topic : Topic) :
    Traced findCarByDeviceId (IngestSystem.deliver isUUID st now deviceId payload topic)
      (Function.update publisher st.nextHandler (some deviceId)) := by
  have hcases := @deliver_cases isUUID st now deviceId payload topic
  generalize IngestSystem.deliver isUUID st now deviceId payload topic = st' at hcases ⊢
  cases hcases with
  | dropped reason =>
    have hp := h.publish deviceId
    exact ⟨hp.sids, hp.loadsBelow, hp.handlersBelow, hp.cached, hp.loading, hp.loaded,
      hp.working⟩
  | throws =>
    have hp := h.publish deviceId
    exact ⟨hp.sids, hp.loadsBelow, hp.handlersBelow, hp.cached, hp.loading, hp.loaded, hp.working⟩
  | awaits sid monoMs track handler hkind =>
    obtain ⟨htraced, hnext, l, hl, hd, hsid⟩ := h.resolve now deviceId sid monoMs track
    rw [← hnext]
    apply htraced.spawn
    cases hkind with
    | frame frame => exact ⟨l, hl, hd, hsid⟩
    | backfill batch => exact ⟨l, hl, hd, hsid⟩
    | start => exact ⟨l, hl, hd⟩
  | stops sid => exact h.spawn rfl

theorem marks_updated {st st' : State} {l : Load} {pc : LoadPc}
    (h : Loaded findCarByDeviceId st l pc st'.sessions) :
    (marks st' = marks st) ∨ ∃ car startedAt, findByDeviceSessionId st.sessions l.sid = none ∧
      marks st' = marks st ++ [mark (createSession st.nextId startedAt car l.sid l.monoMs l.track)] := by
  unfold marks
  generalize st'.sessions = sessions at h ⊢
  cases h with
  | moves => exact .inl rfl
  | ends => exact .inl rfl
  | found => exact .inl rfl
  | opened car hcar startedAt hnew => exact .inr ⟨car, startedAt, hnew, List.map_append⟩

/-- A run that no row is found for has no row. -/
theorem marks_ne_of_find_none {st : State} {sid : String}
    (h : findByDeviceSessionId st.sessions sid = none) : ∀ m ∈ marks st, m.sid ≠ some sid := by
  intro m hm hsid
  obtain ⟨row, hrow, rfl⟩ := List.mem_map.mp hm
  have hno := List.find?_eq_none.mp h row hrow
  replace hsid : row.deviceSessionId = some sid := hsid
  simp [hsid] at hno

/-- A load goes on with the car it has found. -/
theorem Loaded.car {st : State} {l : Load} {pc : LoadPc} {sessions : List SessionRef} {car : CarRef}
    (h : Loaded findCarByDeviceId st l pc sessions)
    (hload : ∀ car, loadCar l.pc = some car → findCarByDeviceId l.deviceId = some car)
    (hcar : loadCar pc = some car) : findCarByDeviceId l.deviceId = some car := by
  cases h with
  | moves car' hfrom _ hpc =>
    obtain rfl := Option.some.inj (hpc.symm.trans hcar)
    rcases hfrom with hfrom | hfrom
    · exact hload _ hfrom
    · exact hfrom
  | ends _ hpc =>
    rcases hpc with rfl | rfl
    · cases hcar
    · cases hcar
  | found => cases hcar
  | opened => cases hcar

/-- A load settles on a row of its run and of its car. -/
theorem Loaded.row {st : State} {l : Load} {pc : LoadPc} {sessions : List SessionRef}
    {context : SessionContext} (h : Loaded findCarByDeviceId st l pc sessions)
    (hpc : pc = .done (some context)) :
    ∃ row ∈ sessions, row.deviceSessionId = some l.sid ∧ context = contextOf row l.monoMs ∧
      ∃ car, loadCar l.pc = some car ∧ row.carId = car.id := by
  cases h with
  | moves car hcar _ hmoves =>
    rw [hpc] at hmoves
    cases hmoves
  | ends _ hends =>
    subst hpc
    rcases hends with hends | hends
    · cases hends
    · cases hends
  | found car hcar row hrow hsid hown =>
    cases hpc
    exact ⟨row, hrow, hsid, rfl, car, hcar, hown⟩
  | opened car hcar startedAt hnew =>
    cases hpc
    exact ⟨_, List.mem_append_right _ List.mem_cons_self, rfl, rfl, car, hcar, rfl⟩

theorem Traced.query {st st' : State} (h : Traced findCarByDeviceId st publisher) {i : ℕ} {now : ℤ}
    {ok : Bool} (hs : IngestSystem.query findCarByDeviceId st i now ok = some st') :
    Traced findCarByDeviceId st' publisher := by
  obtain ⟨l, pc, hl, hframe, hloaded⟩ := query_effect hs
  have hmarks := marks_updated hloaded
  have hkeep : ∀ m ∈ marks st, m ∈ marks st' := by
    intro m hm
    rcases hmarks with heq | ⟨car, startedAt, -, heq⟩
    · rwa [heq]
    · rw [heq]
      exact List.mem_append_left _ hm
  have hloads : ∀ j l₀, st.loads j = some l₀ →
      ∃ l', st'.loads j = some l' ∧ l'.deviceId = l₀.deviceId ∧ l'.sid = l₀.sid := by
    intro j l₀ hl₀
    rw [hframe.loads]
    by_cases hj : j = i
    · subst hj
      obtain rfl := Option.some.inj (hl.symm.trans hl₀)
      exact ⟨_, Function.update_self .., rfl, rfl⟩
    · exact ⟨l₀, (Function.update_of_ne hj ..).trans hl₀, rfl, rfl⟩
  refine ⟨?_, ?_, ?_, ?_, ?_, ?_, ?_⟩
  · intro a ha b hb sid has hbs
    rcases hmarks with heq | ⟨car, startedAt, hnew, heq⟩
    · exact h.sids a (heq ▸ ha) b (heq ▸ hb) sid has hbs
    · have hother := marks_ne_of_find_none hnew
      rw [heq] at ha hb
      rcases List.mem_append.mp ha with ha | ha <;> rcases List.mem_append.mp hb with hb | hb
      · exact h.sids a ha b hb sid has hbs
      · rw [List.mem_singleton.mp hb] at hbs
        exact absurd (has.trans hbs.symm) (hother a ha)
      · rw [List.mem_singleton.mp ha] at has
        exact absurd (hbs.trans has.symm) (hother b hb)
      · rw [List.mem_singleton.mp ha, List.mem_singleton.mp hb]
  · intro j hj
    rw [hframe.nextLoad] at hj
    rw [hframe.loads, Function.update_of_ne]
    · exact h.loadsBelow j hj
    · intro heq
      rw [h.loadsBelow i (heq ▸ hj)] at hl
      cases hl
  · intro j hj
    rw [hframe.handlers]
    rw [hframe.nextHandler] at hj
    exact h.handlersBelow j hj
  · intro deviceId sid entry hentry
    obtain ⟨l₀, hl₀, hd, hsid⟩ := h.cached deviceId sid entry (hframe.contexts _ _ hentry)
    obtain ⟨l', hl', hd', hsid'⟩ := hloads _ l₀ hl₀
    exact ⟨l', hl', hd'.trans hd, hsid'.trans hsid⟩
  · intro j l' hl' car hcar
    rw [hframe.loads] at hl'
    by_cases hj : j = i
    · subst hj
      rw [Function.update_self, Option.some.injEq] at hl'
      subst hl'
      exact hloaded.car (h.loading j l hl) hcar
    · exact h.loading j l' ((Function.update_of_ne hj ..).symm.trans hl') car hcar
  · intro j l' hl' context hcontext
    rw [hframe.loads] at hl'
    by_cases hj : j = i
    · subst hj
      rw [Function.update_self, Option.some.injEq] at hl'
      subst hl'
      obtain ⟨row, hmem, hsid, rfl, car, hcar, hown⟩ := hloaded.row hcontext
      exact ⟨placed_contextOf hmem hsid l.monoMs, car, h.loading j l hl car hcar, hown⟩
    · obtain ⟨hplaced, hcar⟩ :=
        h.loaded j l' ((Function.update_of_ne hj ..).symm.trans hl') context hcontext
      exact ⟨hplaced.mono hkeep, hcar⟩
  · intro j handler hj
    rw [hframe.handlers] at hj
    obtain ⟨d, hd, hw⟩ := h.working j handler hj
    exact ⟨d, hd, hw.mono hloads hkeep⟩

theorem resumed_marks {st st' : State} {handler : Handler} {next : Option Handler}
    (h : Resumed findCarByDeviceId st handler next st'.sessions) : marks st' = marks st := by
  unfold marks
  generalize st'.sessions = sessions at h ⊢
  cases h with
  | closes deviceId sid car now hany => exact closeSession_marks st now car.id sid
  | _ => rfl

/-- The row `findByDeviceSessionId` finds is the one with the mark of that `sid`. -/
theorem Traced.find_mark {st : State} (h : Traced findCarByDeviceId st publisher) {sid : String}
    {row : SessionRef} (hfind : findByDeviceSessionId st.sessions sid = some row) {m : Mark}
    (hm : m ∈ marks st) (hsid : m.sid = some sid) : mark row = m := by
  obtain ⟨hrow, hrowSid⟩ := findByDeviceSessionId_eq_some hfind
  exact h.sids _ (mem_marks hrow) m hm sid hrowSid hsid

theorem Traced.resume {st st' : State} (h : Traced findCarByDeviceId st publisher) {i : ℕ}
    {now : ℤ} {ok : Bool} (hs : IngestSystem.resume findCarByDeviceId st i now ok = some st') :
    Traced findCarByDeviceId st' publisher := by
  obtain ⟨handler, next, hhandler, hframe, hresumed, -⟩ := resume_effect hs
  have hmarks := resumed_marks hresumed
  have hloads : ∀ j l, st.loads j = some l →
      ∃ l', st'.loads j = some l' ∧ l'.deviceId = l.deviceId ∧ l'.sid = l.sid := by
    intro j l hl
    exact ⟨l, by rw [hframe.loads, hl], rfl, rfl⟩
  obtain ⟨d, hd, hw⟩ := h.working i handler hhandler
  -- a stop stays at work for its publisher
  have hnext : ∀ handler', next = some handler' → WorksFor findCarByDeviceId st d handler' := by
    intro handler' hnext
    generalize st'.sessions = sessions at hresumed
    cases hresumed with
    | ends => cases hnext
    | carFound deviceId sid car hcar =>
      cases hnext
      obtain rfl : deviceId = d := hw
      exact ⟨rfl, hcar⟩
    | closes deviceId sid car now hany =>
      cases hnext
      obtain ⟨rfl, hcar⟩ := hw
      obtain ⟨row, hrow, hcloses⟩ := List.any_eq_true.mp hany
      simp only [State.closes, Bool.and_eq_true, decide_eq_true_eq] at hcloses
      exact ⟨rfl, hcar, mark row, mem_marks hrow, hcloses.1.1, hcloses.1.2⟩
    | notLive deviceId sid car =>
      cases hnext
      obtain ⟨rfl, hcar⟩ := hw
      exact ⟨rfl, hcar, fun row hrow => by cases hrow⟩
    | rereads deviceId sid car =>
      cases hnext
      obtain ⟨rfl, hcar, m, hm, hsid, hown⟩ := hw
      refine ⟨rfl, hcar, fun row hrow => ⟨m, hm, ?_, hown⟩⟩
      rw [← h.find_mark hrow hm hsid]
      rfl
    | announces deviceId sid car row =>
      cases hnext
      exact hw.1
  refine ⟨hmarks ▸ h.sids, ?_, ?_, ?_, ?_, ?_, ?_⟩
  · rw [hframe.loads, hframe.nextLoad]
    exact h.loadsBelow
  · intro j hj
    rw [hframe.nextHandler] at hj
    rw [hframe.handlers, Function.update_of_ne]
    · exact h.handlersBelow j hj
    · intro heq
      rw [h.handlersBelow i (heq ▸ hj)] at hhandler
      cases hhandler
  · intro deviceId sid entry hentry
    rw [hframe.loads]
    exact h.cached deviceId sid entry (hframe.contexts _ _ hentry)
  · rw [hframe.loads]
    exact h.loading
  · intro j l hl context hcontext
    rw [hframe.loads] at hl
    obtain ⟨hplaced, hcar⟩ := h.loaded j l hl context hcontext
    exact ⟨hplaced.mono fun m hm => hmarks ▸ hm, hcar⟩
  · intro j handler' hj
    rw [hframe.handlers] at hj
    by_cases hji : j = i
    · subst hji
      rw [Function.update_self] at hj
      exact ⟨d, hd, (hnext handler' hj).mono hloads fun m hm => hmarks ▸ hm⟩
    · rw [Function.update_of_ne hji] at hj
      obtain ⟨d', hd', hw'⟩ := h.working j handler' hj
      exact ⟨d', hd', hw'.mono hloads fun m hm => hmarks ▸ hm⟩

theorem Traced.sweep {st : State} (h : Traced findCarByDeviceId st publisher) (now : ℤ) :
    Traced findCarByDeviceId (st.sweep now) publisher where
  sids := h.sids
  loadsBelow := h.loadsBelow
  handlersBelow := h.handlersBelow
  cached := by
    intro deviceId sid entry hentry
    replace hentry : (st.contexts (deviceId, sid)).filter _ = some entry := hentry
    exact h.cached deviceId sid entry (Option.filter_eq_some_iff.mp hentry).1
  loading := h.loading
  loaded := h.loaded
  working := h.working

theorem Traced.restart {st : State} (h : Traced findCarByDeviceId st publisher) :
    Traced findCarByDeviceId st.restart publisher where
  sids := h.sids
  loadsBelow := fun _ _ => rfl
  handlersBelow := fun _ _ => rfl
  cached := fun _ _ _ hentry => by cases hentry
  loading := fun _ _ hl => by cases hl
  loaded := fun _ _ hl => by cases hl
  working := fun _ _ hhandler => by cases hhandler

end Tracing

/-! ### The ledger -/

/-- The publisher of the message each handler is at work on, and with what was placed and what was
announced the publisher of the message it comes from. -/
structure Ledger where
  publisher : ℕ → Option String
  placed : List (Option String × SessionContext × TelemetryFrame)
  announced : List (Option String × Announcement)

def Ledger.empty : Ledger := ⟨fun _ => none, [], []⟩

/-- The publisher of the message an event goes on with. -/
def Ledger.worker (g : Ledger) : IngestSystem.Event → Option String
  | .resume h _ _ => g.publisher h
  | _ => none

/-- What the ledger records of an event. -/
def record (st : State) (e : IngestSystem.Event) (g : Ledger) : Ledger where
  publisher := match e with
    | .deliver _ deviceId _ _ => Function.update g.publisher st.nextHandler (some deviceId)
    | _ => g.publisher
  placed := g.placed ++ (placing st e).map (g.worker e, ·)
  announced := g.announced ++ (announcing st e).map (g.worker e, ·)

/-- The ledger of a run. -/
def ledger (isUUID : String → Bool) (findCarByDeviceId : String → Option CarRef)
    (es : List IngestSystem.Event) : Ledger :=
  history (IngestSystem.step isUUID findCarByDeviceId) record init Ledger.empty es

section Attribution

variable {isUUID : String → Bool} {findCarByDeviceId : String → Option CarRef}

/-- What the ledger says of a state. -/
structure Attributed (findCarByDeviceId : String → Option CarRef) (st : State) (g : Ledger) :
    Prop where
  traced : Traced findCarByDeviceId st g.publisher
  placed : ∀ t ∈ g.placed, ∃ d car, t.1 = some d ∧ findCarByDeviceId d = some car ∧
    t.2.1.carId = car.id ∧ Placed st t.2.2.sid t.2.1
  enqueued : st.enqueued = g.placed.map fun t => toSample t.2.1 t.2.2
  announced : ∀ t ∈ g.announced, ∃ d car, t.1 = some d ∧ findCarByDeviceId d = some car ∧
    t.2.carId = car.id ∧ ∃ m ∈ marks st, m.id = t.2.sessionId ∧ m.carId = car.id
  bus : st.announced = g.announced.map Prod.snd

/-- A load that has settled on a context. -/
theorem found_load {st : State} {i : ℕ} {context : SessionContext}
    (h : st.found i = some context) : ∃ l, st.loads i = some l ∧ l.pc = .done (some context) := by
  unfold State.found at h
  cases hl : st.loads i with
  | none =>
    rw [hl] at h
    cases h
  | some l =>
    rw [hl, Option.map_some] at h
    refine ⟨l, rfl, ?_⟩
    cases hpc : l.pc with
    | done settled =>
      rw [hpc] at h
      exact congrArg LoadPc.done h
    | _ =>
      rw [hpc] at h
      cases h

/-- **What a handler places** belongs to the car of its publisher and the run of its message. -/
theorem Traced.placing {st : State} {publisher : ℕ → Option String}
    (h : Traced findCarByDeviceId st publisher) {i : ℕ} {now : ℤ} {ok : Bool}
    {p : SessionContext × TelemetryFrame} (hp : p ∈ IngestSystem.placing st (.resume i now ok)) :
    ∃ d car, publisher i = some d ∧ findCarByDeviceId d = some car ∧ p.1.carId = car.id ∧
      Placed st p.2.sid p.1 := by
  have hload : ∀ {j : ℕ} {context : SessionContext} {d sid : String}, st.found j = some context →
      (∃ l, st.loads j = some l ∧ l.deviceId = d ∧ l.sid = sid) →
      Placed st sid context ∧ ∃ car, findCarByDeviceId d = some car ∧ context.carId = car.id := by
    intro j context d sid hfound hl
    obtain ⟨l, hl, hd, hsid⟩ := hl
    obtain ⟨l', hl', hpc⟩ := found_load hfound
    obtain rfl := Option.some.inj (hl.symm.trans hl')
    rw [← hd, ← hsid]
    exact h.loaded j l hl context hpc
  simp only [IngestSystem.placing] at hp
  split at hp
  · rename_i frame j hhandler
    obtain ⟨d, hd, hw⟩ := h.working i _ hhandler
    cases hf : st.found j with
    | none => simp [hf] at hp
    | some context =>
      simp only [hf, Option.map_some, Option.toList_some, List.mem_singleton] at hp
      obtain ⟨hplaced, car, hcar, hown⟩ := hload hf hw
      rw [hp]
      exact ⟨d, car, hd, hcar, hown, hplaced⟩
  · rename_i batch j hhandler
    obtain ⟨d, hd, hw⟩ := h.working i _ hhandler
    cases hf : st.found j with
    | none => simp [hf] at hp
    | some context =>
      simp only [hf, Option.toList_some, List.flatMap_cons, List.flatMap_nil, List.append_nil,
        List.mem_map] at hp
      obtain ⟨frame, hframe, rfl⟩ := hp
      obtain ⟨hplaced, car, hcar, hown⟩ := hload hf hw
      have hsid : frame.sid = batch.sid := BackfillBatch.sid_of_mem_ownFrames hframe
      exact ⟨d, car, hd, hcar, hown, hsid ▸ hplaced⟩
  · cases hp

/-- **What a handler announces** is an event of the car of its publisher. -/
theorem Traced.announcing {st : State} {publisher : ℕ → Option String}
    (h : Traced findCarByDeviceId st publisher) {i : ℕ} {now : ℤ} {ok : Bool}
    {a : Announcement} (ha : a ∈ IngestProvenance.announcing st (.resume i now ok)) :
    ∃ d car, publisher i = some d ∧ findCarByDeviceId d = some car ∧ a.carId = car.id ∧
      ∃ m ∈ marks st, m.id = a.sessionId ∧ m.carId = car.id := by
  simp only [IngestProvenance.announcing] at ha
  split at ha
  · rename_i j hhandler
    obtain ⟨d, hd, l, hl, hdevice⟩ := h.working i _ hhandler
    cases hf : st.found j with
    | none => simp [hf] at ha
    | some context =>
      simp only [hf, Option.map_some, Option.toList_some, List.mem_singleton] at ha
      obtain ⟨l', hl', hpc⟩ := found_load hf
      obtain rfl := Option.some.inj (hl.symm.trans hl')
      obtain ⟨hplaced, car, hcar, hown⟩ := h.loaded j l hl context hpc
      rw [ha]
      obtain ⟨clock, hmark, -⟩ := hplaced
      exact ⟨d, car, hd, hdevice ▸ hcar, hown, _, hmark, rfl, hown⟩
  · rename_i deviceId sid car row hhandler
    obtain ⟨d, hd, hdevice, hcar, hrow⟩ := h.working i _ hhandler
    rw [List.mem_singleton.mp ha]
    exact ⟨d, car, hd, hcar, rfl, hrow row rfl⟩
  · cases ha

/-- Marks stay. -/
theorem step_marks {st st' : State} {e : IngestSystem.Event}
    (h : IngestSystem.step isUUID findCarByDeviceId st e = some st') {m : Mark}
    (hm : m ∈ marks st) : m ∈ marks st' := by
  cases e with
  | deliver now deviceId topic payload =>
    cases h
    rw [marks, (deliver_frame st now deviceId payload topic).1]
    exact hm
  | query i now ok =>
    obtain ⟨l, pc, -, -, hloaded⟩ := query_effect h
    rcases marks_updated hloaded with heq | ⟨car, startedAt, -, heq⟩
    · rwa [heq]
    · rw [heq]
      exact List.mem_append_left _ hm
  | resume i now ok =>
    obtain ⟨handler, next, -, -, hresumed, -⟩ := resume_effect h
    rwa [resumed_marks hresumed]
  | sweep now =>
    cases h
    exact hm
  | restart =>
    cases h
    exact hm

theorem step_announced {st st' : State} {e : IngestSystem.Event}
    (h : IngestSystem.step isUUID findCarByDeviceId st e = some st') :
    st'.announced = st.announced ++ announcing st e := by
  cases e with
  | deliver now deviceId topic payload =>
    cases h
    have hcases := @deliver_cases isUUID st now deviceId payload topic
    generalize deliver isUUID st now deviceId payload topic = st' at hcases ⊢
    rw [show announcing st (.deliver now deviceId topic payload) = [] from rfl, List.append_nil]
    cases hcases with
    | dropped reason => rfl
    | throws => rfl
    | awaits sid monoMs track handler hkind =>
      unfold State.resolve
      cases st.contexts (deviceId, sid) <;> rfl
    | stops sid => rfl
  | query i now ok =>
    obtain ⟨l, pc, -, hframe, -⟩ := query_effect h
    rw [hframe.announced]
    exact (List.append_nil _).symm
  | resume i now ok =>
    obtain ⟨handler, next, -, -, -, hannounced⟩ := resume_effect h
    exact hannounced
  | sweep now =>
    cases h
    exact (List.append_nil _).symm
  | restart =>
    cases h
    exact (List.append_nil _).symm

theorem attributed_step {st st' : State} {g : Ledger} {e : IngestSystem.Event}
    (hg : Attributed findCarByDeviceId st g)
    (h : IngestSystem.step isUUID findCarByDeviceId st e = some st') :
    Attributed findCarByDeviceId st' (record st e g) where
  traced := by
    cases e with
    | deliver now deviceId topic payload =>
      cases h
      exact hg.traced.deliver now deviceId payload topic
    | query i now ok => exact hg.traced.query h
    | resume i now ok => exact hg.traced.resume h
    | sweep now =>
      cases h
      exact hg.traced.sweep now
    | restart =>
      cases h
      exact hg.traced.restart
  placed := by
    intro t ht
    rcases List.mem_append.mp ht with ht | ht
    · obtain ⟨d, car, hd, hcar, hown, hplaced⟩ := hg.placed t ht
      exact ⟨d, car, hd, hcar, hown, hplaced.mono fun m hm => step_marks h hm⟩
    · obtain ⟨p, hp, rfl⟩ := List.mem_map.mp ht
      cases e with
      | resume i now ok =>
        obtain ⟨d, car, hd, hcar, hown, hplaced⟩ := hg.traced.placing hp
        exact ⟨d, car, hd, hcar, hown, hplaced.mono fun m hm => step_marks h hm⟩
      | _ => cases hp
  enqueued := by
    rw [step_enqueued h, hg.enqueued]
    simp only [record, List.map_append, List.map_map]
    rfl
  announced := by
    intro t ht
    have hkeep : ∀ {id carId : ℕ}, (∃ m ∈ marks st, m.id = id ∧ m.carId = carId) →
        ∃ m ∈ marks st', m.id = id ∧ m.carId = carId := by
      intro id carId hm
      obtain ⟨m, hm, hmark⟩ := hm
      exact ⟨m, step_marks h hm, hmark⟩
    rcases List.mem_append.mp ht with ht | ht
    · obtain ⟨d, car, hd, hcar, hown, hm⟩ := hg.announced t ht
      exact ⟨d, car, hd, hcar, hown, hkeep hm⟩
    · obtain ⟨a, ha, rfl⟩ := List.mem_map.mp ht
      cases e with
      | resume i now ok =>
        obtain ⟨d, car, hd, hcar, hown, hm⟩ := hg.traced.announcing ha
        exact ⟨d, car, hd, hcar, hown, hkeep hm⟩
      | _ => cases ha
  bus := by
    rw [step_announced h, hg.bus]
    simp only [record, List.map_append, List.map_map]
    congr 1
    exact (List.map_id _).symm

theorem attributed_init : Attributed findCarByDeviceId init Ledger.empty where
  traced := traced_init
  placed := by
    intro t ht
    cases ht
  enqueued := rfl
  announced := by
    intro t ht
    cases ht
  bus := rfl

theorem attributed_run (es : List IngestSystem.Event) (st : State)
    (h : run (IngestSystem.step isUUID findCarByDeviceId) init es = some st) :
    Attributed findCarByDeviceId st (ledger isUUID findCarByDeviceId es) := by
  apply history_invariant (IngestSystem.step isUUID findCarByDeviceId) record
    (I := Attributed findCarByDeviceId) ?_ es init st Ledger.empty attributed_init h
  intro st g e st' hg hs
  exact attributed_step hg hs

/-- Closing the session of one car leaves the rows of the others as they are. -/
theorem closeSession_others (st : State) (now : ℤ) {own other : ℕ} (sid : String)
    (h : own ≠ other) :
    (st.closeSession now own sid).sessions.filter (fun row => row.carId = other) =
      st.sessions.filter fun row => row.carId = other := by
  simp only [State.closeSession]
  induction st.sessions with
  | nil => rfl
  | cons row rows ih =>
    rw [List.map_cons, List.filter_cons, List.filter_cons, ih]
    by_cases hrow : State.closes own sid row = true
    · have hown : row.carId = own := by
        simp only [State.closes, Bool.and_eq_true, decide_eq_true_eq] at hrow
        exact hrow.1.2
      rw [if_pos hrow]
      simp only [hown, h, decide_false, Bool.false_eq_true, if_false]
    · rw [if_neg hrow]

/-- **A handler touches no row of another car**: not of a car other than its publisher's. -/
theorem Traced.untouched {st st' : State} {publisher : ℕ → Option String}
    (h : Traced findCarByDeviceId st publisher) {i : ℕ} {now : ℤ} {ok : Bool}
    (hs : IngestSystem.resume findCarByDeviceId st i now ok = some st') :
    ∃ d, publisher i = some d ∧
      ∀ other, (∀ car, findCarByDeviceId d = some car → car.id ≠ other) →
        st'.sessions.filter (fun row => row.carId = other) =
          st.sessions.filter fun row => row.carId = other := by
  obtain ⟨handler, next, hhandler, -, hresumed, -⟩ := resume_effect hs
  obtain ⟨d, hd, hw⟩ := h.working i handler hhandler
  refine ⟨d, hd, ?_⟩
  intro other hother
  generalize st'.sessions = sessions at hresumed ⊢
  cases hresumed with
  | closes deviceId sid car now hany => exact closeSession_others st now sid (hother car hw.2)
  | _ => rfl

/-- **Telemetry is attributed to the publishing car only.**  In every run, what is handed to the
writer is what the ledger records, and every sample of it carries the car of the device that
published its message, with a session of that car; what is announced is an event of the car of the
publisher and of a session of that car; and a message being handled changes no session row of
another car than its publisher's. -/
theorem attribution (es : List IngestSystem.Event) (st : State)
    (h : run (IngestSystem.step isUUID findCarByDeviceId) init es = some st) :
    (st.enqueued = (ledger isUUID findCarByDeviceId es).placed.map (fun t => toSample t.2.1 t.2.2) ∧
      ∀ t ∈ (ledger isUUID findCarByDeviceId es).placed,
        ∃ d car, t.1 = some d ∧ findCarByDeviceId d = some car ∧
          (toSample t.2.1 t.2.2).carId = car.id ∧
          ∃ row ∈ st.sessions, row.id = (toSample t.2.1 t.2.2).sessionId ∧ row.carId = car.id) ∧
      (st.announced = (ledger isUUID findCarByDeviceId es).announced.map Prod.snd ∧
        ∀ t ∈ (ledger isUUID findCarByDeviceId es).announced,
          ∃ d car, t.1 = some d ∧ findCarByDeviceId d = some car ∧ t.2.carId = car.id ∧
            ∃ row ∈ st.sessions, row.id = t.2.sessionId ∧ row.carId = car.id) ∧
      ∀ i now ok st', IngestSystem.step isUUID findCarByDeviceId st (.resume i now ok) = some st' →
        ∃ d, (ledger isUUID findCarByDeviceId es).publisher i = some d ∧
          ∀ other, (∀ car, findCarByDeviceId d = some car → car.id ≠ other) →
            st'.sessions.filter (fun row => row.carId = other) =
              st.sessions.filter fun row => row.carId = other := by
  have hg := attributed_run es st h
  refine ⟨⟨hg.enqueued, ?_⟩, ⟨hg.bus, ?_⟩, ?_⟩
  · intro t ht
    obtain ⟨d, car, hd, hcar, hown, clock, hplaced, -⟩ := hg.placed t ht
    obtain ⟨row, hrow, hmark⟩ := List.mem_map.mp hplaced
    exact ⟨d, car, hd, hcar, hown, row, hrow, congrArg Mark.id hmark,
      (congrArg Mark.carId hmark).trans hown⟩
  · intro t ht
    obtain ⟨d, car, hd, hcar, hown, m, hm, hid, hcarId⟩ := hg.announced t ht
    obtain ⟨row, hrow, rfl⟩ := List.mem_map.mp hm
    exact ⟨d, car, hd, hcar, hown, row, hrow, hid, hcarId⟩
  · intro i now ok st' hs
    exact hg.traced.untouched hs

end Attribution

/-! ### What handlers hold -/

section Holding

variable {isUUID : String → Bool} {findCarByDeviceId : String → Option CarRef} {β : Type}

def Stopping : Handler → Prop
  | .frame _ _ | .backfill _ _ | .start _ => False
  | _ => True

/-- What `holding` reads off a handler is of the message it came from, which brings `bringing`. -/
structure Holding (isUUID : String → Bool) (holding : Handler → List β)
    (bringing : IngestSystem.Event → List (String × β)) : Prop where
  awaits : ∀ {now : ℤ} {deviceId : String} {payload : Json} {topic : Topic} {sid : String}
    {handler : ℕ → Handler}, Awaiting isUUID payload topic sid handler → ∀ i, ∀ x ∈ holding (handler i),
      (deviceId, x) ∈ bringing (.deliver now deviceId topic payload)
  stops : ∀ handler, Stopping handler → holding handler = []

variable {holding : Handler → List β} {bringing : IngestSystem.Event → List (String × β)}

/-- A handler that goes on is a stop. -/
theorem resumed_stopping {st : State} {handler next : Handler} {sessions : List SessionRef}
    (h : Resumed findCarByDeviceId st handler (some next) sessions) : Stopping next := by
  cases h <;> trivial

/-- The handler a message becomes holds what the message brings. -/
theorem Holding.deliver (hh : Holding isUUID holding bringing) (st : State) (now : ℤ)
    (deviceId : String) (payload : Json) (topic : Topic) :
    (deliver isUUID st now deviceId payload topic).handlers = st.handlers ∨
      ∃ handler, (deliver isUUID st now deviceId payload topic).handlers =
          Function.update st.handlers st.nextHandler (some handler) ∧
        ∀ x ∈ holding handler, (deviceId, x) ∈ bringing (.deliver now deviceId topic payload) := by
  have hcases := @deliver_cases isUUID st now deviceId payload topic
  generalize IngestSystem.deliver isUUID st now deviceId payload topic = st' at hcases ⊢
  cases hcases with
  | dropped reason => exact .inl rfl
  | throws => exact .inl rfl
  | awaits sid monoMs track handler hkind =>
    refine .inr ⟨handler (st.resolve now deviceId sid monoMs track).1, ?_, hh.awaits hkind _⟩
    unfold State.resolve
    cases st.contexts (deviceId, sid) <;> rfl
  | stops sid =>
    refine .inr ⟨.stopCar deviceId sid, rfl, fun x hx => ?_⟩
    have hnone : holding (.stopCar deviceId sid) = [] := hh.stops _ trivial
    rw [hnone] at hx
    cases hx

/-- What the handlers of a state hold was brought by messages of their publishers. -/
def Held (holding : Handler → List β) (st : State) (g : Ledger) (brought : List (String × β)) :
    Prop :=
  ∀ i handler, st.handlers i = some handler → ∀ x ∈ holding handler,
    ∃ d, g.publisher i = some d ∧ (d, x) ∈ brought

theorem held_step (hh : Holding isUUID holding bringing) {st st' : State} {g : Ledger}
    {e : IngestSystem.Event} {brought : List (String × β)}
    (hbelow : ∀ h, st.nextHandler ≤ h → st.handlers h = none) (hheld : Held holding st g brought)
    (hs : IngestSystem.step isUUID findCarByDeviceId st e = some st') :
    Held holding st' (record st e g) (brought ++ bringing e) := by
  -- a handler that was there before the event keeps its publisher
  have hkeep : ∀ i handler, st.handlers i = some handler → ∀ x ∈ holding handler,
      ∃ d, (record st e g).publisher i = some d ∧ (d, x) ∈ brought ++ bringing e := by
    intro i handler hhandler x hx
    obtain ⟨d, hd, hmem⟩ := hheld i handler hhandler x hx
    refine ⟨d, ?_, List.mem_append_left _ hmem⟩
    cases e with
    | deliver now deviceId topic payload =>
      have hne : i ≠ st.nextHandler := by
        intro heq
        rw [hbelow i (Nat.le_of_eq heq.symm)] at hhandler
        cases hhandler
      show Function.update g.publisher st.nextHandler (some deviceId) i = some d
      rwa [Function.update_of_ne hne]
    | _ => exact hd
  cases e with
  | deliver now deviceId topic payload =>
    cases hs
    rcases hh.deliver st now deviceId payload topic with hsame | ⟨handler, hnew, hbrought⟩
    · unfold Held
      rwa [hsame]
    · intro i handler' hhandler x hx
      rw [hnew] at hhandler
      by_cases hi : i = st.nextHandler
      · subst hi
        rw [Function.update_self, Option.some.injEq] at hhandler
        subst hhandler
        exact ⟨deviceId, Function.update_self .., List.mem_append_right _ (hbrought x hx)⟩
      · rw [Function.update_of_ne hi] at hhandler
        exact hkeep i handler' hhandler x hx
  | query j now ok =>
    obtain ⟨l, pc, -, hframe, -⟩ := query_effect hs
    unfold Held
    rwa [hframe.handlers]
  | resume j now ok =>
    obtain ⟨handler, next, -, hframe, hresumed, -⟩ := resume_effect hs
    intro i handler' hhandler x hx
    rw [hframe.handlers] at hhandler
    by_cases hi : i = j
    · subst hi
      rw [Function.update_self] at hhandler
      rw [hhandler] at hresumed
      rw [hh.stops _ (resumed_stopping hresumed)] at hx
      cases hx
    · rw [Function.update_of_ne hi] at hhandler
      exact hkeep i handler' hhandler x hx
  | sweep now =>
    cases hs
    exact hkeep
  | restart =>
    cases hs
    intro i handler hhandler
    cases hhandler

/-- **What a handler holds was brought by its publisher**, in every run. -/
theorem held_run (hh : Holding isUUID holding bringing) (es : List IngestSystem.Event) :
    ∀ st, run (IngestSystem.step isUUID findCarByDeviceId) init es = some st →
      Held holding st (ledger isUUID findCarByDeviceId es) (es.flatMap bringing) := by
  induction es using List.reverseRecOn with
  | nil =>
    intro st h
    cases h
    intro i handler hhandler
    cases hhandler
  | append_singleton es e ih =>
    intro st h
    obtain ⟨mid, hmid, hlast⟩ := (run_snoc_eq_some _).mp h
    rw [ledger, history_snoc _ record Ledger.empty hmid hlast, List.flatMap_append,
      List.flatMap_singleton]
    exact held_step hh (attributed_run es mid hmid).traced.handlersBelow (ih mid hmid) hlast

end Holding

section Example

/-- Two devices, each with a car of its own. -/
def twoCars (deviceId : String) : Option CarRef :=
  if deviceId = "car-7" then some ⟨1, 2⟩ else if deviceId = "car-8" then some ⟨2, 2⟩ else none

def exampleStop (mono : ℚ) : Json :=
  .obj [("v", .num 1), ("sid", .str exampleSid), ("event", .str "stop"), ("mono", .num mono)]

/-- Both cars publish a frame of one `sid` and race for its row; the loser then stops the run. -/
def sharedSid : List IngestSystem.Event :=
  [.deliver 1000 "car-7" .telemetry (exampleFrame 1 0 500),
    .deliver 1000 "car-8" .telemetry (exampleFrame 1 0 700),
    .query 0 1000 true, .query 1 1000 true, .query 0 1000 true, .query 1 1000 true,
    .query 0 1000 true, .query 1 1000 true, .query 1 1000 true,
    .resume 0 1000 true, .resume 1 1000 true,
    .deliver 2000 "car-8" .session (exampleStop 900), .resume 2 2000 true]

/-- What is enqueued is what the ledger records, and the stop is the work of a publisher. -/
theorem attribution_sharedSid :
    ∃ st, run (IngestSystem.step (· == exampleSid) twoCars) init sharedSid = some st ∧
      st.enqueued = (ledger (· == exampleSid) twoCars sharedSid).placed.map
        (fun t => toSample t.2.1 t.2.2) ∧
      ∃ d, (ledger (· == exampleSid) twoCars sharedSid).publisher 2 = some d := by
  have hrun : ((run (IngestSystem.step (· == exampleSid) twoCars) init sharedSid).bind fun st =>
      IngestSystem.step (· == exampleSid) twoCars st (.resume 2 2000 true)).isSome = true := by
    decide
  obtain ⟨st', hst'⟩ := Option.isSome_iff_exists.mp hrun
  obtain ⟨st, hst, hstop⟩ := Option.bind_eq_some_iff.mp hst'
  obtain ⟨⟨henqueued, -⟩, -, hstops⟩ := attribution sharedSid st hst
  obtain ⟨d, hd, -⟩ := hstops 2 2000 true st' hstop
  exact ⟨st, hst, henqueued, d, hd⟩

end Example

end TelemetryCloud.IngestProvenance
