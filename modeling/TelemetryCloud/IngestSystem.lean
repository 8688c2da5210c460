import TelemetryCloud.IngestService
import TelemetryCloud.Runs
import TelemetryCloud.SampleTable
import Mathlib.Data.List.Induction
import Mathlib.Data.List.Nodup

/-!
# The ingest process as a system of suspended handlers

Every `await` of `TelemetryService`, `DeviceRegistryService` and `IngestSessionsService` is a point
where any other handler may run.  A *load* is the promise `DeviceRegistryService.load` returned, with
the database call it is suspended on; a *handler* is a message on its way through
`TelemetryService`.  One event delivers a message, answers one database call, lets one handler go on,
sweeps the context cache or restarts the process.

* `step_anchors` : no step changes the id, the start or the clock anchor of a session row;
* `step_enqueued` : what one step hands to the writer;
* `inv_run` : every context in use was built from the row of its session;
* `enqueued_readable_iff` : **in which runs the analysis can read every sample**: exactly those in
  which no frame is older than the message its session counts from (and no sample time leaves the
  range of `Date`).
-/

namespace TelemetryCloud.IngestSystem

open IngestWire IngestService Runs

/-! ### State -/

/-- Where a load is suspended. -/
inductive LoadPc
  | findCar
  | findSession (car : CarRef)
  | insert (car : CarRef) (startedAt : ℤ)
  | reread (car : CarRef)
  | done (context : Option SessionContext)
  | failed

structure Load where
  deviceId : String
  sid : String
  monoMs : Option ℕ
  track : Option String
  pc : LoadPc

structure CacheEntry where
  resolving : ℕ
  expiresAt : ℤ

/-- Where the handler of a message is suspended.  The first three await a load. -/
inductive Handler
  | frame (frame : TelemetryFrame) (load : ℕ)
  | backfill (batch : BackfillBatch) (load : ℕ)
  | start (load : ℕ)
  | stopCar (deviceId sid : String)
  | stopClose (deviceId sid : String) (car : CarRef)
  | stopReread (deviceId sid : String) (car : CarRef)
  | stopFlush (deviceId sid : String) (car : CarRef) (session : Option SessionRef)
  | stopAnnounce (deviceId sid : String)

/-- An event on the live bus: the car, the session and what happened to it. -/
structure Announcement where
  carId : ℕ
  sessionId : ℕ
  event : SessionEventName
  deriving DecidableEq, Repr

structure State where
  sessions : List SessionRef
  nextId : ℕ
  contexts : String × String → Option CacheEntry
  loads : ℕ → Option Load
  nextLoad : ℕ
  handlers : ℕ → Option Handler
  nextHandler : ℕ
  enqueued : List TelemetrySample
  published : List TelemetrySample
  announced : List Announcement
  drops : List DropReason

def init : State where
  sessions := []
  nextId := 1
  contexts := fun _ => none
  loads := fun _ => none
  nextLoad := 0
  handlers := fun _ => none
  nextHandler := 0
  enqueued := []
  published := []
  announced := []
  drops := []

/-- The three topics a device publishes on. -/
inductive Topic
  | telemetry
  | session
  | backfill
  deriving DecidableEq, Repr

/-- `deliver` is a message arriving, `query` the database answering (or failing) the call a load is
suspended on, `resume` a handler going on after its await. -/
inductive Event
  | deliver (now : ℤ) (deviceId : String) (topic : Topic) (payload : Json)
  | query (load : ℕ) (now : ℤ) (ok : Bool)
  | resume (handler : ℕ) (now : ℤ) (ok : Bool)
  | sweep (now : ℤ)
  | restart

/-! ### Steps -/

def CONTEXT_TTL_MS : ℤ := 60 * 60 * 1000

namespace State

variable (st : State)

def countDrop (reason : DropReason) : State := { st with drops := st.drops ++ [reason] }

/-- A new handler at its first await. -/
def spawn (h : Handler) : State :=
  { st with
    handlers := Function.update st.handlers st.nextHandler (some h)
    nextHandler := st.nextHandler + 1 }

/-- The handler `i` suspended at its next await, or returned. -/
def advance (i : ℕ) (h : Option Handler) : State :=
  { st with handlers := Function.update st.handlers i h }

/-- `DeviceRegistryService.resolve` up to the promise it returns. -/
def resolve (now : ℤ) (deviceId sid : String) (monoMs : Option ℕ) (track : Option String) :
    ℕ × State :=
  match st.contexts (deviceId, sid) with
  | some entry =>
    (entry.resolving, { st with
      contexts := Function.update st.contexts (deviceId, sid)
        (some { entry with expiresAt := now + CONTEXT_TTL_MS }) })
  | none =>
    (st.nextLoad, { st with
      loads := Function.update st.loads st.nextLoad
        (some { deviceId, sid, monoMs, track, pc := .findCar })
      nextLoad := st.nextLoad + 1
      contexts := Function.update st.contexts (deviceId, sid)
        (some { resolving := st.nextLoad, expiresAt := now + CONTEXT_TTL_MS }) })

/-- The load `i` suspended at its next call. -/
def advanceLoad (i : ℕ) (l : Load) (pc : LoadPc) : State :=
  { st with loads := Function.update st.loads i (some { l with pc }) }

/-- The load `i` settles.  A failure and a "no such car" do not stay in the cache. -/
def settle (i : ℕ) (l : Load) : LoadPc → State
  | .done (some context) => st.advanceLoad i l (.done (some context))
  | pc => { st.advanceLoad i l pc with
      contexts := Function.update st.contexts (l.deviceId, l.sid) none }

/-- `DeviceRegistryService.forget`. -/
def forget (deviceId sid : String) : State :=
  { st with contexts := Function.update st.contexts (deviceId, sid) none }

/-- `DeviceRegistryService.sweep`. -/
def sweep (now : ℤ) : State :=
  { st with contexts := fun key => (st.contexts key).filter fun entry => now < entry.expiresAt }

/-- The process stops and starts again: only the database and what was handed on remain. -/
def restart : State :=
  { st with contexts := fun _ => none, loads := fun _ => none, handlers := fun _ => none }

def publishEvent (carId sessionId : ℕ) (event : SessionEventName) : State :=
  { st with announced := st.announced ++ [⟨carId, sessionId, event⟩] }

/-- The rows the `UPDATE` of `closeSession` matches. -/
def closes (carId : ℕ) (sid : String) (row : SessionRef) : Bool :=
  row.deviceSessionId = some sid && row.carId = carId && row.status = .live

/-- The `UPDATE` of `closeSession`. -/
def closeSession (now : ℤ) (carId : ℕ) (sid : String) : State :=
  { st with sessions := st.sessions.map fun row =>
      if closes carId sid row then { row with status := .completed, endedAt := some now } else row }

end State

section Step

variable (isUUID : String → Bool) (findCarByDeviceId : String → Option CarRef)

/-- A message arrives: everything up to the first await of its handler. -/
def deliver (st : State) (now : ℤ) (deviceId : String) (payload : Json) : Topic → State
  | .telemetry =>
    match parse (decodeFrame isUUID) payload with
    | .error reason => st.countDrop reason
    | .ok frame =>
      let resolved := st.resolve now deviceId frame.sid (some frame.mono) none
      resolved.2.spawn (.frame frame resolved.1)
  | .backfill =>
    match parse (decodeBatch isUUID) payload with
    | .error reason => st.countDrop reason
    | .ok batch =>
      match batch.first.mono with
      -- the `TypeError` ends in the log of the controller
      | none => st
      | some monoMs =>
        let resolved := st.resolve now deviceId batch.sid monoMs none
        resolved.2.spawn (.backfill batch resolved.1)
  | .session =>
    match parse (decodeSessionEvent isUUID) payload with
    | .error reason => st.countDrop reason
    | .ok event =>
      match event.event with
      | .start =>
        let resolved := st.resolve now deviceId event.sid (some event.mono) event.track
        resolved.2.spawn (.start resolved.1)
      | .stop => st.spawn (.stopCar deviceId event.sid)

/-- The database answers the call load `i` is suspended on. -/
def query (st : State) (i : ℕ) (now : ℤ) : Bool → Option State
  | false =>
    (st.loads i).bind fun l =>
      match l.pc with
      | .done _ | .failed => none
      | _ => some (st.settle i l .failed)
  | true =>
    (st.loads i).bind fun l =>
      match l.pc with
      | .findCar =>
        match findCarByDeviceId l.deviceId with
        | none => some (st.settle i l (.done none))
        | some car => some (st.advanceLoad i l (.findSession car))
      | .findSession car =>
        match findByDeviceSessionId st.sessions l.sid with
        | some row => some (st.settle i l (.done ((ownSession car row).map (contextOf · l.monoMs))))
        | none => some (st.advanceLoad i l (.insert car now))
      | .insert car startedAt =>
        match findByDeviceSessionId st.sessions l.sid with
        -- the unique index on `deviceSessionId`
        | some _ => some (st.advanceLoad i l (.reread car))
        | none =>
          let row := createSession st.nextId startedAt car l.sid l.monoMs l.track
          some ({ st with sessions := st.sessions ++ [row], nextId := st.nextId + 1 }.settle i l
            (.done (some (contextOf row l.monoMs))))
      | .reread car =>
        some (st.settle i l (.done (((findByDeviceSessionId st.sessions l.sid).bind
          (ownSession car)).map (contextOf · l.monoMs))))
      | .done _ | .failed => none

/-- A handler that awaits load `i` goes on: with a context, or after a drop or an error. -/
def afterLoad (st : State) (h i : ℕ) (proceed : SessionContext → State → State) : Option State :=
  (st.loads i).bind fun l =>
    match l.pc with
    | .done (some context) => some ((proceed context st).advance h none)
    | .done none => some ((st.countDrop .unknownDevice).advance h none)
    | .failed => some (st.advance h none)
    | _ => none

/-- Handler `h` goes on after its await; `ok` is whether the database call it made succeeded. -/
def resume (st : State) (h : ℕ) (now : ℤ) (ok : Bool) : Option State :=
  (st.handlers h).bind fun
    | .frame frame i =>
      afterLoad st h i fun context st =>
        { st with
          published := st.published ++ [toSample context frame]
          enqueued := st.enqueued ++ [toSample context frame] }
    | .backfill batch i =>
      afterLoad st h i fun context st =>
        { st with enqueued := st.enqueued ++ batch.ownFrames.map (toSample context) }
    | .start i =>
      afterLoad st h i fun context st => st.publishEvent context.carId context.sessionId .start
    | .stopCar deviceId sid =>
      if ok then
        match findCarByDeviceId deviceId with
        | none => some ((st.countDrop .unknownDevice).advance h none)
        | some car => some (st.advance h (some (.stopClose deviceId sid car)))
      else some (st.advance h none)
    | .stopClose deviceId sid car =>
      if ok then
        if st.sessions.any (State.closes car.id sid) then
          some ((st.closeSession now car.id sid).advance h (some (.stopReread deviceId sid car)))
        else some (st.advance h (some (.stopFlush deviceId sid car none)))
      else some (st.advance h none)
    | .stopReread deviceId sid car =>
      if ok then
        some (st.advance h (some (.stopFlush deviceId sid car
          (findByDeviceSessionId st.sessions sid))))
      else some (st.advance h none)
    | .stopFlush deviceId sid car session =>
      match session with
      | some row =>
        some ((st.publishEvent car.id row.id .stop).advance h (some (.stopAnnounce deviceId sid)))
      | none => some ((st.forget deviceId sid).advance h none)
    | .stopAnnounce deviceId sid => some ((st.forget deviceId sid).advance h none)

def step (st : State) : Event → Option State
  | .deliver now deviceId topic payload => some (deliver isUUID st now deviceId payload topic)
  | .query i now ok => query findCarByDeviceId st i now ok
  | .resume h now ok => resume findCarByDeviceId st h now ok
  | .sweep now => some (st.sweep now)
  | .restart => some st.restart

/-- The context load `i` has settled on. -/
def State.found (st : State) (i : ℕ) : Option SessionContext :=
  match (st.loads i).map Load.pc with
  | some (.done context) => context
  | _ => none

/-- The frames an event turns into samples, each with the context that places it. -/
def placing (st : State) : Event → List (SessionContext × TelemetryFrame)
  | .resume h _ _ =>
    match st.handlers h with
    | some (.frame frame i) => ((st.found i).map (·, frame)).toList
    | some (.backfill batch i) =>
      (st.found i).toList.flatMap fun context => batch.ownFrames.map (context, ·)
    | _ => []
  | _ => []

end Step

/-! ### What the operations leave alone -/

namespace State

variable (st : State)

@[simp] theorem countDrop_sessions (r : DropReason) : (st.countDrop r).sessions = st.sessions := rfl
@[simp] theorem countDrop_nextId (r : DropReason) : (st.countDrop r).nextId = st.nextId := rfl
@[simp] theorem countDrop_loads (r : DropReason) : (st.countDrop r).loads = st.loads := rfl
@[simp] theorem countDrop_enqueued (r : DropReason) : (st.countDrop r).enqueued = st.enqueued := rfl

@[simp] theorem spawn_sessions (h : Handler) : (st.spawn h).sessions = st.sessions := rfl
@[simp] theorem spawn_nextId (h : Handler) : (st.spawn h).nextId = st.nextId := rfl
@[simp] theorem spawn_loads (h : Handler) : (st.spawn h).loads = st.loads := rfl
@[simp] theorem spawn_enqueued (h : Handler) : (st.spawn h).enqueued = st.enqueued := rfl

@[simp] theorem advance_sessions (i : ℕ) (h : Option Handler) :
    (st.advance i h).sessions = st.sessions := rfl
@[simp] theorem advance_nextId (i : ℕ) (h : Option Handler) :
    (st.advance i h).nextId = st.nextId := rfl
@[simp] theorem advance_loads (i : ℕ) (h : Option Handler) :
    (st.advance i h).loads = st.loads := rfl
@[simp] theorem advance_enqueued (i : ℕ) (h : Option Handler) :
    (st.advance i h).enqueued = st.enqueued := rfl

theorem settle_frame (i : ℕ) (l : Load) (pc : LoadPc) :
    (st.settle i l pc).sessions = st.sessions ∧ (st.settle i l pc).nextId = st.nextId ∧
      (st.settle i l pc).enqueued = st.enqueued ∧
      (st.settle i l pc).loads = Function.update st.loads i (some { l with pc }) := by
  cases pc with
  | done context => cases context <;> exact ⟨rfl, rfl, rfl, rfl⟩
  | _ => exact ⟨rfl, rfl, rfl, rfl⟩

theorem resolve_frame (now : ℤ) (deviceId sid : String) (monoMs : Option ℕ) (track : Option String) :
    (st.resolve now deviceId sid monoMs track).2.sessions = st.sessions ∧
      (st.resolve now deviceId sid monoMs track).2.nextId = st.nextId ∧
      (st.resolve now deviceId sid monoMs track).2.enqueued = st.enqueued ∧
      ((st.resolve now deviceId sid monoMs track).2.loads = st.loads ∨
        (st.resolve now deviceId sid monoMs track).2.loads =
          Function.update st.loads st.nextLoad (some ⟨deviceId, sid, monoMs, track, .findCar⟩)) := by
  unfold State.resolve
  cases st.contexts (deviceId, sid) with
  | some entry => exact ⟨rfl, rfl, rfl, .inl rfl⟩
  | none => exact ⟨rfl, rfl, rfl, .inr rfl⟩

/-- Closing a session touches neither the id nor the clock of any row. -/
theorem closeSession_map (now : ℤ) (carId : ℕ) (sid : String) {β : Type} (f : SessionRef → β)
    (hf : ∀ row, f { row with status := .completed, endedAt := some now } = f row) :
    (st.closeSession now carId sid).sessions.map f = st.sessions.map f := by
  simp only [State.closeSession, List.map_map]
  refine List.map_congr_left fun row _ => ?_
  simp only [Function.comp_apply]
  split
  · exact hf row
  · rfl

end State

section Steps

variable {isUUID : String → Bool} {findCarByDeviceId : String → Option CarRef}

/-- The car a load has found. -/
def loadCar : LoadPc → Option CarRef
  | .findSession car | .insert car _ | .reread car => some car
  | _ => none

/-- What the answer to a load's call may do: the load fails or finds nothing, goes on with its car,
settles on a row of its car that is there, or opens the session. -/
inductive Queried (findCarByDeviceId : String → Option CarRef) (st : State) (i : ℕ) (l : Load) :
    State → Prop
  | ends (pc : LoadPc) (hpc : pc = .failed ∨ pc = .done none) :
      Queried findCarByDeviceId st i l (st.settle i l pc)
  | moves (car : CarRef) (hcar : loadCar l.pc = some car ∨ findCarByDeviceId l.deviceId = some car)
      (pc : LoadPc) (hpc : loadCar pc = some car) :
      Queried findCarByDeviceId st i l (st.advanceLoad i l pc)
  | found (car : CarRef) (hcar : loadCar l.pc = some car) (row : SessionRef)
      (hrow : row ∈ st.sessions) (hsid : row.deviceSessionId = some l.sid)
      (hown : row.carId = car.id) :
      Queried findCarByDeviceId st i l (st.settle i l (.done (some (contextOf row l.monoMs))))
  | opened (car : CarRef) (hcar : loadCar l.pc = some car) (startedAt : ℤ)
      (hnew : findByDeviceSessionId st.sessions l.sid = none) :
      Queried findCarByDeviceId st i l (State.settle { st with
          sessions := st.sessions ++ [createSession st.nextId startedAt car l.sid l.monoMs l.track]
          nextId := st.nextId + 1 } i l
        (.done (some (contextOf
          (createSession st.nextId startedAt car l.sid l.monoMs l.track) l.monoMs))))

/-- **What the answer to a load's call does**, with nothing left out. -/
theorem query_cases {st st' : State} {i : ℕ} {now : ℤ} {ok : Bool}
    (h : query findCarByDeviceId st i now ok = some st') :
    ∃ l, st.loads i = some l ∧ Queried findCarByDeviceId st i l st' := by
  -- a row that is there: its car decides whether the load settles on it
  have hthere : ∀ {l : Load} {car : CarRef} {row : SessionRef}, loadCar l.pc = some car →
      findByDeviceSessionId st.sessions l.sid = some row →
      Queried findCarByDeviceId st i l
        (st.settle i l (.done ((ownSession car row).map (contextOf · l.monoMs)))) := by
    intro l car row hcar hfind
    obtain ⟨hrow, hsid⟩ := findByDeviceSessionId_eq_some hfind
    unfold ownSession
    split
    · rename_i hown
      exact .found car hcar row hrow hsid hown
    · exact .ends _ (.inr rfl)
  cases ok with
  | false =>
    obtain ⟨l, hl, h⟩ := Option.bind_eq_some_iff.mp h
    have hst : st' = st.settle i l .failed := by
      cases hpc : l.pc <;> simp only [hpc, Option.some.injEq, reduceCtorEq] at h <;> exact h.symm
    rw [hst]
    exact ⟨l, hl, .ends .failed (.inl rfl)⟩
  | true =>
    obtain ⟨l, hl, h⟩ := Option.bind_eq_some_iff.mp h
    refine ⟨l, hl, ?_⟩
    cases hpc : l.pc with
    | findCar =>
      simp only [hpc] at h
      cases hcar : findCarByDeviceId l.deviceId with
      | none =>
        simp only [hcar, Option.some.injEq] at h
        rw [← h]
        exact .ends _ (.inr rfl)
      | some car =>
        simp only [hcar, Option.some.injEq] at h
        rw [← h]
        exact .moves car (.inr hcar) _ rfl
    | findSession car =>
      simp only [hpc] at h
      have hcar : loadCar l.pc = some car := by rw [hpc]; rfl
      cases hfind : findByDeviceSessionId st.sessions l.sid with
      | none =>
        simp only [hfind, Option.some.injEq] at h
        rw [← h]
        exact .moves car (.inl hcar) _ rfl
      | some row =>
        simp only [hfind, Option.some.injEq] at h
        rw [← h]
        exact hthere hcar hfind
    | insert car startedAt =>
      simp only [hpc] at h
      have hcar : loadCar l.pc = some car := by rw [hpc]; rfl
      cases hfind : findByDeviceSessionId st.sessions l.sid with
      | some row =>
        simp only [hfind, Option.some.injEq] at h
        rw [← h]
        exact .moves car (.inl hcar) _ rfl
      | none =>
        simp only [hfind, Option.some.injEq] at h
        rw [← h]
        exact .opened car hcar startedAt hfind
    | reread car =>
      simp only [hpc, Option.some.injEq] at h
      have hcar : loadCar l.pc = some car := by rw [hpc]; rfl
      cases hfind : findByDeviceSessionId st.sessions l.sid with
      | none =>
        rw [hfind] at h
        rw [← h]
        exact .ends (.done none) (.inr rfl)
      | some row =>
        rw [hfind] at h
        rw [← h]
        exact hthere hcar hfind
    | done context => simp only [hpc, reduceCtorEq] at h
    | failed => simp only [hpc, reduceCtorEq] at h

theorem afterLoad_cases {st st' : State} {h i : ℕ} {proceed : SessionContext → State → State}
    (hs : afterLoad st h i proceed = some st') :
    (∃ context, st.found i = some context ∧ st' = (proceed context st).advance h none) ∨
      (st.found i = none ∧
        (st' = (st.countDrop .unknownDevice).advance h none ∨ st' = st.advance h none)) := by
  obtain ⟨l, hl, hs⟩ := Option.bind_eq_some_iff.mp hs
  unfold State.found
  rw [hl, Option.map_some]
  cases hpc : l.pc with
  | done context =>
    cases context with
    | some context =>
      simp only [hpc, Option.some.injEq] at hs
      exact .inl ⟨context, rfl, hs.symm⟩
    | none =>
      simp only [hpc, Option.some.injEq] at hs
      exact .inr ⟨rfl, .inl hs.symm⟩
  | failed =>
    simp only [hpc, Option.some.injEq] at hs
    exact .inr ⟨rfl, .inr hs.symm⟩
  | _ => simp only [hpc, reduceCtorEq] at hs

/-- The part of a session row that places samples: its id, its start and the device's clock. -/
def anchor (row : SessionRef) : ℕ × ℤ × Option ℕ := (row.id, row.startedAt, row.deviceMonoStartMs)

/-- The anchors of the sessions there are. -/
def State.anchors (st : State) : List (ℕ × ℤ × Option ℕ) := st.sessions.map anchor

/-- **What letting a handler go on does**: it enqueues the frames it places; sessions keep their
anchors and loads are as they were. -/
theorem resume_frame {st st' : State} {h : ℕ} {now : ℤ} {ok : Bool}
    (hs : resume findCarByDeviceId st h now ok = some st') :
    st'.anchors = st.anchors ∧ st'.nextId = st.nextId ∧ st'.loads = st.loads ∧
      st'.enqueued = st.enqueued ++
        (placing st (.resume h now ok)).map fun p => toSample p.1 p.2 := by
  obtain ⟨handler, hh, hs⟩ := Option.bind_eq_some_iff.mp hs
  simp only [placing, hh]
  cases handler with
  | frame frame i =>
    rcases afterLoad_cases hs with ⟨context, hf, rfl⟩ | ⟨hf, rfl | rfl⟩
    · simp [hf, State.anchors]
    · simp [hf, State.anchors]
    · simp [hf, State.anchors]
  | backfill batch i =>
    rcases afterLoad_cases hs with ⟨context, hf, rfl⟩ | ⟨hf, rfl | rfl⟩
    · simp [hf, State.anchors, Function.comp_def]
    · simp [hf, State.anchors]
    · simp [hf, State.anchors]
  | start i =>
    rcases afterLoad_cases hs with ⟨context, hf, rfl⟩ | ⟨hf, rfl | rfl⟩ <;>
      simp [State.anchors, State.publishEvent]
  | stopCar deviceId sid =>
    cases ok with
    | false =>
      cases hs
      simp [State.anchors]
    | true =>
      simp only [if_true] at hs
      cases hcar : findCarByDeviceId deviceId <;> rw [hcar] at hs <;> cases hs <;>
        simp [State.anchors]
  | stopClose deviceId sid car =>
    cases ok with
    | false =>
      cases hs
      simp [State.anchors]
    | true =>
      simp only [if_true] at hs
      split at hs <;> cases hs
      · refine ⟨?_, rfl, rfl, by simp [State.closeSession]⟩
        exact State.closeSession_map st now car.id sid anchor fun row => rfl
      · simp [State.anchors]
  | stopReread deviceId sid car =>
    cases ok <;> cases hs <;> simp [State.anchors]
  | stopFlush deviceId sid car session =>
    cases session <;> cases hs <;> simp [State.anchors, State.publishEvent, State.forget]
  | stopAnnounce deviceId sid =>
    cases hs
    simp [State.anchors, State.forget]

theorem deliver_frame (st : State) (now : ℤ) (deviceId : String) (payload : Json) (topic : Topic) :
    (deliver isUUID st now deviceId payload topic).sessions = st.sessions ∧
      (deliver isUUID st now deviceId payload topic).nextId = st.nextId ∧
      (deliver isUUID st now deviceId payload topic).enqueued = st.enqueued ∧
      ((deliver isUUID st now deviceId payload topic).loads = st.loads ∨
        ∃ l, l.pc = .findCar ∧ (deliver isUUID st now deviceId payload topic).loads =
          Function.update st.loads st.nextLoad (some l)) := by
  have hresolve : ∀ sid monoMs track h,
      ((st.resolve now deviceId sid monoMs track).2.spawn h).sessions = st.sessions ∧
      ((st.resolve now deviceId sid monoMs track).2.spawn h).nextId = st.nextId ∧
      ((st.resolve now deviceId sid monoMs track).2.spawn h).enqueued = st.enqueued ∧
      (((st.resolve now deviceId sid monoMs track).2.spawn h).loads = st.loads ∨
        ∃ l, l.pc = LoadPc.findCar ∧
          ((st.resolve now deviceId sid monoMs track).2.spawn h).loads =
            Function.update st.loads st.nextLoad (some l)) := by
    intro sid monoMs track h
    obtain ⟨hsess, hid, henq, hloads⟩ := st.resolve_frame now deviceId sid monoMs track
    refine ⟨hsess, hid, henq, ?_⟩
    rcases hloads with hloads | hloads
    · exact .inl hloads
    · exact .inr ⟨_, rfl, hloads⟩
  cases topic with
  | telemetry =>
    simp only [deliver]
    cases parse (decodeFrame isUUID) payload with
    | error reason => exact ⟨rfl, rfl, rfl, .inl rfl⟩
    | ok frame => exact hresolve _ _ _ _
  | backfill =>
    simp only [deliver]
    cases parse (decodeBatch isUUID) payload with
    | error reason => exact ⟨rfl, rfl, rfl, .inl rfl⟩
    | ok batch =>
      dsimp only
      cases batch.first.mono with
      | none => exact ⟨rfl, rfl, rfl, .inl rfl⟩
      | some monoMs => exact hresolve _ _ _ _
  | session =>
    simp only [deliver]
    cases parse (decodeSessionEvent isUUID) payload with
    | error reason => exact ⟨rfl, rfl, rfl, .inl rfl⟩
    | ok event =>
      cases hevent : event.event with
      | start =>
        simp only [hevent]
        exact hresolve _ _ _ _
      | stop =>
        simp only [hevent]
        exact ⟨rfl, rfl, rfl, .inl rfl⟩

/-- **No step touches an anchor**: it keeps the anchors there are, or adds the one of a new row. -/
theorem step_anchors {st st' : State} {e : Event}
    (h : step isUUID findCarByDeviceId st e = some st') :
    (st'.anchors = st.anchors ∧ st'.nextId = st.nextId) ∨
      ∃ startedAt monoMs, st'.anchors = st.anchors ++ [(st.nextId, startedAt, monoMs)] ∧
        st'.nextId = st.nextId + 1 := by
  cases e with
  | deliver now deviceId topic payload =>
    cases h
    obtain ⟨hsess, hid, -⟩ := deliver_frame st now deviceId payload topic
    exact .inl ⟨congrArg (List.map anchor) hsess, hid⟩
  | query i now ok =>
    obtain ⟨l, hl, hqueried⟩ := query_cases h
    cases hqueried with
    | ends pc =>
      obtain ⟨hsess, hid, -⟩ := st.settle_frame i l pc
      exact .inl ⟨congrArg (List.map anchor) hsess, hid⟩
    | moves => exact .inl ⟨rfl, rfl⟩
    | found => exact .inl ⟨rfl, rfl⟩
    | opened car _ startedAt =>
      refine .inr ⟨startedAt, l.monoMs, ?_, rfl⟩
      simp only [State.anchors]
      exact List.map_append
  | resume i now ok =>
    obtain ⟨hanchors, hid, -⟩ := resume_frame h
    exact .inl ⟨hanchors, hid⟩
  | sweep now =>
    cases h
    exact .inl ⟨rfl, rfl⟩
  | restart =>
    cases h
    exact .inl ⟨rfl, rfl⟩

/-- **What a step enqueues.** -/
theorem step_enqueued {st st' : State} {e : Event}
    (h : step isUUID findCarByDeviceId st e = some st') :
    st'.enqueued = st.enqueued ++ (placing st e).map fun p => toSample p.1 p.2 := by
  cases e with
  | deliver now deviceId topic payload =>
    cases h
    rw [(deliver_frame st now deviceId payload topic).2.2.1]
    exact (List.append_nil _).symm
  | query i now ok =>
    have henq : st'.enqueued = st.enqueued := by
      obtain ⟨l, hl, hqueried⟩ := query_cases h
      cases hqueried with
      | ends pc => exact (st.settle_frame i l pc).2.2.1
      | moves => rfl
      | found => rfl
      | opened => rfl
    rw [henq]
    exact (List.append_nil _).symm
  | resume i now ok => exact (resume_frame h).2.2.2
  | sweep now =>
    cases h
    exact (List.append_nil _).symm
  | restart =>
    cases h
    exact (List.append_nil _).symm

/-- What a load has settled on after a step it had settled on before, or it is built from a row. -/
theorem step_found {st st' : State} {e : Event}
    (h : step isUUID findCarByDeviceId st e = some st') {j : ℕ} {context : SessionContext}
    (hfound : st'.found j = some context) :
    st.found j = some context ∨
      ∃ row ∈ st'.sessions, ∃ monoMs, context = contextOf row monoMs := by
  have hupdate : ∀ {l : Load}, st'.loads = Function.update st.loads j (some l) →
      l.pc = .done (some context) := by
    intro l hl
    unfold State.found at hfound
    rw [hl, Function.update_self, Option.map_some] at hfound
    cases hpc : l.pc with
    | done settled =>
      rw [hpc] at hfound
      exact congrArg LoadPc.done hfound
    | _ =>
      rw [hpc] at hfound
      cases hfound
  have hother : ∀ {i : ℕ} {l : Load}, st'.loads = Function.update st.loads i (some l) → j ≠ i →
      st.found j = some context := by
    intro i l hl hij
    unfold State.found at hfound ⊢
    rwa [hl, Function.update_of_ne hij] at hfound
  have hsame : st'.loads = st.loads → st.found j = some context := by
    intro hl
    unfold State.found at hfound ⊢
    rwa [hl] at hfound
  cases e with
  | deliver now deviceId topic payload =>
    cases h
    rcases (deliver_frame st now deviceId payload topic).2.2.2 with hl | ⟨l, hpc, hl⟩
    · exact .inl (hsame hl)
    · by_cases hj : j = st.nextLoad
      · subst hj
        cases hpc.symm.trans (hupdate hl)
      · exact .inl (hother hl hj)
  | query i now ok =>
    obtain ⟨l, hl, hqueried⟩ := query_cases h
    cases hqueried with
    | ends pc hpc =>
      have hloads : (st.settle i l pc).loads = Function.update st.loads i (some { l with pc }) :=
        (st.settle_frame i l pc).2.2.2
      by_cases hj : j = i
      · subst hj
        have hsettled := hupdate hloads
        rcases hpc with rfl | rfl <;> cases hsettled
      · exact .inl (hother hloads hj)
    | moves car hcar pc hpc =>
      by_cases hj : j = i
      · subst hj
        have hsettled := hupdate (l := { l with pc }) rfl
        change pc = .done (some context) at hsettled
        rw [hsettled] at hpc
        cases hpc
      · exact .inl (hother rfl hj)
    | found car hcar row hrow =>
      by_cases hj : j = i
      · subst hj
        have hctx := hupdate (l := { l with pc := .done (some (contextOf row l.monoMs)) }) rfl
        simp only [LoadPc.done.injEq, Option.some.injEq] at hctx
        exact .inr ⟨row, hrow, l.monoMs, hctx.symm⟩
      · exact .inl (hother rfl hj)
    | opened car hcar startedAt =>
      by_cases hj : j = i
      · subst hj
        have hctx := hupdate (l := { l with pc := .done (some (contextOf
          (createSession st.nextId startedAt car l.sid l.monoMs l.track) l.monoMs)) }) rfl
        simp only [LoadPc.done.injEq, Option.some.injEq] at hctx
        exact .inr ⟨_, List.mem_append_right _ List.mem_cons_self, l.monoMs, hctx.symm⟩
      · exact .inl (hother rfl hj)
  | resume i now ok => exact .inl (hsame (resume_frame h).2.2.1)
  | sweep now =>
    cases h
    exact .inl (hsame rfl)
  | restart =>
    cases h
    cases hfound

/-- The frames a handler places, it places by a context its load has settled on. -/
theorem placing_found {st : State} {e : Event} {p : SessionContext × TelemetryFrame}
    (hp : p ∈ placing st e) : ∃ i, st.found i = some p.1 := by
  cases e with
  | resume h now ok =>
    simp only [placing] at hp
    split at hp
    · rename_i frame i _
      cases hf : st.found i with
      | none => simp [hf] at hp
      | some context =>
        simp only [hf, Option.map_some, Option.toList_some, List.mem_singleton] at hp
        exact ⟨i, by rw [hp, hf]⟩
    · rename_i batch i _
      cases hf : st.found i with
      | none => simp [hf] at hp
      | some context =>
        simp only [hf, Option.toList_some, List.flatMap_cons, List.flatMap_nil, List.append_nil,
          List.mem_map] at hp
        obtain ⟨frame, -, rfl⟩ := hp
        exact ⟨i, hf⟩
    · cases hp
  | _ => cases hp

end Steps

/-! ### The invariant -/

/-- The context has the start of the row it belongs to, and the clock of the row when it has one. -/
def Anchored (st : State) (context : SessionContext) : Prop :=
  ∃ clock : Option ℕ, (context.sessionId, context.anchorMs, clock) ∈ st.anchors ∧
    clock.or context.monoStartMs = context.monoStartMs

/-- Session rows have ids of their own, contexts and samples belong to a row. -/
structure Inv (st : State) : Prop where
  fresh : ∀ a ∈ st.anchors, a.1 < st.nextId
  distinct : (st.anchors.map Prod.fst).Nodup
  found : ∀ i context, st.found i = some context → Anchored st context
  enqueued : ∀ sample ∈ st.enqueued, ∃ a ∈ st.anchors, a.1 = sample.sessionId

theorem inv_init : Inv init where
  fresh := by simp [State.anchors, init]
  distinct := by simp [State.anchors, init]
  found := by simp [State.found, init]
  enqueued := by simp [init]

/-- Two anchors of one session are one. -/
theorem Inv.anchor_unique {st : State} (hi : Inv st) {a b : ℕ × ℤ × Option ℕ}
    (ha : a ∈ st.anchors) (hb : b ∈ st.anchors) (hab : a.1 = b.1) : a = b :=
  List.inj_on_of_nodup_map hi.distinct ha hb hab

section Invariant

variable {isUUID : String → Bool} {findCarByDeviceId : String → Option CarRef}

theorem mem_step_anchors {st st' : State} {e : Event}
    (h : step isUUID findCarByDeviceId st e = some st') {a : ℕ × ℤ × Option ℕ}
    (ha : a ∈ st.anchors) : a ∈ st'.anchors := by
  rcases step_anchors h with ⟨hanchors, -⟩ | ⟨startedAt, monoMs, hanchors, -⟩
  · rwa [hanchors]
  · rw [hanchors]
    exact List.mem_append_left _ ha

theorem contextOf_anchored {st : State} {row : SessionRef} (hrow : row ∈ st.sessions)
    (monoMs : Option ℕ) : Anchored st (contextOf row monoMs) := by
  refine ⟨row.deviceMonoStartMs, List.mem_map_of_mem hrow, ?_⟩
  rw [contextOf, ← Option.or_assoc, Option.or_self]

theorem Anchored.step {st st' : State} {e : Event} {context : SessionContext}
    (h : Anchored st context) (hs : step isUUID findCarByDeviceId st e = some st') :
    Anchored st' context := by
  obtain ⟨clock, hmem, hclock⟩ := h
  exact ⟨clock, mem_step_anchors hs hmem, hclock⟩

theorem inv_step {st st' : State} {e : Event} (hi : Inv st)
    (h : step isUUID findCarByDeviceId st e = some st') : Inv st' := by
  have hrows : (∀ a ∈ st'.anchors, a.1 < st'.nextId) ∧ (st'.anchors.map Prod.fst).Nodup := by
    rcases step_anchors h with ⟨hanchors, hid⟩ | ⟨startedAt, monoMs, hanchors, hid⟩
    · rw [hanchors, hid]
      exact ⟨hi.fresh, hi.distinct⟩
    · rw [hanchors, hid]
      refine ⟨?_, ?_⟩
      · intro a ha
        rcases List.mem_append.mp ha with ha | ha
        · exact Nat.lt_succ_of_lt (hi.fresh a ha)
        · rw [List.mem_singleton.mp ha]
          exact Nat.lt_succ_self _
      · rw [List.map_append, List.nodup_append]
        refine ⟨hi.distinct, List.nodup_singleton _, ?_⟩
        intro id hid' b hb
        obtain ⟨a, ha, rfl⟩ := List.mem_map.mp hid'
        rw [List.mem_singleton.mp hb]
        exact Nat.ne_of_lt (hi.fresh a ha)
  obtain ⟨hfresh, hdistinct⟩ := hrows
  refine ⟨hfresh, hdistinct, ?_, ?_⟩
  · intro i context hfound
    rcases step_found h hfound with hold | ⟨row, hrow, monoMs, rfl⟩
    · exact (hi.found i context hold).step h
    · exact contextOf_anchored hrow monoMs
  · intro sample hsample
    rw [step_enqueued h] at hsample
    rcases List.mem_append.mp hsample with hold | hnew
    · obtain ⟨a, ha, hid⟩ := hi.enqueued sample hold
      exact ⟨a, mem_step_anchors h ha, hid⟩
    · obtain ⟨p, hp, rfl⟩ := List.mem_map.mp hnew
      obtain ⟨i, hfound⟩ := placing_found hp
      obtain ⟨clock, hanchor, -⟩ := (hi.found i p.1 hfound).step h
      exact ⟨_, hanchor, rfl⟩

/-- Every reachable state keeps its books. -/
theorem inv_run (es : List Event) (st : State)
    (h : run (step isUUID findCarByDeviceId) init es = some st) : Inv st :=
  run_invariant_of_step _ (fun _ _ _ hi hs => inv_step hi hs) es _ st inv_init h

end Invariant

/-! ### Reading the samples back -/

/-- A row of `telemetry_samples`: `time` is not null. -/
abbrev StoredSample : Type := {sample : TelemetrySample // sample.time.isSome = true}

def StoredSample.time (row : StoredSample) : ℤ := row.1.time.get row.2

/-- `AnalysisSamplesRepository.findRange`. -/
def findRange (table : List StoredSample) (sessionId : ℕ) (start upTo : ℤ) : List StoredSample :=
  SampleTable.range StoredSample.time (·.1.seq) (table.filter (·.1.sessionId = sessionId)) start upTo

/-- Once stored, the sample is among the rows the derivation of `session` reads from the start of
the session, up to any instant the sample is not later than. -/
def Readable (session : SessionRef) (sample : TelemetrySample) : Prop :=
  ∃ row : StoredSample, row.1 = sample ∧ ∀ table, row ∈ table → ∀ upTo, row.time ≤ upTo →
    row ∈ findRange table session.id session.startedAt upTo

theorem mem_findRange {table : List StoredSample} {sessionId : ℕ} {start upTo : ℤ}
    {row : StoredSample} : row ∈ findRange table sessionId start upTo ↔
      row ∈ table ∧ row.1.sessionId = sessionId ∧ start ≤ row.time ∧ row.time ≤ upTo := by
  rw [findRange, SampleTable.mem_range, List.mem_filter, decide_eq_true_iff, and_assoc]

/-- A sample can be read when it has a time and that is not before the start of its session. -/
theorem readable_iff {session : SessionRef} {sample : TelemetrySample} :
    Readable session sample ↔ sample.sessionId = session.id ∧
      ∃ t, sample.time = some t ∧ session.startedAt ≤ t := by
  constructor
  · rintro ⟨row, rfl, hread⟩
    obtain ⟨-, hid, hstart, -⟩ := mem_findRange.mp (hread [row] List.mem_cons_self row.time le_rfl)
    exact ⟨hid, row.time, (Option.some_get row.2).symm, hstart⟩
  · rintro ⟨hid, t, ht, hstart⟩
    have htime : sample.time.isSome = true := by rw [ht]; rfl
    refine ⟨⟨sample, htime⟩, rfl, fun table hrow upTo hupTo => mem_findRange.mpr ⟨hrow, hid, ?_, hupTo⟩⟩
    rw [StoredSample.time, Option.get_of_eq_some _ ht]
    exact hstart

/-- Every sample ingest has enqueued can be read by the analysis of its session. -/
def AllReadable (st : State) : Prop :=
  ∀ sample ∈ st.enqueued, ∃ session ∈ st.sessions, Readable session sample

/-- A frame that is turned into a sample is not older than the message that opened its session, and
its sample time is one a `Date` holds.  A batch that begins with an array opens a session without a
clock: the frames of that session count from the message their context was loaded for, and from none
when that was such a batch as well. -/
def InOrder (st : State) (e : Event) : Prop :=
  ∀ p ∈ placing st e, ∀ session ∈ st.sessions, session.id = p.1.sessionId →
    ∃ monoStart ∈ session.deviceMonoStartMs.or p.1.monoStartMs, monoStart ≤ p.2.mono ∧
      (session.startedAt + ((p.2.mono : ℤ) - monoStart)).natAbs ≤ MAX_DATE_MS

instance (st : State) (e : Event) : Decidable (InOrder st e) := by
  unfold InOrder
  infer_instance

section Reading

variable {isUUID : String → Bool} {findCarByDeviceId : String → Option CarRef}

/-- What makes a sample readable, said of the anchor of its session. -/
def ReadableAt (a : ℕ × ℤ × Option ℕ) (sample : TelemetrySample) : Prop :=
  ∃ t, sample.time = some t ∧ a.2.1 ≤ t

theorem Inv.readable_iff {st : State} (hi : Inv st) {a : ℕ × ℤ × Option ℕ} (ha : a ∈ st.anchors)
    {sample : TelemetrySample} (hid : a.1 = sample.sessionId) :
    (∃ session ∈ st.sessions, Readable session sample) ↔ ReadableAt a sample := by
  constructor
  · rintro ⟨session, hsession, hread⟩
    obtain ⟨hsample, t, ht, hstart⟩ := IngestSystem.readable_iff.mp hread
    have hmem : anchor session ∈ st.anchors := List.mem_map_of_mem hsession
    obtain rfl := hi.anchor_unique ha hmem (hid.trans hsample)
    exact ⟨t, ht, hstart⟩
  · rintro ⟨t, ht, hstart⟩
    obtain ⟨session, hsession, rfl⟩ := List.mem_map.mp ha
    exact ⟨session, hsession, IngestSystem.readable_iff.mpr ⟨hid.symm, t, ht, hstart⟩⟩

/-- A frame is readable where its context puts it exactly when it is not older than the clock the
context counts from. -/
theorem toSample_readableAt (context : SessionContext) (frame : TelemetryFrame)
    (clock : Option ℕ) :
    ReadableAt (context.sessionId, context.anchorMs, clock) (toSample context frame) ↔
      ∃ monoStart ∈ context.monoStartMs, monoStart ≤ frame.mono ∧
        (context.anchorMs + ((frame.mono : ℤ) - monoStart)).natAbs ≤ MAX_DATE_MS := by
  simp only [ReadableAt, toSample, sampleTime, SessionContext.instant]
  cases context.monoStartMs with
  | none => simp
  | some monoStart =>
    simp only [Option.map_some, Option.bind_some, Option.mem_some_iff, exists_eq_left', date]
    split
    · rename_i hdate
      simp only [Option.some.injEq, exists_eq_left', hdate, and_true]
      omega
    · rename_i hdate
      simp [hdate]

/-- One step keeps every sample readable exactly when it places its frames in order. -/
theorem step_allReadable_iff {st st' : State} {e : Event} (hi : Inv st)
    (h : step isUUID findCarByDeviceId st e = some st') :
    AllReadable st' ↔ AllReadable st ∧ InOrder st e := by
  have hi' := inv_step hi h
  have hold : ∀ sample ∈ st.enqueued, (∃ session ∈ st'.sessions, Readable session sample) ↔
      ∃ session ∈ st.sessions, Readable session sample := by
    intro sample hsample
    obtain ⟨a, ha, hid⟩ := hi.enqueued sample hsample
    rw [hi'.readable_iff (mem_step_anchors h ha) hid, hi.readable_iff ha hid]
  have hnew : ∀ p ∈ placing st e,
      ((∃ session ∈ st'.sessions, Readable session (toSample p.1 p.2)) ↔
        ∀ session ∈ st.sessions, session.id = p.1.sessionId →
          ∃ monoStart ∈ session.deviceMonoStartMs.or p.1.monoStartMs, monoStart ≤ p.2.mono ∧
            (session.startedAt + ((p.2.mono : ℤ) - monoStart)).natAbs ≤ MAX_DATE_MS) := by
    intro p hp
    obtain ⟨i, hfound⟩ := placing_found hp
    obtain ⟨clock, hanchored, hclock⟩ := hi.found i p.1 hfound
    rw [hi'.readable_iff (mem_step_anchors h hanchored) rfl, toSample_readableAt]
    constructor
    · intro hframe session hsession hid
      have hmem : anchor session ∈ st.anchors := List.mem_map_of_mem hsession
      have hsame := hi.anchor_unique hmem hanchored hid
      simp only [anchor, Prod.mk.injEq] at hsame
      obtain ⟨-, hstart, rfl⟩ := hsame
      rw [hclock, hstart]
      exact hframe
    · intro hall
      obtain ⟨session, hsession, hanchor⟩ := List.mem_map.mp hanchored
      simp only [anchor, Prod.mk.injEq] at hanchor
      obtain ⟨hid, hstart, rfl⟩ := hanchor
      have hsession := hall session hsession hid
      rwa [hclock, hstart] at hsession
  simp only [AllReadable, step_enqueued h, List.mem_append, List.mem_map]
  constructor
  · intro hall
    refine ⟨fun sample hs => (hold sample hs).mp (hall sample (.inl hs)), fun p hp => ?_⟩
    exact (hnew p hp).mp (hall _ (.inr ⟨p, hp, rfl⟩))
  · rintro ⟨hst, horder⟩ sample (hs | ⟨p, hp, rfl⟩)
    · exact (hold sample hs).mpr (hst sample hs)
    · exact (hnew p hp).mpr (horder p hp)

/-- **In which runs the analysis can read every sample**: those in which every frame ingest turns
into a sample is at least as new as the message its session counts from, on the device's clock. -/
theorem enqueued_readable_iff (es : List Event) (st : State)
    (h : run (step isUUID findCarByDeviceId) init es = some st) :
    AllReadable st ↔ Meets (step isUUID findCarByDeviceId) InOrder init es := by
  induction es using List.reverseRecOn generalizing st with
  | nil =>
    cases h
    simp [AllReadable, Meets, init]
  | append_singleton es e ih =>
    obtain ⟨mid, hmid, hstep⟩ := (run_snoc_eq_some _).mp h
    rw [step_allReadable_iff (inv_run es mid hmid) hstep, ih mid hmid, meets_snoc _ hmid]

end Reading

section Example

/-- A car's link comes back: a live frame reaches ingest first and opens the session, and a frame of
the backlog follows in a batch. -/
def linkBack (live spooled : ℚ) : List Event :=
  [.deliver 1000 "car-7" .telemetry (exampleFrame 1 5 live), .query 0 1000 true,
    .query 0 1000 true, .query 0 1000 true, .resume 0 1000 true,
    .deliver 2000 "car-7" .backfill (exampleBatch [exampleFrame 1 0 spooled]), .resume 1 2000 true]

/-- A backlog that is newer than the live frame is readable. -/
theorem enqueued_readable_iff_linkBack :
    ∃ st, run (step (· == exampleSid) exampleCars) init (linkBack 4000 10000) = some st ∧
      st.enqueued.length = 2 ∧ AllReadable st := by
  have hrun : (run (step (· == exampleSid) exampleCars) init (linkBack 4000 10000)).map
      (·.enqueued.length) = some 2 := by
    decide
  obtain ⟨st, hst, hlength⟩ := Option.map_eq_some_iff.mp hrun
  refine ⟨st, hst, hlength, (enqueued_readable_iff _ st hst).mpr ?_⟩
  apply meets_of_check _ (c := fun s e => decide (InOrder s e))
  · exact fun _ _ h => of_decide_eq_true h
  · decide

/-- **A backlog that is older** is not: its frame is placed six seconds before its session starts. -/
theorem linkBack_unreadable : ¬ ∀ (es : List Event) (st : State),
    run (step (· == exampleSid) exampleCars) init es = some st → AllReadable st := by
  intro h
  have hrun : (run (step (· == exampleSid) exampleCars) init (linkBack 10000 4000)).map
      (fun st => (st.enqueued.map (·.time), st.sessions.map (·.startedAt))) =
        some ([some 1000, some (-5000)], [1000]) := by
    decide
  obtain ⟨st, hst, hfields⟩ := Option.map_eq_some_iff.mp hrun
  rw [Prod.mk.injEq] at hfields
  obtain ⟨htimes, hstarts⟩ := hfields
  have hlate : some (-5000) ∈ st.enqueued.map (·.time) := by
    rw [htimes]
    simp
  obtain ⟨sample, hsample, htime⟩ := List.mem_map.mp hlate
  obtain ⟨session, hsession, hread⟩ := h (linkBack 10000 4000) st hst sample hsample
  obtain ⟨-, t, ht, hstart⟩ := readable_iff.mp hread
  have hsessionStart : session.startedAt ∈ st.sessions.map (·.startedAt) :=
    List.mem_map_of_mem hsession
  rw [hstarts, List.mem_singleton] at hsessionStart
  rw [htime, Option.some.injEq] at ht
  omega

/-- After a batch that begins with an array, the frames of the run have no time. -/
example :
    (run (step (· == exampleSid) exampleCars) init
      [.deliver 1000 "car-7" .backfill (exampleBatch [.arr []]), .query 0 1000 true,
        .query 0 1000 true, .query 0 1000 true, .resume 0 1000 true,
        .deliver 2000 "car-7" .telemetry (exampleFrame 1 0 500), .resume 1 2000 true]).map
      (fun st => (st.sessions.map (·.deviceMonoStartMs), st.enqueued.map (·.time))) =
        some ([none], [none]) := by
  decide

end Example

end TelemetryCloud.IngestSystem
