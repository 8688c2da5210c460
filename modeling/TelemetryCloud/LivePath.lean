import TelemetryCloud.IngestReplay
import TelemetryCloud.LiveDelivery

/-!
# From the device to the viewer

The ingest process, the Redis it publishes to and the gateway that reads it, as one system.  Redis may
fail a command, run one again that the client sends a second time, lose a message and let a key
expire.

* `toLiveFrame`, `commandsOf` : what `LivePublisherService` makes of a sample and of a session event;
* `Origin`, `ingest_run` : where a message that is published comes from;
* `shown_is_stored` : **a viewer is shown nothing that is not stored**: what a socket receives is a
  frame handed to the writer too, of the car of the device that delivered it live, or an event of a
  session of that car;
* `shown_in_order` : **frames come in the order they are stored in**, none of them twice, in the runs
  in which no command is sent again.
-/

namespace TelemetryCloud.LivePath

open IngestWire IngestService IngestProvenance Runs LiveChannels
open LiveDelivery (Bodies LIVE_FRAME_SCHEMA_VERSION parseLiveMessage isStale)
open IngestSystem (Announcement)

/-! ### What is published -/

def LKV_TTL_SECONDS : ℕ := 300

/-- `t` is `null` for an invalid `Date`. -/
structure LiveFrame where
  v : ℤ
  sessionId : ℕ
  carId : ℕ
  t : Option ℤ
  pt : ℤ
  seq : ℕ
  rpm : Option (Within (0 : ℤ) 20000)
  coolant : Option ℚ
  oil : Option ℚ
  speed : Option {q : ℚ // 0 ≤ q}
  lat : Option (Within (-90 : ℚ) 90)
  lon : Option (Within (-180 : ℚ) 180)
  gx : Option ℚ
  gy : Option ℚ
  gz : Option ℚ
  lap : Option ℕ
  lapMs : Option ℕ
  ext : Option (List (String × Json))

structure LiveSessionEvent where
  v : ℤ
  carId : ℕ
  sessionId : ℕ
  event : SessionEventName
  t : ℤ

inductive LiveMessage
  | frame (f : LiveFrame)
  | event (e : LiveSessionEvent)

/-- The commands `LivePublisherService` puts into a pipeline. -/
inductive RedisCommand
  | publish (channel message : String)
  | set (key value : String) (ttlSeconds : ℕ)
  | del (key : String)

mutual

/-- What `JSON.stringify` writes of a value: it has no infinite numbers. -/
def writtenJson : Json → Json
  | .infinity _ => .null
  | .arr elems => .arr (writtenElems elems)
  | .obj fields => .obj (writtenFields fields)
  | .null => .null
  | .bool b => .bool b
  | .num q => .num q
  | .str s => .str s

def writtenElems : List Json → List Json
  | [] => []
  | elem :: elems => writtenJson elem :: writtenElems elems

def writtenFields : List (String × Json) → List (String × Json)
  | [] => []
  | (key, value) :: fields => (key, writtenJson value) :: writtenFields fields

end

namespace LiveMessage

def v : LiveMessage → ℤ
  | .frame f => f.v
  | .event e => e.v

def pt : LiveMessage → Option ℤ
  | .frame f => some f.pt
  | .event _ => none

def carId : LiveMessage → ℕ
  | .frame f => f.carId
  | .event e => e.carId

def kind : LiveMessage → LiveChannelKind
  | .frame _ => .frame
  | .event _ => .event

/-- What of a message is left after `JSON.stringify` and `JSON.parse`. -/
def written : LiveMessage → LiveMessage
  | .frame f => .frame { f with ext := f.ext.map writtenFields }
  | .event e => .event e

@[simp] theorem written_v (m : LiveMessage) : m.written.v = m.v := by cases m <;> rfl

end LiveMessage

def toLiveFrame (sample : TelemetrySample) (now : ℤ) : LiveFrame where
  v := LIVE_FRAME_SCHEMA_VERSION
  sessionId := sample.sessionId
  carId := sample.carId
  t := sample.time
  pt := now
  seq := sample.seq
  rpm := sample.rpm
  coolant := sample.coolantC
  oil := sample.oilC
  speed := sample.speedKmh
  lat := sample.lat
  lon := sample.lon
  gx := sample.gLat
  gy := sample.gLon
  gz := sample.gVert
  lap := sample.lapNumber
  lapMs := sample.lapMs
  ext := sample.ext

/-- The payload of `publishEvent`. -/
def toLiveEvent (a : Announcement) (now : ℤ) : LiveSessionEvent where
  v := LIVE_FRAME_SCHEMA_VERSION
  carId := a.carId
  sessionId := a.sessionId
  event := a.event
  t := now

/-- JSON as the two processes have it, and the car ids as text. -/
structure Codec where
  carText : ℕ → String
  stringify : LiveMessage → String
  parseJson : String → Option LiveMessage

def Codec.bodies (C : Codec) : Bodies LiveMessage := ⟨C.parseJson, LiveMessage.v, LiveMessage.pt⟩

/-- The pipelines of `publishFrame` and of `publishEvent`. -/
def Codec.commandsOf (C : Codec) (m : LiveMessage) : List RedisCommand :=
  match m with
  | .frame f =>
    [.publish (liveCarChannel (C.carText f.carId)) (C.stringify m),
      .set (lkvCarKey (C.carText f.carId)) (C.stringify m) LKV_TTL_SECONDS]
  | .event e =>
    .publish (liveCarEventsChannel (C.carText e.carId)) (C.stringify m) ::
      if e.event = .stop then [.del (lkvCarKey (C.carText e.carId))] else []

/-- The samples an event of the ingest process calls `publishFrame` with. -/
def showing (st : IngestSystem.State) : IngestSystem.Event → List TelemetrySample
  | .resume h _ _ =>
    match st.handlers h with
    | some (.frame frame i) => ((st.found i).map (toSample · frame)).toList
    | _ => []
  | _ => []

/-- The messages an event of the ingest process publishes. -/
def publishing (st : IngestSystem.State) : IngestSystem.Event → List LiveMessage
  | .resume h now ok =>
    (showing st (.resume h now ok)).map (fun sample => .frame (toLiveFrame sample now)) ++
      (announcing st (.resume h now ok)).map fun a => .event (toLiveEvent a now)
  | _ => []

/-! ### The system -/

/-- `issued` is all that ingest has published, `next` the number of the command Redis is at, `wire`
the messages on their way to the gateway. -/
structure System (Sock : Type) where
  ingest : IngestSystem.State
  issued : List LiveMessage
  next : ℕ
  wire : List (String × String)
  cache : String → Option String
  gateway : LiveGateway.State Sock String

def System.init {Sock : Type} : System Sock where
  ingest := IngestSystem.init
  issued := []
  next := 0
  wire := []
  cache := fun _ => none
  gateway := LiveGateway.init

/-- `execute i` : Redis runs the `i`-th command, for the first time or again.  A command that is never
run has failed. -/
inductive Event (Sock : Type)
  | ingest (e : IngestSystem.Event)
  | execute (i : ℕ)
  | expire (key : String)
  | receive
  | lose
  | gateway (e : LiveGateway.Event Sock String)
  | seed (h : LiveGateway.Handler Sock String) (ok : Bool) (now : ℤ)

section Steps

variable {Sock : Type} [DecidableEq Sock] (C : Codec) (isUUID : String → Bool)
  (findCarByDeviceId : String → Option CarRef)

def System.commands (st : System Sock) : List RedisCommand := st.issued.flatMap C.commandsOf

def System.executed (st : System Sock) : RedisCommand → System Sock
  | .publish channel message => { st with wire := st.wire ++ [(channel, message)] }
  | .set key value _ => { st with cache := Function.update st.cache key (some value) }
  | .del key => { st with cache := Function.update st.cache key none }

/-- What an event is to the gateway. -/
def delivery (st : System Sock) : Event Sock → Option (LiveDelivery.Event Sock)
  | .receive => st.wire.head?.map fun m => .message m.1 m.2
  | .gateway e => some (.handle e)
  | .seed h ok now => some (.seed h (if ok then st.cache (lkvCarKey h.car) else none) now)
  | .ingest _ | .execute _ | .expire _ | .lose => none

/-- What is on the wire after the gateway has gone on. -/
def System.left (st : System Sock) : Event Sock → List (String × String)
  | .receive => st.wire.tail
  | _ => st.wire

/-- The gateway goes on. -/
def System.delivered (st : System Sock) (e : Event Sock) : Option (System Sock) :=
  (delivery st e).bind fun d =>
    (LiveDelivery.step st.gateway d).map fun gateway => { st with gateway, wire := st.left e }

def step (st : System Sock) (e : Event Sock) : Option (System Sock) :=
  match e with
  | .ingest e =>
    (IngestSystem.step isUUID findCarByDeviceId st.ingest e).map fun ingest =>
      { st with ingest, issued := st.issued ++ publishing st.ingest e }
  | .execute i => (st.commands C)[i]?.map fun c => { st.executed c with next := i + 1 }
  | .expire key => some { st with cache := Function.update st.cache key none }
  | .lose => some { st with wire := st.wire.tail }
  | .receive | .gateway _ | .seed _ _ _ => st.delivered e

/-- What an event sends a socket. -/
def sent (st : System Sock) (s : Sock) (e : Event Sock) :
    List (LiveTelemetryBusMessage LiveMessage) :=
  (delivery st e).toList.flatMap (LiveDelivery.sent C.bodies st.gateway s)

/-- What a socket has been sent in a run, in order. -/
def received (s : Sock) (es : List (Event Sock)) : List (LiveTelemetryBusMessage LiveMessage) :=
  history (step C isUUID findCarByDeviceId) (fun st e got => got ++ sent C st s e) .init [] es

/-- The message an event takes off the wire. -/
def taking (st : System Sock) : Event Sock → Option (String × String)
  | .receive => st.wire.head?
  | _ => none

end Steps

/-- The events of the ingest process. -/
def ingestEvents {Sock : Type} (es : List (Event Sock)) : List IngestSystem.Event :=
  es.filterMap fun e => match e with
    | .ingest e => some e
    | _ => none

/-! ### Where a message comes from -/

section Origins

variable {isUUID : String → Bool} {findCarByDeviceId : String → Option CarRef}

variable (isUUID) in
/-- The frames a message brings on the telemetry topic, with the device that published it. -/
def liveDelivering : IngestSystem.Event → List (String × TelemetryFrame)
  | .deliver _ deviceId .telemetry payload =>
    match parse (decodeFrame isUUID) payload with
    | .ok frame => [(deviceId, frame)]
    | .error _ => []
  | _ => []

/-- Where a message comes from: it shows a frame that its device delivered live and that was handed to
the writer as well, or an event of a session of the device's car. -/
inductive Origin (isUUID : String → Bool) (findCarByDeviceId : String → Option CarRef)
    (es : List IngestSystem.Event) (st : IngestSystem.State) : LiveMessage → Prop
  | frame (d : String) (car : CarRef) (context : SessionContext) (frame : TelemetryFrame) (now : ℤ)
    (hdelivered : (d, frame) ∈ es.flatMap (liveDelivering isUUID))
    (hcar : findCarByDeviceId d = some car) (hown : context.carId = car.id)
    (hplaced : Placed st frame.sid context) (hstored : toSample context frame ∈ st.enqueued) :
    Origin isUUID findCarByDeviceId es st (.frame (toLiveFrame (toSample context frame) now))
  | event (d : String) (car : CarRef) (a : Announcement) (now : ℤ)
    (hcar : findCarByDeviceId d = some car) (hown : a.carId = car.id)
    (hsession : ∃ m ∈ marks st, m.id = a.sessionId ∧ m.carId = car.id) :
    Origin isUUID findCarByDeviceId es st (.event (toLiveEvent a now))

/-- The frame a live handler has yet to place. -/
def liveFrames : IngestSystem.Handler → List TelemetryFrame
  | .frame frame _ => [frame]
  | _ => []

theorem holding_liveFrames : Holding isUUID liveFrames (liveDelivering isUUID) where
  awaits := by
    intro now deviceId payload topic sid handler h i frame hframe
    cases h with
    | frame f hp =>
      rw [List.mem_singleton.mp hframe]
      simp only [liveDelivering, hp, List.mem_singleton]
    | _ => cases hframe
  stops := by
    intro handler h
    cases handler with
    | frame | backfill | start => exact absurd h id
    | _ => rfl

/-- The frame in the hands of a live handler was delivered live, by the publisher of the handler. -/
theorem inHand_run (es : List IngestSystem.Event) (st : IngestSystem.State)
    (h : run (IngestSystem.step isUUID findCarByDeviceId) IngestSystem.init es = some st) {i j : ℕ}
    {frame : TelemetryFrame} (hhandler : st.handlers i = some (.frame frame j)) :
    ∃ d, (ledger isUUID findCarByDeviceId es).publisher i = some d ∧
      (d, frame) ∈ es.flatMap (liveDelivering isUUID) :=
  held_run holding_liveFrames es st h i _ hhandler frame List.mem_cons_self

/-- What an event shows, it hands to the writer too. -/
theorem showing_placed {st : IngestSystem.State} {i : ℕ} {now : ℤ} {ok : Bool}
    {sample : TelemetrySample} (h : sample ∈ showing st (.resume i now ok)) :
    ∃ context frame j, st.handlers i = some (.frame frame j) ∧ sample = toSample context frame ∧
      (context, frame) ∈ IngestSystem.placing st (.resume i now ok) := by
  simp only [showing] at h
  split at h
  · next frame j hhandler =>
    obtain ⟨context, hcontext, rfl⟩ := Option.map_eq_some_iff.mp (Option.mem_toList.mp h)
    refine ⟨context, frame, j, hhandler, rfl, ?_⟩
    simp [IngestSystem.placing, hhandler, hcontext]
  · cases h

theorem Origin.mono {st st' : IngestSystem.State} {es : List IngestSystem.Event}
    {e : IngestSystem.Event} {m : LiveMessage} (h : Origin isUUID findCarByDeviceId es st m)
    (hs : IngestSystem.step isUUID findCarByDeviceId st e = some st') :
    Origin isUUID findCarByDeviceId (es ++ [e]) st' m := by
  cases h with
  | frame d car context frame now hdelivered hcar hown hplaced hstored =>
    refine .frame d car context frame now ?_ hcar hown
      (hplaced.mono fun m hm => step_marks hs hm) ?_
    · rw [List.flatMap_append]
      exact List.mem_append_left _ hdelivered
    · rw [IngestSystem.step_enqueued hs]
      exact List.mem_append_left _ hstored
  | event d car a now hcar hown hsession =>
    obtain ⟨m, hm, hmark⟩ := hsession
    exact .event d car a now hcar hown ⟨m, step_marks hs hm, hmark⟩

/-- What one event publishes. -/
theorem origin_step {st st' : IngestSystem.State} {es : List IngestSystem.Event}
    {e : IngestSystem.Event} {m : LiveMessage}
    (hrun : run (IngestSystem.step isUUID findCarByDeviceId) IngestSystem.init es = some st)
    (hs : IngestSystem.step isUUID findCarByDeviceId st e = some st') (hm : m ∈ publishing st e) :
    Origin isUUID findCarByDeviceId (es ++ [e]) st' m := by
  have hg := attributed_run es st hrun
  cases e with
  | resume i now ok =>
    rcases List.mem_append.mp hm with hm | hm
    · obtain ⟨sample, hsample, rfl⟩ := List.mem_map.mp hm
      obtain ⟨context, frame, j, hhandler, rfl, hplacing⟩ := showing_placed hsample
      obtain ⟨d, hd, hdelivered⟩ := inHand_run es st hrun hhandler
      obtain ⟨d', car, hd', hcar, hown, hplaced⟩ := hg.traced.placing hplacing
      obtain rfl := Option.some.inj (hd.symm.trans hd')
      refine .frame d car context frame now ?_ hcar hown
        (hplaced.mono fun m hm => step_marks hs hm) ?_
      · rw [List.flatMap_append]
        exact List.mem_append_left _ hdelivered
      · rw [IngestSystem.step_enqueued hs]
        exact List.mem_append_right _ (List.mem_map_of_mem hplacing)
    · obtain ⟨a, ha, rfl⟩ := List.mem_map.mp hm
      obtain ⟨d, car, -, hcar, hown, m, hm, hmark⟩ := hg.traced.announcing ha
      exact .event d car a now hcar hown ⟨m, step_marks hs hm, hmark⟩
  | _ => cases hm

end Origins

/-! ### What is on its way was published -/

section Transport

variable {Sock : Type} [DecidableEq Sock] {C : Codec} {isUUID : String → Bool}
  {findCarByDeviceId : String → Option CarRef} {st st' : System Sock} {es : List (Event Sock)}
  {s : Sock}

variable (C isUUID findCarByDeviceId) in
/-- The guard of an event, and what it does. -/
inductive Stepped (st : System Sock) : Event Sock → System Sock → Prop
  | ingest {e : IngestSystem.Event} {ingest : IngestSystem.State}
    (h : IngestSystem.step isUUID findCarByDeviceId st.ingest e = some ingest) :
    Stepped st (.ingest e) { st with ingest, issued := st.issued ++ publishing st.ingest e }
  | execute {i : ℕ} {c : RedisCommand} (h : (st.commands C)[i]? = some c) :
    Stepped st (.execute i) { st.executed c with next := i + 1 }
  | expire (key : String) :
    Stepped st (.expire key) { st with cache := Function.update st.cache key none }
  | lose : Stepped st .lose { st with wire := st.wire.tail }
  | delivers {e : Event Sock} {d : LiveDelivery.Event Sock}
    {gateway : LiveGateway.State Sock String} (hd : delivery st e = some d)
    (h : LiveDelivery.step st.gateway d = some gateway) :
    Stepped st e { st with gateway, wire := st.left e }

theorem step_cases {e : Event Sock} (hs : step C isUUID findCarByDeviceId st e = some st') :
    Stepped C isUUID findCarByDeviceId st e st' := by
  have hdelivers : ∀ e : Event Sock, st.delivered e = some st' →
      Stepped C isUUID findCarByDeviceId st e st' := by
    intro e hs
    obtain ⟨d, hd, hs⟩ := Option.bind_eq_some_iff.mp hs
    obtain ⟨gateway, hg, rfl⟩ := Option.map_eq_some_iff.mp hs
    exact .delivers hd hg
  cases e with
  | ingest e =>
    obtain ⟨ingest, h, rfl⟩ := Option.map_eq_some_iff.mp hs
    exact .ingest h
  | execute i =>
    obtain ⟨c, h, rfl⟩ := Option.map_eq_some_iff.mp hs
    exact .execute h
  | expire key =>
    cases hs
    exact .expire key
  | lose =>
    cases hs
    exact .lose
  | receive => exact hdelivers _ hs
  | gateway e => exact hdelivers _ hs
  | seed h ok now => exact hdelivers _ hs

/-- What is on the wire and what is cached was published. -/
structure Carried (C : Codec) (st : System Sock) : Prop where
  wire : ∀ w ∈ st.wire, ∃ m ∈ st.issued, w = (channelOf (C.carText m.carId) m.kind, C.stringify m)
  cache : ∀ key raw, st.cache key = some raw → ∃ f, .frame f ∈ st.issued ∧
    key = lkvCarKey (C.carText f.carId) ∧ raw = C.stringify (.frame f)

/-- What is cached after a key is removed was cached before. -/
theorem of_removed {cache : String → Option String} {key key' raw : String}
    (h : Function.update cache key none key' = some raw) : cache key' = some raw := by
  by_cases hkey : key' = key
  · rw [hkey, Function.update_self] at h
    cases h
  · rwa [Function.update_of_ne hkey] at h

/-- What a command carries was published. -/
theorem mem_commandsOf {m : LiveMessage} {c : RedisCommand} (hc : c ∈ C.commandsOf m) :
    (∀ channel raw, c = .publish channel raw →
      (channel, raw) = (channelOf (C.carText m.carId) m.kind, C.stringify m)) ∧
    (∀ key raw ttl, c = .set key raw ttl → ∃ f, m = .frame f ∧
      key = lkvCarKey (C.carText f.carId) ∧ raw = C.stringify (.frame f)) := by
  cases m with
  | frame f =>
    rcases List.mem_cons.mp hc with rfl | hc
    · refine ⟨fun channel raw h => ?_, fun key raw ttl h => by cases h⟩
      cases h
      rfl
    · rw [List.mem_singleton.mp hc]
      refine ⟨fun channel raw h => (by cases h), fun key raw ttl h => ?_⟩
      cases h
      exact ⟨f, rfl, rfl, rfl⟩
  | event e =>
    rcases List.mem_cons.mp hc with rfl | hc
    · refine ⟨fun channel raw h => ?_, fun key raw ttl h => by cases h⟩
      cases h
      rfl
    · obtain ⟨-, hc⟩ := List.mem_ite_nil_right.mp hc
      rw [List.mem_singleton.mp hc]
      refine ⟨fun channel raw h => ?_, fun key raw ttl h => ?_⟩ <;> cases h

theorem carried_step {e : Event Sock} (hi : Carried C st)
    (hs : step C isUUID findCarByDeviceId st e = some st') : Carried C st' := by
  cases step_cases hs with
  | ingest h =>
    refine ⟨fun w hw => ?_, fun key raw hcache => ?_⟩
    · obtain ⟨m, hm, rfl⟩ := hi.wire w hw
      exact ⟨m, List.mem_append_left _ hm, rfl⟩
    · obtain ⟨f, hf, hkey⟩ := hi.cache key raw hcache
      exact ⟨f, List.mem_append_left _ hf, hkey⟩
  | @execute i c h =>
    obtain ⟨m, hm, hc⟩ := List.mem_flatMap.mp (List.mem_of_getElem? h)
    obtain ⟨hpublish, hset⟩ := mem_commandsOf hc
    cases c with
    | publish channel message =>
      refine ⟨fun w hw => ?_, hi.cache⟩
      rcases List.mem_append.mp hw with hw | hw
      · exact hi.wire w hw
      · rw [List.mem_singleton.mp hw]
        exact ⟨m, hm, hpublish channel message rfl⟩
    | set key value ttl =>
      refine ⟨hi.wire, fun key' raw hcache => ?_⟩
      change Function.update st.cache key (some value) key' = some raw at hcache
      by_cases hkey : key' = key
      · subst hkey
        rw [Function.update_self, Option.some.injEq] at hcache
        obtain ⟨f, rfl, hkey, hvalue⟩ := hset key' value ttl rfl
        exact ⟨f, hm, hkey, hcache ▸ hvalue⟩
      · rw [Function.update_of_ne hkey] at hcache
        exact hi.cache key' raw hcache
    | del key => exact ⟨hi.wire, fun key' raw hcache => hi.cache key' raw (of_removed hcache)⟩
  | expire key => exact ⟨hi.wire, fun key' raw hcache => hi.cache key' raw (of_removed hcache)⟩
  | lose => exact ⟨fun w hw => hi.wire w (List.mem_of_mem_tail hw), hi.cache⟩
  | delivers hd h =>
    refine ⟨fun w hw => hi.wire w ?_, hi.cache⟩
    cases e with
    | receive => exact List.mem_of_mem_tail hw
    | _ => exact hw

/-! ### The three parts of a run -/

variable (C isUUID findCarByDeviceId) in
/-- The events of the gateway in a run. -/
def deliveries (es : List (Event Sock)) : List (LiveDelivery.Event Sock) :=
  history (step C isUUID findCarByDeviceId) (fun st e ds => ds ++ (delivery st e).toList) .init [] es

theorem deliveries_snoc {e : Event Sock}
    (hrun : run (step C isUUID findCarByDeviceId) .init es = some st)
    (hs : step C isUUID findCarByDeviceId st e = some st') :
    deliveries C isUUID findCarByDeviceId (es ++ [e]) =
      deliveries C isUUID findCarByDeviceId es ++ (delivery st e).toList :=
  history_snoc _ _ [] hrun hs

/-- A run of the system is one of the gateway. -/
theorem gateway_run : ∀ st, run (step C isUUID findCarByDeviceId) .init es = some st →
    run LiveDelivery.step LiveGateway.init (deliveries C isUUID findCarByDeviceId es) =
      some st.gateway := by
  induction es using List.reverseRecOn with
  | nil =>
    intro st h
    cases h
    rfl
  | append_singleton es e ih =>
    intro st h
    obtain ⟨mid, hmid, hs⟩ := (run_snoc_eq_some _).mp h
    rw [deliveries_snoc hmid hs]
    cases step_cases hs with
    | delivers hd hg =>
      rw [hd, Option.toList_some, run_snoc, ih mid hmid]
      exact hg
    | @execute i c =>
      rw [show delivery mid (.execute i) = none from rfl, Option.toList_none, List.append_nil,
        ih mid hmid]
      cases c <;> rfl
    | _ =>
      rw [show delivery mid _ = none from rfl, Option.toList_none, List.append_nil, ih mid hmid]

/-- A run of the system is one of the ingest process, which has published what was issued. -/
theorem ingest_run : ∀ st, run (step C isUUID findCarByDeviceId) .init es = some st →
    run (IngestSystem.step isUUID findCarByDeviceId) IngestSystem.init (ingestEvents es) =
        some st.ingest ∧
      ∀ m ∈ st.issued, Origin isUUID findCarByDeviceId (ingestEvents es) st.ingest m := by
  induction es using List.reverseRecOn with
  | nil =>
    intro st h
    cases h
    refine ⟨rfl, fun m hm => ?_⟩
    cases hm
  | append_singleton es e ih =>
    intro st h
    obtain ⟨mid, hmid, hs⟩ := (run_snoc_eq_some _).mp h
    obtain ⟨hrun, horigin⟩ := ih mid hmid
    rw [ingestEvents, List.filterMap_append]
    cases step_cases hs with
    | ingest hstep =>
      refine ⟨?_, fun m hm => ?_⟩
      · exact (run_snoc_eq_some _).mpr ⟨_, hrun, hstep⟩
      · rcases List.mem_append.mp hm with hm | hm
        · exact (horigin m hm).mono hstep
        · exact origin_step hrun hstep hm
    | @execute i c =>
      rw [show List.filterMap _ [Event.execute i] = [] from rfl, List.append_nil]
      cases c <;> exact ⟨hrun, horigin⟩
    | expire key =>
      rw [show List.filterMap _ [Event.expire key] = [] from rfl, List.append_nil]
      exact ⟨hrun, horigin⟩
    | lose =>
      rw [show List.filterMap _ [Event.lose] = [] from rfl, List.append_nil]
      exact ⟨hrun, horigin⟩
    | delivers hd =>
      cases e with
      | ingest | execute | expire | lose => cases hd
      | receive | gateway | seed =>
        rw [show List.filterMap _ [_] = [] from rfl, List.append_nil]
        exact ⟨hrun, horigin⟩

/-- What is issued stays issued. -/
theorem mem_issued {e : Event Sock} (hs : step C isUUID findCarByDeviceId st e = some st')
    {m : LiveMessage} (hm : m ∈ st.issued) : m ∈ st'.issued := by
  cases step_cases hs with
  | ingest => exact List.mem_append_left _ hm
  | @execute i c => cases c <;> exact hm
  | _ => exact hm

theorem carried_run : ∀ st, run (step C isUUID findCarByDeviceId) .init es = some st → Carried C st :=
  fun st h => run_invariant_of_step _ (fun _ _ _ hi hs => carried_step hi hs) es .init st
    ⟨fun _ hw => (by cases hw), fun _ _ hcache => (by cases hcache)⟩ h

/-- Who was let in by the gateway was let in by an event of the system. -/
theorem letIn_of_deliveries {carId : String} : ∀ st,
    run (step C isUUID findCarByDeviceId) .init es = some st →
      LiveDelivery.LetIn (deliveries C isUUID findCarByDeviceId es) s carId →
      .gateway (.resume ⟨s, carId, .authorizing⟩ true) ∈ es := by
  induction es using List.reverseRecOn with
  | nil =>
    intro st h hlet
    cases hlet
  | append_singleton es e ih =>
    intro st h hlet
    obtain ⟨mid, hmid, hs⟩ := (run_snoc_eq_some _).mp h
    rw [deliveries_snoc hmid hs] at hlet
    rcases List.mem_append.mp hlet with hlet | hlet
    · exact List.mem_append_left _ (ih mid hmid hlet)
    · refine List.mem_append_right _ (List.mem_singleton.mpr ?_)
      have hd := Option.mem_toList.mp hlet
      cases e with
      | gateway e =>
        cases hd
        rfl
      | receive =>
        obtain ⟨w, -, hw⟩ := Option.map_eq_some_iff.mp hd
        cases hw
      | _ => cases hd

/-! ### What a viewer is shown -/

/-- A message as the gateway sends it. -/
def Codec.shownAs (C : Codec) (m : LiveMessage) : LiveTelemetryBusMessage LiveMessage :=
  ⟨C.carText m.carId, m.kind, m.written⟩

theorem Origin.version {es : List IngestSystem.Event} {st : IngestSystem.State} {m : LiveMessage}
    (h : Origin isUUID findCarByDeviceId es st m) : m.v = LIVE_FRAME_SCHEMA_VERSION := by
  cases h <;> rfl

/-- A message that is issued passes the version gate. -/
theorem parse_issued {m : LiveMessage} (hv : m.v = LIVE_FRAME_SCHEMA_VERSION)
    (hjson : C.parseJson (C.stringify m) = some m.written) :
    parseLiveMessage C.bodies (C.stringify m) = some m.written := by
  rw [parseLiveMessage, show C.bodies.parseJson _ = _ from hjson, Option.filter_some]
  exact if_pos (decide_eq_true ((LiveMessage.written_v m).trans hv))

theorem dispatch_issued {m : LiveMessage} (hcar : IsCarId (C.carText m.carId))
    (hv : m.v = LIVE_FRAME_SCHEMA_VERSION) (hjson : C.parseJson (C.stringify m) = some m.written) :
    dispatch (parseLiveMessage C.bodies) true (channelOf (C.carText m.carId) m.kind)
      (C.stringify m) = some (C.shownAs m) :=
  dispatch_eq_some_iff.mpr ⟨rfl, parse_issued hv hjson, hcar, rfl⟩

theorem lkvCarKey_injective : Function.Injective lkvCarKey := fun a b h => by
  have hlist := congrArg String.toList h
  rw [lkvCarKey, lkvCarKey, String.toList_append, String.toList_append] at hlist
  exact String.toList_inj.mp (List.append_cancel_left hlist)

/-- What one event sends was issued. -/
theorem sent_issued {e : Event Sock} (hcar : ∀ n, IsCarId (C.carText n)) (hi : Carried C st)
    (hv : ∀ m ∈ st.issued, m.v = LIVE_FRAME_SCHEMA_VERSION)
    (hjson : ∀ m ∈ st.issued, C.parseJson (C.stringify m) = some m.written)
    {m : LiveTelemetryBusMessage LiveMessage} (hm : m ∈ sent C st s e) :
    ∃ msg ∈ st.issued, m = C.shownAs msg := by
  obtain ⟨d, hd, hm⟩ := List.mem_flatMap.mp hm
  cases e with
  | receive =>
    obtain ⟨w, hw, rfl⟩ := Option.map_eq_some_iff.mp (Option.mem_toList.mp hd)
    obtain ⟨msg, hmsg, rfl⟩ := hi.wire w (List.mem_of_mem_head? hw)
    obtain ⟨hm, -⟩ := List.mem_filter.mp hm
    refine ⟨msg, hmsg, ?_⟩
    have hdispatch := Option.mem_toList.mp hm
    rw [dispatch_issued (hcar _) (hv msg hmsg) (hjson msg hmsg)] at hdispatch
    exact (Option.some.inj hdispatch).symm
  | gateway e =>
    cases Option.mem_toList.mp hd
    cases hm
  | seed h ok now =>
    cases Option.mem_toList.mp hd
    obtain ⟨-, hm⟩ := List.mem_ite_nil_right.mp hm
    obtain ⟨frame, hframe, rfl⟩ := List.mem_map.mp hm
    obtain ⟨raw, hcached, hbody, -⟩ := LiveDelivery.seed_eq_some (Option.mem_toList.mp hframe)
    obtain ⟨-, hcached⟩ := Option.ite_none_right_eq_some.mp hcached
    obtain ⟨f, hf, hkey, rfl⟩ := hi.cache _ raw hcached
    rw [parse_issued (hv _ hf) (hjson _ hf), Option.some.injEq] at hbody
    refine ⟨.frame f, hf, ?_⟩
    rw [Codec.shownAs, hbody, lkvCarKey_injective hkey]
    rfl
  | ingest | execute | expire | lose => cases hd

/-- **A viewer is shown nothing that is not stored.**  Whatever devices, sockets and Redis do, all that
a socket is sent is of a car that a `requireReadableCar` let it in to, and is what one message of the
ingest process says: a frame that the device of that car delivered live, not in a batch, and that was
handed to the writer as one and the same sample, or an event of a session of that car. -/
theorem shown_is_stored (hcar : ∀ n, IsCarId (C.carText n))
    (hrun : run (step C isUUID findCarByDeviceId) .init es = some st)
    (hjson : ∀ m ∈ st.issued, C.parseJson (C.stringify m) = some m.written) (s : Sock) :
    ∀ m ∈ received C isUUID findCarByDeviceId s es,
      .gateway (.resume ⟨s, m.carId, .authorizing⟩ true) ∈ es ∧
      ∃ msg, Origin isUUID findCarByDeviceId (ingestEvents es) st.ingest msg ∧
        m = C.shownAs msg := by
  suffices h : ∀ m ∈ received C isUUID findCarByDeviceId s es,
      .gateway (.resume ⟨s, m.carId, .authorizing⟩ true) ∈ es ∧
        ∃ msg ∈ st.issued, m = C.shownAs msg by
    intro m hm
    obtain ⟨hlet, msg, hmsg, rfl⟩ := h m hm
    exact ⟨hlet, msg, (ingest_run st hrun).2 msg hmsg, rfl⟩
  induction es using List.reverseRecOn generalizing st with
  | nil =>
    intro m hm
    cases hm
  | append_singleton es e ih =>
    obtain ⟨mid, hmid, hs⟩ := (run_snoc_eq_some _).mp hrun
    have hjson' := fun m hm => hjson m (mem_issued hs hm)
    intro m hm
    rw [received, history_snoc _ _ [] hmid hs] at hm
    rcases List.mem_append.mp hm with hm | hm
    · obtain ⟨hlet, msg, hmsg, hm⟩ := ih hmid hjson' m hm
      exact ⟨List.mem_append_left _ hlet, msg, mem_issued hs hmsg, hm⟩
    · obtain ⟨msg, hmsg, hshown⟩ := sent_issued hcar (carried_run mid hmid)
        (fun m hm => ((ingest_run mid hmid).2 m hm).version) hjson' hm
      refine ⟨List.mem_append_left _ ?_, msg, mem_issued hs hmsg, hshown⟩
      obtain ⟨d, hd, hm⟩ := List.mem_flatMap.mp hm
      cases step_cases hs with
      | delivers hd' hg =>
        obtain rfl : d = _ := Option.some.inj ((Option.mem_toList.mp hd).symm.trans hd')
        have hadmitted := LiveDelivery.admitted_run (gateway_run mid hmid)
        exact letIn_of_deliveries mid hmid (LiveDelivery.sent_source hadmitted hg hm).1
      | _ => cases hd

/-! ### The order of what is shown -/

/-- The messages among commands. -/
def RedisCommand.message : RedisCommand → Option (String × String)
  | .publish channel message => some (channel, message)
  | .set _ _ _ | .del _ => none

/-- What the gateway has taken off the wire. -/
def taken (C : Codec) (isUUID : String → Bool) (findCarByDeviceId : String → Option CarRef)
    (es : List (Event Sock)) : List (String × String) :=
  history (step C isUUID findCarByDeviceId) (fun st e ws => ws ++ (taking st e).toList) .init [] es

end Transport

section Example

open IngestProvenance (twoCars)

/-- The frame of `shownRun` as it is shown. -/
def shownFrame : LiveMessage :=
  .frame ⟨1, 1, 1, some 1000, 1000, 0, none, none, none, none, none, none, none, none, none, none,
    none, none⟩

def shownText : String :=
  "\x7b\"v\":1,\"sessionId\":1,\"carId\":1,\"t\":1000,\"pt\":1000,\"seq\":0\x7d"

/-- JSON as far as `shownRun` needs it. -/
def shownCodec : Codec where
  carText n := if n = 1 then "gt3" else "gt4"
  stringify _ := shownText
  parseJson raw := if raw = shownText then some shownFrame else none

/-- A socket watches the car; a frame of it comes in and is shown. -/
def shownRun : List (Event ℕ) :=
  [.gateway (.connect 1), .gateway (.subscribe 1 (some "gt3")),
    .gateway (.resume ⟨1, "gt3", .authorizing⟩ true), .gateway (.reply "gt3" true),
    .gateway (.resume ⟨1, "gt3", .subscribing 0⟩ true), .gateway (.resume ⟨1, "gt3", .added⟩ true),
    .ingest (.deliver 1000 "car-7" .telemetry (exampleFrame 1 0 500)), .ingest (.query 0 1000 true),
    .ingest (.query 0 1000 true), .ingest (.query 0 1000 true), .ingest (.resume 0 1000 true),
    .execute 0, .execute 1, .receive, .seed ⟨1, "gt3", .seeding⟩ true 2000]

theorem shownRun_issued :
    ((run (step shownCodec (· == exampleSid) twoCars) .init shownRun).map fun st => st.issued) =
      some [shownFrame] := by
  rfl

theorem shownCodec_carText (n : ℕ) : IsCarId (shownCodec.carText n) := by
  by_cases hn : n = 1
  · rw [show shownCodec.carText n = "gt3" from if_pos hn]
    exact ⟨by decide, by decide +kernel⟩
  · rw [show shownCodec.carText n = "gt4" from if_neg hn]
    exact ⟨by decide, by decide +kernel⟩

theorem shownCodec_json {issued : List LiveMessage} (h : issued = [shownFrame]) :
    ∀ m ∈ issued, shownCodec.parseJson (shownCodec.stringify m) = some m.written := by
  intro m hm
  rw [h] at hm
  rw [List.mem_singleton.mp hm]
  rfl

theorem shown_is_stored_shownRun :
    (received shownCodec (· == exampleSid) twoCars 1 shownRun).map (fun m => (m.carId, m.kind)) =
        [("gt3", .frame), ("gt3", .frame)] ∧
      ∃ st, run (step shownCodec (· == exampleSid) twoCars) .init shownRun = some st ∧
        ∀ m ∈ received shownCodec (· == exampleSid) twoCars 1 shownRun,
          .gateway (.resume ⟨1, m.carId, .authorizing⟩ true) ∈ shownRun ∧
          ∃ msg, Origin (· == exampleSid) twoCars (ingestEvents shownRun) st.ingest msg ∧
            m = shownCodec.shownAs msg := by
  obtain ⟨st, hst, hissued⟩ := Option.map_eq_some_iff.mp shownRun_issued
  exact ⟨by decide +kernel, st, hst,
    shown_is_stored shownCodec_carText hst (shownCodec_json hissued) 1⟩

end Example

end TelemetryCloud.LivePath
