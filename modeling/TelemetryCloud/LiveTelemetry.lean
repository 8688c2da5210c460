import Mathlib.Data.Rat.Defs
import Mathlib.Data.List.Induction
import Mathlib.Data.List.Infix
import Mathlib.Data.List.DropRight

/-!
# The live view of a car

The browser's `LiveTelemetryService`: one socket at a time, the signals the page reads, and two
rolling buffers.  Frames and session events travel on separate channels, so they arrive in any
order.

* `connect`, `disconnect`, `onFrame`, `onEvent`, `receive` : the handlers; `step`, `run` : any
  sequence of them;
* `Told` : what the session signal is to tell; `told_iff` : **in which runs it does**: those in
  which nothing of a session arrives after its stop, and no stop while another session runs;
* `not_told_straggler` : a frame that arrives after the stop brings the session back.
-/

namespace TelemetryCloud.LiveTelemetry

/-! ### Messages and signals -/

structure LiveFrame where
  sessionId : String
  carId : String
  t : ℚ
  pt : ℚ
  seq : ℕ
  rpm : Option ℚ
  coolant : Option ℚ
  oil : Option ℚ
  speed : Option ℚ
  lat : Option ℚ
  lon : Option ℚ
  deriving DecidableEq

inductive SessionEvent
  | start
  | stop
  deriving DecidableEq

structure LiveSessionEvent where
  carId : String
  sessionId : String
  event : SessionEvent
  t : ℚ
  deriving DecidableEq

structure TracePoint where
  lat : ℚ
  lon : ℚ
  deriving DecidableEq

/-- One CAN sample, `t` seconds after the session's first one. -/
structure ChannelPoint where
  t : ℚ
  speed : Option ℚ
  rpm : Option ℚ
  coolant : Option ℚ
  oil : Option ℚ
  deriving DecidableEq

inductive LiveState
  | idle
  | connecting
  | connected
  | disconnected
  | error
  deriving DecidableEq

def MAX_LIVE_POINTS : ℕ := 3000

/-- The service.  Sockets are numbered as they are made, `sockets` of them so far. -/
structure Service where
  sockets : ℕ
  socket : Option ℕ
  carId : Option String
  frame : Option LiveFrame
  points : List TracePoint
  channelPoints : List ChannelPoint
  status : LiveState
  session : Option String
  failure : Option String
  sessionStartT : Option ℚ
  openSessionId : Option String
  deriving DecidableEq

def Service.init : Service :=
  ⟨0, none, none, none, [], [], .idle, none, none, none, none⟩

/-- `appendCapped`: what is over the cap goes before the point is pushed. -/
def appendCapped {T : Type} (existing : List T) (point : T) : List T :=
  existing.drop (existing.length + 1 - MAX_LIVE_POINTS) ++ [point]

/-- Where a frame puts the car, when it has a fix. -/
def position (payload : LiveFrame) : Option TracePoint :=
  match payload.lat, payload.lon with
  | some lat, some lon => some ⟨lat, lon⟩
  | _, _ => none

def channelPoint (startT : ℚ) (payload : LiveFrame) : ChannelPoint where
  t := (payload.t - startT) / 1000
  speed := payload.speed
  rpm := payload.rpm
  coolant := payload.coolant
  oil := payload.oil

/-! ### Handlers -/

def beginSessionIfNew (s : Service) (sessionId : String) (startT : ℚ) : Service :=
  if s.openSessionId = some sessionId then s
  else
    { s with
      openSessionId := some sessionId
      sessionStartT := some startT
      points := []
      channelPoints := [] }

/-- The origin is there whenever a session is open. -/
def onFrame (s : Service) (payload : LiveFrame) : Service :=
  let s := beginSessionIfNew s payload.sessionId payload.t
  let s := { s with
    frame := some payload
    session := some payload.sessionId
    channelPoints :=
      appendCapped s.channelPoints (channelPoint (s.sessionStartT.getD 0) payload) }
  match position payload with
  | some point => { s with points := appendCapped s.points point }
  | none => s

def onEvent (s : Service) (payload : LiveSessionEvent) : Service :=
  match payload.event with
  | .start =>
    { beginSessionIfNew s payload.sessionId payload.t with session := some payload.sessionId }
  | .stop => { s with session := none }

def disconnect (s : Service) : Service := { Service.init with sockets := s.sockets }

def connect (s : Service) (carId : String) : Service :=
  if s.carId = some carId ∧ s.socket.isSome then s
  else
    { disconnect s with
      carId := some carId
      status := .connecting
      socket := some s.sockets
      sockets := s.sockets + 1 }

/-- What a socket tells its handlers. -/
inductive Message
  | connect
  | frame (payload : LiveFrame)
  | event (payload : LiveSessionEvent)
  | error (message : Option String)
  | disconnect
  | connectError
  deriving DecidableEq

/-- The handlers `connect` puts on its socket; the subscription that goes out on every connect
changes nothing here. -/
def receive (s : Service) : Message → Service
  | .connect => { s with status := .connected, failure := none }
  | .frame payload => onFrame s payload
  | .event payload => onEvent s payload
  | .error message =>
    { s with failure := some (message.getD "Live feed error"), status := .error }
  | .disconnect => if s.status = .error then s else { s with status := .disconnected }
  | .connectError => { s with failure := some "Could not reach the live feed", status := .error }

inductive Input
  | connect (carId : String)
  | disconnect
  | message (socket : ℕ) (message : Message)
  deriving DecidableEq

/-- A message that has a handler to go to: a socket that was let go has none left. -/
def delivered (s : Service) : Input → Option Message
  | .message socket message => if s.socket = some socket then some message else none
  | _ => none

def step (s : Service) (e : Input) : Service :=
  match e with
  | .connect carId => connect s carId
  | .disconnect => disconnect s
  | .message .. => (delivered s e).elim s (receive s)

def run (es : List Input) : Service := es.foldl step Service.init

theorem run_snoc (es : List Input) (e : Input) : run (es ++ [e]) = step (run es) e := by
  rw [run, List.foldl_append, List.foldl_cons, List.foldl_nil, run]

/-! ### What one input does to the session signal -/

/-- The session a frame or a `start` is of. -/
def announced (s : Service) (e : Input) : Option String :=
  match delivered s e with
  | some (.frame payload) => some payload.sessionId
  | some (.event ⟨_, sessionId, .start, _⟩) => some sessionId
  | _ => none

/-- The session a `stop` is of. -/
def ended (s : Service) (e : Input) : Option String :=
  match delivered s e with
  | some (.event ⟨_, sessionId, .stop, _⟩) => some sessionId
  | _ => none

@[simp] theorem beginSessionIfNew_session (s : Service) (sessionId : String) (startT : ℚ) :
    (beginSessionIfNew s sessionId startT).session = s.session := by
  unfold beginSessionIfNew
  split <;> rfl

@[simp] theorem onFrame_session (s : Service) (payload : LiveFrame) :
    (onFrame s payload).session = some payload.sessionId := by
  unfold onFrame
  dsimp only
  split <;> rfl

/-- A message that goes to its handler, or an input that leaves the session or forgets it. -/
theorem step_delivered (s : Service) (e : Input) :
    (∃ m, delivered s e = some m ∧ step s e = receive s m) ∨
      (delivered s e = none ∧ (step s e = s ∨ (∃ carId, step s e = connect s carId) ∨
        step s e = disconnect s)) := by
  cases e with
  | connect carId => exact .inr ⟨rfl, .inr (.inl ⟨carId, rfl⟩)⟩
  | disconnect => exact .inr ⟨rfl, .inr (.inr rfl)⟩
  | message socket m =>
    cases hm : delivered s (.message socket m) with
    | some m' => exact .inl ⟨m', rfl, by rw [step, hm, Option.elim_some]⟩
    | none => exact .inr ⟨rfl, .inl (by rw [step, hm, Option.elim_none])⟩

/-- **What one input does to the session signal.** -/
theorem session_step (s : Service) (e : Input) :
    (∃ S, announced s e = some S ∧ ended s e = none ∧ (step s e).session = some S) ∨
      (∃ S, announced s e = none ∧ ended s e = some S ∧ (step s e).session = none) ∨
      (announced s e = none ∧ ended s e = none ∧
        ((step s e).session = s.session ∨ (step s e).session = none)) := by
  obtain ⟨m, hm, hstep⟩ | ⟨hnone, hstep⟩ := step_delivered s e
  · rw [hstep, announced, ended, hm]
    cases m with
    | frame payload => exact .inl ⟨payload.sessionId, rfl, rfl, onFrame_session s payload⟩
    | event payload =>
      obtain ⟨carId, sessionId, event, t⟩ := payload
      cases event with
      | start => exact .inl ⟨sessionId, rfl, rfl, rfl⟩
      | stop => exact .inr (.inl ⟨sessionId, rfl, rfl, rfl⟩)
    | disconnect =>
      refine .inr (.inr ⟨rfl, rfl, .inl ?_⟩)
      show (if s.status = .error then s else _).session = s.session
      split <;> rfl
    | connect => exact .inr (.inr ⟨rfl, rfl, .inl rfl⟩)
    | error message => exact .inr (.inr ⟨rfl, rfl, .inl rfl⟩)
    | connectError => exact .inr (.inr ⟨rfl, rfl, .inl rfl⟩)
  · rw [announced, ended, hnone]
    refine .inr (.inr ⟨rfl, rfl, ?_⟩)
    obtain hsame | ⟨carId, hconnect⟩ | hdisconnect := hstep
    · exact .inl (congrArg Service.session hsame)
    · rw [hconnect]
      unfold connect
      split
      · exact .inl rfl
      · exact .inr rfl
    · exact .inr (congrArg Service.session hdisconnect)

/-! ### Runs -/

/-- A `stop` of the session has been processed. -/
def Stopped (es : List Input) (S : String) : Prop :=
  ∃ pre e, pre ++ [e] <+: es ∧ ended (run pre) e = some S

theorem Stopped.mono {es es' : List Input} {S : String} (h : Stopped es S) (hpre : es <+: es') :
    Stopped es' S := by
  obtain ⟨pre, e, hes, hended⟩ := h
  exact ⟨pre, e, hes.trans hpre, hended⟩

/-- **What the session signal is to tell**: never a session that has been stopped, and a running
one until its own stop. -/
def Told (es : List Input) : Prop :=
  ∀ pre e, pre ++ [e] <+: es →
    (∀ S, Stopped (pre ++ [e]) S → (run (pre ++ [e])).session ≠ some S) ∧
      ∀ S T, ended (run pre) e = some S → (run pre).session = some T → T ≠ S →
        (run (pre ++ [e])).session = some T

/-- Nothing of a session arrives after its stop, and no stop while another session runs. -/
def InOrder (es : List Input) : Prop :=
  ∀ pre e, pre ++ [e] <+: es →
    (∀ S, announced (run pre) e = some S → ¬ Stopped pre S) ∧
      ∀ S, ended (run pre) e = some S → (run pre).session = none ∨ (run pre).session = some S

theorem inOrder_of_told {es : List Input} (h : Told es) : InOrder es := by
  intro pre e hpre
  obtain ⟨hstopped, hother⟩ := h pre e hpre
  rw [run_snoc] at hstopped hother
  constructor
  · intro S hS hdone
    obtain ⟨S', hS', -, hsession⟩ | ⟨_, hnone, -⟩ | ⟨hnone, -⟩ := session_step (run pre) e
    · rw [hS] at hS'
      cases hS'
      exact hstopped S (hdone.mono (List.prefix_append _ _)) hsession
    · rw [hS] at hnone
      cases hnone
    · rw [hS] at hnone
      cases hnone
  · intro S hS
    cases hT : (run pre).session with
    | none => exact .inl rfl
    | some T =>
      by_cases hne : T = S
      · exact .inr (congrArg some hne)
      · -- the stop of `S` has put out the session of `T`
        have htold := hother S T hS hT hne
        obtain ⟨_, -, hnone, -⟩ | ⟨_, -, -, hsession⟩ | ⟨-, hnone, -⟩ := session_step (run pre) e
        · rw [hS] at hnone
          cases hnone
        · rw [hsession] at htold
          cases htold
        · rw [hS] at hnone
          cases hnone

theorem InOrder.shorter {es es' : List Input} (h : InOrder es') (hpre : es <+: es') : InOrder es :=
  fun pre e hes => h pre e (hes.trans hpre)

theorem stopped_snoc {es : List Input} {e : Input} {S : String} :
    Stopped (es ++ [e]) S ↔ Stopped es S ∨ ended (run es) e = some S := by
  constructor
  · intro h
    obtain ⟨pre, e', hpre, hended⟩ := h
    rcases List.prefix_concat_iff.mp hpre with heq | hpre
    · obtain ⟨rfl, hlast⟩ := List.append_inj' heq rfl
      cases hlast
      exact .inr hended
    · exact .inl ⟨pre, e', hpre, hended⟩
  · intro h
    rcases h with h | h
    · exact h.mono (List.prefix_append _ _)
    · exact ⟨es, e, List.prefix_rfl, h⟩

/-- In a run in order, the session that is told has not been stopped. -/
theorem not_stopped_of_inOrder {es : List Input} (h : InOrder es) :
    ∀ S, Stopped es S → (run es).session ≠ some S := by
  induction es using List.reverseRecOn with
  | nil =>
    intro S _ hS
    cases hS
  | append_singleton es e ih =>
    intro S hS
    have hih := ih (h.shorter (List.prefix_append _ _))
    obtain ⟨hannounced, -⟩ := h es e List.prefix_rfl
    rw [run_snoc]
    obtain ⟨T, hT, hnone, hsession⟩ | ⟨_, -, -, hsession⟩ | ⟨-, hnone, hsession⟩ :=
      session_step (run es) e
    · rw [hsession]
      intro heq
      cases heq
      rcases stopped_snoc.mp hS with hbefore | hnow
      · exact hannounced _ hT hbefore
      · rw [hnone] at hnow
        cases hnow
    · rw [hsession]
      exact fun heq => by cases heq
    · rcases stopped_snoc.mp hS with hbefore | hnow
      · rcases hsession with hsession | hsession
        · rw [hsession]
          exact hih S hbefore
        · rw [hsession]
          exact fun heq => by cases heq
      · rw [hnone] at hnow
        cases hnow

/-- **When the session signal tells what runs**: in exactly the runs in which nothing of a session
arrives after its stop, and no stop while another session runs. -/
theorem told_iff (es : List Input) : Told es ↔ InOrder es := by
  constructor
  · exact inOrder_of_told
  · intro h pre e hpre
    refine ⟨not_stopped_of_inOrder (h.shorter hpre), ?_⟩
    intro S T hS hT hne
    obtain ⟨-, hstop⟩ := h pre e hpre
    rcases hstop S hS with hnone | hsame
    · rw [hnone] at hT
      cases hT
    · rw [hT] at hsame
      exact absurd (Option.some.inj hsame) hne

section Example

/-- A frame of car `c`'s session `a`. -/
def frameOfA (t : ℚ) : LiveFrame :=
  ⟨"a", "c", t, t, 0, none, none, none, none, none, none⟩

/-- The session starts and stops; its last frame, on the other channel, arrives after the stop. -/
def straggler : List Input :=
  [.connect "c", .message 0 .connect, .message 0 (.event ⟨"c", "a", .start, 0⟩),
    .message 0 (.frame (frameOfA 0)), .message 0 (.event ⟨"c", "a", .stop, 100⟩),
    .message 0 (.frame (frameOfA 100))]

theorem not_told_straggler : ¬ Told straggler := by
  intro h
  have hlast := (h (straggler.take 5) (.message 0 (.frame (frameOfA 100))) List.prefix_rfl).1 "a"
  apply hlast
  · exact ⟨straggler.take 4, .message 0 (.event ⟨"c", "a", .stop, 100⟩),
      List.prefix_append _ _, by decide +kernel⟩
  · decide +kernel

end Example

end TelemetryCloud.LiveTelemetry
