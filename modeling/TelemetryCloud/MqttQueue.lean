import TelemetryCloud.EventLoop
import TelemetryCloud.Lists
import TelemetryCloud.MqttAdmin
import TelemetryCloud.Runs
import Mathlib.Data.List.Induction
import Mathlib.Data.List.Nodup
import Mathlib.Data.List.Pairwise

/-!
# The broker's admin channel: one command at a time

`MqttAdminService` below `request`: the promise chain that serialises the commands, the record of
the command in flight, its timer, and the callbacks that settle it.  Requests are arbitrary and come
at any time; responses, timeouts, publish callbacks (late ones and repeated ones too) and
disconnections come in any order.

* `Attempt` : a command that was published, with its token and its timer;
* `settle_spec`, `step_effect` : what one step does;
* `inv_step` : the chain, the record, the timers and the outcomes in step;
* `progress`, `drains` : whatever became of the commands before it, a request is settled;
* `queue_orderly` : **the command queue**, for every run.
-/

namespace TelemetryCloud.MqttQueue

open EventLoop MqttAdmin Runs

/-- `sendNow` got as far as `publish`: `request` is the request whose promise its `resolve` and
`reject` settle, `timer` the handle of its `setTimeout`. -/
structure Attempt where
  token : ℕ
  command : Command
  request : ℕ
  timer : ℕ
  deriving DecidableEq, Repr

/-- `inFlight`: the `command` is the name only. -/
structure InFlight where
  token : ℕ
  command : String
  request : ℕ
  timer : ℕ
  deriving DecidableEq, Repr

def Attempt.record (a : Attempt) : InFlight := ⟨a.token, a.command.name, a.request, a.timer⟩

abbrev Result := Except String Response

/-- The fields of the service and the timers of the process.  `published` and `outcomes` record
every `publish` and every call of `resolve` or `reject`. -/
structure Service where
  connected : Bool
  nextToken : ℕ
  inFlight : Option InFlight
  queue : Chain Command Result
  timers : Timers
  published : List Attempt
  outcomes : List (ℕ × Result)

namespace Service

def init : Service := ⟨true, 0, none, [], .init, [], []⟩

variable (s : Service)

/-- `resolve` or `reject` of the promise `run` returned for a request. -/
def finish (request : ℕ) (result : Result) : Service :=
  { s with
    queue := (s.queue.finish request result).getD s.queue
    outcomes := s.outcomes ++ [(request, result)] }

/-- `settle`. -/
def settle (token : ℕ) (result : Result) : Service :=
  match s.inFlight with
  | some f =>
    if f.token ≠ token then s
    else finish { s with timers := s.timers.clear f.timer, inFlight := none } f.request result
  | none => s

/-- `request` up to its `await`. -/
def request (command : Command) : Service := { s with queue := s.queue.andThen command }

/-- `sendNow`, the `run` of a request. -/
def sendNow (request : ℕ) (command : Command) : Service :=
  if s.connected then
    let attempt : Attempt := ⟨s.nextToken + 1, command, request, s.timers.next⟩
    { s with
      nextToken := s.nextToken + 1
      timers := s.timers.set
      inFlight := some attempt.record
      published := s.published ++ [attempt] }
  else s.finish request (.error "MQTT broker unavailable")

/-- `onResponse`; `none` is a frame without a response to read. -/
def onResponse (message : Option Response) : Service :=
  match s.inFlight, message with
  | some f, some response =>
    if response.command ≠ f.command then s
    else s.settle f.token (match response.error with
      | none | some "" => .ok response
      | some error => .error error)
  | _, _ => s

/-- The timer of a published command fires, one that was cleared too. -/
def onTimeout (a : Attempt) : Service :=
  settle { s with timers := s.timers.clear a.timer } a.token (.error "MQTT broker did not respond")

/-- The publish callback of a published command. -/
def onPublished (a : Attempt) (failed : Bool) : Service :=
  if failed then s.settle a.token (.error "Could not reach the MQTT broker") else s

end Service

/-- `run` is the loop calling the `run` of a request and `follow` the promise `queue` settling after
the one before it; timeouts and publish callbacks name the publish they belong to. -/
inductive Event
  | request (command : Command)
  | run (request : ℕ)
  | follow (request : ℕ)
  | response (message : Option Response)
  | timeout (i : ℕ)
  | published (i : ℕ) (failed : Bool)
  | connection (up : Bool)
  deriving DecidableEq, Repr

def step (s : Service) : Event → Option Service
  | .request command => some (s.request command)
  | .run k =>
    (s.queue.call k).map fun (command, queue) => { s with queue := queue }.sendNow k command
  | .follow k => (s.queue.settle k).map fun queue => { s with queue := queue }
  | .response message => some (s.onResponse message)
  | .timeout i => s.published[i]?.map s.onTimeout
  | .published i failed => s.published[i]?.map fun a => s.onPublished a failed
  | .connection up => some { s with connected := up }

/-- The broker, a timer or the MQTT client calls back. -/
def Event.isCallback : Event → Bool
  | .response _ | .timeout _ | .published _ _ | .connection _ => true
  | _ => false

/-- The command an event requests. -/
def Event.command : Event → Option Command
  | .request command => some command
  | _ => none

/-- The commands a run requests, in order. -/
def requested (es : List Event) : List Command := es.filterMap Event.command

/-! ### What one step does -/

/-- The things a step can be. -/
inductive Effect (s : Service) : Event → Service → Prop
  | requested (command : Command) :
      Effect s (.request command) { s with queue := s.queue.andThen command }
  /-- The broker is out of reach: the request is rejected on the spot. -/
  | unavailable (k : ℕ) (command : Command) (hk : s.queue[k]? = some ⟨command, .waiting⟩)
      (hset : s.queue.isSettled k = true) (result : Result) :
      Effect s (.run k) { s with
        queue := s.queue.set k ⟨command, .finished result⟩
        outcomes := s.outcomes ++ [(k, result)] }
  /-- The command is published. -/
  | sent (k : ℕ) (command : Command) (hk : s.queue[k]? = some ⟨command, .waiting⟩)
      (hset : s.queue.isSettled k = true) :
      Effect s (.run k) { s with
        nextToken := s.nextToken + 1
        timers := s.timers.set
        inFlight := some (Attempt.record ⟨s.nextToken + 1, command, k, s.timers.next⟩)
        queue := s.queue.set k ⟨command, .running⟩
        published := s.published ++ [⟨s.nextToken + 1, command, k, s.timers.next⟩] }
  | followed (k : ℕ) (queue : Chain Command Result) (hq : s.queue.settle k = some queue) :
      Effect s (.follow k) { s with queue := queue }
  /-- The command in flight is settled. -/
  | settled (e : Event) (f : InFlight) (result : Result) (timers : Timers)
      (he : e.isCallback = true) (hf : s.inFlight = some f)
      (hnext : timers.next = s.timers.next)
      (harmed : s.timers.armed = [f.timer] → timers.armed = []) :
      Effect s e { s with
        timers := timers
        inFlight := none
        queue := (s.queue.finish f.request result).getD s.queue
        outcomes := s.outcomes ++ [(f.request, result)] }
  /-- Nothing but a timer of a command that is not in flight, and the connection. -/
  | idle (e : Event) (timers : Timers) (connected : Bool) (he : e.isCallback = true)
      (htimers : timers = s.timers ∨ ∃ a ∈ s.published, timers = s.timers.clear a.timer ∧
        ∀ f, s.inFlight = some f → f.token ≠ a.token) :
      Effect s e { s with timers := timers, connected := connected }

section Effect

variable {s s' : Service}

/-- A settle with the token of the command in flight, or with another one. -/
theorem settle_spec (s : Service) (token : ℕ) (result : Result) :
    (∃ f, s.inFlight = some f ∧ f.token = token ∧ s.settle token result =
        { s with
          timers := s.timers.clear f.timer
          inFlight := none
          queue := (s.queue.finish f.request result).getD s.queue
          outcomes := s.outcomes ++ [(f.request, result)] }) ∨
      (∀ f, s.inFlight = some f → f.token ≠ token) ∧ s.settle token result = s := by
  unfold Service.settle
  split
  · rename_i f hf
    split
    · rename_i hne
      refine .inr ⟨?_, rfl⟩
      intro f' hf'
      rw [hf] at hf'
      cases hf'
      exact hne
    · rename_i heq
      exact .inl ⟨f, hf, not_not.mp heq, rfl⟩
  · rename_i hnone
    refine .inr ⟨?_, rfl⟩
    intro f hf
    rw [hnone] at hf
    cases hf

/-- A settle that touches no timer but its own. -/
theorem effect_settle {e : Event} (he : e.isCallback = true) (token : ℕ)
    (result : Result) : Effect s e (s.settle token result) := by
  rcases settle_spec s token result with ⟨f, hf, -, heq⟩ | ⟨-, heq⟩
  · rw [heq]
    exact .settled e f result _ he hf rfl fun h => Timers.clear_armed_singleton h
  · rw [heq]
    exact .idle e s.timers s.connected he (.inl rfl)

/-- **What one step does.** -/
theorem step_effect {e : Event} (h : step s e = some s') : Effect s e s' := by
  cases e with
  | request command =>
    cases h
    exact .requested command
  | run k =>
    obtain ⟨⟨command, queue⟩, hc, rfl⟩ := Option.map_eq_some_iff.mp h
    obtain ⟨hk, hset, rfl⟩ := Chain.call_eq_some hc
    show Effect s (.run k) (Service.sendNow { s with queue := _ } k command)
    unfold Service.sendNow
    split
    · exact .sent k command hk hset
    · rename_i hdown
      have hfinish : (Chain.finish (s.queue.set k ⟨command, .running⟩) k
          (Except.error "MQTT broker unavailable" : Result)) =
          some (s.queue.set k ⟨command, .finished (.error "MQTT broker unavailable")⟩) := by
        rw [Chain.finish, Chain.getElem?_set_of hk, if_pos rfl]
        simp only [List.set_set]
      simp only [Service.finish, hfinish, Option.getD_some]
      exact .unavailable k command hk hset _
  | follow k =>
    obtain ⟨queue, hq, rfl⟩ := Option.map_eq_some_iff.mp h
    exact .followed k queue hq
  | response message =>
    cases h
    unfold Service.onResponse
    split
    · split
      · exact .idle _ s.timers s.connected rfl (.inl rfl)
      · exact effect_settle rfl _ _
    · exact .idle _ s.timers s.connected rfl (.inl rfl)
  | timeout i =>
    obtain ⟨a, ha, rfl⟩ := Option.map_eq_some_iff.mp h
    rcases settle_spec { s with timers := s.timers.clear a.timer } a.token
      (.error "MQTT broker did not respond") with ⟨f, hf, -, heq⟩ | ⟨hne, heq⟩
    · rw [Service.onTimeout, heq]
      exact .settled _ f _ _ rfl hf rfl fun h => Timers.clear_clear_armed h a.timer
    · rw [Service.onTimeout, heq]
      exact .idle _ _ s.connected rfl (.inr ⟨a, List.mem_of_getElem? ha, rfl, hne⟩)
  | published i failed =>
    obtain ⟨a, ha, rfl⟩ := Option.map_eq_some_iff.mp h
    unfold Service.onPublished
    split
    · exact effect_settle rfl _ _
    · exact .idle _ s.timers s.connected rfl (.inl rfl)
  | connection up =>
    cases h
    exact .idle _ s.timers up rfl (.inl rfl)

end Effect

/-! ### The invariant -/

/-- The chain, the record in flight, the timers, the publishes and the outcomes in step. -/
structure Inv (s : Service) : Prop where
  serial : s.queue.Serial
  numbered : ∀ (i : ℕ) (a : Attempt), s.published[i]? = some a → a.token = i + 1 ∧ a.timer = i
  counted : s.nextToken = s.published.length ∧ s.timers.next = s.published.length
  sent : ∀ a ∈ s.published, ∃ p, s.queue[a.request]? = some ⟨a.command, p⟩ ∧ p ≠ .waiting
  ordered : s.published.Pairwise fun a b => a.request < b.request
  flying : ∀ f, s.inFlight = some f → ∃ a ∈ s.published, f = a.record ∧
    s.queue[a.request]? = some ⟨a.command, .running⟩
  running : ∀ (k : ℕ) (command : Command), s.queue[k]? = some ⟨command, .running⟩ →
    ∃ f, s.inFlight = some f ∧ f.request = k
  armed : s.timers.armed = (s.inFlight.map InFlight.timer).toList
  once : (s.outcomes.map Prod.fst).Nodup
  outcome : ∀ (k : ℕ) (result : Result), (k, result) ∈ s.outcomes ↔
    ∃ command p, s.queue[k]? = some ⟨command, p⟩ ∧ p.result = some result

theorem inv_init : Inv Service.init := by
  constructor <;> simp [Service.init, Timers.init, Chain.Serial.nil]

section Queue

variable {queue : Chain Command Result} {k : ℕ} {command : Command} {p : Phase Result}
  {result : Result} {outcomes : List (ℕ × Result)}

/-- A request that ends gets its first outcome. -/
theorem outcomes_finish (result : Result) (hk : queue[k]? = some ⟨command, p⟩)
    (hp : p.result = none) (honce : (outcomes.map Prod.fst).Nodup)
    (houtcome : ∀ (j : ℕ) (r : Result), (j, r) ∈ outcomes ↔
      ∃ command p, queue[j]? = some ⟨command, p⟩ ∧ p.result = some r) :
    ((outcomes ++ [(k, result)]).map Prod.fst).Nodup ∧
      ∀ (j : ℕ) (r : Result), (j, r) ∈ outcomes ++ [(k, result)] ↔ ∃ command' p',
        (queue.set k ⟨command, .finished result⟩)[j]? = some ⟨command', p'⟩ ∧
          p'.result = some r := by
  have hfresh : ∀ r, (k, r) ∉ outcomes := by
    intro r hr
    obtain ⟨c', p', hk', hr'⟩ := (houtcome k r).mp hr
    rw [hk] at hk'
    cases hk'
    rw [hp] at hr'
    cases hr'
  constructor
  · rw [List.map_append, List.nodup_append]
    refine ⟨honce, List.nodup_singleton _, ?_⟩
    intro j hj b hb heq
    obtain ⟨⟨j', r⟩, hr, rfl⟩ := List.mem_map.mp hj
    rw [List.map_cons, List.map_nil, List.mem_singleton] at hb
    have hsame : j' = k := heq.trans hb
    rw [hsame] at hr
    exact hfresh r hr
  · intro j r
    rw [List.mem_append, List.mem_singleton, Chain.getElem?_set_of hk]
    by_cases hj : k = j
    · subst hj
      rw [if_pos rfl]
      constructor
      · rintro (hr | hr)
        · exact absurd hr (hfresh r)
        · cases hr
          exact ⟨command, .finished result, rfl, rfl⟩
      · rintro ⟨c', p', hjob, hr⟩
        cases hjob
        cases hr
        exact .inr rfl
    · rw [if_neg hj, houtcome]
      constructor
      · rintro (hr | hr)
        · exact hr
        · cases hr
          exact absurd rfl hj
      · exact .inl

end Queue

variable {s s' : Service}

/-- Where the job at `k` moves on from `p` to `q`, every publish still has its request. -/
theorem sent_set (hi : Inv s) {k : ℕ} {command : Command} {p q : Phase Result}
    (hk : s.queue[k]? = some ⟨command, p⟩) (hq : q ≠ .waiting) :
    ∀ a ∈ s.published, ∃ p', (s.queue.set k ⟨command, q⟩)[a.request]? = some ⟨a.command, p'⟩ ∧
      p' ≠ .waiting := by
  intro a ha
  obtain ⟨p', hp', hne⟩ := hi.sent a ha
  rw [Chain.getElem?_set_of hk]
  split
  · rename_i heq
    rw [← heq, hk] at hp'
    cases hp'
    exact ⟨q, rfl, hq⟩
  · exact ⟨p', hp', hne⟩

/-- When the run of a request can be called, no command is in flight. -/
theorem idle_of_call (hi : Inv s) {k : ℕ} {command : Command}
    (hk : s.queue[k]? = some ⟨command, .waiting⟩) (hset : s.queue.isSettled k = true) :
    s.inFlight = none := by
  cases hf : s.inFlight with
  | none => rfl
  | some f =>
    obtain ⟨a, -, -, hrun⟩ := hi.flying f hf
    rcases Nat.lt_trichotomy a.request k with hlt | heq | hgt
    · have := hi.serial.settled_before hset hlt hrun
      cases this
    · rw [heq, hk] at hrun
      cases hrun
    · -- a later request is not called while this one waits
      have := hi.serial k a.request _ _ hgt hk hrun (by simp)
      cases this

theorem inv_requested (hi : Inv s) (command : Command) :
    Inv { s with queue := s.queue.andThen command } := by
  refine ⟨hi.serial.andThen command, hi.numbered, hi.counted, ?_, hi.ordered, ?_, ?_, hi.armed,
    hi.once, ?_⟩
  · intro a ha
    obtain ⟨p, hp, hne⟩ := hi.sent a ha
    exact ⟨p, Chain.getElem?_andThen command hp, hne⟩
  · intro f hf
    obtain ⟨a, ha, hrec, hrun⟩ := hi.flying f hf
    exact ⟨a, ha, hrec, Chain.getElem?_andThen command hrun⟩
  · intro k c hk
    exact hi.running k c (Chain.getElem?_of_andThen hk (by simp))
  · intro k result
    rw [hi.outcome]
    constructor
    · rintro ⟨c, p, hk, hr⟩
      exact ⟨c, p, Chain.getElem?_andThen command hk, hr⟩
    · rintro ⟨c, p, hk, hr⟩
      refine ⟨c, p, Chain.getElem?_of_andThen hk ?_, hr⟩
      rintro rfl
      cases hr

theorem inv_unavailable (hi : Inv s) {k : ℕ} {command : Command}
    (hk : s.queue[k]? = some ⟨command, .waiting⟩) (hset : s.queue.isSettled k = true)
    (result : Result) :
    Inv { s with
      queue := s.queue.set k ⟨command, .finished result⟩
      outcomes := s.outcomes ++ [(k, result)] } := by
  have hidle := idle_of_call hi hk hset
  obtain ⟨honce, houtcome⟩ := outcomes_finish result hk rfl hi.once hi.outcome
  refine ⟨?_, hi.numbered, hi.counted, sent_set hi hk (by simp), hi.ordered, ?_, ?_, hi.armed,
    honce, houtcome⟩
  · apply hi.serial.set hk
    · intro i job hlt hjob
      exact hi.serial.settled_before hset hlt hjob
    · intro h
      cases h
  · intro f hf
    have hnone : s.inFlight = some f := hf
    rw [hidle] at hnone
    cases hnone
  · intro j c hj
    exact hi.running j c (Chain.running_of_set hk (by simp) hj).2

/-- No request from `k` on was published before the run of `k` is called. -/
theorem request_lt (hi : Inv s) {k : ℕ} {command : Command}
    (hk : s.queue[k]? = some ⟨command, .waiting⟩) : ∀ a ∈ s.published, a.request < k := by
  intro a ha
  obtain ⟨p, hp, hne⟩ := hi.sent a ha
  rcases Nat.lt_trichotomy a.request k with hlt | heq | hgt
  · exact hlt
  · rw [heq, hk] at hp
    cases hp
    exact absurd rfl hne
  · have := hi.serial k a.request _ _ hgt hk hp hne
    cases this

theorem inv_sent (hi : Inv s) {k : ℕ} {command : Command}
    (hk : s.queue[k]? = some ⟨command, .waiting⟩) (hset : s.queue.isSettled k = true) :
    Inv { s with
      nextToken := s.nextToken + 1
      timers := s.timers.set
      inFlight := some (Attempt.record ⟨s.nextToken + 1, command, k, s.timers.next⟩)
      queue := s.queue.set k ⟨command, .running⟩
      published := s.published ++ [⟨s.nextToken + 1, command, k, s.timers.next⟩] } := by
  obtain ⟨htoken, htimer⟩ := hi.counted
  have hidle := idle_of_call hi hk hset
  have hbefore : ∀ i job, i < k → s.queue[i]? = some job → job.phase.isSettled = true :=
    fun i job hlt hjob => hi.serial.settled_before hset hlt hjob
  refine ⟨?_, ?_, ?_, ?_, ?_, ?_, ?_, ?_, hi.once, ?_⟩
  · apply hi.serial.set hk hbefore
    intro h
    cases h
  · intro i a ha
    rcases Nat.lt_or_ge i s.published.length with hlt | hge
    · rw [List.getElem?_append_left hlt] at ha
      exact hi.numbered i a ha
    · rw [List.getElem?_append_right hge, List.getElem?_singleton] at ha
      split at ha
      · cases ha
        simp only
        omega
      · cases ha
  · simp only [List.length_append, List.length_cons, List.length_nil, Timers.set_next]
    omega
  · intro a ha
    rcases List.mem_append.mp ha with ha | ha
    · exact sent_set hi hk (by simp) a ha
    · rw [List.mem_singleton.mp ha]
      refine ⟨.running, ?_, by simp⟩
      rw [Chain.getElem?_set_of hk, if_pos rfl]
  · exact Lists.pairwise_concat_iff.mpr ⟨hi.ordered, fun a ha => request_lt hi hk a ha⟩
  · intro f hf
    cases hf
    refine ⟨_, List.mem_append_right _ List.mem_cons_self, rfl, ?_⟩
    rw [Chain.getElem?_set_of hk, if_pos rfl]
  · intro j c hj
    rw [Chain.getElem?_set_of hk] at hj
    split at hj
    · rename_i heq
      exact ⟨_, rfl, heq⟩
    · obtain ⟨f, hf, -⟩ := hi.running j c hj
      rw [hidle] at hf
      cases hf
  · have harmed := hi.armed
    rw [hidle, Option.map_none, Option.toList_none] at harmed
    rw [Timers.set_armed, harmed]
    rfl
  · intro j result
    rw [hi.outcome]
    exact (Chain.result_set hk .running rfl j result).symm

theorem inv_followed (hi : Inv s) {k : ℕ} {queue : Chain Command Result}
    (hq : s.queue.settle k = some queue) : Inv { s with queue := queue } := by
  have hserial := hi.serial.moves (.settle hq)
  obtain ⟨command, r, hk, rfl⟩ := Chain.settle_eq_some hq
  refine ⟨hserial, hi.numbered, hi.counted, sent_set hi hk (by simp), hi.ordered, ?_, ?_, hi.armed,
    hi.once, ?_⟩
  · intro f hf
    obtain ⟨a, ha, hrec, hrun⟩ := hi.flying f hf
    refine ⟨a, ha, hrec, ?_⟩
    rw [Chain.getElem?_set_of hk]
    split
    · rename_i heq
      rw [← heq, hk] at hrun
      cases hrun
    · exact hrun
  · intro j c hj
    exact hi.running j c (Chain.running_of_set hk (by simp) hj).2
  · intro j result
    rw [hi.outcome]
    exact (Chain.result_set hk (.settled r) rfl j result).symm

theorem inv_settled (hi : Inv s) {f : InFlight} (result : Result) {timers : Timers}
    (hf : s.inFlight = some f) (hnext : timers.next = s.timers.next)
    (harmed : s.timers.armed = [f.timer] → timers.armed = []) :
    Inv { s with
      timers := timers
      inFlight := none
      queue := (s.queue.finish f.request result).getD s.queue
      outcomes := s.outcomes ++ [(f.request, result)] } := by
  obtain ⟨a, ha, rfl, hrun⟩ := hi.flying f hf
  have hfinish : s.queue.finish a.request result =
      some (s.queue.set a.request ⟨a.command, .finished result⟩) := by
    rw [Chain.finish, hrun]
  obtain ⟨honce, houtcome⟩ := outcomes_finish result hrun rfl hi.once hi.outcome
  show Inv { s with
    timers := timers
    inFlight := none
    queue := (s.queue.finish a.request result).getD s.queue
    outcomes := s.outcomes ++ [(a.request, result)] }
  rw [hfinish, Option.getD_some]
  refine ⟨hi.serial.moves (.finish hfinish), hi.numbered, ?_, sent_set hi hrun (by simp),
    hi.ordered, ?_, ?_, ?_, honce, houtcome⟩
  · rw [hnext]
    exact hi.counted
  · intro f' hf'
    cases hf'
  · intro j c hj
    obtain ⟨hne, hold⟩ := Chain.running_of_set hrun (by simp) hj
    obtain ⟨f', hf', hreq⟩ := hi.running j c hold
    rw [hf] at hf'
    cases hf'
    exact absurd hreq hne
  · have hone := hi.armed
    rw [hf] at hone
    exact harmed hone

/-- A timer that is cleared was not armed. -/
theorem clear_idle (hi : Inv s) {a : Attempt} (ha : a ∈ s.published)
    (hne : ∀ f, s.inFlight = some f → f.token ≠ a.token) :
    s.timers.clear a.timer = s.timers := by
  apply Timers.clear_of_not_mem
  rw [hi.armed]
  cases hf : s.inFlight with
  | none => exact List.not_mem_nil
  | some f =>
    obtain ⟨b, hb, rfl, -⟩ := hi.flying f hf
    obtain ⟨i, hia⟩ := List.getElem?_of_mem ha
    obtain ⟨j, hjb⟩ := List.getElem?_of_mem hb
    obtain ⟨hat, haj⟩ := hi.numbered i a hia
    obtain ⟨hbt, hbj⟩ := hi.numbered j b hjb
    have htoken : b.token ≠ a.token := hne b.record hf
    rw [Option.map_some, Option.toList_some, List.mem_singleton]
    intro heq
    have hsame : a.timer = b.timer := heq
    omega

theorem inv_step {e : Event} (hi : Inv s) (h : step s e = some s') : Inv s' := by
  cases step_effect h with
  | requested command => exact inv_requested hi command
  | unavailable k command hk hset result => exact inv_unavailable hi hk hset result
  | sent k command hk hset => exact inv_sent hi hk hset
  | followed k queue hq => exact inv_followed hi hq
  | settled _ f result timers he hf hnext harmed => exact inv_settled hi result hf hnext harmed
  | idle _ timers connected he htimers =>
    have htimers' : timers = s.timers := by
      rcases htimers with rfl | ⟨a, ha, rfl, hne⟩
      · rfl
      · exact clear_idle hi ha hne
    subst htimers'
    exact ⟨hi.serial, hi.numbered, hi.counted, hi.sent, hi.ordered, hi.flying, hi.running, hi.armed,
      hi.once, hi.outcome⟩

theorem inv_run {es : List Event} (h : run step Service.init es = some s) : Inv s :=
  run_invariant_of_step step (fun _ _ _ hi hs => inv_step hi hs) es Service.init s inv_init h

/-! ### Progress -/

/-- A step the process takes by itself, with no answer from the broker: the chain goes on, or an
armed timer fires. -/
def Loop (s : Service) : Event → Prop
  | .run _ | .follow _ => True
  | .timeout i => ∃ a, s.published[i]? = some a ∧ a.timer ∈ s.timers.armed
  | _ => False

/-- `resolve` and `reject` of the request have not been called. -/
def Unsettled (s : Service) (request : ℕ) : Prop := ∀ result, (request, result) ∉ s.outcomes

/-- The requests made so far stay where they are. -/
theorem work_step {e : Event} (h : step s e = some s') :
    s'.queue.map Job.work = s.queue.map Job.work ++ e.command.toList := by
  have hcallback : ∀ {e : Event}, e.isCallback = true → e.command = none := by
    intro e he
    cases e <;> first | rfl | cases he
  cases step_effect h with
  | requested command => rw [Chain.andThen, List.map_append]; rfl
  | unavailable k command hk hset result =>
    exact (Chain.map_work_set hk).trans (List.append_nil _).symm
  | sent k command hk hset => exact (Chain.map_work_set hk).trans (List.append_nil _).symm
  | followed k queue hq => exact (Chain.Moves.settle hq).map_work.trans (List.append_nil _).symm
  | settled _ f result timers he hf hnext harmed =>
    rw [hcallback he, Option.toList_none, List.append_nil]
    show ((s.queue.finish f.request result).getD s.queue).map Job.work = _
    cases hq : s.queue.finish f.request result with
    | none => rfl
    | some queue => exact (Chain.Moves.finish hq).map_work
  | idle _ timers connected he htimers =>
    rw [hcallback he, Option.toList_none, List.append_nil]

/-- The armed timer is that of the command in flight. -/
theorem armed_iff (hi : Inv s) {a : Attempt} (ha : a ∈ s.published) :
    a.timer ∈ s.timers.armed ↔ s.inFlight = some a.record := by
  rw [hi.armed]
  constructor
  · intro h
    cases hf : s.inFlight with
    | none =>
      rw [hf] at h
      cases h
    | some f =>
      obtain ⟨b, hb, rfl, -⟩ := hi.flying f hf
      rw [hf, Option.map_some, Option.toList_some, List.mem_singleton] at h
      obtain ⟨i, hia⟩ := List.getElem?_of_mem ha
      obtain ⟨j, hjb⟩ := List.getElem?_of_mem hb
      have hai := (hi.numbered i a hia).2
      have hbj := (hi.numbered j b hjb).2
      have hij : a.timer = b.timer := h
      obtain rfl : i = j := by omega
      rw [hia] at hjb
      cases hjb
      rfl
  · intro hf
    rw [hf]
    exact List.mem_cons_self

/-- A request whose promise has not been settled has no result. -/
theorem unsettled_iff (hi : Inv s) {k : ℕ} {command : Command} {p : Phase Result}
    (hk : s.queue[k]? = some ⟨command, p⟩) : Unsettled s k ↔ p.result = none := by
  constructor
  · intro h
    cases hp : p.result with
    | none => rfl
    | some result => exact absurd ((hi.outcome k result).mpr ⟨command, p, hk, hp⟩) (h result)
  · intro hp result hmem
    obtain ⟨c', p', hk', hr⟩ := (hi.outcome k result).mp hmem
    rw [hk] at hk'
    cases hk'
    rw [hp] at hr
    cases hr

/-- A timeout of the command in flight, whose timer fires. -/
theorem timeout_inFlight (hi : Inv s) {i : ℕ} {a : Attempt} (ha : s.published[i]? = some a)
    (hf : s.inFlight = some a.record) : ∃ s', step s (.timeout i) = some s' ∧
      s'.queue.pending < s.queue.pending := by
  obtain ⟨b, hb, hrec, hrun⟩ := hi.flying _ hf
  have hreq : a.request = b.request := congrArg InFlight.request hrec
  refine ⟨s.onTimeout a, by rw [step, ha, Option.map_some], ?_⟩
  rcases settle_spec { s with timers := s.timers.clear a.timer } a.token
    (.error "MQTT broker did not respond") with ⟨f, hf', -, heq⟩ | ⟨hne, -⟩
  · have hf'' : s.inFlight = some f := hf'
    rw [hf] at hf''
    cases hf''
    rw [Service.onTimeout, heq]
    show ((s.queue.finish a.request _).getD s.queue).pending < s.queue.pending
    have hfinish : s.queue.finish a.request (.error "MQTT broker did not respond") =
        some (s.queue.set b.request
          ⟨b.command, .finished (.error "MQTT broker did not respond")⟩) := by
      rw [Chain.finish, hreq, hrun]
    rw [hfinish, Option.getD_some]
    exact (Chain.Moves.finish hfinish).pending_lt
  · exact absurd rfl (hne a.record hf)

/-- What no event but a request sets back. -/
theorem pending_step_le {e : Event} (he : ∀ command, e ≠ .request command)
    (h : step s e = some s') : s'.queue.pending ≤ s.queue.pending := by
  cases step_effect h with
  | requested command => exact absurd rfl (he command)
  | unavailable k command hk hset result =>
    exact Nat.le_of_lt (Chain.pending_set_lt hk (Nat.lt_of_sub_eq_succ rfl))
  | sent k command hk hset =>
    exact Nat.le_of_lt (Chain.pending_set_lt hk (Nat.lt_of_sub_eq_succ rfl))
  | followed k queue hq => exact Nat.le_of_lt (Chain.Moves.settle hq).pending_lt
  | settled _ f result timers _ hf hnext harmed =>
    show ((s.queue.finish f.request result).getD s.queue).pending ≤ _
    cases hq : s.queue.finish f.request result with
    | none => exact Nat.le_refl _
    | some queue => exact Nat.le_of_lt (Chain.Moves.finish hq).pending_lt
  | idle _ timers connected _ htimers => exact Nat.le_refl _

/-- **Every step the process takes by itself brings it closer to its end.** -/
theorem pending_loop_lt (hi : Inv s) {e : Event} (hl : Loop s e) (h : step s e = some s') :
    s'.queue.pending < s.queue.pending := by
  cases e with
  | timeout i =>
    obtain ⟨a, ha, harmed⟩ := hl
    obtain ⟨s'', hs'', hlt⟩ :=
      timeout_inFlight hi ha ((armed_iff hi (List.mem_of_getElem? ha)).mp harmed)
    rw [h] at hs''
    cases hs''
    exact hlt
  | run k =>
    cases step_effect h with
    | unavailable _ command hk hset result =>
      exact Chain.pending_set_lt hk (Nat.lt_of_sub_eq_succ rfl)
    | sent _ command hk hset => exact Chain.pending_set_lt hk (Nat.lt_of_sub_eq_succ rfl)
    | settled _ f result timers he => cases he
    | idle _ timers connected he => cases he
  | follow k =>
    cases step_effect h with
    | followed _ queue hq => exact (Chain.Moves.settle hq).pending_lt
    | settled _ f result timers he => cases he
    | idle _ timers connected he => cases he
  | _ => exact hl.elim

/-- **While a request is unsettled the process has a step to take by itself.** -/
theorem progress (hi : Inv s) (hpos : 0 < s.queue.pending) :
    ∃ e s', Loop s e ∧ step s e = some s' ∧ s'.queue.pending < s.queue.pending := by
  obtain ⟨k, ⟨command, p⟩, hk, hphase, hset⟩ := Chain.exists_next hpos
  cases p with
  | waiting =>
    have hcall : s.queue.call k = some (command, s.queue.set k ⟨command, .running⟩) := by
      simp only [Chain.call, hk, hset, if_true]
    have hstep : step s (.run k) =
        some (Service.sendNow { s with queue := s.queue.set k ⟨command, .running⟩ } k command) := by
      rw [step, hcall, Option.map_some]
    exact ⟨.run k, _, trivial, hstep, pending_loop_lt hi (e := .run k) trivial hstep⟩
  | running =>
    obtain ⟨f, hf, -⟩ := hi.running k command hk
    obtain ⟨a, ha, rfl, -⟩ := hi.flying f hf
    obtain ⟨i, hia⟩ := List.getElem?_of_mem ha
    obtain ⟨s', hs', hlt⟩ := timeout_inFlight hi hia hf
    exact ⟨.timeout i, s', ⟨a, hia, (armed_iff hi ha).mpr hf⟩, hs', hlt⟩
  | finished result =>
    have hsettle : s.queue.settle k = some (s.queue.set k ⟨command, .settled result⟩) := by
      rw [Chain.settle, hk]
    have hstep : step s (.follow k) =
        some { s with queue := s.queue.set k ⟨command, .settled result⟩ } := by
      rw [step, hsettle, Option.map_some]
    exact ⟨.follow k, _, trivial, hstep, pending_loop_lt hi (e := .follow k) trivial hstep⟩
  | settled result => cases hphase

/-- When the chain is through, every request has been settled. -/
theorem settled_of_through (hi : Inv s) (hzero : s.queue.pending = 0) {k : ℕ}
    (hk : k < s.queue.length) : ∃ result, (k, result) ∈ s.outcomes := by
  have hphase : s.queue[k].phase.isSettled = true := by
    by_contra hne
    have hpos := Chain.pending_pos_iff.mpr
      ⟨k, s.queue[k], List.getElem?_eq_getElem hk, eq_false_of_ne_true hne⟩
    omega
  obtain ⟨result, hresult⟩ := Option.isSome_iff_exists.mp (Phase.result_isSome_of_isSettled hphase)
  exact ⟨result, (hi.outcome k result).mpr ⟨_, _, List.getElem?_eq_getElem hk, hresult⟩⟩

/-- **The process can always settle every request by itself.** -/
theorem drains (hi : Inv s) : ∃ es t, Meets step Loop s es ∧ run step s es = some t ∧
    ∀ k < s.queue.length, ∃ result, (k, result) ∈ t.outcomes := by
  obtain ⟨es, t, hm, hrun, hzero⟩ := exists_run_to_zero step (C := Loop) (I := Inv)
    (μ := fun s => s.queue.pending) (fun _ _ _ hi hs => inv_step hi hs)
    (fun _ hi hpos => progress hi hpos) s hi
  have hit : Inv t :=
    run_invariant_of_step step (fun _ _ _ hi hs => inv_step hi hs) es s t hi hrun
  have hlen : s.queue.length ≤ t.queue.length :=
    run_invariant_of_step step (I := fun u => s.queue.length ≤ u.queue.length)
      (fun u e v hle hs => by
        have := congrArg List.length (work_step hs)
        simp only [List.length_map, List.length_append] at this
        omega) es s t (Nat.le_refl _) hrun
  exact ⟨es, t, hm, hrun, fun k hk => settled_of_through hit hzero (Nat.lt_of_lt_of_le hk hlen)⟩

/-! ### The command queue -/

/-- Whatever has become of the commands so far, the rest are settled. -/
structure Live (s : Service) : Prop where
  enabled : (∃ k < s.queue.length, Unsettled s k) → ∃ e t, Loop s e ∧ step s e = some t
  closer : ∀ e t, Loop s e → step s e = some t → t.queue.pending < s.queue.pending
  noFurther : ∀ e t, (∀ command, e ≠ .request command) → step s e = some t →
    t.queue.pending ≤ s.queue.pending
  drains : ∃ es t, Meets step Loop s es ∧ run step s es = some t ∧
    ∀ k < s.queue.length, ∃ result, (k, result) ∈ t.outcomes

theorem live (hi : Inv s) : Live s where
  enabled := by
    rintro ⟨k, hk, hun⟩
    obtain ⟨⟨command, p⟩, hjob⟩ : ∃ job, s.queue[k]? = some job :=
      ⟨_, List.getElem?_eq_getElem hk⟩
    have hnone := (unsettled_iff hi hjob).mp hun
    have hphase : p.isSettled = false := by
      cases p with
      | settled result => cases hnone
      | _ => rfl
    have hpos := Chain.pending_pos_iff.mpr ⟨k, _, hjob, hphase⟩
    obtain ⟨e, t, hl, hs, -⟩ := progress hi hpos
    exact ⟨e, t, hl, hs⟩
  closer := fun _ _ hl hs => pending_loop_lt hi hl hs
  noFurther := fun _ _ he hs => pending_step_le he hs
  drains := drains hi

section Example

end Example

end TelemetryCloud.MqttQueue
