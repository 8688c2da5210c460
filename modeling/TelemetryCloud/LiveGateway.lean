import Mathlib.Data.Finset.Card
import Mathlib.Data.List.Perm.Basic
import TelemetryCloud.Runs
import TelemetryCloud.LiveBus

/-!
# The live gateway: sockets, rooms and the viewers they hold

`LiveTelemetryGateway` handles `subscribe`, `unsubscribe` and disconnects of any number of sockets.
Every `await` is a point where another handler may run, so a handler is a program counter in a pool
(`Handler`, `Pc`) and one event runs one handler from one `await` to the next, or delivers a message,
or lets Redis answer a command.

`subscribe` claims the car in `data.cars` before its two awaits.  `unsubscribe` and a disconnect take
whatever stands in `data.cars` for a viewer on the bus.  In between lies the defect:

* `unauthorized_release` — a socket that is refused a car subscribes and unsubscribes while the
  authorization is pending, and takes another socket's viewer and its Redis subscription with it.
* `viewer_accounting` — in every run in which no socket unsubscribes from a car, or disconnects,
  while its own claim on it is still pending, the books agree: refcount, `data.cars`, rooms and
  subscriptions, and a socket never authorized for a car never lowers its count.
-/

namespace TelemetryCloud.LiveGateway

open TelemetryCloud.Runs TelemetryCloud.LiveBus

/-- Where a handler is suspended. -/
inductive Pc
  /-- `subscribe`, on `requireReadableCar`. -/
  | authorizing
  /-- `subscribe`, inside `addViewer`, on the `i`-th `SUBSCRIBE` of the car. -/
  | subscribing (i : ℕ)
  /-- `subscribe`, `addViewer` having resolved. -/
  | added
  /-- `subscribe`, `addViewer` having thrown. -/
  | addFailed
  /-- `subscribe`, joined, on the seed. -/
  | seeding
  /-- `unsubscribe`, on `client.leave`. -/
  | leaving
  /-- `unsubscribe`, on `removeViewer`. -/
  | removing
  deriving DecidableEq, Repr

/-- The claim stands in `data.cars` but the socket is not in the room yet. -/
def Pc.claiming : Pc → Bool
  | .authorizing | .subscribing _ | .added | .addFailed => true
  | .seeding | .leaving | .removing => false

/-- The socket is counted on the bus but not in the room. -/
def Pc.holding : Pc → Bool
  | .added | .leaving => true
  | _ => false

structure Handler (Sock Car : Type) where
  sock : Sock
  car : Car
  pc : Pc
  deriving DecidableEq, Repr

structure State (Sock Car : Type) where
  connected : Finset Sock
  closed : Finset Sock
  /-- `client.data.cars`. -/
  cars : Sock → Finset Car
  room : Car → Finset Sock
  bus : Car → CarBus
  handlers : List (Handler Sock Car)
  /-- The `error` messages emitted, newest first. -/
  errors : List (Sock × String)

inductive Event (Sock Car : Type)
  | connect (s : Sock)
  | disconnect (s : Sock)
  | subscribe (s : Sock) (carId : Option Car)
  | unsubscribe (s : Sock) (carId : Option Car)
  /-- What handler `h` awaits has settled; `ok` is the outcome of `requireReadableCar`. -/
  | resume (h : Handler Sock Car) (ok : Bool)
  | reply (c : Car) (ok : Bool)
  deriving DecidableEq

variable {Sock Car : Type} [DecidableEq Sock] [DecidableEq Car]

/-- The socket whose message or whose handler an event runs. -/
def Event.sock : Event Sock Car → Option Sock
  | .connect s | .disconnect s | .subscribe s _ | .unsubscribe s _ => some s
  | .resume h _ => some h.sock
  | .reply _ _ => none

def init : State Sock Car where
  connected := ∅
  closed := ∅
  cars := fun _ => ∅
  room := fun _ => ∅
  bus := fun _ => CarBus.init
  handlers := []
  errors := []

/-- `data.cars.add`, then the call to `requireReadableCar`. -/
def State.subscribe (st : State Sock Car) (s : Sock) : Option Car → State Sock Car
  | none => { st with errors := (s, "Invalid subscribe request") :: st.errors }
  | some c =>
    if c ∈ st.cars s then st
    else
      { st with
        cars := Function.update st.cars s (insert c (st.cars s))
        handlers := ⟨s, c, .authorizing⟩ :: st.handlers }

/-- `data.cars.delete`, then `client.leave`. -/
def State.unsubscribe (st : State Sock Car) (s : Sock) : Option Car → State Sock Car
  | none => st
  | some c =>
    if c ∈ st.cars s then
      { st with
        cars := Function.update st.cars s ((st.cars s).erase c)
        room := Function.update st.room c ((st.room c).erase s)
        handlers := ⟨s, c, .leaving⟩ :: st.handlers }
    else st

/-- `handleDisconnect`.  socket.io has taken the socket out of its rooms by then. -/
def State.disconnect (st : State Sock Car) (s : Sock) : State Sock Car :=
  { st with
    connected := st.connected.erase s
    closed := insert s st.closed
    room := fun c => (st.room c).erase s
    bus := fun c => if c ∈ st.cars s then (st.bus c).removeViewer else st.bus c
    cars := Function.update st.cars s ∅ }

/-- A `catch` of `subscribe`: the claim is taken back and the client told. -/
def State.refuse (st : State Sock Car) (h : Handler Sock Car) (message : String) : State Sock Car :=
  { st with
    cars := Function.update st.cars h.sock ((st.cars h.sock).erase h.car)
    errors := (h.sock, message) :: st.errors
    handlers := st.handlers.erase h }

/-- Handler `h` moves on to its next `await`. -/
def State.advance (st : State Sock Car) (h : Handler Sock Car) (pc : Pc) (b : CarBus) :
    State Sock Car :=
  { st with
    bus := Function.update st.bus h.car b
    handlers := { h with pc } :: st.handlers.erase h }

/-- One handler from one `await` to the next. -/
def State.resume (st : State Sock Car) (h : Handler Sock Car) (ok : Bool) :
    Option (State Sock Car) :=
  match h.pc with
  | .authorizing =>
    if ok then
      let r := (st.bus h.car).addViewer
      some (st.advance h (.subscribing r.2) r.1)
    else some (st.refuse h "Car not found")
  | .subscribing i =>
    match (st.bus h.car).promise i with
    | .pending => none
    | .fulfilled => some (st.advance h .added (st.bus h.car))
    | .rejected => some (st.advance h .addFailed ((st.bus h.car).dropFailed i))
  | .added =>
    -- a closed socket no longer joins anything
    let st' := st.advance h .seeding (st.bus h.car)
    some { st' with
      room := if h.sock ∈ st.connected then
          Function.update st.room h.car (insert h.sock (st.room h.car))
        else st.room }
  | .addFailed => some (st.refuse h "Live feed unavailable")
  | .leaving => some (st.advance h .removing (st.bus h.car).removeViewer)
  | .seeding | .removing => some { st with handlers := st.handlers.erase h }

def step (st : State Sock Car) : Event Sock Car → Option (State Sock Car)
  | .connect s =>
    if s ∈ st.connected ∨ s ∈ st.closed then none
    else some { st with connected := insert s st.connected }
  | .disconnect s => if s ∈ st.connected then some (st.disconnect s) else none
  | .subscribe s carId => if s ∈ st.connected then some (st.subscribe s carId) else none
  | .unsubscribe s carId => if s ∈ st.connected then some (st.unsubscribe s carId) else none
  | .resume h ok => if h ∈ st.handlers then st.resume h ok else none
  | .reply c ok => ((st.bus c).reply ok).map fun b => { st with bus := Function.update st.bus c b }

/-! ### What is claimed of a run -/

/-- The sockets watching a car: connected, with the car in `data.cars`. -/
def State.viewers (st : State Sock Car) (c : Car) : Finset Sock :=
  st.connected.filter fun s => c ∈ st.cars s

/-- The books of one car agree. -/
def State.Accounted (st : State Sock Car) (c : Car) : Prop :=
  (st.bus c).refcount = (st.viewers c).card ∧ st.room c = st.viewers c ∧
    (0 < (st.viewers c).card → (st.bus c).subscribed = true)

/-- In these events every `requireReadableCar` of socket `s` for car `c` is refused. -/
def Unauthorized (es : List (Event Sock Car)) (s : Sock) (c : Car) : Prop :=
  .resume ⟨s, c, .authorizing⟩ true ∉ es

/-- The step neither lowers the car's refcount nor issues an `UNSUBSCRIBE` for it. -/
def Keeps (st st' : State Sock Car) (c : Car) : Prop :=
  (st.bus c).refcount ≤ (st'.bus c).refcount ∧
    (st'.bus c).queue.count .unsubscribe ≤ (st.bus c).queue.count .unsubscribe

/-- What is claimed of one run: with no handler in flight the books of every car agree, and no step
of a socket the run never authorizes for a car takes anything from that car. -/
def ViewerAccounting (es : List (Event Sock Car)) : Prop :=
  (∀ st, run step init es = some st → st.handlers = [] → ∀ c, st.Accounted c) ∧
    ∀ pre e post st st' s c, es = pre ++ e :: post → run step init pre = some st →
      step st e = some st' → e.sock = some s → Unauthorized es s c → Keeps st st' c

/-- Socket `s` has a claim on car `c` that has not turned into a seat in the room. -/
def State.Claiming (st : State Sock Car) (s : Sock) (c : Car) : Prop :=
  ∃ h ∈ st.handlers, h.sock = s ∧ h.car = c ∧ h.pc.claiming = true

/-- No socket unsubscribes from a car, or disconnects, over its own pending claim. -/
def NoEarlyRelease (st : State Sock Car) : Event Sock Car → Prop
  | .unsubscribe s (some c) => ¬ st.Claiming s c
  | .disconnect s => ∀ c, ¬ st.Claiming s c
  | _ => True

/-! ### What an event does -/

/-- The guard of an event, and what it does. -/
inductive Stepped (st : State Sock Car) : Event Sock Car → State Sock Car → Prop
  | connect {s : Sock} (hnew : ¬ (s ∈ st.connected ∨ s ∈ st.closed)) :
    Stepped st (.connect s) { st with connected := insert s st.connected }
  | disconnect {s : Sock} (hcon : s ∈ st.connected) : Stepped st (.disconnect s) (st.disconnect s)
  | subscribe {s : Sock} (carId : Option Car) (hcon : s ∈ st.connected) :
    Stepped st (.subscribe s carId) (st.subscribe s carId)
  | unsubscribe {s : Sock} (carId : Option Car) (hcon : s ∈ st.connected) :
    Stepped st (.unsubscribe s carId) (st.unsubscribe s carId)
  | resume {h : Handler Sock Car} {ok : Bool} {st' : State Sock Car} (hmem : h ∈ st.handlers)
    (hresume : st.resume h ok = some st') : Stepped st (.resume h ok) st'
  | reply {c : Car} {ok : Bool} {b : CarBus} (hreply : (st.bus c).reply ok = some b) :
    Stepped st (.reply c ok) { st with bus := Function.update st.bus c b }

theorem step_cases {st st' : State Sock Car} {e : Event Sock Car} (hs : step st e = some st') :
    Stepped st e st' := by
  cases e with
  | connect s =>
    obtain ⟨hnew, hst⟩ := Option.ite_none_left_eq_some.mp hs
    cases hst
    exact .connect hnew
  | disconnect s =>
    obtain ⟨hcon, hst⟩ := Option.ite_none_right_eq_some.mp hs
    cases hst
    exact .disconnect hcon
  | subscribe s carId =>
    obtain ⟨hcon, hst⟩ := Option.ite_none_right_eq_some.mp hs
    cases hst
    exact .subscribe carId hcon
  | unsubscribe s carId =>
    obtain ⟨hcon, hst⟩ := Option.ite_none_right_eq_some.mp hs
    cases hst
    exact .unsubscribe carId hcon
  | resume h ok =>
    obtain ⟨hmem, hresume⟩ := Option.ite_none_right_eq_some.mp hs
    exact .resume hmem hresume
  | reply c ok =>
    obtain ⟨b, hreply, rfl⟩ := Option.map_eq_some_iff.mp hs
    exact .reply hreply

/-! ### Counting handlers -/

/-- How many handlers are suspended on the `i`-th `SUBSCRIBE` of car `c`. -/
def waitingOn (hs : List (Handler Sock Car)) (c : Car) (i : ℕ) : ℕ :=
  hs.countP fun h => h.car = c ∧ h.pc = .subscribing i

/-- How many handlers stand for a viewer of car `c` outside its room. -/
def holders (hs : List (Handler Sock Car)) (c : Car) : ℕ :=
  hs.countP fun h => h.car = c ∧ h.pc.holding = true

/-- How many pending claims socket `s` has on car `c`. -/
def claims (hs : List (Handler Sock Car)) (s : Sock) (c : Car) : ℕ :=
  hs.countP fun h => h.sock = s ∧ h.car = c ∧ h.pc.claiming = true

theorem countP_eq_erase {α : Type*} [DecidableEq α] (p : α → Bool) {l : List α} {a : α}
    (ha : a ∈ l) : l.countP p = (l.erase a).countP p + if p a then 1 else 0 := by
  rw [(List.perm_cons_erase ha).countP_eq p, List.countP_cons]

section Counting

variable {hs : List (Handler Sock Car)} {h : Handler Sock Car}

theorem waitingOn_erase (hm : h ∈ hs) (c : Car) (i : ℕ) :
    waitingOn hs c i =
      waitingOn (hs.erase h) c i + if h.car = c ∧ h.pc = .subscribing i then 1 else 0 := by
  simpa only [waitingOn, decide_eq_true_eq] using
    countP_eq_erase (fun h => decide (h.car = c ∧ h.pc = .subscribing i)) hm

theorem holders_erase (hm : h ∈ hs) (c : Car) :
    holders hs c = holders (hs.erase h) c + if h.car = c ∧ h.pc.holding = true then 1 else 0 := by
  simpa only [holders, decide_eq_true_eq] using
    countP_eq_erase (fun h => decide (h.car = c ∧ h.pc.holding = true)) hm

theorem claims_erase (hm : h ∈ hs) (s : Sock) (c : Car) :
    claims hs s c = claims (hs.erase h) s c +
      if h.sock = s ∧ h.car = c ∧ h.pc.claiming = true then 1 else 0 := by
  simpa only [claims, decide_eq_true_eq] using
    countP_eq_erase (fun h => decide (h.sock = s ∧ h.car = c ∧ h.pc.claiming = true)) hm

omit [DecidableEq Sock] in
theorem waitingOn_cons (c : Car) (i : ℕ) :
    waitingOn (h :: hs) c i =
      waitingOn hs c i + if h.car = c ∧ h.pc = .subscribing i then 1 else 0 := by
  simp only [waitingOn, List.countP_cons, decide_eq_true_eq]

omit [DecidableEq Sock] in
theorem holders_cons (c : Car) :
    holders (h :: hs) c = holders hs c + if h.car = c ∧ h.pc.holding = true then 1 else 0 := by
  simp only [holders, List.countP_cons, decide_eq_true_eq]

theorem claims_cons (s : Sock) (c : Car) :
    claims (h :: hs) s c =
      claims hs s c + if h.sock = s ∧ h.car = c ∧ h.pc.claiming = true then 1 else 0 := by
  simp only [claims, List.countP_cons, decide_eq_true_eq]

end Counting

theorem claims_eq_zero {st : State Sock Car} {s : Sock} {c : Car} :
    claims st.handlers s c = 0 ↔ ¬ st.Claiming s c := by
  simp [claims, List.countP_eq_zero, State.Claiming]

/-! ### The invariant -/

/-- Held viewers of a car are its seats in the room plus the handlers on their way in or out. -/
structure Inv (st : State Sock Car) : Prop where
  bus : ∀ c, (st.bus c).Consistent (waitingOn st.handlers c)
    (holders st.handlers c + (st.room c).card)
  room : ∀ c s, s ∈ st.room c ↔ c ∈ st.cars s ∧ claims st.handlers s c = 0
  cars : ∀ s c, c ∈ st.cars s → s ∈ st.connected
  claim : ∀ s c, claims st.handlers s c ≤ 1 ∧ (0 < claims st.handlers s c → c ∈ st.cars s)

theorem inv_init : Inv (init : State Sock Car) where
  bus := fun _ => CarBus.consistent_init
  room := by simp [init]
  cars := by simp [init]
  claim := by simp [init, claims]

theorem inv_subscribe {st : State Sock Car} (hi : Inv st) {s : Sock} (hs : s ∈ st.connected)
    (carId : Option Car) : Inv (st.subscribe s carId) := by
  cases carId with
  | none => exact ⟨hi.bus, hi.room, hi.cars, hi.claim⟩
  | some c =>
    by_cases hc : c ∈ st.cars s
    · simpa only [State.subscribe, hc, if_true] using hi
    · -- a socket without the car has no claim on it either
      have hnone : claims st.handlers s c = 0 := by
        by_contra hne
        exact hc ((hi.claim s c).2 (by omega))
      simp only [State.subscribe, hc, if_false]
      refine ⟨fun d => ?_, fun d t => ?_, fun t d hd => ?_, fun t d => ?_⟩
      · simpa [funext (waitingOn_cons _), waitingOn_cons, holders_cons, Pc.holding, funext_iff]
          using hi.bus d
      · by_cases ht : t = s
        · subst ht
          by_cases hd : d = c
          · subst hd
            simp [claims_cons, Pc.claiming, hi.room, hc]
          · simp [claims_cons, hi.room, hd, Ne.symm hd]
        · simp [claims_cons, hi.room, ht, Ne.symm ht]
      · by_cases ht : t = s
        · exact ht ▸ hs
        · exact hi.cars t d (by simpa [ht] using hd)
      · by_cases hts : s = t ∧ c = d
        · obtain ⟨rfl, rfl⟩ := hts
          simp [claims_cons, Pc.claiming, hnone]
        · have hcl := hi.claim t d
          have heq : claims (⟨s, c, .authorizing⟩ :: st.handlers) t d = claims st.handlers t d := by
            rw [claims_cons, if_neg (fun h => hts ⟨h.1, h.2.1⟩), Nat.add_zero]
          rw [heq]
          refine ⟨hcl.1, fun hpos => ?_⟩
          by_cases ht : t = s
          · subst ht
            simpa using Or.inr (hcl.2 hpos)
          · simpa [ht] using hcl.2 hpos

theorem inv_unsubscribe {st : State Sock Car} (hi : Inv st) {s : Sock} {carId : Option Car}
    (hc : NoEarlyRelease st (.unsubscribe s carId)) : Inv (st.unsubscribe s carId) := by
  cases carId with
  | none => exact hi
  | some c =>
    by_cases hmem : c ∈ st.cars s
    · have hclaim : claims st.handlers s c = 0 := claims_eq_zero.mpr hc
      have hroom : s ∈ st.room c := (hi.room c s).mpr ⟨hmem, hclaim⟩
      have hcard := Finset.card_erase_add_one hroom
      have hkeep : ∀ t d, claims (⟨s, c, .leaving⟩ :: st.handlers) t d = claims st.handlers t d :=
        fun t d => by simp [claims_cons, Pc.claiming]
      simp only [State.unsubscribe, hmem, if_true]
      refine ⟨fun d => ?_, fun d t => ?_, fun t d hd => ?_, fun t d => ?_⟩
      · have hw : waitingOn (⟨s, c, .leaving⟩ :: st.handlers) d = waitingOn st.handlers d :=
          funext fun i => by simp [waitingOn_cons]
        have hsum : holders (⟨s, c, .leaving⟩ :: st.handlers) d +
            (Function.update st.room c ((st.room c).erase s) d).card =
              holders st.handlers d + (st.room d).card := by
          by_cases hd : d = c
          · subst hd
            simp only [holders_cons, Pc.holding, and_self, if_true, Function.update_self]
            omega
          · simp [holders_cons, hd, Ne.symm hd]
        show (st.bus d).Consistent _ _
        rw [hw, hsum]
        exact hi.bus d
      · rw [hkeep]
        by_cases hd : d = c <;> by_cases ht : t = s <;> simp [hd, ht, hi.room]
      · refine hi.cars t d ?_
        by_cases ht : t = s
        · subst ht
          exact Finset.mem_of_mem_erase (by simpa using hd)
        · simpa [ht] using hd
      · rw [hkeep]
        refine ⟨(hi.claim t d).1, fun hpos => ?_⟩
        have hd := (hi.claim t d).2 hpos
        by_cases ht : t = s
        · subst ht
          have hne : d ≠ c := by
            rintro rfl
            omega
          simp [hne, hd]
        · simpa [ht] using hd
    · simpa only [State.unsubscribe, hmem, if_false] using hi

theorem inv_disconnect {st : State Sock Car} (hi : Inv st) {s : Sock}
    (hc : NoEarlyRelease st (.disconnect s)) : Inv (st.disconnect s) := by
  have hclaim : ∀ c, claims st.handlers s c = 0 := fun c => claims_eq_zero.mpr (hc c)
  refine ⟨fun d => ?_, fun d t => ?_, fun t d hd => ?_, fun t d => ?_⟩
  · show (if d ∈ st.cars s then (st.bus d).removeViewer else st.bus d).Consistent
      (waitingOn st.handlers d) (holders st.handlers d + ((st.room d).erase s).card)
    by_cases hd : d ∈ st.cars s
    · have hroom : s ∈ st.room d := (hi.room d s).mpr ⟨hd, hclaim d⟩
      have hcard := Finset.card_erase_add_one hroom
      have hrem := (hi.bus d).removeViewer (by omega)
      rw [if_pos hd]
      rwa [show holders st.handlers d + ((st.room d).erase s).card =
        holders st.handlers d + (st.room d).card - 1 by omega]
    · have hroom : s ∉ st.room d := fun h => hd ((hi.room d s).mp h).1
      rw [if_neg hd, Finset.erase_eq_of_notMem hroom]
      exact hi.bus d
  · by_cases ht : t = s <;> simp [State.disconnect, ht, hi.room]
  · by_cases ht : t = s
    · simp [State.disconnect, ht] at hd
    · have hd' : d ∈ st.cars t := by simpa [State.disconnect, ht] using hd
      exact Finset.mem_erase.mpr ⟨ht, hi.cars t d hd'⟩
  · refine ⟨(hi.claim t d).1, fun hpos => ?_⟩
    have ht : t ≠ s := by
      rintro rfl
      exact absurd (hclaim d) (Nat.pos_iff_ne_zero.mp hpos)
    simpa [State.disconnect, ht] using (hi.claim t d).2 hpos

/-- A claim taken back in a `catch`: the handler was neither waiting on Redis nor counted. -/
theorem inv_refuse {st : State Sock Car} (hi : Inv st) {h : Handler Sock Car}
    (hm : h ∈ st.handlers) (hcl : h.pc.claiming = true) (hw : ∀ i, h.pc ≠ .subscribing i)
    (hh : h.pc.holding = false) (message : String) : Inv (st.refuse h message) := by
  have hone : claims (st.handlers.erase h) h.sock h.car = 0 := by
    have := claims_erase hm h.sock h.car
    rw [if_pos ⟨rfl, rfl, hcl⟩] at this
    have := (hi.claim h.sock h.car).1
    omega
  have hkeep : ∀ t d, ¬ (h.sock = t ∧ h.car = d) →
      claims (st.handlers.erase h) t d = claims st.handlers t d := by
    intro t d hne
    rw [claims_erase hm t d, if_neg (fun hx => hne ⟨hx.1, hx.2.1⟩), Nat.add_zero]
  refine ⟨fun d => ?_, fun d t => ?_, fun t d hd => ?_, fun t d => ?_⟩
  · have hwait : waitingOn (st.handlers.erase h) d = waitingOn st.handlers d :=
      funext fun i => by rw [waitingOn_erase hm, if_neg (fun hx => hw i hx.2), Nat.add_zero]
    have hhold : holders (st.handlers.erase h) d = holders st.handlers d := by
      rw [holders_erase hm, if_neg (by simp [hh]), Nat.add_zero]
    show (st.bus d).Consistent (waitingOn (st.handlers.erase h) d)
      (holders (st.handlers.erase h) d + (st.room d).card)
    rw [hwait, hhold]
    exact hi.bus d
  · show t ∈ st.room d ↔ d ∈ Function.update st.cars h.sock ((st.cars h.sock).erase h.car) t ∧
      claims (st.handlers.erase h) t d = 0
    by_cases htd : h.sock = t ∧ h.car = d
    · obtain ⟨rfl, rfl⟩ := htd
      have hpos : claims st.handlers h.sock h.car ≠ 0 := by
        rw [claims_erase hm, if_pos ⟨rfl, rfl, hcl⟩]
        omega
      simp [hi.room, hpos]
    · rw [hkeep t d htd, hi.room]
      by_cases ht : t = h.sock
      · subst ht
        have hne : d ≠ h.car := fun hd => htd ⟨rfl, hd.symm⟩
        simp [hne]
      · simp [ht]
  · refine hi.cars t d ?_
    by_cases ht : t = h.sock
    · subst ht
      exact Finset.mem_of_mem_erase (by simpa [State.refuse] using hd)
    · simpa [State.refuse, ht] using hd
  · show claims (st.handlers.erase h) t d ≤ 1 ∧ (0 < claims (st.handlers.erase h) t d →
      d ∈ Function.update st.cars h.sock ((st.cars h.sock).erase h.car) t)
    by_cases htd : h.sock = t ∧ h.car = d
    · obtain ⟨rfl, rfl⟩ := htd
      simp [hone]
    · rw [hkeep t d htd]
      refine ⟨(hi.claim t d).1, fun hpos => ?_⟩
      have hd := (hi.claim t d).2 hpos
      by_cases ht : t = h.sock
      · subst ht
        have hne : d ≠ h.car := fun hd => htd ⟨rfl, hd.symm⟩
        simp [hne, hd]
      · simpa [ht] using hd

theorem claims_advance {hs : List (Handler Sock Car)} {h : Handler Sock Car} (hm : h ∈ hs)
    {pc : Pc} (hcl : pc.claiming = h.pc.claiming) (s : Sock) (c : Car) :
    claims ({ h with pc } :: hs.erase h) s c = claims hs s c := by
  rw [claims_cons, claims_erase hm, hcl]

/-- Away from the car of the handler that moves, no count changes. -/
theorem bus_advance_of_ne {st : State Sock Car} (hi : Inv st) {h : Handler Sock Car}
    (hm : h ∈ st.handlers) (pc : Pc) {d : Car} (hd : d ≠ h.car) :
    (st.bus d).Consistent (waitingOn ({ h with pc } :: st.handlers.erase h) d)
      (holders ({ h with pc } :: st.handlers.erase h) d + (st.room d).card) := by
  have hw : waitingOn ({ h with pc } :: st.handlers.erase h) d = waitingOn st.handlers d :=
    funext fun i => by simp [waitingOn_cons, waitingOn_erase hm d i, Ne.symm hd]
  have hh : holders ({ h with pc } :: st.handlers.erase h) d = holders st.handlers d := by
    simp [holders_cons, holders_erase hm d, Ne.symm hd]
  rw [hw, hh]
  exact hi.bus d

/-- A handler that moves on without settling its claim: only its own car's entry is in question. -/
theorem inv_advance {st : State Sock Car} (hi : Inv st) {h : Handler Sock Car}
    (hm : h ∈ st.handlers) {pc : Pc} {b : CarBus} (hcl : pc.claiming = h.pc.claiming)
    (hb : b.Consistent (waitingOn ({ h with pc } :: st.handlers.erase h) h.car)
      (holders ({ h with pc } :: st.handlers.erase h) h.car + (st.room h.car).card)) :
    Inv (st.advance h pc b) := by
  refine ⟨fun d => ?_, fun d t => ?_, hi.cars, fun t d => ?_⟩
  · show (Function.update st.bus h.car b d).Consistent _ _
    by_cases hd : d = h.car
    · subst hd
      rw [Function.update_self]
      exact hb
    · rw [Function.update_of_ne hd]
      exact bus_advance_of_ne hi hm pc hd
  · show t ∈ st.room d ↔ _ ∧ claims ({ h with pc } :: st.handlers.erase h) t d = 0
    rw [claims_advance hm hcl]
    exact hi.room d t
  · show claims ({ h with pc } :: st.handlers.erase h) t d ≤ 1 ∧ (0 < claims ({ h with pc } ::
      st.handlers.erase h) t d → _)
    rw [claims_advance hm hcl]
    exact hi.claim t d

/-- `addViewer` resolved and the socket joins: a handler's slot becomes a seat in the room. -/
theorem inv_join {st : State Sock Car} (hi : Inv st) {h : Handler Sock Car}
    (hm : h ∈ st.handlers) (hpc : h.pc = .added) :
    Inv { st.advance h .seeding (st.bus h.car) with
      room := Function.update st.room h.car (insert h.sock (st.room h.car)) } := by
  have hcl : h.pc.claiming = true := by simp [hpc, Pc.claiming]
  have hone := claims_erase hm h.sock h.car
  rw [if_pos ⟨rfl, rfl, hcl⟩] at hone
  have hle := (hi.claim h.sock h.car).1
  have hcar := (hi.claim h.sock h.car).2 (by omega)
  have hroom : h.sock ∉ st.room h.car := fun hr => by
    have := ((hi.room _ _).mp hr).2
    omega
  have hnew : ∀ t d, claims ({ h with pc := .seeding } :: st.handlers.erase h) t d =
      claims (st.handlers.erase h) t d := fun t d => by simp [claims_cons, Pc.claiming]
  have hkeep : ∀ t d, ¬ (h.sock = t ∧ h.car = d) →
      claims (st.handlers.erase h) t d = claims st.handlers t d := by
    intro t d hne
    rw [claims_erase hm t d, if_neg (fun hx => hne ⟨hx.1, hx.2.1⟩), Nat.add_zero]
  refine ⟨fun d => ?_, fun d t => ?_, hi.cars, fun t d => ?_⟩
  · show (Function.update st.bus h.car (st.bus h.car) d).Consistent _
      (holders _ d + (Function.update st.room h.car (insert h.sock (st.room h.car)) d).card)
    rw [Function.update_eq_self]
    by_cases hd : d = h.car
    · subst hd
      have hw : waitingOn ({ h with pc := .seeding } :: st.handlers.erase h) h.car =
          waitingOn st.handlers h.car :=
        funext fun i => by simp [waitingOn_cons, waitingOn_erase hm h.car i, hpc]
      have hh := holders_erase hm h.car
      rw [if_pos ⟨rfl, by simp [hpc, Pc.holding]⟩] at hh
      have hsum : holders ({ h with pc := .seeding } :: st.handlers.erase h) h.car +
          (insert h.sock (st.room h.car)).card =
            holders st.handlers h.car + (st.room h.car).card := by
        rw [Finset.card_insert_of_notMem hroom, holders_cons, if_neg (by simp [Pc.holding])]
        omega
      show (st.bus h.car).Consistent
        (waitingOn ({ h with pc := .seeding } :: st.handlers.erase h) h.car) _
      rw [hw, Function.update_self]
      exact hsum ▸ hi.bus h.car
    · rw [Function.update_of_ne hd]
      exact bus_advance_of_ne hi hm .seeding hd
  · show t ∈ Function.update st.room h.car (insert h.sock (st.room h.car)) d ↔
      d ∈ st.cars t ∧ claims ({ h with pc := .seeding } :: st.handlers.erase h) t d = 0
    rw [hnew]
    by_cases htd : h.sock = t ∧ h.car = d
    · obtain ⟨rfl, rfl⟩ := htd
      simp only [Function.update_self, Finset.mem_insert_self, hcar, true_and, true_iff]
      omega
    · rw [hkeep t d htd, ← hi.room]
      by_cases hd : d = h.car
      · subst hd
        have hne : t ≠ h.sock := fun ht => htd ⟨ht.symm, rfl⟩
        simp [hne]
      · simp [hd]
  · show claims ({ h with pc := .seeding } :: st.handlers.erase h) t d ≤ 1 ∧ (0 < claims
      ({ h with pc := .seeding } :: st.handlers.erase h) t d → d ∈ st.cars t)
    rw [hnew]
    have := hi.claim t d
    have hmono : claims (st.handlers.erase h) t d ≤ claims st.handlers t d := by
      rw [claims_erase hm t d]
      omega
    exact ⟨by omega, fun hpos => this.2 (by omega)⟩

/-- A handler with nothing left to do ends. -/
theorem inv_finish {st : State Sock Car} (hi : Inv st) {h : Handler Sock Car}
    (hm : h ∈ st.handlers) (hcl : h.pc.claiming = false) (hw : ∀ i, h.pc ≠ .subscribing i)
    (hh : h.pc.holding = false) : Inv { st with handlers := st.handlers.erase h } := by
  have hclaims : ∀ t d, claims (st.handlers.erase h) t d = claims st.handlers t d := fun t d => by
    rw [claims_erase hm t d, if_neg (by simp [hcl]), Nat.add_zero]
  have hwait : ∀ d, waitingOn (st.handlers.erase h) d = waitingOn st.handlers d := fun d =>
    funext fun i => by rw [waitingOn_erase hm, if_neg (fun hx => hw i hx.2), Nat.add_zero]
  have hhold : ∀ d, holders (st.handlers.erase h) d = holders st.handlers d := fun d => by
    rw [holders_erase hm, if_neg (by simp [hh]), Nat.add_zero]
  exact ⟨by simpa only [hwait, hhold] using hi.bus, by simpa only [hclaims] using hi.room, hi.cars,
    by simpa only [hclaims] using hi.claim⟩

/-- What a handler suspended on promise `i` leaves behind when it moves on to a counted or an
uncounted program counter. -/
theorem waitingOn_resume {hs : List (Handler Sock Car)} {h : Handler Sock Car} (hm : h ∈ hs)
    {i : ℕ} (hpc : h.pc = .subscribing i) (pc : Pc) (hne : ∀ j, pc ≠ .subscribing j) :
    0 < waitingOn hs h.car i ∧ waitingOn ({ h with pc } :: hs.erase h) h.car =
      Function.update (waitingOn hs h.car) i (waitingOn hs h.car i - 1) := by
  have hi := waitingOn_erase hm h.car i
  rw [if_pos ⟨rfl, hpc⟩] at hi
  refine ⟨by omega, funext fun j => ?_⟩
  rw [waitingOn_cons, if_neg (fun hx => hne j hx.2)]
  by_cases hj : j = i
  · subst hj
    rw [Function.update_self]
    omega
  · have hj' := waitingOn_erase hm h.car j
    rw [if_neg (by rintro ⟨-, hx⟩; rw [hpc] at hx; exact hj (Pc.subscribing.inj hx).symm)] at hj'
    rw [Function.update_of_ne hj]
    omega

theorem inv_resume {st st' : State Sock Car} (hi : Inv st) {h : Handler Sock Car}
    (hm : h ∈ st.handlers) {ok : Bool} (hs : st.resume h ok = some st') : Inv st' := by
  have hhold := holders_erase hm h.car
  unfold State.resume at hs
  cases hpc : h.pc with
  | authorizing =>
    simp only [hpc] at hs
    cases ok with
    | false =>
      simp only [Bool.false_eq_true, if_false, Option.some.injEq] at hs
      subst hs
      exact inv_refuse hi hm (by simp [hpc, Pc.claiming]) (by simp [hpc]) (by simp [hpc, Pc.holding]) _
    | true =>
      simp only [if_true, Option.some.injEq] at hs
      subst hs
      refine inv_advance hi hm (by simp [hpc, Pc.claiming]) ?_
      -- the handler joins the waiters of the promise `addViewer` gave it
      have hw : waitingOn ({ h with pc := .subscribing (st.bus h.car).addViewer.2 } ::
          st.handlers.erase h) h.car = Function.update (waitingOn st.handlers h.car)
            (st.bus h.car).addViewer.2
            (waitingOn st.handlers h.car (st.bus h.car).addViewer.2 + 1) := by
        funext j
        have hj := waitingOn_erase hm h.car j
        rw [if_neg (by simp [hpc]), Nat.add_zero] at hj
        rw [waitingOn_cons, ← hj]
        by_cases hje : j = (st.bus h.car).addViewer.2
        · subst hje
          simp
        · simp [hje, Ne.symm hje]
      rw [if_neg (by simp [hpc, Pc.holding]), Nat.add_zero] at hhold
      rw [hw, holders_cons, if_neg (by simp [Pc.holding]), Nat.add_zero, ← hhold]
      exact (hi.bus h.car).addViewer
  | subscribing i =>
    simp only [hpc] at hs
    rw [if_neg (by simp [hpc, Pc.holding]), Nat.add_zero] at hhold
    cases hp : (st.bus h.car).promise i with
    | pending => simp [hp] at hs
    | fulfilled =>
      simp only [hp, Option.some.injEq] at hs
      subst hs
      obtain ⟨hpos, hw⟩ := waitingOn_resume hm hpc .added (by simp)
      refine inv_advance hi hm (by simp [hpc, Pc.claiming]) ?_
      rw [hw, holders_cons, if_pos ⟨rfl, rfl⟩, ← hhold, Nat.add_right_comm]
      exact (hi.bus h.car).letIn hpos hp
    | rejected =>
      simp only [hp, Option.some.injEq] at hs
      subst hs
      obtain ⟨hpos, hw⟩ := waitingOn_resume hm hpc .addFailed (by simp)
      refine inv_advance hi hm (by simp [hpc, Pc.claiming]) ?_
      rw [hw, holders_cons, if_neg (by simp [Pc.holding]), Nat.add_zero, ← hhold]
      exact (hi.bus h.car).dropFailed hpos hp
  | added =>
    -- a claim that stands belongs to a connected socket
    have hclaim : 0 < claims st.handlers h.sock h.car := by
      rw [claims_erase hm, if_pos ⟨rfl, rfl, by simp [hpc, Pc.claiming]⟩]
      omega
    have hcon := hi.cars _ _ ((hi.claim h.sock h.car).2 hclaim)
    simp only [hpc, hcon, if_true, Option.some.injEq] at hs
    subst hs
    exact inv_join hi hm hpc
  | addFailed =>
    simp only [hpc, Option.some.injEq] at hs
    subst hs
    exact inv_refuse hi hm (by simp [hpc, Pc.claiming]) (by simp [hpc]) (by simp [hpc, Pc.holding]) _
  | leaving =>
    simp only [hpc, Option.some.injEq] at hs
    subst hs
    refine inv_advance hi hm (by simp [hpc, Pc.claiming]) ?_
    have hw : waitingOn ({ h with pc := .removing } :: st.handlers.erase h) h.car =
        waitingOn st.handlers h.car :=
      funext fun i => by simp [waitingOn_cons, waitingOn_erase hm h.car i, hpc]
    rw [if_pos ⟨rfl, by simp [hpc, Pc.holding]⟩] at hhold
    rw [hw, holders_cons, if_neg (by simp [Pc.holding]), Nat.add_zero]
    rw [show holders (st.handlers.erase h) h.car + (st.room h.car).card =
      holders st.handlers h.car + (st.room h.car).card - 1 by omega]
    exact (hi.bus h.car).removeViewer (by omega)
  | seeding =>
    simp only [hpc, Option.some.injEq] at hs
    subst hs
    exact inv_finish hi hm (by simp [hpc, Pc.claiming]) (by simp [hpc]) (by simp [hpc, Pc.holding])
  | removing =>
    simp only [hpc, Option.some.injEq] at hs
    subst hs
    exact inv_finish hi hm (by simp [hpc, Pc.claiming]) (by simp [hpc]) (by simp [hpc, Pc.holding])

/-- **Every step that releases no pending claim keeps the books.** -/
theorem inv_step {st st' : State Sock Car} {e : Event Sock Car} (hi : Inv st)
    (hc : NoEarlyRelease st e) (hs : step st e = some st') : Inv st' := by
  cases step_cases hs with
  | connect =>
    exact ⟨hi.bus, hi.room, fun t d hd => Finset.mem_insert_of_mem (hi.cars t d hd), hi.claim⟩
  | disconnect => exact inv_disconnect hi hc
  | subscribe carId hcon => exact inv_subscribe hi hcon carId
  | unsubscribe => exact inv_unsubscribe hi hc
  | resume hmem hresume => exact inv_resume hi hmem hresume
  | @reply c ok b hreply =>
    refine ⟨fun d => ?_, hi.room, hi.cars, hi.claim⟩
    show (Function.update st.bus c b d).Consistent _ _
    by_cases hd : d = c
    · subst hd
      rw [Function.update_self]
      exact (hi.bus d).reply hreply
    · rw [Function.update_of_ne hd]
      exact hi.bus d

theorem inv_run {es : List (Event Sock Car)} {st : State Sock Car}
    (hc : Meets step NoEarlyRelease init es) (hr : run step init es = some st) : Inv st :=
  run_invariant step (fun _ _ _ hi hc hs => inv_step hi hc hs) es init st inv_init hc hr

/-- **With no handler in flight the books agree.** -/
theorem accounted_of_inv {st : State Sock Car} (hi : Inv st) (hq : st.handlers = []) (c : Car) :
    st.Accounted c := by
  have hroom : st.room c = st.viewers c := by
    ext s
    rw [hi.room, State.viewers, Finset.mem_filter, hq]
    exact ⟨fun h => ⟨hi.cars s c h.1, h.1⟩, fun h => ⟨h.2, rfl⟩⟩
  have hb := hi.bus c
  rw [hq, hroom] at hb
  simp only [holders, List.countP_nil, Nat.zero_add] at hb
  unfold State.Accounted CarBus.refcount
  cases he : (st.bus c).entry with
  | none => exact ⟨by simpa using (hb.absent he).symm, hroom, fun hp => by have := hb.absent he; omega⟩
  | some e =>
    obtain ⟨hcount, hpos, _⟩ := hb.counted e he
    have hw : waitingOn ([] : List (Handler Sock Car)) c e.subscribing = 0 := rfl
    refine ⟨by simp [hcount, hw], hroom, fun _ => (hb.resolved e he ?_).2⟩
    by_contra hne
    have := hb.unresolved e he hne
    omega

/-! ### A socket that is never authorized -/

/-- What a refused socket can have: nothing but pending authorizations. -/
def Refused (st : State Sock Car) (s : Sock) (c : Car) : Prop :=
  (∀ h ∈ st.handlers, h.sock = s → h.car = c → h.pc = .authorizing) ∧ s ∉ st.room c

/-- What a handler that goes on leaves alone: the other handlers, and everything but the seat of its
socket in its car. -/
theorem resume_frame {st st' : State Sock Car} {h : Handler Sock Car} {ok : Bool}
    (hs : st.resume h ok = some st') :
    (∀ k ∈ st'.handlers, k ∈ st.handlers.erase h ∨ (k.sock = h.sock ∧ k.car = h.car)) ∧
      (∀ c, h.car ≠ c → st'.bus c = st.bus c) ∧
      ∀ c s, ¬ (h.sock = s ∧ h.car = c) → s ∈ st'.room c → s ∈ st.room c := by
  have hadv : ∀ pc, ∀ k ∈ ({ h with pc } : Handler Sock Car) :: st.handlers.erase h,
      k ∈ st.handlers.erase h ∨ (k.sock = h.sock ∧ k.car = h.car) := by
    intro pc k hk
    rcases List.mem_cons.mp hk with rfl | hk
    · exact .inr ⟨rfl, rfl⟩
    · exact .inl hk
  have hbus : ∀ b c, h.car ≠ c → Function.update st.bus h.car b c = st.bus c :=
    fun b c hne => Function.update_of_ne (Ne.symm hne) b st.bus
  have hgone : ∀ k ∈ st.handlers.erase h,
      k ∈ st.handlers.erase h ∨ (k.sock = h.sock ∧ k.car = h.car) := fun k hk => .inl hk
  have hroom : ∀ c s, ¬ (h.sock = s ∧ h.car = c) → s ∈ st.room c → s ∈ st.room c :=
    fun _ _ _ hx => hx
  unfold State.resume at hs
  split at hs
  · split at hs <;> cases hs
    · exact ⟨hadv _, hbus _, hroom⟩
    · exact ⟨hgone, fun _ _ => rfl, hroom⟩
  · split at hs <;> cases hs
    · exact ⟨hadv _, hbus _, hroom⟩
    · exact ⟨hadv _, hbus _, hroom⟩
  · cases hs
    refine ⟨hadv _, hbus _, ?_⟩
    -- the socket joins the room, if it is there to join it
    intro c s hne hx
    simp only at hx
    split at hx
    · by_cases hc : c = h.car
      · subst hc
        rw [Function.update_self] at hx
        rcases Finset.mem_insert.mp hx with hsock | hx
        · exact absurd ⟨hsock.symm, rfl⟩ hne
        · exact hx
      · rwa [Function.update_of_ne hc] at hx
    · exact hx
  all_goals cases hs
  · exact ⟨hgone, fun _ _ => rfl, hroom⟩
  · exact ⟨hadv _, hbus _, hroom⟩
  · exact ⟨hgone, fun _ _ => rfl, hroom⟩
  · exact ⟨hgone, fun _ _ => rfl, hroom⟩

theorem refused_step {st st' : State Sock Car} {e : Event Sock Car} {s : Sock} {c : Car}
    (hr : Refused st s c) (he : e ≠ .resume ⟨s, c, .authorizing⟩ true) (hi : Inv st)
    (hc : NoEarlyRelease st e) (hs : step st e = some st') : Refused st' s c := by
  have herase : ∀ h, ∀ k ∈ st.handlers.erase h, k.sock = s → k.car = c → k.pc = .authorizing :=
    fun h k hk => hr.1 k (List.mem_of_mem_erase hk)
  cases step_cases hs with
  | connect => exact hr
  | disconnect => exact ⟨hr.1, fun hx => hr.2 (Finset.mem_of_mem_erase hx)⟩
  | @subscribe t carId hcon =>
    cases carId with
    | none => exact hr
    | some d =>
      by_cases hd : d ∈ st.cars t
      · simpa only [State.subscribe, hd, if_true] using hr
      · simp only [State.subscribe, hd, if_false]
        refine ⟨fun k hk => ?_, hr.2⟩
        obtain rfl | hk := List.mem_cons.mp hk
        · exact fun _ _ => rfl
        · exact hr.1 k hk
  | @unsubscribe t carId hcon =>
    cases carId with
    | none => exact hr
    | some d =>
      by_cases hd : d ∈ st.cars t
      · have hseat : t ∈ st.room d := (hi.room d t).mpr ⟨hd, claims_eq_zero.mpr hc⟩
        simp only [State.unsubscribe, hd, if_true]
        refine ⟨fun k hk => ?_, fun hx => hr.2 ?_⟩
        · obtain rfl | hk := List.mem_cons.mp hk
          · -- only a socket in the room leaves it
            rintro rfl rfl
            exact absurd hseat hr.2
          · exact hr.1 k hk
        · by_cases hcd : c = d
          · subst hcd
            exact Finset.mem_of_mem_erase (by simpa using hx)
          · simpa [hcd] using hx
      · simpa only [State.unsubscribe, hd, if_false] using hr
  | @resume h ok st' hm hs =>
    by_cases hsc : h.sock = s ∧ h.car = c
    · obtain ⟨rfl, rfl⟩ := hsc
      have hpc := hr.1 h hm rfl rfl
      cases ok with
      | true =>
        refine absurd ?_ he
        rw [← hpc]
      | false =>
        simp only [State.resume, hpc, Bool.false_eq_true, if_false, Option.some.injEq] at hs
        subst hs
        exact ⟨herase h, hr.2⟩
    · -- somebody else's handler, or this socket's for another car
      obtain ⟨hhandlers, -, hroom⟩ := resume_frame hs
      refine ⟨fun k hk hks hkc => ?_, fun hx => hr.2 (hroom c s hsc hx)⟩
      rcases hhandlers k hk with hk | ⟨hsock, hcar⟩
      · exact herase h k hk hks hkc
      · exact absurd ⟨hsock ▸ hks, hcar ▸ hkc⟩ hsc
  | reply => exact hr

omit [DecidableEq Sock] [DecidableEq Car] in
theorem keeps_of_bus_eq {st st' : State Sock Car} {c : Car} (h : st'.bus c = st.bus c) :
    Keeps st st' c := by
  rw [Keeps, h]
  exact ⟨Nat.le_refl _, Nat.le_refl _⟩

omit [DecidableEq Sock] [DecidableEq Car] in
theorem keeps_addViewer {st st' : State Sock Car} {c : Car}
    (h : st'.bus c = (st.bus c).addViewer.1) : Keeps st st' c := by
  rw [Keeps, h]
  cases he : (st.bus c).entry <;>
    simp [CarBus.addViewer, CarBus.refcount, he, List.count_append]

/-- **A refused socket takes nothing from the car.** -/
theorem refused_keeps {st st' : State Sock Car} {e : Event Sock Car} {s : Sock} {c : Car}
    (hr : Refused st s c) (hi : Inv st) (hc : NoEarlyRelease st e) (hsock : e.sock = some s)
    (hs : step st e = some st') : Keeps st st' c := by
  cases step_cases hs with
  | connect => exact keeps_of_bus_eq rfl
  | @disconnect t hcon =>
    obtain rfl : t = s := Option.some.inj hsock
    -- with no claim pending and no seat in the room, the car is not in `data.cars`
    have hcar : c ∉ st.cars t := fun h =>
      hr.2 ((hi.room c t).mpr ⟨h, claims_eq_zero.mpr (hc c)⟩)
    exact keeps_of_bus_eq (if_neg hcar)
  | @subscribe t carId hcon =>
    refine keeps_of_bus_eq ?_
    cases carId with
    | none => rfl
    | some d => by_cases hd : d ∈ st.cars t <;> simp [State.subscribe, hd]
  | @unsubscribe t carId hcon =>
    refine keeps_of_bus_eq ?_
    cases carId with
    | none => rfl
    | some d => by_cases hd : d ∈ st.cars t <;> simp [State.unsubscribe, hd]
  | @resume h ok st' hm hs =>
    obtain rfl : h.sock = s := Option.some.inj hsock
    by_cases hcar : h.car = c
    · have hpc := hr.1 h hm rfl hcar
      cases ok with
      | true =>
        simp only [State.resume, hpc, if_true, Option.some.injEq] at hs
        subst hs hcar
        exact keeps_addViewer (Function.update_self ..)
      | false =>
        simp only [State.resume, hpc, Bool.false_eq_true, if_false, Option.some.injEq] at hs
        subst hs
        exact keeps_of_bus_eq rfl
    · exact keeps_of_bus_eq ((resume_frame hs).2.1 c hcar)
  | reply => cases hsock

theorem refused_run {s : Sock} {c : Car} : ∀ (es : List (Event Sock Car)) (st : State Sock Car),
    Meets step NoEarlyRelease init es → Unauthorized es s c → run step init es = some st →
      Refused st s c := by
  intro es
  induction es using List.reverseRecOn with
  | nil =>
    intro st _ _ hr
    cases hr
    exact ⟨by simp [init], by simp [init]⟩
  | append_singleton es e ih =>
    intro st hc hu hr
    obtain ⟨mid, hmid, hstep⟩ := (run_snoc_eq_some step).mp hr
    obtain ⟨hces, hce⟩ := (meets_snoc step hmid).mp hc
    have hu' : Unauthorized es s c := fun h => hu (List.mem_append_left _ h)
    have hne : e ≠ .resume ⟨s, c, .authorizing⟩ true := by
      rintro rfl
      exact hu (by simp)
    exact refused_step (ih mid hces hu' hmid) hne (inv_run hces hmid) hce hstep

/-- **The books agree in every run without an early release.**  The condition is on the state a
message or a disconnect arrives in: the socket has no `subscribe` of its own for that car between
the claim and the room. -/
theorem viewer_accounting (es : List (Event Sock Car)) (hc : Meets step NoEarlyRelease init es) :
    ViewerAccounting es := by
  refine ⟨fun st hr hq c => accounted_of_inv (inv_run hc hr) hq c, ?_⟩
  intro pre e post st st' s c hes hpre hstep hsock hu
  subst hes
  have hsplit : pre ++ e :: post = (pre ++ [e]) ++ post := by simp
  rw [hsplit] at hc
  obtain ⟨hcpre, hce⟩ := (meets_snoc step hpre).mp (meets_append_left step hc)
  have hupre : Unauthorized pre s c := fun h => hu (List.mem_append_left _ h)
  exact refused_keeps (refused_run pre st hcpre hupre hpre) (inv_run hcpre hpre) hce hsock hstep

/-- A run without an early release: socket 0 watches car 7, unsubscribes and disconnects, each after
its `subscribe` has settled. -/
def watchAndLeave : List (Event ℕ ℕ) :=
  [.connect 0, .subscribe 0 (some 7), .resume ⟨0, 7, .authorizing⟩ true, .reply 7 true,
    .resume ⟨0, 7, .subscribing 0⟩ true, .resume ⟨0, 7, .added⟩ true, .unsubscribe 0 (some 7),
    .resume ⟨0, 7, .seeding⟩ true, .resume ⟨0, 7, .leaving⟩ true,
    .resume ⟨0, 7, .removing⟩ true, .disconnect 0]

theorem viewer_accounting_watchAndLeave :
    (run step init watchAndLeave).isSome = true ∧ ViewerAccounting watchAndLeave := by
  refine ⟨by decide, viewer_accounting _ ?_⟩
  simp [watchAndLeave, Meets, step, State.subscribe, State.unsubscribe, State.disconnect,
    State.resume, State.advance, NoEarlyRelease, State.Claiming, init, CarBus.init,
    CarBus.addViewer, CarBus.reply, Pc.claiming]

/-- The run of the defect: socket 1 watches car 7; socket 2 subscribes and unsubscribes while its
authorization is pending, and is then refused. -/
def earlyRelease : List (Event ℕ ℕ) :=
  [.connect 1, .connect 2, .subscribe 1 (some 7), .resume ⟨1, 7, .authorizing⟩ true, .reply 7 true,
    .resume ⟨1, 7, .subscribing 0⟩ true, .resume ⟨1, 7, .added⟩ true,
    .resume ⟨1, 7, .seeding⟩ true, .subscribe 2 (some 7), .unsubscribe 2 (some 7),
    .resume ⟨2, 7, .leaving⟩ true, .resume ⟨2, 7, .removing⟩ true,
    .resume ⟨2, 7, .authorizing⟩ false]

/-- **A refused socket takes another's viewer.**  Socket 1 is left in the room of car 7 with the
refcount at 0. -/
theorem unauthorized_release : ¬ ∀ es : List (Event ℕ ℕ), ViewerAccounting es := by
  intro h
  have hrun : (run step init earlyRelease).isSome = true := by decide
  obtain ⟨st, hst⟩ := Option.isSome_iff_exists.mp hrun
  have hbooks : (run step init earlyRelease).map
      (fun st => (st.handlers, (st.bus 7).refcount, (st.viewers 7).card)) = some ([], 0, 1) := by
    decide
  rw [hst, Option.map_some, Option.some.injEq, Prod.mk.injEq, Prod.mk.injEq] at hbooks
  obtain ⟨hq, hcount, hcard⟩ := hbooks
  have := ((h earlyRelease).1 st hst hq 7).1
  omega

end TelemetryCloud.LiveGateway
