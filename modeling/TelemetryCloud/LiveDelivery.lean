import TelemetryCloud.LiveChannels
import TelemetryCloud.LiveGateway

/-!
# What a viewer is sent

The gateway with the bodies that come over the bus: a message on a channel goes to everyone in the
room of the channel's car, and a socket that has joined is sent the last known value of its car, if
that is recent.  The channels, the bodies and the cached values are whatever Redis hands over.

* `sent`, `received` : what one event and a run send a socket;
* `Admitted`, `admitted_step` : a seat in a room and a handler past the authorization go back to a
  `requireReadableCar` that let the socket in;
* `sent_authorized` : **a socket is sent nothing of a car it was not let in to**, in any run;
* `viewers_served` : **a viewer is sent every message of its car, once and in order**, in the runs of
  `NoEarlyRelease`, and no other socket is.
-/

namespace TelemetryCloud.LiveDelivery

open TelemetryCloud.Runs TelemetryCloud.LiveChannels
open TelemetryCloud.LiveGateway (State Handler Pc NoEarlyRelease)

def LIVE_FRAME_SCHEMA_VERSION : ℤ := 1
def LKV_MAX_SEED_AGE_MS : ℤ := 15000

/-- The bodies of the live bus: what `JSON.parse` makes of a text, and two of its fields. -/
structure Bodies (P : Type) where
  parseJson : String → Option P
  v : P → ℤ
  pt : P → Option ℤ

section Code

variable {P : Type} (B : Bodies P)

def parseLiveMessage (raw : String) : Option P :=
  (B.parseJson raw).filter fun payload => B.v payload = LIVE_FRAME_SCHEMA_VERSION

/-- `Date.now() - frame.pt > LKV_MAX_SEED_AGE_MS`, which a missing `pt` never is. -/
def isStale (now : ℤ) (frame : P) : Bool :=
  (B.pt frame).any fun pt => LKV_MAX_SEED_AGE_MS < now - pt

/-- `seed`: the frame that the cached value is sent as. -/
def seed (cached : Option String) (now : ℤ) : Option P :=
  match cached with
  | none => none
  | some raw =>
    if raw = "" then none else (parseLiveMessage B raw).filter fun frame => !isStale B now frame

end Code

/-- Redis hands the bus a message, or answers the `GET` of a seed; all else is the gateway's. -/
inductive Event (Sock : Type)
  | handle (e : LiveGateway.Event Sock String)
  | message (channel raw : String)
  | seed (h : Handler Sock String) (cached : Option String) (now : ℤ)

section Delivery

variable {P Sock : Type} [DecidableEq Sock] (B : Bodies P)

def step (st : State Sock String) : Event Sock → Option (State Sock String)
  | .handle e => LiveGateway.step st e
  | .message _ _ => some st
  | .seed h _ _ => if h.pc = .seeding then LiveGateway.step st (.resume h true) else none

/-- What an event sends a socket, each with the car it is sent for. -/
def sent (st : State Sock String) (s : Sock) : Event Sock → List (LiveTelemetryBusMessage P)
  | .handle _ => []
  | .message channel raw =>
    (dispatch (parseLiveMessage B) true channel raw).toList.filter fun m => s ∈ st.room m.carId
  | .seed h cached now =>
    if h.sock = s ∧ s ∈ st.connected then (seed B cached now).toList.map (⟨h.car, .frame, ·⟩) else []

/-- What a socket has been sent in a run, in order. -/
def received (s : Sock) (st : State Sock String) (es : List (Event Sock)) :
    List (LiveTelemetryBusMessage P) :=
  history step (fun st e got => got ++ sent B st s e) st [] es

/-! ### Who was let in -/

/-- In the run, a `requireReadableCar` let the socket in to the car. -/
def LetIn (es : List (Event Sock)) (s : Sock) (carId : String) : Prop :=
  .handle (.resume ⟨s, carId, .authorizing⟩ true) ∈ es

/-- `subscribe`, past the authorization. -/
def pastAuthorization : Pc → Bool
  | .subscribing _ | .added | .addFailed | .seeding => true
  | .authorizing | .leaving | .removing => false

/-- What a state says of those who were let in. -/
structure Admitted (es : List (Event Sock)) (st : State Sock String) : Prop where
  room : ∀ carId, ∀ s ∈ st.room carId, LetIn es s carId ∧ s ∈ st.connected
  handlers : ∀ h ∈ st.handlers, pastAuthorization h.pc = true → LetIn es h.sock h.car

variable {B} {st st' : State Sock String} {es : List (Event Sock)} {s : Sock}

omit [DecidableEq Sock] in
theorem LetIn.mono {e : Event Sock} {carId : String} (h : LetIn es s carId) :
    LetIn (es ++ [e]) s carId := List.mem_append_left _ h

/-- The handlers and the seats after a handler has gone on: past the authorization is only who was
already, or has just been let in, and a seat is taken only from there. -/
theorem resume_seats {h : Handler Sock String} {ok : Bool} (hs : st.resume h ok = some st') :
    (∀ k ∈ st'.handlers, pastAuthorization k.pc = true → k ∈ st.handlers ∨
      (k.sock = h.sock ∧ k.car = h.car ∧
        (pastAuthorization h.pc = true ∨ h.pc = .authorizing ∧ ok = true))) ∧
    (∀ carId, ∀ s ∈ st'.room carId, s ∈ st.room carId ∨
      (s = h.sock ∧ carId = h.car ∧ h.pc = .added ∧ s ∈ st.connected)) ∧
    st'.connected = st.connected := by
  have hgone : ∀ k ∈ st.handlers.erase h, pastAuthorization k.pc = true → k ∈ st.handlers ∨
      (k.sock = h.sock ∧ k.car = h.car ∧
        (pastAuthorization h.pc = true ∨ h.pc = .authorizing ∧ ok = true)) :=
    fun k hk _ => .inl (List.mem_of_mem_erase hk)
  have hadvance : ∀ pc, (pastAuthorization pc = true → pastAuthorization h.pc = true ∨
        h.pc = .authorizing ∧ ok = true) →
      ∀ k ∈ ({ h with pc } : Handler Sock String) :: st.handlers.erase h,
        pastAuthorization k.pc = true → k ∈ st.handlers ∨ (k.sock = h.sock ∧ k.car = h.car ∧
          (pastAuthorization h.pc = true ∨ h.pc = .authorizing ∧ ok = true)) := by
    intro pc hpc k hk hpast
    rcases List.mem_cons.mp hk with rfl | hk
    · exact .inr ⟨rfl, rfl, hpc hpast⟩
    · exact hgone k hk hpast
  have hroom : ∀ carId, ∀ s ∈ st.room carId, s ∈ st.room carId ∨
      (s = h.sock ∧ carId = h.car ∧ h.pc = .added ∧ s ∈ st.connected) := fun _ _ hx => .inl hx
  obtain ⟨sock, car, pc⟩ := h
  cases pc with
  | authorizing =>
    cases ok with
    | true =>
      cases hs
      exact ⟨hadvance _ fun _ => .inr ⟨rfl, rfl⟩, hroom, rfl⟩
    | false =>
      cases hs
      exact ⟨hgone, hroom, rfl⟩
  | subscribing i =>
    simp only [State.resume] at hs
    split at hs <;> cases hs
    · exact ⟨hadvance _ fun _ => .inl rfl, hroom, rfl⟩
    · exact ⟨hadvance _ fun _ => .inl rfl, hroom, rfl⟩
  | added =>
    cases hs
    refine ⟨hadvance _ fun _ => .inl rfl, fun carId t ht => ?_, rfl⟩
    dsimp only at ht
    split at ht
    · next hcon =>
      by_cases hcar : carId = car
      · subst hcar
        rw [Function.update_self] at ht
        rcases Finset.mem_insert.mp ht with rfl | ht
        · exact .inr ⟨rfl, rfl, rfl, hcon⟩
        · exact .inl ht
      · rw [Function.update_of_ne hcar] at ht
        exact .inl ht
    · exact .inl ht
  | addFailed =>
    cases hs
    exact ⟨hgone, hroom, rfl⟩
  | seeding =>
    cases hs
    exact ⟨hgone, hroom, rfl⟩
  | leaving =>
    cases hs
    exact ⟨hadvance _ (fun hpast => by cases hpast), hroom, rfl⟩
  | removing =>
    cases hs
    exact ⟨hgone, hroom, rfl⟩

omit [DecidableEq Sock] in
theorem admitted_init : Admitted ([] : List (Event Sock)) LiveGateway.init where
  room carId s hs := absurd hs (Finset.notMem_empty s)
  handlers h hh := by cases hh

/-- A handler that goes on keeps the books of who was let in. -/
theorem Admitted.resume (hi : Admitted es st) {h : Handler Sock String} {ok : Bool} {e : Event Sock}
    (hmem : h ∈ st.handlers) (hs : st.resume h ok = some st')
    (he : h.pc = .authorizing → ok = true → e = .handle (.resume h ok)) :
    Admitted (es ++ [e]) st' := by
  obtain ⟨hhandlers, hroom, hconnected⟩ := resume_seats hs
  refine ⟨fun carId s hseat => ?_, fun k hk hpast => ?_⟩
  · rw [hconnected]
    rcases hroom carId s hseat with hold | ⟨rfl, rfl, hpc, hcon⟩
    · exact ⟨(hi.room carId s hold).1.mono, (hi.room carId s hold).2⟩
    · exact ⟨(hi.handlers h hmem (by rw [hpc]; rfl)).mono, hcon⟩
  · rcases hhandlers k hk hpast with hold | ⟨hsock, hcar, hwas | ⟨hpc, hok⟩⟩
    · exact (hi.handlers k hold hpast).mono
    · rw [hsock, hcar]
      exact (hi.handlers h hmem hwas).mono
    · rw [hsock, hcar, he hpc hok]
      refine List.mem_append_right _ (List.mem_singleton.mpr ?_)
      rw [← hpc, hok]

/-- **Every step keeps the books of who was let in.** -/
theorem admitted_step {e : Event Sock} (hi : Admitted es st) (hs : step st e = some st') :
    Admitted (es ++ [e]) st' := by
  have hkeep : Admitted (es ++ [e]) st :=
    ⟨fun carId s hseat => ⟨(hi.room carId s hseat).1.mono, (hi.room carId s hseat).2⟩,
      fun h hh hpast => (hi.handlers h hh hpast).mono⟩
  cases e with
  | message channel raw =>
    cases hs
    exact hkeep
  | seed h cached now =>
    obtain ⟨hpc, hs⟩ := Option.ite_none_right_eq_some.mp hs
    cases LiveGateway.step_cases hs with
    | resume hmem hresume =>
      exact hi.resume hmem hresume fun hauth => by rw [hpc] at hauth; cases hauth
  | handle e =>
    cases LiveGateway.step_cases hs with
    | connect =>
      exact ⟨fun carId s hseat => ⟨(hkeep.room carId s hseat).1,
        Finset.mem_insert_of_mem (hkeep.room carId s hseat).2⟩, hkeep.handlers⟩
    | @disconnect t hcon =>
      refine ⟨fun carId s hseat => ?_, hkeep.handlers⟩
      obtain ⟨hne, hseat⟩ := Finset.mem_erase.mp hseat
      obtain ⟨hlet, hcon⟩ := hkeep.room carId s hseat
      exact ⟨hlet, Finset.mem_erase.mpr ⟨hne, hcon⟩⟩
    | @subscribe t carId hcon =>
      cases carId with
      | none => exact ⟨hkeep.room, hkeep.handlers⟩
      | some c =>
        by_cases hc : c ∈ st.cars t
        · simpa only [State.subscribe, hc, if_true] using hkeep
        · rw [State.subscribe, if_neg hc]
          refine ⟨hkeep.room, fun h hh hpast => ?_⟩
          rcases List.mem_cons.mp hh with rfl | hh
          · cases hpast
          · exact hkeep.handlers h hh hpast
    | @unsubscribe t carId hcon =>
      cases carId with
      | none => exact hkeep
      | some c =>
        by_cases hc : c ∈ st.cars t
        · rw [State.unsubscribe, if_pos hc]
          refine ⟨fun carId s hseat => hkeep.room carId s ?_, fun h hh hpast => ?_⟩
          · change s ∈ Function.update st.room c ((st.room c).erase t) carId at hseat
            by_cases hcar : carId = c
            · subst hcar
              rw [Function.update_self] at hseat
              exact Finset.mem_of_mem_erase hseat
            · rwa [Function.update_of_ne hcar] at hseat
          · rcases List.mem_cons.mp hh with rfl | hh
            · cases hpast
            · exact hkeep.handlers h hh hpast
        · simpa only [State.unsubscribe, hc, if_false] using hkeep
    | resume hmem hresume => exact hi.resume hmem hresume fun _ _ => rfl
    | reply => exact ⟨hkeep.room, hkeep.handlers⟩

theorem admitted_run (hrun : run step LiveGateway.init es = some st) : Admitted es st := by
  induction es using List.reverseRecOn generalizing st with
  | nil =>
    cases hrun
    exact admitted_init
  | append_singleton es e ih =>
    obtain ⟨mid, hmid, hstep⟩ := (run_snoc_eq_some _).mp hrun
    exact admitted_step (ih hmid) hstep

/-! ### What is sent -/

/-- Where something a socket is sent comes from: a message on a channel of its car, or a recent last
known value of it, for a `subscribe` of its own. -/
inductive Source (B : Bodies P) (s : Sock) (m : LiveTelemetryBusMessage P) : Event Sock → Prop
  | broadcast (raw : String) (hbody : parseLiveMessage B raw = some m.payload) :
      Source B s m (.message (channelOf m.carId m.kind) raw)
  | seeded (raw : String) (now : ℤ) (hkind : m.kind = .frame)
      (hbody : parseLiveMessage B raw = some m.payload) (hfresh : isStale B now m.payload = false) :
      Source B s m (.seed ⟨s, m.carId, .seeding⟩ (some raw) now)

omit [DecidableEq Sock] in
theorem seed_eq_some {cached : Option String} {now : ℤ} {frame : P}
    (h : seed B cached now = some frame) : ∃ raw, cached = some raw ∧
      parseLiveMessage B raw = some frame ∧ isStale B now frame = false := by
  cases cached with
  | none => cases h
  | some raw =>
    obtain ⟨-, h⟩ := Option.ite_none_left_eq_some.mp h
    obtain ⟨hbody, hfresh⟩ := Option.filter_eq_some_iff.mp h
    exact ⟨raw, rfl, hbody, (Bool.not_eq_eq_eq_not ..).mp hfresh⟩

theorem sent_source {e : Event Sock} {m : LiveTelemetryBusMessage P} (hi : Admitted es st)
    (hs : step st e = some st') (hm : m ∈ sent B st s e) :
    LetIn es s m.carId ∧ s ∈ st.connected ∧ Source B s m e := by
  cases e with
  | handle e => cases hm
  | message channel raw =>
    obtain ⟨hm, hseat⟩ := List.mem_filter.mp hm
    obtain ⟨-, hbody, -, rfl⟩ := dispatch_eq_some_iff.mp (Option.mem_toList.mp hm)
    obtain ⟨hlet, hcon⟩ := hi.room m.carId s (of_decide_eq_true hseat)
    exact ⟨hlet, hcon, .broadcast raw hbody⟩
  | seed h cached now =>
    obtain ⟨hpc, hresumed⟩ := Option.ite_none_right_eq_some.mp hs
    change m ∈ (if h.sock = s ∧ s ∈ st.connected then _ else []) at hm
    split at hm
    · next hsock =>
      obtain ⟨rfl, hcon⟩ := hsock
      obtain ⟨frame, hframe, rfl⟩ := List.mem_map.mp hm
      obtain ⟨raw, rfl, hbody, hfresh⟩ := seed_eq_some (Option.mem_toList.mp hframe)
      cases LiveGateway.step_cases hresumed with
      | resume hmem hresume =>
        have hsource : Source B h.sock ⟨h.car, .frame, frame⟩
            (.seed ⟨h.sock, h.car, .seeding⟩ (some raw) now) := .seeded raw now rfl hbody hfresh
        rw [← hpc] at hsource
        exact ⟨hi.handlers h hmem (by rw [hpc]; rfl), hcon, hsource⟩
    · cases hm

/-- **A socket is sent nothing of a car it was not let in to.**  Whatever sockets do and whatever
Redis hands over, all that a socket is sent was sent while it was connected, after a
`requireReadableCar` had let it in to the car, and came over a channel of that car or was a recent
last known value of it. -/
theorem sent_authorized (hrun : run step LiveGateway.init es = some st) (s : Sock) :
    ∀ m ∈ received B s LiveGateway.init es, ∃ pre e mid, pre ++ [e] <+: es ∧
      run step LiveGateway.init pre = some mid ∧ s ∈ mid.connected ∧ LetIn pre s m.carId ∧
        Source B s m e := by
  induction es using List.reverseRecOn generalizing st with
  | nil =>
    intro m hm
    cases hm
  | append_singleton es e ih =>
    obtain ⟨mid, hmid, hstep⟩ := (run_snoc_eq_some _).mp hrun
    intro m hm
    rw [received, history_snoc step _ [] hmid hstep] at hm
    rcases List.mem_append.mp hm with hm | hm
    · obtain ⟨pre, e', mid', hpre, hrest⟩ := ih hmid m hm
      exact ⟨pre, e', mid', hpre.trans (List.prefix_append _ _), hrest⟩
    · obtain ⟨hlet, hcon, hsource⟩ := sent_source (admitted_run hmid) hstep hm
      exact ⟨es, e, mid, List.prefix_rfl, hmid, hcon, hlet, hsource⟩

/-! ### What a viewer misses -/

/-- No socket unsubscribes from a car, or disconnects, over its own pending claim. -/
def Orderly (st : State Sock String) : Event Sock → Prop
  | .handle e => NoEarlyRelease st e
  | .message _ _ | .seed _ _ _ => True

/-- The socket watches the car: it is in `data.cars`, and no `subscribe` of it is on its way. -/
def Watching (s : Sock) (carId : String) (st : State Sock String) : Prop :=
  carId ∈ st.cars s ∧ ¬ st.Claiming s carId

instance (s : Sock) (carId : String) : DecidablePred (Watching s carId) := fun st =>
  inferInstanceAs (Decidable (carId ∈ st.cars s ∧
    ¬ ∃ h ∈ st.handlers, h.sock = s ∧ h.car = carId ∧ h.pc.claiming = true))

/-- What an event has for a viewer of the car. -/
def feed (B : Bodies P) (s : Sock) (carId : String) : Event Sock → List (LiveTelemetryBusMessage P)
  | .handle _ => []
  | .message channel raw =>
    (dispatch (parseLiveMessage B) true channel raw).toList.filter fun m => m.carId = carId
  | .seed h cached now =>
    if h.sock = s ∧ h.car = carId then (seed B cached now).toList.map (⟨h.car, .frame, ·⟩) else []

theorem inv_step {e : Event Sock} (hi : LiveGateway.Inv st) (hc : Orderly st e)
    (hs : step st e = some st') : LiveGateway.Inv st' := by
  cases e with
  | handle e => exact LiveGateway.inv_step hi hc hs
  | message channel raw =>
    cases hs
    exact hi
  | seed h cached now =>
    obtain ⟨-, hs⟩ := Option.ite_none_right_eq_some.mp hs
    exact LiveGateway.inv_step (e := .resume h true) hi trivial hs

theorem watching_iff (hi : LiveGateway.Inv st) {carId : String} :
    Watching s carId st ↔ s ∈ st.room carId := by
  rw [hi.room, LiveGateway.claims_eq_zero]
  rfl

/-- What is sent of the car while the socket watches it. -/
theorem sent_of_watching (hi : LiveGateway.Inv st) {carId : String} (hw : Watching s carId st)
    (e : Event Sock) :
    (sent B st s e).filter (fun m => m.carId = carId) = feed B s carId e := by
  have hseat := (watching_iff hi).mp hw
  have hcon := hi.cars s carId hw.1
  cases e with
  | handle e => rfl
  | message channel raw =>
    rw [sent, feed, List.filter_filter]
    refine List.filter_congr fun m _ => ?_
    by_cases hcar : m.carId = carId
    · simp [hcar, hseat]
    · simp [hcar]
  | seed h cached now =>
    unfold sent feed
    by_cases hsock : h.sock = s
    · by_cases hcar : h.car = carId
      · simp [hsock, hcar, hcon, List.filter_map, Function.comp_def]
      · simp [hsock, hcar, hcon, List.filter_map, Function.comp_def]
    · simp [hsock]

theorem received_of_watching {carId : String} :
    ∀ (es : List (Event Sock)) (st st' : State Sock String), LiveGateway.Inv st →
      Meets step Orderly st es → Meets step (fun st _ => Watching s carId st) st es →
      run step st es = some st' →
      (received B s st es).filter (fun m => m.carId = carId) = es.flatMap (feed B s carId) := by
  intro es
  induction es using List.reverseRecOn with
  | nil =>
    intro st st' _ _ _ _
    rfl
  | append_singleton es e ih =>
    intro st st' hi hc hw hrun
    obtain ⟨mid, hmid, hstep⟩ := (run_snoc_eq_some _).mp hrun
    obtain ⟨hces, -⟩ := (meets_snoc step hmid).mp hc
    obtain ⟨hwes, hwmid⟩ := (meets_snoc step hmid).mp hw
    have himid : LiveGateway.Inv mid :=
      run_invariant step (fun _ _ _ hi hc hs => inv_step hi hc hs) es st mid hi hces hmid
    rw [received, history_snoc step _ [] hmid hstep, List.filter_append, List.flatMap_append,
      List.flatMap_singleton, sent_of_watching himid hwmid e]
    exact congrArg (· ++ _) (ih st mid hi hces hwes hmid)

/-- **A viewer is sent every message of its car, once and in order.**  In the runs in which no socket
lets go of a car over its own pending claim: a message goes to the sockets that watch its car and to
no other; and as long as a socket watches the car it is sent, of that car, what the events have for
it, each once and in order. -/
theorem viewers_served {pre post : List (Event Sock)} {mid : State Sock String}
    (horderly : Meets step Orderly LiveGateway.init (pre ++ post))
    (hmid : run step LiveGateway.init pre = some mid) (hrun : run step mid post = some st) (s : Sock)
    (carId : String) :
    (∀ channel raw m, dispatch (parseLiveMessage B) true channel raw = some m → m.carId = carId →
      (Watching s carId mid → sent B mid s (.message channel raw) = [m]) ∧
        (¬ Watching s carId mid → sent B mid s (.message channel raw) = [])) ∧
    (Meets step (fun st _ => Watching s carId st) mid post →
      (received B s mid post).filter (fun m => m.carId = carId) = post.flatMap (feed B s carId)) := by
  have hi : LiveGateway.Inv mid :=
    run_invariant step (fun _ _ _ hi hc hs => inv_step hi hc hs) pre LiveGateway.init mid
      LiveGateway.inv_init (meets_append_left step horderly) hmid
  refine ⟨fun channel raw m hm hcar => ?_,
    fun hw => received_of_watching post mid st hi (meets_append_right step horderly hmid) hw hrun⟩
  subst hcar
  rw [watching_iff hi, sent, hm, Option.toList_some]
  constructor
  · intro hseat
    exact List.filter_eq_self.mpr fun d hd => by
      rw [List.mem_singleton.mp hd]
      exact decide_eq_true hseat
  · intro hseat
    exact List.filter_eq_nil_iff.mpr fun d hd => by
      rw [List.mem_singleton.mp hd, decide_eq_true_eq]
      exact hseat

end Delivery

section Example

/-- Bodies that are their own text, published at zero. -/
def plainBodies : Bodies String := ⟨some, fun _ => 1, fun _ => some 0⟩

/-- Socket 1 joins the room of a car and gets the last known value; socket 2 is refused.  Two messages
of the car come, and one of another. -/
def watched : List (Event ℕ) :=
  [.handle (.connect 1), .handle (.connect 2), .handle (.subscribe 1 (some "gt3")),
    .handle (.subscribe 2 (some "gt3")), .handle (.resume ⟨2, "gt3", .authorizing⟩ false),
    .handle (.resume ⟨1, "gt3", .authorizing⟩ true), .handle (.reply "gt3" true),
    .handle (.resume ⟨1, "gt3", .subscribing 0⟩ true), .handle (.resume ⟨1, "gt3", .added⟩ true)]

/-- What comes next. -/
def traffic : List (Event ℕ) :=
  [.message "live:car:gt3" "a", .seed ⟨1, "gt3", .seeding⟩ (some "b") 15000,
    .message "live:car:gt4" "c", .message "live:car:gt3:events" "d"]

theorem sent_authorized_watched :
    (received plainBodies 1 LiveGateway.init (watched ++ traffic)).map
          (fun m => (m.carId, m.kind, m.payload)) =
        [("gt3", .frame, "a"), ("gt3", .frame, "b"), ("gt3", .event, "d")] ∧
      ∀ m ∈ received plainBodies 1 LiveGateway.init (watched ++ traffic), ∃ pre e mid,
        pre ++ [e] <+: watched ++ traffic ∧ run step LiveGateway.init pre = some mid ∧
          1 ∈ mid.connected ∧ LetIn pre 1 m.carId ∧ Source plainBodies 1 m e := by
  have hrun : (run step LiveGateway.init (watched ++ traffic)).isSome = true := by decide +kernel
  obtain ⟨st, hst⟩ := Option.isSome_iff_exists.mp hrun
  exact ⟨by decide +kernel, sent_authorized hst 1⟩

/-- Nobody leaves at the event. -/
def stays : Event ℕ → Bool
  | .handle (.unsubscribe _ _) => false
  | .handle (.disconnect _) => false
  | _ => true

theorem viewers_served_watched :
    ∃ mid, run step LiveGateway.init watched = some mid ∧
      sent plainBodies mid 1 (.message "live:car:gt3" "a") = [⟨"gt3", .frame, "a"⟩] ∧
      (received plainBodies 1 mid traffic).filter (fun m => m.carId = "gt3") =
        traffic.flatMap (feed plainBodies 1 "gt3") := by
  have horderly : Meets step Orderly (LiveGateway.init : State ℕ String) (watched ++ traffic) := by
    refine meets_of_check step (c := fun _ e => stays e) (fun st e he => ?_) (by decide +kernel)
    cases e with
    | handle e => cases e <;> trivial
    | _ => trivial
  have hwatched : ((run step (LiveGateway.init : State ℕ String) watched).any fun mid =>
      Watching 1 "gt3" mid && check step (fun st _ => decide (Watching 1 "gt3" st)) mid traffic &&
        (run step mid traffic).isSome) = true := by decide +kernel
  obtain ⟨mid, hmid, hmid'⟩ := (Option.any_eq_true _ _).mp hwatched
  rw [Bool.and_eq_true, Bool.and_eq_true, decide_eq_true_eq] at hmid'
  obtain ⟨⟨hwatching, hcheck⟩, hsome⟩ := hmid'
  obtain ⟨st, hst⟩ := Option.isSome_iff_exists.mp hsome
  obtain ⟨hmessage, hstream⟩ := viewers_served (B := plainBodies) horderly hmid hst 1 "gt3"
  exact ⟨mid, hmid, (hmessage "live:car:gt3" "a" _ (by rfl) rfl).1 hwatching,
    hstream (meets_of_check step (fun _ _ h => of_decide_eq_true h) hcheck)⟩

end Example

end TelemetryCloud.LiveDelivery
