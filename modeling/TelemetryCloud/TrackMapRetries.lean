import TelemetryCloud.Runs
import Mathlib.Data.List.Induction
import Mathlib.Tactic.Linarith

/-!
# Asking again for a circuit's outline

The browser asks for the outline of the track on screen, and asks again a few times while the server
answers that it is still fetching it.  Reads, timers and effects come in any order; an effect may run
more often than it does.

* `step` : the service, one event at a time; `Resource` : what a read is in, of which only a `value`
  is seen;
* `Tally` : what was opened and asked for, which the service does not know;
* `Budget`, `Inv` : **how many requests are left** in each state, and `inv_step`;
* `polling_bounded` : **the service never polls**: a track costs four requests at most, with one timer
  at a time that asks again, and only a track that used them up is given up on;
* `closed_quiet` : **a view that is closed asks for nothing**, neither an outline nor a session.
-/

namespace TelemetryCloud.TrackMapRetries

open Runs

/-! ### The service -/

def MAX_PENDING_RETRIES : ℕ := 3

inductive Status
  | ready
  | pending
  | unavailable
  deriving DecidableEq, Repr

/-- The response, as far as it is shown. -/
structure TrackMapResponse (M : Type) where
  status : Status
  trackName : String
  map : Option M
  attribution : Option String

/-- What a read is in: not asked for, about to be asked for, asked for, answered or failed. -/
inductive Resource (α : Type)
  | idle
  | stale
  | loading
  | value (answer : α)
  | error

/-- The read through `guarded`. -/
def Resource.guarded {α : Type} : Resource α → Option α
  | .value answer => some answer
  | _ => none

structure State (M : Type) where
  track : Option String
  resource : Resource (TrackMapResponse M)
  retryCount : ℕ
  retryTimer : Option ℕ
  /-- The timers that are set and neither fired nor cleared. -/
  timers : List ℕ
  nextTimer : ℕ
  sessionId : Option String
  /-- The track of the session. -/
  session : Resource String

/-- `send` and `sendSession` are requests going out, `settle` and `followSession` the two effects. -/
inductive Event (M : Type)
  | openForSession (sessionId : Option String)
  | openTrack (track : Option String)
  | send
  | reply (response : TrackMapResponse M)
  | fail
  | settle
  | timer (id : ℕ)
  | sendSession
  | sessionReply (track : String)
  | sessionFail
  | followSession

section Service

variable {M : Type}

def init : State M := ⟨none, .idle, 0, none, [], 0, none, .idle⟩

def State.response (st : State M) : Option (TrackMapResponse M) := st.resource.guarded

def State.status (st : State M) : Option Status := st.response.map (·.status)

def State.map (st : State M) : Option M :=
  match st.response with
  | some result => if result.status = .ready then result.map else none
  | none => none

/-- The track that is asked for; the empty one is not. -/
def State.wanted (st : State M) : Option String := st.track.filter (· ≠ "")

/-- The session that is asked for; the empty one is not. -/
def State.wantedSession (st : State M) : Option String := st.sessionId.filter (· ≠ "")

/-- A new request object: what was read is gone, and what is under way is dropped. -/
def refresh (st : State M) : State M :=
  { st with resource := if st.wanted = none then .idle else .stale }

def clearRetry (st : State M) : State M :=
  match st.retryTimer with
  | none => st
  | some id => { st with timers := st.timers.filter (· ≠ id), retryTimer := none }

def scheduleRetry (st : State M) : State M :=
  if st.retryTimer ≠ none ∨ MAX_PENDING_RETRIES ≤ st.retryCount then st
  else { st with
    retryCount := st.retryCount + 1
    retryTimer := some st.nextTimer
    timers := st.timers ++ [st.nextTimer]
    nextTimer := st.nextTimer + 1 }

def openTrack (track : Option String) (st : State M) : State M :=
  if track = st.track then st
  else refresh { clearRetry { st with retryCount := 0 } with track }

def openForSession (sessionId : Option String) (st : State M) : State M :=
  let st := if sessionId = st.sessionId then st else
    { st with sessionId, session := if sessionId.filter (· ≠ "") = none then .idle else .stale }
  if sessionId = none then openTrack none st else st

/-- The first effect. -/
def settle (st : State M) : State M :=
  match st.status with
  | some .pending => scheduleRetry st
  | some _ => clearRetry { st with retryCount := 0 }
  | none => st

/-- The second effect. -/
def followSession (st : State M) : State M :=
  if st.sessionId = none then st else openTrack st.session.guarded st

def step (st : State M) : Event M → Option (State M)
  | .openForSession sessionId => some (openForSession sessionId st)
  | .openTrack track => some (openTrack track st)
  | .send =>
    match st.resource with
    | .stale => some { st with resource := .loading }
    | _ => none
  | .reply response =>
    match st.resource with
    | .loading => some { st with resource := .value response }
    | _ => none
  | .fail =>
    match st.resource with
    | .loading => some { st with resource := .error }
    | _ => none
  | .settle => some (settle st)
  | .timer id =>
    if id ∈ st.timers then
      some (refresh { st with timers := st.timers.filter (· ≠ id), retryTimer := none })
    else none
  | .sendSession =>
    match st.session with
    | .stale => some { st with session := .loading }
    | _ => none
  | .sessionReply track =>
    match st.session with
    | .loading => some { st with session := .value track }
    | _ => none
  | .sessionFail =>
    match st.session with
    | .loading => some { st with session := .error }
    | _ => none
  | .followSession => some (followSession st)

end Service

/-! ### Requests -/

section Requests

variable {M : Type}

/-- How often another track was opened, which outlines were asked for, and how many since then. -/
structure Tally where
  opened : ℕ
  sent : List String
  since : ℕ
  deriving DecidableEq

/-- The tally after a step that may have opened another track. -/
def opening (st st' : State M) (g : Tally) : Tally :=
  if st'.track = st.track then g
  else ⟨if st'.wanted = none then g.opened else g.opened + 1, g.sent, 0⟩

def count (st : State M) (e : Event M) (g : Tally) : Tally :=
  match e with
  | .send => ⟨g.opened, g.sent ++ st.wanted.toList, g.since + 1⟩
  | e =>
    match step st e with
    | none => g
    | some st' => opening st st' g

def tally (es : List (Event M)) : Tally := history step count init ⟨0, [], 0⟩ es

/-- **What a track has cost so far.** -/
def Budget (st : State M) (since : ℕ) : Prop :=
  match st.resource, st.retryTimer with
  | .idle, none => since = 0
  | .stale, none => since = st.retryCount
  | .loading, none => since = st.retryCount + 1
  | .value r, none => r.status = .pending → since = st.retryCount + 1
  | .value r, some _ => r.status = .pending ∧ since = st.retryCount
  | .error, none => True
  | _, some _ => False

/-- What holds of the service and its tally in every run. -/
structure Inv (st : State M) (g : Tally) : Prop where
  timers : st.timers = st.retryTimer.toList
  retryCount : st.retryCount ≤ MAX_PENDING_RETRIES
  idle : st.wanted = none ↔ st.resource = .idle
  idleSession : st.wantedSession = none ↔ st.session = .idle
  budget : Budget st g.since
  since : g.since ≤ 1 + MAX_PENDING_RETRIES
  sent : g.sent.length ≤ (1 + MAX_PENDING_RETRIES) * g.opened
  current : st.wanted ≠ none →
    g.sent.length + (1 + MAX_PENDING_RETRIES) ≤ (1 + MAX_PENDING_RETRIES) * g.opened + g.since

variable {st : State M} {g : Tally}

theorem inv_init : Inv (init : State M) ⟨0, [], 0⟩ where
  timers := rfl
  retryCount := Nat.zero_le _
  idle := iff_of_true rfl rfl
  idleSession := iff_of_true rfl rfl
  budget := rfl
  since := Nat.zero_le _
  sent := Nat.zero_le _
  current := fun h => absurd rfl h

/-- A timer that is set waits for an answer that is pending. -/
theorem Inv.waiting (h : Inv st g) {id : ℕ} (hid : st.retryTimer = some id) :
    ∃ r, st.resource = .value r ∧ r.status = .pending ∧ g.since = st.retryCount := by
  have hbudget := h.budget
  unfold Budget at hbudget
  rw [hid] at hbudget
  split at hbudget
  case h_5 r _ hresource _ => exact ⟨r, hresource, hbudget⟩
  all_goals contradiction

/-- No timer is set unless an answer was read. -/
theorem Inv.no_timer (h : Inv st g) (hresource : ∀ r, st.resource ≠ .value r) :
    st.retryTimer = none := by
  by_contra hne
  obtain ⟨id, hid⟩ := Option.ne_none_iff_exists'.mp hne
  obtain ⟨r, hr, -⟩ := h.waiting hid
  exact hresource r hr

theorem clearRetry_timers (st : State M) (h : st.timers = st.retryTimer.toList) :
    (clearRetry st).timers = [] := by
  unfold clearRetry
  split
  · next hnone => rw [h, hnone]; rfl
  · next id hsome =>
    show st.timers.filter (· ≠ id) = []
    rw [h, hsome]
    simp

/-- Everything but the timer is as it was. -/
theorem clearRetry_eq (st : State M) :
    clearRetry st = { st with timers := (clearRetry st).timers, retryTimer := none } := by
  unfold clearRetry
  split
  · next h => rw [← h]
  · rfl

/-- **Another track**: its budget is whole. -/
theorem openTrack_eq (h : Inv st g) {track : Option String} (hne : track ≠ st.track) :
    openTrack track st = { st with
      track
      retryCount := 0
      timers := []
      retryTimer := none
      resource := if track.filter (· ≠ "") = none then .idle else .stale } := by
  have hclear := clearRetry_eq { st with retryCount := 0 }
  rw [clearRetry_timers { st with retryCount := 0 } h.timers] at hclear
  rw [openTrack, if_neg hne, hclear]
  rfl

theorem opening_same {st' : State M} (h : st'.track = st.track) : opening st st' g = g := if_pos h

theorem Inv.counted {st' : State M} (h : Inv st' g) (hsame : st'.track = st.track) :
    Inv st' (opening st st' g) := by
  rw [opening_same hsame]
  exact h

theorem count_of_step {e : Event M} {st' : State M} (h : step st e = some st')
    (hsend : e ≠ .send) : count st e g = opening st st' g := by
  cases e with
  | send => exact absurd rfl hsend
  | _ => simp only [count, h]

theorem inv_openTrack (h : Inv st g) (track : Option String) :
    Inv (openTrack track st) (opening st (openTrack track st) g) := by
  by_cases htrack : track = st.track
  · have hsame : openTrack track st = st := if_pos htrack
    rw [hsame, opening_same rfl]
    exact h
  · have hopened : opening st (openTrack track st) g =
        ⟨if track.filter (· ≠ "") = none then g.opened else g.opened + 1, g.sent, 0⟩ := by
      rw [openTrack_eq h htrack]
      exact if_neg htrack
    rw [hopened, openTrack_eq h htrack]
    by_cases hwanted : track.filter (· ≠ "") = none
    · rw [if_pos hwanted, if_pos hwanted]
      exact ⟨rfl, Nat.zero_le _, iff_of_true hwanted rfl, h.idleSession, rfl, Nat.zero_le _, h.sent,
        fun hne => absurd hwanted hne⟩
    · rw [if_neg hwanted, if_neg hwanted]
      refine ⟨rfl, Nat.zero_le _, iff_of_false hwanted (fun h => by cases h), h.idleSession, rfl,
        Nat.zero_le _, ?_, fun _ => ?_⟩
      · exact h.sent.trans (Nat.mul_le_mul_left _ (Nat.le_succ _))
      · have hsent := h.sent
        dsimp only
        rw [mul_add, mul_one]
        omega

/-- Where the session stands says nothing about the outline. -/
theorem Inv.session (h : Inv st g) {sessionId : Option String} {session : Resource String}
    (hsession : sessionId.filter (· ≠ "") = none ↔ session = .idle) :
    Inv { st with sessionId, session } g :=
  ⟨h.timers, h.retryCount, h.idle, hsession, h.budget, h.since, h.sent, h.current⟩

theorem inv_openForSession (h : Inv st g) (sessionId : Option String) :
    Inv (openForSession sessionId st) (opening st (openForSession sessionId st) g) := by
  have hread : ∃ id session, (if sessionId = st.sessionId then st else
      { st with sessionId, session := if sessionId.filter (· ≠ "") = none then .idle else .stale }) =
        { st with sessionId := id, session := session } ∧
      (id.filter (· ≠ "") = none ↔ session = .idle) := by
    split
    · exact ⟨st.sessionId, st.session, rfl, h.idleSession⟩
    · refine ⟨_, _, rfl, ?_⟩
      split
      · next hwanted => exact iff_of_true hwanted rfl
      · next hwanted => exact iff_of_false hwanted fun h => by cases h
  obtain ⟨id, session, hread, hidle⟩ := hread
  unfold openForSession
  simp only [hread]
  split
  · exact inv_openTrack (h.session hidle) none
  · exact (h.session hidle).counted rfl

/-- A read of the session goes on, or ends. -/
theorem Inv.sessionRead (h : Inv st g) {session : Resource String} (hread : st.session ≠ .idle)
    (hgoes : session ≠ .idle) : Inv { st with session } g :=
  h.session (iff_of_false (fun hnone => hread (h.idleSession.mp hnone)) hgoes)

theorem inv_settle (h : Inv st g) : Inv (settle st) g := by
  unfold settle
  cases hr : st.response with
  | none =>
    simp only [State.status, hr, Option.map_none]
    exact h
  | some r =>
    simp only [State.status, hr, Option.map_some]
    have hvalue : st.resource = .value r := by
      cases hresource : st.resource with
      | value answer =>
        rw [State.response, hresource] at hr
        exact congrArg _ (Option.some.inj hr)
      | _ =>
        rw [State.response, hresource] at hr
        cases hr
    by_cases hpending : r.status = .pending
    · rw [hpending]
      show Inv (scheduleRetry st) g
      unfold scheduleRetry
      split
      · exact h
      · next hfree =>
        rw [not_or, not_not, not_le] at hfree
        have hbudget := h.budget
        simp only [Budget, hvalue, hfree.1] at hbudget
        refine ⟨?_, hfree.2, h.idle, h.idleSession, ?_, h.since, h.sent, h.current⟩
        · show st.timers ++ [st.nextTimer] = [st.nextTimer]
          rw [h.timers, hfree.1]
          rfl
        · simp only [Budget, hvalue]
          exact ⟨hpending, hbudget hpending⟩
    · have hnone : st.retryTimer = none := by
        by_contra hne
        obtain ⟨id, hid⟩ := Option.ne_none_iff_exists'.mp hne
        obtain ⟨r', hr', hstatus, -⟩ := h.waiting hid
        rw [hvalue] at hr'
        cases hr'
        exact hpending hstatus
      have hsettled : (match some r.status with
          | some .pending => scheduleRetry st
          | some _ => clearRetry { st with retryCount := 0 }
          | none => st) = { st with retryCount := 0 } := by
        cases hstatus : r.status with
        | pending => exact absurd hstatus hpending
        | _ => simp only [clearRetry, hnone]
      rw [hsettled]
      refine ⟨h.timers, Nat.zero_le _, h.idle, h.idleSession, ?_, h.since, h.sent, h.current⟩
      simp only [Budget, hvalue, hnone]
      exact fun hstatus => absurd hstatus hpending

/-- A read that is under way is of a track. -/
theorem Inv.wanted (h : Inv st g) (hresource : st.resource ≠ .idle) : st.wanted ≠ none :=
  fun hwanted => hresource (h.idle.mp hwanted)

theorem inv_send (h : Inv st g) (hstale : st.resource = .stale) :
    Inv ({ st with resource := .loading } : State M)
      ⟨g.opened, g.sent ++ st.wanted.toList, g.since + 1⟩ := by
  have hnone : st.retryTimer = none := h.no_timer fun r hr => by rw [hstale] at hr; cases hr
  have hwanted : st.wanted ≠ none := h.wanted fun hidle => by rw [hstale] at hidle; cases hidle
  have hbudget := h.budget
  simp only [Budget, hstale, hnone] at hbudget
  have hcount := h.retryCount
  have hcurrent := h.current hwanted
  obtain ⟨track, htrack⟩ := Option.ne_none_iff_exists'.mp hwanted
  have hlength : (g.sent ++ st.wanted.toList).length = g.sent.length + 1 := by
    rw [htrack, List.length_append]
    rfl
  refine ⟨h.timers, h.retryCount, iff_of_false hwanted (fun h => by cases h), h.idleSession, ?_, ?_, ?_,
    fun _ => ?_⟩
  · simp only [Budget, hnone, hbudget]
  · dsimp only
    omega
  · dsimp only
    omega
  · dsimp only
    omega

/-- An answer has come, or none will. -/
theorem inv_answer (h : Inv st g) (hloading : st.resource = .loading)
    {resource : Resource (TrackMapResponse M)}
    (hanswer : resource = .error ∨ ∃ r, resource = .value r) : Inv ({ st with resource } : State M) g := by
  have hnone : st.retryTimer = none := h.no_timer fun r hr => by rw [hloading] at hr; cases hr
  have hwanted : st.wanted ≠ none := h.wanted fun hidle => by rw [hloading] at hidle; cases hidle
  have hbudget := h.budget
  simp only [Budget, hloading, hnone] at hbudget
  rcases hanswer with rfl | ⟨r, rfl⟩
  · refine ⟨h.timers, h.retryCount, iff_of_false hwanted (fun h => by cases h), h.idleSession, ?_,
      h.since, h.sent, h.current⟩
    simp only [Budget, hnone]
  · refine ⟨h.timers, h.retryCount, iff_of_false hwanted (fun h => by cases h), h.idleSession, ?_,
      h.since, h.sent, h.current⟩
    simp only [Budget, hnone]
    exact fun _ => hbudget

/-- The timer fires, and the track is asked for again. -/
theorem Inv.fired (h : Inv st g) {id : ℕ} (hmem : id ∈ st.timers) : st.wanted ≠ none ∧
    refresh { st with timers := st.timers.filter (· ≠ id), retryTimer := none } =
      { st with timers := [], retryTimer := none, resource := .stale } ∧
    g.since = st.retryCount := by
  have hid : st.retryTimer = some id := by
    rw [h.timers, Option.mem_toList] at hmem
    exact hmem
  obtain ⟨r, hvalue, -, hbudget⟩ := h.waiting hid
  have hwanted : st.wanted ≠ none := h.wanted fun hidle => by rw [hvalue] at hidle; cases hidle
  have hresource : (if st.wanted = none then .idle else .stale : Resource (TrackMapResponse M)) =
      .stale := if_neg hwanted
  have htimers : st.timers.filter (· ≠ id) = [] := by
    rw [h.timers, hid]
    simp
  refine ⟨hwanted, ?_, hbudget⟩
  rw [refresh, htimers]
  exact congrArg (State.mk _ · _ _ _ _ _ _) hresource

theorem inv_fire (h : Inv st g) {id : ℕ} (hmem : id ∈ st.timers) :
    Inv (refresh { st with timers := st.timers.filter (· ≠ id), retryTimer := none }) g := by
  obtain ⟨hwanted, hfired, hbudget⟩ := h.fired hmem
  rw [hfired]
  exact ⟨rfl, h.retryCount, iff_of_false hwanted (fun h => by cases h), h.idleSession, hbudget, h.since,
    h.sent, h.current⟩

theorem settle_track (st : State M) : (settle st).track = st.track := by
  unfold settle scheduleRetry clearRetry
  split
  · split <;> rfl
  · split <;> rfl
  · rfl

theorem inv_step (h : Inv st g) (e : Event M) {st' : State M} (hstep : step st e = some st') :
    Inv st' (count st e g) := by
  by_cases hsend : e = .send
  · subst hsend
    simp only [step] at hstep
    split at hstep
    case h_1 hstale =>
      cases hstep
      exact inv_send h hstale
    all_goals cases hstep
  rw [count_of_step hstep hsend]
  cases e with
  | openForSession sessionId =>
    cases hstep
    exact inv_openForSession h sessionId
  | openTrack track =>
    cases hstep
    exact inv_openTrack h track
  | send => exact absurd rfl hsend
  | reply response =>
    simp only [step] at hstep
    split at hstep
    case h_1 hloading =>
      cases hstep
      exact (inv_answer h hloading (.inr ⟨response, rfl⟩)).counted rfl
    all_goals cases hstep
  | fail =>
    simp only [step] at hstep
    split at hstep
    case h_1 hloading =>
      cases hstep
      exact (inv_answer h hloading (.inl rfl)).counted rfl
    all_goals cases hstep
  | settle =>
    cases hstep
    exact (inv_settle h).counted (settle_track st)
  | timer id =>
    simp only [step] at hstep
    split at hstep
    · next hmem =>
      cases hstep
      exact (inv_fire h hmem).counted rfl
    · cases hstep
  | sendSession =>
    simp only [step] at hstep
    split at hstep
    case h_1 hstale =>
      cases hstep
      exact (h.sessionRead (hstale ▸ fun h => by cases h) fun h => by cases h).counted rfl
    all_goals cases hstep
  | sessionReply track =>
    simp only [step] at hstep
    split at hstep
    case h_1 hloading =>
      cases hstep
      exact (h.sessionRead (hloading ▸ fun h => by cases h) fun h => by cases h).counted rfl
    all_goals cases hstep
  | sessionFail =>
    simp only [step] at hstep
    split at hstep
    case h_1 hloading =>
      cases hstep
      exact (h.sessionRead (hloading ▸ fun h => by cases h) fun h => by cases h).counted rfl
    all_goals cases hstep
  | followSession =>
    cases hstep
    unfold followSession
    split
    · exact h.counted rfl
    · exact inv_openTrack h st.session.guarded

theorem inv_run {es : List (Event M)} (hrun : run step init es = some st) : Inv st (tally es) :=
  history_invariant step count (I := Inv) (fun _ _ e _ h hstep => inv_step h e hstep) es init st ⟨0, [], 0⟩
    inv_init hrun

/-- A pending answer is waited for, unless the track has used up its requests. -/
theorem Inv.waited (h : Inv st g) (hpending : st.status = some .pending) :
    (settle st).timers ≠ [] ∨ g.since = 1 + MAX_PENDING_RETRIES := by
  have hsettle : settle st = scheduleRetry st := by rw [settle, hpending]
  rw [hsettle, scheduleRetry]
  by_cases hset : st.retryTimer = none
  · by_cases hspent : MAX_PENDING_RETRIES ≤ st.retryCount
    · right
      cases hresource : st.resource with
      | value r =>
        have hbudget := h.budget
        simp only [Budget, hresource, hset] at hbudget
        rw [State.status, State.response, hresource] at hpending
        rw [hbudget (Option.some.inj hpending), Nat.le_antisymm h.retryCount hspent, Nat.add_comm]
      | _ =>
        rw [State.status, State.response, hresource] at hpending
        cases hpending
    · left
      rw [if_neg (not_or.mpr ⟨not_not.mpr hset, hspent⟩)]
      exact List.append_ne_nil_of_right_ne_nil _ (List.cons_ne_nil _ _)
  · left
    obtain ⟨id, hid⟩ := Option.ne_none_iff_exists'.mp hset
    rw [if_pos (.inl hset), h.timers, hid]
    exact List.cons_ne_nil _ _

/-- A timer that is set asks for the track again. -/
theorem Inv.fires (h : Inv st g) {id : ℕ} (hmem : id ∈ st.timers) :
    ∃ track asked, st.wanted = some track ∧ step st (.timer id) = some asked ∧
      asked.wanted = some track ∧ (step asked .send).isSome = true := by
  obtain ⟨hwanted, hfired, -⟩ := h.fired hmem
  obtain ⟨track, htrack⟩ := Option.ne_none_iff_exists'.mp hwanted
  exact ⟨track, _, htrack, (if_pos hmem).trans (congrArg some hfired), htrack, rfl⟩

/-- **The service never polls.**  In every run there is one timer at most, and only while the answer on
screen is pending; a track costs four requests at most, and all of them together four for each that was
opened; a timer that is set asks for the track again, and a pending answer sets one, unless it was the
fourth. -/
theorem polling_bounded (es : List (Event M)) {st : State M} (hrun : run step init es = some st) :
    st.timers.length ≤ 1 ∧ (st.timers ≠ [] → st.status = some .pending) ∧
      (∀ id ∈ st.timers, ∃ track asked, st.wanted = some track ∧ step st (.timer id) = some asked ∧
        asked.wanted = some track ∧ (step asked .send).isSome = true) ∧
      (tally es).since ≤ 1 + MAX_PENDING_RETRIES ∧
      (tally es).sent.length ≤ (1 + MAX_PENDING_RETRIES) * (tally es).opened ∧
      (st.status = some .pending →
        (settle st).timers ≠ [] ∨ (tally es).since = 1 + MAX_PENDING_RETRIES) := by
  have h := inv_run hrun
  refine ⟨?_, fun hset => ?_, fun id hmem => h.fires hmem, h.since, h.sent, h.waited⟩
  · rw [h.timers]
    cases st.retryTimer with
    | none => exact Nat.zero_le _
    | some => exact le_rfl
  · have hsome : st.retryTimer ≠ none := fun hnone => hset (by rw [h.timers, hnone]; rfl)
    obtain ⟨id, hid⟩ := Option.ne_none_iff_exists'.mp hsome
    obtain ⟨r, hvalue, hpending, -⟩ := h.waiting hid
    rw [State.status, State.response, hvalue]
    exact congrArg some hpending

/-! ### A view that is closed -/

/-- The event opens a session or a track. -/
def Event.opens : Event M → Prop
  | .openForSession (some _) => True
  | .openTrack (some _) => True
  | _ => False

/-- No view is open. -/
structure Closed (st : State M) : Prop where
  sessionId : st.sessionId = none
  track : st.track = none

theorem openTrack_none (st : State M) : (openTrack none st).track = none ∧
    (openTrack none st).sessionId = st.sessionId := by
  by_cases h : none = st.track
  · rw [openTrack, if_pos h]
    exact ⟨h.symm, rfl⟩
  · rw [openTrack, if_neg h, clearRetry_eq]
    exact ⟨rfl, rfl⟩

theorem closed_openForSession (st : State M) : Closed (openForSession none st) := by
  unfold openForSession
  dsimp only
  rw [if_pos rfl]
  refine ⟨(openTrack_none _).2.trans ?_, (openTrack_none _).1⟩
  split
  · next h => exact h.symm
  · rfl

theorem Closed.step (hclosed : Closed st) {e : Event M} {st' : State M}
    (hstep : step st e = some st') (hopens : ¬ e.opens) : Closed st' := by
  cases e with
  | openForSession sessionId =>
    cases sessionId with
    | none =>
      cases hstep
      exact closed_openForSession st
    | some => exact absurd trivial hopens
  | openTrack track =>
    cases track with
    | none =>
      cases hstep
      exact ⟨(openTrack_none st).2.trans hclosed.sessionId, (openTrack_none st).1⟩
    | some => exact absurd trivial hopens
  | settle =>
    cases hstep
    refine ⟨?_, (settle_track st).trans hclosed.track⟩
    have hsession : (settle st).sessionId = st.sessionId := by
      unfold settle scheduleRetry clearRetry
      split
      · split <;> rfl
      · split <;> rfl
      · rfl
    exact hsession.trans hclosed.sessionId
  | followSession =>
    cases hstep
    rw [followSession, if_pos hclosed.sessionId]
    exact hclosed
  | send | reply | fail | sendSession | sessionReply | sessionFail =>
    simp only [TrackMapRetries.step] at hstep
    split at hstep
    case h_1 =>
      cases hstep
      exact ⟨hclosed.sessionId, hclosed.track⟩
    all_goals cases hstep
  | timer id =>
    simp only [TrackMapRetries.step] at hstep
    split at hstep
    · cases hstep
      exact ⟨hclosed.sessionId, hclosed.track⟩
    · cases hstep

/-- Nothing goes out while no view is open. -/
theorem Closed.sent (hclosed : Closed st) (h : Inv st g) {e : Event M} {st' : State M}
    (hstep : TrackMapRetries.step st e = some st') : (count st e g).sent = g.sent := by
  by_cases hsend : e = .send
  · subst hsend
    have hwanted : st.wanted = none := by rw [State.wanted, hclosed.track]; rfl
    have hidle := h.idle.mp hwanted
    simp only [TrackMapRetries.step, hidle] at hstep
    cases hstep
  · rw [count_of_step hstep hsend, opening]
    split <;> rfl

/-- **A view that is closed asks for nothing**: from then on, until another is opened, and whatever
replies, timers and effects were still under way, no request goes out or could, for an outline or a
session, no timer is set and no outline is shown. -/
theorem closed_quiet (es more : List (Event M)) {st : State M}
    (hrun : run step init (es ++ .openForSession none :: more) = some st)
    (hmore : ∀ e ∈ more, ¬ e.opens) :
    (tally (es ++ .openForSession none :: more)).sent = (tally es).sent ∧ step st .send = none ∧
      step st .sendSession = none ∧ st.timers = [] ∧ st.response = none := by
  have hclosed : Closed st ∧
      (tally (es ++ .openForSession none :: more)).sent = (tally es).sent := by
    rw [List.append_cons] at hrun ⊢
    induction more using List.reverseRecOn generalizing st with
    | nil =>
      rw [List.append_nil] at hrun ⊢
      obtain ⟨mid, hmid, hstep⟩ := (run_snoc_eq_some _).mp hrun
      cases hstep
      refine ⟨closed_openForSession mid, ?_⟩
      rw [tally, history_snoc step count _ hmid rfl, count_of_step rfl (fun h => by cases h), opening]
      split <;> rfl
    | append_singleton more e ih =>
      rw [← List.append_assoc] at hrun ⊢
      obtain ⟨mid, hmid, hstep⟩ := (run_snoc_eq_some _).mp hrun
      obtain ⟨hclosed, hsent⟩ := ih hmid fun e he => hmore e (List.mem_append_left _ he)
      refine ⟨hclosed.step hstep (hmore e (List.mem_append_right _ (List.mem_singleton_self e))), ?_⟩
      rw [tally, history_snoc step count _ hmid hstep]
      exact (hclosed.sent (inv_run hmid) hstep).trans hsent
  have h := inv_run hrun
  have hidle := h.idle.mp (by rw [State.wanted, hclosed.1.track]; rfl)
  have hidleSession := h.idleSession.mp (by rw [State.wantedSession, hclosed.1.sessionId]; rfl)
  refine ⟨hclosed.2, by rw [step, hidle], by rw [step, hidleSession], ?_,
    by rw [State.response, hidle]; rfl⟩
  rw [h.timers, h.no_timer fun r hr => by rw [hidle] at hr; cases hr]
  rfl

/-! ### A cold track -/

def pendingAnswer : TrackMapResponse ℕ := ⟨.pending, "Serres", none, none⟩

/-- The session of a cold track is opened, and its outline asked for twice. -/
def coldTrack : List (Event ℕ) :=
  [.openForSession (some "s1"), .sendSession, .followSession, .sessionReply "serres", .followSession,
    .send, .reply pendingAnswer, .settle, .timer 0, .settle, .send, .reply pendingAnswer, .settle]

theorem polling_bounded_coldTrack : ∃ st, run step init coldTrack = some st ∧
    tally coldTrack = ⟨1, ["serres", "serres"], 2⟩ ∧ st.timers.length ≤ 1 := by
  obtain ⟨st, hst⟩ := Option.isSome_iff_exists.mp
    (show (run step init coldTrack).isSome = true by decide)
  exact ⟨st, hst, by decide, (polling_bounded coldTrack hst).1⟩

theorem closed_quiet_coldTrack : ∃ st,
    run step init (coldTrack ++ .openForSession none :: [.settle, .followSession]) = some st ∧
      step st .sendSession = none ∧ st.timers = [] := by
  obtain ⟨st, hst⟩ := Option.isSome_iff_exists.mp (show (run step init
    (coldTrack ++ .openForSession none :: [.settle, .followSession])).isSome = true by decide)
  have hquiet := closed_quiet coldTrack [.settle, .followSession] hst fun e he => by
    rcases List.mem_pair.mp he with rfl | rfl <;> exact id
  exact ⟨st, hst, hquiet.2.2.1, hquiet.2.2.2.1⟩

end Requests

end TelemetryCloud.TrackMapRetries
