import TelemetryCloud.BrowserSession

/-!
# A session that is used stays, and one that is not goes

One browser with any number of tabs.  Requests overlap: each carries what the jar held when it was
sent, is verified, handled and passed through `SlidingSessionInterceptor` at instants of its own, and
its answer reaches the jar some time later, in any order.

* `step` : a request goes out or on, or time passes; `InUse` : what a tab that is used keeps to;
* `Fresh` : the jar holds a token that is young enough at an instant;
* `Inv`, `inv_step` : what holds while the tabs are used, and **what one step leaves true** of it;
* `in_use_kept` : **a session that is used never expires**: no request is refused;
* `abandoned_dies` : **one that is not used dies**: every token is of a user who signed in, and none
  outlives `JWT_EXPIRATION` from now.
-/

namespace TelemetryCloud.SlidingSession

open Runs
open BrowserSession (User Token Jwt Route SetCookie Denylist seconds truthy applyCookies validate
  userFromToken isRevoked mint isStale logout exampleJwt exampleJwt_documented)

/-! ### Requests that overlap -/

/-- How far a request has come: on its way, past the guard, past its handler, or on its way back. -/
inductive Phase
  | sent
  | admitted (user : User)
  | handled (user : User) (headers : List SetCookie)
  | answered (headers : List SetCookie)

structure Request where
  route : Route
  /-- What the jar held when it was sent. -/
  token : Option Token
  sentAt : ℤ
  phase : Phase

/-- The request answers with success, while a cookie can still be set. -/
def refreshing : Route → Bool
  | .other ok headersSent => ok && !headersSent
  | _ => false

structure State where
  jar : Option Token
  denylist : Denylist
  /-- `randomUUID` never repeats: ids from here on have not been used. -/
  nextJti : ℕ
  now : ℤ
  requests : ℕ → Option Request
  nextRequest : ℕ
  /-- When the session was used: the sign-in and the requests that succeed, the latest first. -/
  uses : List ℤ

inductive Event
  | send (route : Route)
  | proceed (i : ℕ)
  | tick (now : ℤ)

def State.put (st : State) (i : ℕ) (r : Request) : State :=
  { st with requests := Function.update st.requests i (some r) }

section Server

variable (J : Jwt) (fetchUser : ℕ → Option User) (expiration refreshAfter : ℤ)

/-- `issueCookie`, at the end of the headers. -/
def State.issue (st : State) (i : ℕ) (r : Request) (user : User) (headers : List SetCookie) : State :=
  { st.put i { r with
      phase := .answered (headers ++ [.set (mint J expiration st.nextJti st.now user)]) } with
    nextJti := st.nextJti + 1 }

/-- `SlidingSessionInterceptor`, once the handler is over. -/
def intercept (st : State) (i : ℕ) (r : Request) (user : User) (headers : List SetCookie) : State :=
  if (refreshing r.route || r.route = .logout) &&
      r.token.any (isStale refreshAfter st.now) then
    st.issue J expiration i r user headers
  else st.put i { r with phase := .answered headers }

def proceed (st : State) (i : ℕ) (r : Request) : State :=
  match r.phase, r.route with
  | .sent, .login none => st.put i { r with phase := .answered [] }
  | .sent, .login (some user) => st.issue J expiration i r user []
  | .sent, _ =>
    match r.token.bind (validate J fetchUser st.denylist st.now) with
    | none => st.put i { r with phase := .answered [] }
    | some user => st.put i { r with phase := .admitted user }
  | .admitted user, .logout =>
    match r.token with
    | none => st.put i { r with phase := .handled user [] }
    | some token =>
      { st.put i { r with phase := .handled user (logout st.denylist st.now token).2 } with
        denylist := (logout st.denylist st.now token).1 }
  | .admitted user, _ => st.put i { r with phase := .handled user [] }
  | .handled user headers, _ => intercept J expiration refreshAfter st i r user headers
  | .answered headers, _ =>
    { st with
      jar := applyCookies st.jar headers
      requests := Function.update st.requests i none }

def step (st : State) : Event → Option State
  | .send route =>
    some { st with
      requests := Function.update st.requests st.nextRequest (some ⟨route, st.jar, st.now, .sent⟩)
      nextRequest := st.nextRequest + 1
      uses := if refreshing route then st.now :: st.uses else st.uses }
  | .proceed i => (st.requests i).map (proceed J fetchUser expiration refreshAfter st i)
  | .tick now => if st.now ≤ now then some { st with now := now } else none

end Server

/-- The tabs are used: nobody signs out or in again, an answer takes no longer than `latency`, and
between two requests that succeed there is no more than `gap`. -/
def InUse (latency gap : ℤ) (st : State) : Event → Prop
  | .send route => ∃ ok headersSent, route = .other ok headersSent
  | .proceed _ => True
  | .tick now => (∀ i r, st.requests i = some r → now ≤ r.sentAt + latency) ∧
      ∀ s, st.uses.head? = some s → now ≤ s + gap

/-! ### Young tokens -/

section Young

variable {J : Jwt} {refreshAfter expiration : ℤ} {user : User} {st : State}

/-- The token is not due for a refresh at the instant. -/
def Young (refreshAfter x : ℤ) (token : Token) : Prop := isStale refreshAfter x token = false

/-- What the jar holds is young at the instant. -/
def Fresh (refreshAfter : ℤ) (st : State) (x : ℤ) : Prop :=
  ∀ token, st.jar = some token → Young refreshAfter x token

/-- The token was issued to the user, not at the epoch, and is not revoked. -/
def Own (J : Jwt) (expiration : ℤ) (user : User) (st : State) (token : Token) : Prop :=
  ∃ jti at', token = mint J expiration jti at' user ∧ 1000 ≤ at' ∧ st.denylist jti = none

theorem Young.mono {x y : ℤ} {token : Token} (h : Young refreshAfter x token) (hle : y ≤ x) :
    Young refreshAfter y token := by
  unfold Young isStale at h ⊢
  split at h
  · have hseconds : seconds y ≤ seconds x := Int.ediv_le_ediv (by decide) hle
    rw [decide_eq_false_iff_not] at h ⊢
    omega
  · rfl

theorem Fresh.mono {x y : ℤ} (h : Fresh refreshAfter st x) (hle : y ≤ x) : Fresh refreshAfter st y :=
  fun token hjar => (h token hjar).mono hle

theorem young_mint_iff (hJ : J.Documented) {jti : ℕ} {at' x : ℤ} (hat : 1000 ≤ at') :
    Young refreshAfter x (mint J expiration jti at' user) ↔ seconds x - seconds at' < refreshAfter := by
  have hiat : truthy (some (seconds at')) = some (seconds at') := by
    have hne : seconds at' ≠ 0 := by
      unfold seconds
      omega
    rw [truthy, Option.filter_some, if_pos (decide_eq_true hne)]
  unfold Young isStale mint
  rw [hJ.iat, hiat, hJ.jti]
  simp only [decide_eq_false_iff_not, not_le]

theorem young_mint (hJ : J.Documented) (hrefresh : 0 < refreshAfter) {jti : ℕ} {at' x : ℤ} (hat : 1000 ≤ at')
    (hle : x ≤ at') : Young refreshAfter x (mint J expiration jti at' user) := by
  have hseconds : seconds x ≤ seconds at' := Int.ediv_le_ediv (by decide) hle
  rw [young_mint_iff hJ hat]
  omega

variable {fetchUser : ℕ → Option User}

/-- **A token that was young not long ago is accepted.** -/
theorem accepted_of_young (hJ : J.Documented) (hfetch : fetchUser user.id = some user) {token : Token}
    (hown : Own J expiration user st token) {ago : ℤ}
    (hago : refreshAfter * 1000 + ago ≤ expiration * 1000)
    (hyoung : Young refreshAfter (st.now - ago) token) :
    validate J fetchUser st.denylist st.now token = some user := by
  obtain ⟨jti, at', rfl, hat, hdenied⟩ := hown
  rw [young_mint_iff hJ hat] at hyoung
  have hverify : J.verify st.now (mint J expiration jti at' user) = true := by
    refine (hJ.verify_iff _ _ _ (hJ.exp ..)).mpr ?_
    unfold seconds at hyoung ⊢
    omega
  have hrevoked : isRevoked st.denylist st.now (some jti) = false := by
    simp only [isRevoked, Option.bind_some, hdenied]
  rw [validate, hverify, mint, hJ.jti, hJ.userId, hrevoked]
  exact hfetch

end Young

/-! ### A session that is used -/

section Used

section Invariant

variable (J : Jwt) (expiration refreshAfter latency gap : ℤ) (user : User) (st : State)

/-- What the phases of a request leave true: what an answer holds is a token of its own, and only a
request whose token is young has none to hold. -/
def Proper (r : Request) : Phase → Prop
  | .sent => True
  | .admitted admitted => admitted = user
  | .handled admitted headers => admitted = user ∧ headers = []
  | .answered headers =>
    (headers = [] ∧ (refreshing r.route = true →
      ∀ token, r.token = some token → Young refreshAfter r.sentAt token)) ∨
    ∃ token, headers = [.set token] ∧ Own J expiration user st token ∧
      Young refreshAfter r.sentAt token

/-- What holds of a request under way. -/
structure Carried (r : Request) : Prop where
  route : ∃ ok headersSent, r.route = .other ok headersSent
  sentAt_le : r.sentAt ≤ st.now
  le_sentAt : st.now ≤ r.sentAt + latency
  token : ∃ token, r.token = some token ∧ Own J expiration user st token ∧
    Young refreshAfter (r.sentAt - (2 * latency + gap)) token
  since : r.token = st.jar ∨ Fresh refreshAfter st (r.sentAt - latency)
  phase : Proper J expiration refreshAfter user st r r.phase

/-- A use of the session has left a young token in the jar, or is still under way. -/
def Noted (s : ℤ) : Prop :=
  Fresh refreshAfter st (s - latency) ∨
    ∃ i r, st.requests i = some r ∧ r.sentAt = s ∧ refreshing r.route = true

/-- What holds while the tabs are used. -/
structure Inv : Prop where
  now : 1000 ≤ st.now
  ids : ∀ jti, st.nextJti ≤ jti → st.denylist jti = none
  next : ∀ i, st.nextRequest ≤ i → st.requests i = none
  jar : ∃ token, st.jar = some token ∧ Own J expiration user st token
  carried : ∀ i r, st.requests i = some r →
    Carried J expiration refreshAfter latency gap user st r
  uses_le : ∀ s ∈ st.uses, s ≤ st.now
  noted : ∀ s ∈ st.uses, Noted refreshAfter latency st s
  chain : st.uses.IsChain fun later earlier => later ≤ earlier + gap
  first : ∃ s, st.uses.getLast? = some s ∧ Fresh refreshAfter st (s - latency)
  active : ∀ s, st.uses.head? = some s → st.now ≤ s + gap

end Invariant

variable {J : Jwt} {fetchUser : ℕ → Option User} {expiration refreshAfter latency gap : ℤ}
  {user : User} {st st' : State}

/-- The latest use that is not under way any more was not long ago: the one after it is, or there is
none. -/
theorem fresh_of_uses
    (hcarried : ∀ i r, st.requests i = some r →
      Carried J expiration refreshAfter latency gap user st r)
    {uses : List ℤ} (hnoted : ∀ s ∈ uses, Noted refreshAfter latency st s)
    (hchain : uses.IsChain fun later earlier => later ≤ earlier + gap)
    (hfirst : ∃ s, uses.getLast? = some s ∧ Fresh refreshAfter st (s - latency))
    (hhead : ∀ s, uses.head? = some s → st.now ≤ s + gap + latency) :
    Fresh refreshAfter st (st.now - (2 * latency + gap)) := by
  induction uses with
  | nil =>
    obtain ⟨_, hlast, _⟩ := hfirst
    cases hlast
  | cons s uses ih =>
    have hnow := hhead s rfl
    rcases hnoted s List.mem_cons_self with hfresh | ⟨i, r, hr, rfl, _⟩
    · exact hfresh.mono (by omega)
    · have hle := (hcarried i r hr).le_sentAt
      cases uses with
      | nil =>
        obtain ⟨last, hlast, hfresh⟩ := hfirst
        rw [List.getLast?_singleton, Option.some.injEq] at hlast
        exact hfresh.mono (by omega)
      | cons earlier uses =>
        obtain ⟨hgap, hchain⟩ := List.isChain_cons_cons.mp hchain
        refine ih (fun s hs => hnoted s (List.mem_cons_of_mem _ hs)) hchain ?_ ?_
        · obtain ⟨last, hlast, hfresh⟩ := hfirst
          exact ⟨last, by rwa [List.getLast?_cons_cons] at hlast, hfresh⟩
        · intro s hs
          cases hs
          omega

/-- **What the jar holds is young enough**, in every state. -/
theorem Inv.fresh (h : Inv J expiration refreshAfter latency gap user st) (hlatency : 0 ≤ latency) :
    Fresh refreshAfter st (st.now - (2 * latency + gap)) :=
  fresh_of_uses h.carried h.noted h.chain h.first fun s hs => by
    have := h.active s hs
    omega

/-- Time passes. -/
theorem inv_tick (h : Inv J expiration refreshAfter latency gap user st) {now : ℤ} (hle : st.now ≤ now)
    (huse : InUse latency gap st (.tick now)) :
    Inv J expiration refreshAfter latency gap user { st with now := now } where
  now := h.now.trans hle
  ids := h.ids
  next := h.next
  jar := h.jar
  carried i r hr := by
    have hr' := h.carried i r hr
    exact ⟨hr'.route, hr'.sentAt_le.trans hle, huse.1 i r hr, hr'.token, hr'.since, hr'.phase⟩
  uses_le s hs := (h.uses_le s hs).trans hle
  noted := h.noted
  chain := h.chain
  first := h.first
  active := huse.2

/-- A request goes out. -/
theorem inv_send (h : Inv J expiration refreshAfter latency gap user st) (hlatency : 0 ≤ latency)
    (hgap : 0 ≤ gap) {ok headersSent : Bool}
    (hst' : step J fetchUser expiration refreshAfter st (.send (.other ok headersSent)) = some st') :
    Inv J expiration refreshAfter latency gap user st' := by
  cases hst'
  have hkept : ∀ {i r}, st.requests i = some r → Function.update st.requests st.nextRequest
      (some ⟨.other ok headersSent, st.jar, st.now, .sent⟩) i = some r := by
    intro i r hr
    rwa [Function.update_of_ne]
    rintro rfl
    rw [h.next _ le_rfl] at hr
    cases hr
  have hnoted : ∀ s ∈ st.uses, Fresh refreshAfter st (s - latency) ∨
      ∃ i r, Function.update st.requests st.nextRequest
        (some ⟨.other ok headersSent, st.jar, st.now, .sent⟩) i = some r ∧ r.sentAt = s ∧
          refreshing r.route = true := by
    intro s hs
    rcases h.noted s hs with hfresh | ⟨i, r, hr, hs, hcounts⟩
    · exact .inl hfresh
    · exact .inr ⟨i, r, hkept hr, hs, hcounts⟩
  refine ⟨h.now, h.ids, fun i hi => ?_, h.jar, fun i r hr => ?_, ?_, ?_, ?_, ?_, ?_⟩
  · have hlt : st.nextRequest < i := hi
    show Function.update st.requests st.nextRequest _ i = none
    rw [Function.update_of_ne (by omega)]
    exact h.next i hlt.le
  · dsimp only at hr
    rcases eq_or_ne i st.nextRequest with rfl | hne
    · rw [Function.update_self, Option.some.injEq] at hr
      subst hr
      obtain ⟨token, hjar, hown⟩ := h.jar
      exact ⟨⟨ok, headersSent, rfl⟩, le_rfl, le_add_of_nonneg_right hlatency,
        ⟨token, hjar, hown, h.fresh hlatency token hjar⟩, .inl rfl, trivial⟩
    · rw [Function.update_of_ne hne] at hr
      obtain ⟨hroute, hsent, hle, htoken, hsince, hphase⟩ := h.carried i r hr
      exact ⟨hroute, hsent, hle, htoken, hsince, hphase⟩
  all_goals
    dsimp only
    split
  · rintro s (_ | ⟨_, hs⟩)
    · exact le_rfl
    · exact h.uses_le s hs
  · exact h.uses_le
  · next hcounts =>
    rintro s (_ | ⟨_, hs⟩)
    · exact .inr ⟨st.nextRequest, _, Function.update_self .., rfl, hcounts⟩
    · exact hnoted s hs
  · exact hnoted
  · cases huses : st.uses with
    | nil => exact .singleton _
    | cons s uses =>
      exact List.isChain_cons_cons.mpr ⟨h.active s (by rw [huses]; rfl), huses ▸ h.chain⟩
  · exact h.chain
  · obtain ⟨last, hlast, hfresh⟩ := h.first
    refine ⟨last, ?_, hfresh⟩
    rw [List.getLast?_cons, hlast]
    rfl
  · exact h.first
  · intro s hs
    cases hs
    omega
  · exact h.active

/-- A request comes to another phase, and an id may be used up. -/
theorem inv_put (h : Inv J expiration refreshAfter latency gap user st) {i : ℕ} {r : Request}
    (hr : st.requests i = some r) {phase : Phase}
    (hphase : Proper J expiration refreshAfter user st r phase) {nextJti : ℕ}
    (hids : st.nextJti ≤ nextJti) :
    Inv J expiration refreshAfter latency gap user
      { st.put i { r with phase := phase } with nextJti := nextJti } where
  now := h.now
  ids jti hjti := h.ids jti (hids.trans hjti)
  next j hj := by
    have hne : j ≠ i := by
      rintro rfl
      rw [h.next j hj] at hr
      cases hr
    show Function.update st.requests i _ j = none
    rw [Function.update_of_ne hne]
    exact h.next j hj
  jar := h.jar
  carried j r' hr' := by
    dsimp only [State.put] at hr'
    rcases eq_or_ne j i with rfl | hne
    · rw [Function.update_self, Option.some.injEq] at hr'
      subst hr'
      obtain ⟨hroute, hsent, hle, htoken, hsince, -⟩ := h.carried j r hr
      exact ⟨hroute, hsent, hle, htoken, hsince, hphase⟩
    · rw [Function.update_of_ne hne] at hr'
      obtain ⟨hroute, hsent, hle, htoken, hsince, hphase⟩ := h.carried j r' hr'
      exact ⟨hroute, hsent, hle, htoken, hsince, hphase⟩
  uses_le := h.uses_le
  noted s hs := by
    rcases h.noted s hs with hfresh | ⟨j, r', hr', hs, hcounts⟩
    · exact .inl hfresh
    · rcases eq_or_ne j i with rfl | hne
      · cases hr.symm.trans hr'
        exact .inr ⟨j, _, Function.update_self .., hs, hcounts⟩
      · exact .inr ⟨j, r', (Function.update_of_ne hne _ _).trans hr', hs, hcounts⟩
  chain := h.chain
  first := h.first
  active := h.active

/-- **An answer that arrives leaves the jar young.** -/
theorem inv_arrive (h : Inv J expiration refreshAfter latency gap user st) (hlatency : 0 ≤ latency)
    {i : ℕ} {r : Request} (hr : st.requests i = some r) {headers : List SetCookie}
    (hphase : r.phase = .answered headers) :
    Inv J expiration refreshAfter latency gap user
      { st with
        jar := applyCookies st.jar headers
        requests := Function.update st.requests i none } := by
  have hcarried := h.carried i r hr
  have hanswer := hcarried.phase
  rw [hphase] at hanswer
  -- what was young before the answer set out is young still
  have hfresh : ∀ x ≤ st.now - latency, Fresh refreshAfter st x → ∀ token,
      applyCookies st.jar headers = some token → Young refreshAfter x token := by
    intro x hx hx' token hjar
    rcases hanswer with ⟨rfl, -⟩ | ⟨set, rfl, -, hyoung⟩
    · exact hx' token hjar
    · cases hjar
      have := hcarried.le_sentAt
      exact hyoung.mono (by omega)
  have harrived : refreshing r.route = true → ∀ token,
      applyCookies st.jar headers = some token → Young refreshAfter (r.sentAt - latency) token := by
    intro hcounts token hjar
    rcases hanswer with ⟨rfl, hyoung⟩ | ⟨set, rfl, -, hyoung⟩
    · rcases hcarried.since with hsame | hsince
      · exact (hyoung hcounts token (hsame.trans hjar)).mono (by omega)
      · exact hsince token hjar
    · cases hjar
      exact hyoung.mono (by omega)
  refine ⟨h.now, h.ids, fun j hj => ?_, ?_, fun j r' hr' => ?_, h.uses_le, fun s hs => ?_, h.chain, ?_,
    h.active⟩
  · dsimp only
    rcases eq_or_ne j i with rfl | hne
    · exact Function.update_self ..
    · rw [Function.update_of_ne hne]
      exact h.next j hj
  · rcases hanswer with ⟨rfl, -⟩ | ⟨set, rfl, hown, -⟩
    · exact h.jar
    · exact ⟨set, rfl, hown⟩
  · dsimp only at hr'
    have hne : j ≠ i := by
      rintro rfl
      rw [Function.update_self] at hr'
      cases hr'
    rw [Function.update_of_ne hne] at hr'
    obtain ⟨hroute, hsent, hle, htoken, hsince, hphase'⟩ := h.carried j r' hr'
    refine ⟨hroute, hsent, hle, htoken, ?_, hphase'⟩
    rcases hanswer with ⟨rfl, -⟩ | ⟨set, rfl, -, hyoung⟩
    · exact hsince
    · refine .inr fun token hjar => ?_
      cases hjar
      have := hcarried.le_sentAt
      exact hyoung.mono (by omega)
  · have hle := h.uses_le s hs
    rcases h.noted s hs with hsame | ⟨j, r', hr', rfl, hcounts⟩
    · exact .inl (hfresh _ (by omega) hsame)
    · rcases eq_or_ne j i with rfl | hne
      · cases hr.symm.trans hr'
        exact .inl (harrived hcounts)
      · exact .inr ⟨j, r', (Function.update_of_ne hne _ _).trans hr', rfl, hcounts⟩
  · obtain ⟨last, hlast, hyoung⟩ := h.first
    have hle := h.uses_le last (List.mem_of_getLast? hlast)
    exact ⟨last, hlast, hfresh _ (by omega) hyoung⟩

/-- A request that is carried along is accepted, whenever it comes to the guard. -/
theorem Carried.accepted {r : Request} (h : Carried J expiration refreshAfter latency gap user st r)
    (hJ : J.Documented) (hfetch : fetchUser user.id = some user)
    (hlong : refreshAfter * 1000 + 3 * latency + gap ≤ expiration * 1000) :
    ∃ token, r.token = some token ∧
      validate J fetchUser st.denylist st.now token = some user := by
  obtain ⟨token, htoken, hown, hyoung⟩ := h.token
  have hle := h.le_sentAt
  have hago : refreshAfter * 1000 + (3 * latency + gap) ≤ expiration * 1000 := by omega
  exact ⟨token, htoken, accepted_of_young hJ hfetch hown hago (hyoung.mono (by omega))⟩

/-- What a request does that neither signs in nor out. -/
theorem proceed_other {i : ℕ} {r : Request} {ok headersSent : Bool}
    (hroute : r.route = .other ok headersSent) :
    proceed J fetchUser expiration refreshAfter st i r = match r.phase with
      | .sent => match r.token.bind (validate J fetchUser st.denylist st.now) with
        | none => st.put i { r with phase := .answered [] }
        | some user => st.put i { r with phase := .admitted user }
      | .admitted user => st.put i { r with phase := .handled user [] }
      | .handled user headers => intercept J expiration refreshAfter st i r user headers
      | .answered headers =>
        { st with
          jar := applyCookies st.jar headers
          requests := Function.update st.requests i none } := by
  obtain ⟨route, token, sentAt, phase⟩ := r
  cases hroute
  cases phase <;> rfl

/-- **One step leaves the invariant true.** -/
theorem inv_step (hJ : J.Documented) (hfetch : fetchUser user.id = some user) (hrefresh : 0 < refreshAfter)
    (hlatency : 0 ≤ latency) (hgap : 0 ≤ gap)
    (hlong : refreshAfter * 1000 + 3 * latency + gap ≤ expiration * 1000)
    (h : Inv J expiration refreshAfter latency gap user st) {e : Event} (huse : InUse latency gap st e)
    (hst' : step J fetchUser expiration refreshAfter st e = some st') :
    Inv J expiration refreshAfter latency gap user st' := by
  cases e with
  | send route =>
    obtain ⟨ok, headersSent, rfl⟩ := huse
    exact inv_send h hlatency hgap hst'
  | tick now =>
    obtain ⟨hle, hst'⟩ := Option.ite_none_right_eq_some.mp hst'
    cases hst'
    exact inv_tick h hle huse
  | proceed i =>
    obtain ⟨r, hr, rfl⟩ := Option.map_eq_some_iff.mp hst'
    have hcarried := h.carried i r hr
    obtain ⟨ok, headersSent, hroute⟩ := hcarried.route
    have hphase := hcarried.phase
    rw [proceed_other hroute]
    cases hat : r.phase with
    | sent =>
      obtain ⟨token, htoken, hvalid⟩ := hcarried.accepted hJ hfetch hlong
      have hadmitted : r.token.bind (validate J fetchUser st.denylist st.now) = some user := by
        rw [htoken]
        exact hvalid
      rw [hadmitted]
      have hproper : Proper J expiration refreshAfter user st r (.admitted user) := rfl
      exact inv_put h hr hproper le_rfl
    | admitted admitted =>
      rw [hat] at hphase
      have hproper : Proper J expiration refreshAfter user st r (.handled admitted []) := ⟨hphase, rfl⟩
      exact inv_put h hr hproper le_rfl
    | handled admitted headers =>
      rw [hat] at hphase
      obtain ⟨rfl, rfl⟩ := hphase
      dsimp only [intercept]
      split
      · have hproper : Proper J expiration refreshAfter admitted st r
            (.answered [.set (mint J expiration st.nextJti st.now admitted)]) :=
          Or.inr ⟨_, rfl, ⟨st.nextJti, st.now, rfl, h.now, h.ids _ le_rfl⟩,
            young_mint hJ hrefresh h.now hcarried.sentAt_le⟩
        exact inv_put h hr hproper (Nat.le_succ _)
      · next hkept =>
        have hproper : Proper J expiration refreshAfter admitted st r (.answered []) := by
          refine Or.inl ⟨rfl, fun hcounts token htoken => ?_⟩
          rw [hcounts, htoken] at hkept
          exact Young.mono (Bool.eq_false_iff.mpr hkept) hcarried.sentAt_le
        exact inv_put h hr hproper le_rfl
    | answered headers => exact inv_arrive h hlatency hr hat

/-- A sign-in has just been answered, which is the first use of the session. -/
structure SignedIn (J : Jwt) (expiration : ℤ) (user : User) (st : State) : Prop where
  now : 1000 ≤ st.now
  jar : ∃ jti, st.jar = some (mint J expiration jti st.now user) ∧ st.denylist jti = none
  ids : ∀ jti, st.nextJti ≤ jti → st.denylist jti = none
  requests : ∀ i, st.requests i = none
  uses : st.uses = [st.now]

theorem SignedIn.inv (h : SignedIn J expiration user st) (hJ : J.Documented) (hrefresh : 0 < refreshAfter)
    (hlatency : 0 ≤ latency) (hgap : 0 ≤ gap) :
    Inv J expiration refreshAfter latency gap user st := by
  obtain ⟨jti, hjar, hdenied⟩ := h.jar
  have hfresh : Fresh refreshAfter st (st.now - latency) := by
    intro token htoken
    cases hjar.symm.trans htoken
    exact young_mint hJ hrefresh h.now (by omega)
  have hnone : ∀ {i r}, st.requests i ≠ some r := by
    intro i r hr
    rw [h.requests i] at hr
    cases hr
  refine ⟨h.now, h.ids, fun i _ => h.requests i, ⟨_, hjar, jti, st.now, rfl, h.now, hdenied⟩,
    fun i r hr => absurd hr hnone, ?_, ?_, ?_, ?_, ?_⟩
  all_goals rw [h.uses]
  · intro s hs
    rw [List.mem_singleton.mp hs]
  · intro s hs
    rw [List.mem_singleton.mp hs]
    exact .inl hfresh
  · exact .singleton _
  · exact ⟨st.now, rfl, hfresh⟩
  · intro s hs
    cases hs
    omega

/-- **A session that is used never expires.**  As long as the tabs of a signed-in browser are used, and
the time a token stays young, three answers and the longest pause fit into the life of a token, the jar
holds a token that is accepted in every state, and so does every request on its way, in whatever order
the requests of the tabs overtake one another. -/
theorem in_use_kept (hJ : J.Documented) (hfetch : fetchUser user.id = some user) (hrefresh : 0 < refreshAfter)
    (hlatency : 0 ≤ latency) (hgap : 0 ≤ gap)
    (hlong : refreshAfter * 1000 + 3 * latency + gap ≤ expiration * 1000) {st₀ : State}
    (hstart : SignedIn J expiration user st₀) (es : List Event)
    (huse : Meets (step J fetchUser expiration refreshAfter) (InUse latency gap) st₀ es)
    (hrun : run (step J fetchUser expiration refreshAfter) st₀ es = some st) :
    (∃ token, st.jar = some token ∧ validate J fetchUser st.denylist st.now token = some user) ∧
      ∀ i r, st.requests i = some r → ∃ token, r.token = some token ∧
        validate J fetchUser st.denylist st.now token = some user := by
  have h : Inv J expiration refreshAfter latency gap user st :=
    run_invariant (step J fetchUser expiration refreshAfter)
      (fun _ _ _ hi huse hstep => inv_step hJ hfetch hrefresh hlatency hgap hlong hi huse hstep) es st₀ st
      (hstart.inv hJ hrefresh hlatency hgap) huse hrun
  obtain ⟨token, hjar, hown⟩ := h.jar
  have hago : refreshAfter * 1000 + (2 * latency + gap) ≤ expiration * 1000 := by omega
  exact ⟨⟨token, hjar, accepted_of_young hJ hfetch hown hago (h.fresh hlatency token hjar)⟩,
    fun i r hr => (h.carried i r hr).accepted hJ hfetch hlong⟩

end Used

/-! ### A session that is not used -/

section Abandoned

variable {J : Jwt} {fetchUser : ℕ → Option User} {expiration refreshAfter : ℤ} {Known : ℕ → Prop}
  {st st' : State}

/-- The cookies an answer is going to set. -/
def Phase.cookies : Phase → List SetCookie
  | .handled _ headers => headers
  | .answered headers => headers
  | _ => []

/-- The token is in the jar, comes with a request or goes back with an answer. -/
def Around (st : State) (token : Token) : Prop :=
  st.jar = some token ∨ ∃ i r, st.requests i = some r ∧
    (r.token = some token ∨ .set token ∈ r.phase.cookies)

/-- The token is of a known user, and is dead `JWT_EXPIRATION` from now. -/
def Dated (expiration : ℤ) (Known : ℕ → Prop) (now : ℤ) (token : Token) : Prop :=
  Known token.userId ∧ ∃ exp, token.exp = some exp ∧ exp ≤ seconds now + expiration

/-- What a phase holds is known, or dead in time. -/
def PhaseDated (expiration : ℤ) (Known : ℕ → Prop) (now : ℤ) : Phase → Prop
  | .sent => True
  | .admitted user => Known user.id
  | .handled user headers =>
    Known user.id ∧ ∀ token, .set token ∈ headers → Dated expiration Known now token
  | .answered headers => ∀ token, .set token ∈ headers → Dated expiration Known now token

/-- The users a request is about are known, and so are those of the tokens it carries. -/
structure Bound (expiration : ℤ) (Known : ℕ → Prop) (now : ℤ) (r : Request) : Prop where
  login : ∀ user, r.route = .login (some user) → Known user.id
  token : ∀ token, r.token = some token → Dated expiration Known now token
  phase : PhaseDated expiration Known now r.phase

structure AllDated (expiration : ℤ) (Known : ℕ → Prop) (st : State) : Prop where
  jar : ∀ token, st.jar = some token → Dated expiration Known st.now token
  requests : ∀ i r, st.requests i = some r → Bound expiration Known st.now r

theorem Dated.later {now now' : ℤ} {token : Token} (h : Dated expiration Known now token)
    (hle : now ≤ now') : Dated expiration Known now' token := by
  obtain ⟨hknown, exp, hexp, hdead⟩ := h
  have hseconds : seconds now ≤ seconds now' := Int.ediv_le_ediv (by decide) hle
  exact ⟨hknown, exp, hexp, by omega⟩

theorem dated_mint (hJ : J.Documented) {jti : ℕ} {now : ℤ} {user : User} (h : Known user.id) :
    Dated expiration Known now (mint J expiration jti now user) := by
  refine ⟨?_, _, hJ.exp .., le_rfl⟩
  rw [mint, hJ.userId]
  exact h

/-- What a jar holds after an answer it held before, or the answer has set it. -/
theorem mem_applyCookies {jar : Option Token} {headers : List SetCookie} {token : Token}
    (h : applyCookies jar headers = some token) : jar = some token ∨ .set token ∈ headers := by
  induction headers generalizing jar with
  | nil => exact .inl h
  | cons header headers ih =>
    rcases ih h with hjar | hmem
    · cases header with
      | set set =>
        cases hjar
        exact .inr List.mem_cons_self
      | clear => cases hjar
    · exact .inr (List.mem_cons_of_mem _ hmem)

theorem dated_put {i : ℕ} {r : Request} (h : AllDated expiration Known st)
    (hr : Bound expiration Known st.now r) : AllDated expiration Known (st.put i r) := by
  refine ⟨h.jar, fun j r' hr' => ?_⟩
  dsimp only [State.put] at hr'
  rcases eq_or_ne j i with rfl | hne
  · rw [Function.update_self, Option.some.injEq] at hr'
    exact hr' ▸ hr
  · rw [Function.update_of_ne hne] at hr'
    exact h.requests j r' hr'

theorem Bound.come {now : ℤ} {r : Request} (h : Bound expiration Known now r) (phase : Phase)
    (hphase : PhaseDated expiration Known now phase) :
    Bound expiration Known now { r with phase := phase } := ⟨h.login, h.token, hphase⟩

theorem Bound.later {now now' : ℤ} {r : Request} (h : Bound expiration Known now r)
    (hle : now ≤ now') : Bound expiration Known now' r := by
  refine ⟨h.login, fun token htoken => (h.token token htoken).later hle, ?_⟩
  have hphase := h.phase
  cases hat : r.phase with
  | sent => trivial
  | admitted user =>
    rw [hat] at hphase
    exact hphase
  | handled user headers =>
    rw [hat] at hphase
    exact ⟨hphase.1, fun token hmem => (hphase.2 token hmem).later hle⟩
  | answered headers =>
    rw [hat] at hphase
    exact fun token hmem => (hphase token hmem).later hle

/-- The interceptor, or a sign-in, adds a cookie for a known user. -/
theorem dated_issue (hJ : J.Documented) {i : ℕ} {r : Request} (h : AllDated expiration Known st)
    (hr : Bound expiration Known st.now r) {user : User} (hknown : Known user.id)
    {headers : List SetCookie}
    (hheaders : ∀ token, .set token ∈ headers → Dated expiration Known st.now token) :
    AllDated expiration Known (st.issue J expiration i r user headers) := by
  have hput := dated_put (i := i) h (hr.come
    (.answered (headers ++ [.set (mint J expiration st.nextJti st.now user)])) fun token htoken => ?_)
  · exact ⟨hput.jar, hput.requests⟩
  · rcases List.mem_append.mp htoken with hmem | hmem
    · exact hheaders token hmem
    · cases List.mem_singleton.mp hmem
      exact dated_mint hJ hknown

/-- **No step leaves a token that lives longer than a new one.** -/
theorem dated_step (hJ : J.Documented) (hids : ∀ id user, fetchUser id = some user → user.id = id)
    (h : AllDated expiration Known st) {e : Event}
    (he : ∀ user, e = .send (.login (some user)) → Known user.id)
    (hst' : step J fetchUser expiration refreshAfter st e = some st') :
    AllDated expiration Known st' := by
  cases e with
  | send route =>
    cases hst'
    refine ⟨h.jar, fun i r hr => ?_⟩
    dsimp only at hr
    rcases eq_or_ne i st.nextRequest with rfl | hne
    · rw [Function.update_self, Option.some.injEq] at hr
      subst hr
      exact ⟨fun user hroute => he user (congrArg Event.send hroute), h.jar, trivial⟩
    · rw [Function.update_of_ne hne] at hr
      exact h.requests i r hr
  | tick now =>
    obtain ⟨hle, hst'⟩ := Option.ite_none_right_eq_some.mp hst'
    cases hst'
    exact ⟨fun token hjar => (h.jar token hjar).later hle, fun i r hr => (h.requests i r hr).later hle⟩
  | proceed i =>
    obtain ⟨r, hr, rfl⟩ := Option.map_eq_some_iff.mp hst'
    have hbound := h.requests i r hr
    have hphase := hbound.phase
    have hrefused : AllDated expiration Known (st.put i { r with phase := .answered [] }) :=
      dated_put h (hbound.come _ fun _ hmem => nomatch hmem)
    unfold proceed
    split
    · exact hrefused
    · next user _ hroute =>
      exact dated_issue hJ h hbound (hbound.login user hroute) fun _ hmem => nomatch hmem
    · split
      · exact hrefused
      · next user huser =>
        obtain ⟨token, htoken, hvalid⟩ := Option.bind_eq_some_iff.mp huser
        have hfetch : fetchUser token.userId = some user := by
          unfold validate at hvalid
          exact (Option.ite_none_right_eq_some.mp hvalid).2
        have hknown : Known user.id := hids _ _ hfetch ▸ (hbound.token token htoken).1
        exact dated_put h (hbound.come _ hknown)
    · next user hat _ =>
      rw [hat] at hphase
      split
      · exact dated_put h (hbound.come _ ⟨hphase, fun _ hmem => nomatch hmem⟩)
      · -- the handler of a logout clears the cookie
        have hcleared := dated_put (i := i) h (hbound.come (.handled user [.clear])
          ⟨hphase, fun token hmem => nomatch List.mem_singleton.mp hmem⟩)
        exact ⟨hcleared.jar, hcleared.requests⟩
    · next user hat _ =>
      rw [hat] at hphase
      exact dated_put h (hbound.come _ ⟨hphase, fun _ hmem => nomatch hmem⟩)
    · next user headers hat =>
      rw [hat] at hphase
      unfold intercept
      split
      · exact dated_issue hJ h hbound hphase.1 hphase.2
      · exact dated_put h (hbound.come _ hphase.2)
    · next headers hat =>
      rw [hat] at hphase
      refine ⟨fun token hjar => ?_, fun j r' hr' => ?_⟩
      · rcases mem_applyCookies hjar with hold | hmem
        · exact h.jar token hold
        · exact hphase token hmem
      · dsimp only at hr'
        rcases eq_or_ne j i with rfl | hne
        · rw [Function.update_self] at hr'
          cases hr'
        · rw [Function.update_of_ne hne] at hr'
          exact h.requests j r' hr'

theorem AllDated.around (h : AllDated expiration Known st) {token : Token} (haround : Around st token) :
    Dated expiration Known st.now token := by
  rcases haround with hjar | ⟨i, r, hr, htoken | hmem⟩
  · exact h.jar token hjar
  · exact (h.requests i r hr).token token htoken
  · have hphase := (h.requests i r hr).phase
    cases hat : r.phase with
    | sent => rw [hat] at hmem; cases hmem
    | admitted user => rw [hat] at hmem; cases hmem
    | handled user headers =>
      rw [hat] at hmem hphase
      exact hphase.2 token hmem
    | answered headers =>
      rw [hat] at hmem hphase
      exact hphase token hmem

/-- **A session that is not used dies.**  In every run of a browser that has never been here, every
token there is (in the jar, with a request or in an answer) is of a user who signed in with it, and from
`JWT_EXPIRATION` after the present instant on it is refused everywhere. -/
theorem abandoned_dies (hJ : J.Documented) (hids : ∀ id user, fetchUser id = some user → user.id = id) {st₀ : State}
    (hjar : st₀.jar = none) (hrequests : ∀ i, st₀.requests i = none) (es : List Event)
    (hrun : run (step J fetchUser expiration refreshAfter) st₀ es = some st) {token : Token}
    (haround : Around st token) :
    (∃ user, .send (.login (some user)) ∈ es ∧ user.id = token.userId) ∧
      ∀ denylist t, seconds st.now + expiration ≤ seconds t →
        validate J fetchUser denylist t token = none ∧
          userFromToken J fetchUser denylist t token = none := by
  have hdated : AllDated expiration
      (fun id => ∃ user, Event.send (.login (some user)) ∈ es ∧ user.id = id) st := by
    refine run_invariant (step J fetchUser expiration refreshAfter)
      (fun _ e _ h he hstep => dated_step hJ hids h he hstep) es st₀ st ?_
      (meets_of_forall (step J fetchUser expiration refreshAfter) (P := fun e => ∀ user,
        e = .send (.login (some user)) → ∃ known, Event.send (.login (some known)) ∈ es ∧
          known.id = user.id) (fun e he user heq => ⟨user, heq ▸ he, rfl⟩) st₀) hrun
    refine ⟨fun token h => ?_, fun i r h => ?_⟩
    · rw [hjar] at h
      cases h
    · rw [hrequests i] at h
      cases h
  obtain ⟨hknown, exp, hexp, hdead⟩ := hdated.around haround
  refine ⟨hknown, fun denylist t ht => ?_⟩
  have hverify : J.verify t token = false := by
    rw [← Bool.not_eq_true, hJ.verify_iff _ _ _ hexp]
    omega
  rw [validate, userFromToken, hverify]
  exact ⟨rfl, rfl⟩

end Abandoned

section Example

/-- One user. -/
def users (id : ℕ) : Option User := if id = 1 then some ⟨1⟩ else none

/-- A browser the user has just signed in with. -/
def signedIn : State where
  jar := some (mint exampleJwt 86400 0 1000000 ⟨1⟩)
  denylist _ := none
  nextJti := 1
  now := 1000000
  requests _ := none
  nextRequest := 0
  uses := [1000000]

/-- A request a quarter of an hour later, which is answered with a new cookie after five seconds. -/
def lateRequest : List Event :=
  [.tick 1900000, .send (.other true false), .proceed 0, .proceed 0, .proceed 0, .tick 1905000,
    .proceed 0]

theorem in_use_kept_lateRequest : ∃ st, run (step exampleJwt users 86400 900) signedIn lateRequest = some st ∧
    st.jar = some (mint exampleJwt 86400 1 1900000 ⟨1⟩) ∧
      ∃ token, st.jar = some token ∧ validate exampleJwt users st.denylist st.now token = some ⟨1⟩ := by
  have hrun : (run (step exampleJwt users 86400 900) signedIn lateRequest).map State.jar =
      some (some (mint exampleJwt 86400 1 1900000 ⟨1⟩)) := by decide
  obtain ⟨st, hst, hjar⟩ := Option.map_eq_some_iff.mp hrun
  have huse : Meets (step exampleJwt users 86400 900) (InUse 10000 3600000) signedIn lateRequest := by
    refine ⟨⟨fun _ _ h => (nomatch h), by decide⟩, fun _ h => ?_⟩
    cases h
    refine ⟨⟨true, false, rfl⟩, fun _ h => ?_⟩
    cases h
    refine ⟨trivial, fun _ h => ?_⟩
    cases h
    refine ⟨trivial, fun _ h => ?_⟩
    cases h
    refine ⟨trivial, fun _ h => ?_⟩
    cases h
    refine ⟨⟨fun i r hr => ?_, by decide⟩, fun _ _ => ⟨trivial, fun _ _ => trivial⟩⟩
    rcases eq_or_ne i 0 with rfl | hne
    · cases hr
      decide
    · have hnone : Function.update (Function.update (Function.update (Function.update
          signedIn.requests 0 _) 0 _) 0 _) 0 _ i = some r := hr
      rw [Function.update_of_ne hne, Function.update_of_ne hne, Function.update_of_ne hne,
        Function.update_of_ne hne] at hnone
      cases hnone
  exact ⟨st, hst, hjar, (in_use_kept exampleJwt_documented (show users (User.mk 1).id = some ⟨1⟩ from rfl) (by decide)
    (show (0 : ℤ) ≤ 10000 by decide) (show (0 : ℤ) ≤ 3600000 by decide) (by decide)
    ⟨by decide, ⟨0, rfl, rfl⟩, fun _ _ => rfl, fun _ => rfl, rfl⟩ lateRequest huse hst).1⟩

/-- A browser that has never been here. -/
def newBrowser : State := { signedIn with jar := none, uses := [] }

/-- The user signs in. -/
def signIn : List Event := [.send (.login (some ⟨1⟩)), .proceed 0, .proceed 0]

theorem abandoned_dies_signIn : ∃ st, run (step exampleJwt users 86400 900) newBrowser signIn = some st ∧
    ∃ token, st.jar = some token ∧ token.userId = 1 ∧
      validate exampleJwt users st.denylist 87400000 token = none := by
  have hrun : (run (step exampleJwt users 86400 900) newBrowser signIn).map
      (fun st => (st.jar, st.now)) = some (some (mint exampleJwt 86400 1 1000000 ⟨1⟩), 1000000) := by decide
  obtain ⟨st, hst, hfields⟩ := Option.map_eq_some_iff.mp hrun
  obtain ⟨hjar, hnow⟩ := Prod.mk.inj hfields
  have hids : ∀ id user, users id = some user → user.id = id := by
    intro id user huser
    obtain ⟨rfl, hone⟩ := Option.ite_none_right_eq_some.mp huser
    cases hone
    rfl
  have hdies := abandoned_dies exampleJwt_documented hids rfl (fun _ => rfl) signIn hst (.inl hjar)
  exact ⟨st, hst, _, hjar, rfl, (hdies.2 st.denylist 87400000 (by rw [hnow]; decide)).1⟩

end Example

end TelemetryCloud.SlidingSession
