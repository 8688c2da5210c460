import TelemetryCloud.Runs
import Mathlib.Logic.Function.Basic
import Mathlib.Algebra.Order.Ring.Int

/-!
# One browser's session: cookie, denylist and sliding refresh

The browser keeps one `Authentication` cookie.  Each request is verified, handled and then passed
through `SlidingSessionInterceptor`, at three instants that do not go backwards; the `Set-Cookie`
headers are applied in the order they were appended, so the last one wins.  Redis answers.  The JWT
library is a parameter, with what it documents of `sign` and `verify` (`Jwt.Documented`).

* `revoke`, `isRevoked` : `TokenRevocationService`;
* `validate`, `userFromToken` : the two ways a token is accepted;
* `serve` : one request, through `JwtAuthGuard`, its handler and the interceptor;
* `logout_final` : **a logout is final as long as it is not itself refreshed**;
* `stale_logout_unfinal` : a logout with a token old enough to be refreshed leaves an accepted token
  in the jar.
-/

namespace TelemetryCloud.BrowserSession

open Runs

/-! ### Tokens and the denylist -/

/-- A row of `users`, by its id. -/
structure User where
  id : ℕ
  deriving DecidableEq, Repr

/-- A token signed by this server: `TokenPayload`.  `iat` and `exp` are in seconds. -/
structure Token where
  userId : ℕ
  jti : Option ℕ
  iat : Option ℤ
  exp : Option ℤ
  deriving DecidableEq, Repr

/-- `Math.floor(ms / 1000)`. -/
def seconds (ms : ℤ) : ℤ := ms / 1000

/-- A number as a condition: `undefined` and `0` are false. -/
def truthy (n : Option ℤ) : Option ℤ := n.filter (· ≠ 0)

/-- The entries under `auth:revoked:`, each with the instant (in milliseconds) it expires. -/
abbrev Denylist : Type := ℕ → Option ℤ

/-- `TokenRevocationService.revoke`. -/
def revoke (denylist : Denylist) (now : ℤ) (jti : Option ℕ) (exp : Option ℤ) : Denylist :=
  match jti with
  | none => denylist
  | some id =>
    let ttlSeconds := match truthy exp with
      | some e => e - seconds now
      | none => 0
    if ttlSeconds ≤ 0 then denylist
    else Function.update denylist id (some (now + ttlSeconds * 1000))

/-- `TokenRevocationService.isRevoked`. -/
def isRevoked (denylist : Denylist) (now : ℤ) (jti : Option ℕ) : Bool :=
  match jti.bind denylist with
  | none => false
  | some expiresAt => now < expiresAt

/-- The JWT library: what `sign` makes of a payload at an instant, given `expiresIn`, and whether
`verify` accepts a token with a good signature at one. -/
structure Jwt where
  sign : (userId jti : ℕ) → (expiresIn now : ℤ) → Token
  verify : (now : ℤ) → Token → Bool

/-- What the library documents: a token carries its payload, the second it was signed in as `iat`, and
`exp`, that is `expiresIn` later; and it is accepted until its `exp`, and refused from then on. -/
structure Jwt.Documented (J : Jwt) : Prop where
  userId : ∀ userId jti expiresIn now, (J.sign userId jti expiresIn now).userId = userId
  jti : ∀ userId jti expiresIn now, (J.sign userId jti expiresIn now).jti = some jti
  iat : ∀ userId jti expiresIn now, (J.sign userId jti expiresIn now).iat = some (seconds now)
  exp : ∀ userId jti expiresIn now,
    (J.sign userId jti expiresIn now).exp = some (seconds now + expiresIn)
  verify_iff : ∀ now token exp, token.exp = some exp → (J.verify now token = true ↔ seconds now < exp)

/-! ### Requests -/

/-- `logout`, `login` with what `verifyUser` answered, or any other route behind `JwtAuthGuard`
with whether its handler succeeded and whether the response was already on the wire. -/
inductive Route
  | login (user : Option User)
  | logout
  | other (ok headersSent : Bool)
  deriving DecidableEq, Repr

/-- A request, with the instants of its guard, of its handler and of the interceptor. -/
structure Request where
  route : Route
  verifyAt : ℤ
  handleAt : ℤ
  doneAt : ℤ
  deriving DecidableEq, Repr

/-- A `Set-Cookie` header of the one cookie. -/
inductive SetCookie
  | set (token : Token)
  | clear
  deriving DecidableEq, Repr

structure State where
  jar : Option Token
  denylist : Denylist
  /-- `randomUUID` never repeats: ids from here on have not been used. -/
  nextJti : ℕ
  now : ℤ
  /-- A logout has been answered since the last login. -/
  loggedOut : Bool

/-- What a browser keeps of the headers of a response. -/
def applyCookies (jar : Option Token) (headers : List SetCookie) : Option Token :=
  headers.foldl (fun _ header => match header with
    | .set token => some token
    | .clear => none) jar

section Server

variable (J : Jwt) (fetchUser : ℕ → Option User) (expiration refreshAfter : ℤ)

/-- `JwtStrategy.validate`, behind the JWT library. -/
def validate (denylist : Denylist) (now : ℤ) (token : Token) : Option User :=
  if J.verify now token && !isRevoked denylist now token.jti then fetchUser token.userId else none

/-- `AuthService.userFromToken`. -/
def userFromToken (denylist : Denylist) (now : ℤ) (token : Token) : Option (User × Option ℤ) :=
  if J.verify now token then
    if isRevoked denylist now token.jti then none
    else (fetchUser token.userId).map (·, token.exp)
  else none

/-- The token `AuthService.issueCookie` signs. -/
def mint (jti : ℕ) (now : ℤ) (user : User) : Token := J.sign user.id jti expiration now

/-- `SlidingSessionInterceptor.refreshIfStale`, up to whether the headers are sent. -/
def isStale (now : ℤ) (token : Token) : Bool :=
  match truthy token.iat, token.jti with
  | some iat, some _ => refreshAfter ≤ seconds now - iat
  | _, _ => false

/-- `AuthController.logout`: the denylist and the headers it leaves. -/
def logout (denylist : Denylist) (now : ℤ) (token : Token) : Denylist × List SetCookie :=
  (revoke denylist now token.jti token.exp, [.clear])

/-- A request answered. -/
def serve (st : State) (r : Request) : State :=
  match r.route with
  | .login none => { st with now := r.doneAt }
  | .login (some user) =>
    { st with
      jar := applyCookies st.jar [.set (mint J expiration st.nextJti r.handleAt user)]
      nextJti := st.nextJti + 1
      now := r.doneAt
      loggedOut := false }
  | .logout =>
    match st.jar.bind fun token => (validate J fetchUser st.denylist r.verifyAt token).map (token, ·)
    with
    | none => { st with now := r.doneAt }
    | some (token, user) =>
      let handled := logout st.denylist r.handleAt token
      let refresh := isStale refreshAfter r.doneAt token
      { st with
        jar := applyCookies st.jar (handled.2 ++
          if refresh then [.set (mint J expiration st.nextJti r.doneAt user)] else [])
        denylist := handled.1
        nextJti := if refresh then st.nextJti + 1 else st.nextJti
        now := r.doneAt
        loggedOut := true }
  | .other ok headersSent =>
    match st.jar.bind fun token => (validate J fetchUser st.denylist r.verifyAt token).map (token, ·)
    with
    | none => { st with now := r.doneAt }
    | some (token, user) =>
      let refresh := ok && !headersSent && isStale refreshAfter r.doneAt token
      { st with
        jar := applyCookies st.jar
          (if refresh then [.set (mint J expiration st.nextJti r.doneAt user)] else [])
        nextJti := if refresh then st.nextJti + 1 else st.nextJti
        now := r.doneAt }

/-- One request after another: time does not go backwards. -/
def step (st : State) (r : Request) : Option State :=
  if st.now ≤ r.verifyAt ∧ r.verifyAt ≤ r.handleAt ∧ r.handleAt ≤ r.doneAt then
    some (serve J fetchUser expiration refreshAfter st r)
  else none

/-- **Logged out**: what the jar holds is accepted neither by the guard nor by the live gateway, at
any later instant. -/
def Final (st : State) : Prop :=
  st.loggedOut = true → ∀ token, st.jar = some token → ∀ t, st.now ≤ t →
    validate J fetchUser st.denylist t token = none ∧
      userFromToken J fetchUser st.denylist t token = none

/-- A logout the server answers comes with a token too young to be refreshed. -/
def FreshLogout (st : State) (r : Request) : Prop :=
  r.route = .logout → ∀ token, st.jar = some token →
    (validate J fetchUser st.denylist r.verifyAt token).isSome = true →
      isStale refreshAfter r.doneAt token = false

end Server

section Finality

variable {J : Jwt} {fetchUser : ℕ → Option User} {expiration refreshAfter : ℤ}

/-- Logged out, the jar is empty. -/
def Emptied (st : State) : Prop := st.loggedOut = true → st.jar = none

/-- Once logged out, the jar stays empty until the next login. -/
theorem emptied_step {st st' : State} {r : Request} (hi : Emptied st)
    (hc : FreshLogout J fetchUser refreshAfter st r)
    (h : step J fetchUser expiration refreshAfter st r = some st') : Emptied st' := by
  unfold step at h
  split at h
  · rw [Option.some.injEq] at h
    subst h
    cases hroute : r.route with
    | login user =>
      cases user with
      | none =>
        simp only [serve, hroute]
        exact hi
      | some user => simp [Emptied, serve, hroute]
    | logout =>
      cases hjar : st.jar with
      | none => simp [Emptied, serve, hroute, hjar]
      | some token =>
        cases hval : validate J fetchUser st.denylist r.verifyAt token with
        | none =>
          simp only [Emptied, serve, hroute, hjar, Option.bind_some, hval, Option.map_none]
          simpa [Emptied, hjar] using hi
        | some user =>
          have hyoung := hc hroute token hjar (by rw [hval]; rfl)
          simp [Emptied, serve, hroute, hjar, hval, hyoung, logout, applyCookies]
    | other ok headersSent =>
      cases hjar : st.jar with
      | none => simp [Emptied, serve, hroute, hjar]
      | some token =>
        -- a token in the jar: nobody has logged out
        have hin : st.loggedOut ≠ true := by
          intro hout
          rw [hi hout] at hjar
          cases hjar
        cases hval : validate J fetchUser st.denylist r.verifyAt token <;>
          simp [Emptied, serve, hroute, hjar, hval, hin]
  · cases h

/-- **Logout is final for the browser that made it**, in every sequence of requests whose logouts
come with tokens younger than `JWT_REFRESH_AFTER`. -/
theorem logout_final (s₀ st : State) (rs : List Request) (hs : s₀.loggedOut = false)
    (hc : Meets (step J fetchUser expiration refreshAfter) (FreshLogout J fetchUser refreshAfter) s₀ rs)
    (h : run (step J fetchUser expiration refreshAfter) s₀ rs = some st) : Final J fetchUser st := by
  have hempty : Emptied st := by
    refine run_invariant (step J fetchUser expiration refreshAfter) ?_ rs s₀ st ?_ hc h
    · intro s r t hi hcr ht
      exact emptied_step hi hcr ht
    · simp [Emptied, hs]
  intro hout token hjar
  rw [hempty hout] at hjar
  cases hjar

/-- Revoking a token changes no entry but its own. -/
theorem revoke_of_ne {denylist : Denylist} {now : ℤ} {jti : Option ℕ} {exp : Option ℤ} {id : ℕ}
    (h : ∀ j, jti = some j → j ≠ id) : revoke denylist now jti exp id = denylist id := by
  cases jti with
  | none => rfl
  | some j =>
    simp only [revoke]
    generalize (match truthy exp with | some e => e - seconds now | none => 0) = ttl
    split
    · rfl
    · rw [Function.update_of_ne (h j rfl).symm]

/-- A logout with an older token is answered with a fresh cookie after the cleared one, and that
token is accepted. -/
theorem stale_logout_unfinal (hJ : J.Documented) {st st' : State} {r : Request} {token : Token}
    (hexp : 0 < expiration) (hfresh : st.denylist st.nextJti = none)
    (hused : ∀ jti, token.jti = some jti → jti ≠ st.nextJti)
    (hroute : r.route = .logout) (hjar : st.jar = some token)
    (hids : ∀ id user, fetchUser id = some user → user.id = id)
    (hval : (validate J fetchUser st.denylist r.verifyAt token).isSome = true)
    (hstale : isStale refreshAfter r.doneAt token = true)
    (h : step J fetchUser expiration refreshAfter st r = some st') : ¬ Final J fetchUser st' := by
  obtain ⟨user, huser⟩ := Option.isSome_iff_exists.mp hval
  unfold step at h
  split at h
  · rw [Option.some.injEq] at h
    subst h
    intro hfinal
    have hdenied : (revoke st.denylist r.handleAt token.jti token.exp) st.nextJti = none := by
      rw [revoke_of_ne hused]
      exact hfresh
    have hfetch : fetchUser user.id = some user := by
      unfold validate at huser
      split at huser
      · rw [hids _ _ huser]
        exact huser
      · cases huser
    have hverify : J.verify r.doneAt (mint J expiration st.nextJti r.doneAt user) = true :=
      (hJ.verify_iff _ _ _ (hJ.exp ..)).mpr (by omega)
    have haccepted : validate J fetchUser (revoke st.denylist r.handleAt token.jti token.exp) r.doneAt
        (mint J expiration st.nextJti r.doneAt user) = some user := by
      rw [validate, hverify, mint, hJ.jti, hJ.userId]
      simp [isRevoked, hdenied, hfetch]
    have hnone := hfinal (by simp [serve, hroute, hjar, huser])
      (mint J expiration st.nextJti r.doneAt user)
      (by simp [serve, hroute, hjar, huser, hstale, logout, applyCookies]) r.doneAt
      (by simp [serve, hroute, hjar, huser])
    simp only [serve, hroute, hjar, Option.bind_some, huser, Option.map_some, logout,
      haccepted, reduceCtorEq, false_and] at hnone
  · cases h

end Finality

section Example

/-- A library that does what is documented. -/
def exampleJwt : Jwt where
  sign userId jti expiresIn now := ⟨userId, some jti, some (seconds now), some (seconds now + expiresIn)⟩
  verify now token := token.exp.elim true (seconds now < ·)

theorem exampleJwt_documented : exampleJwt.Documented where
  userId _ _ _ _ := rfl
  jti _ _ _ _ := rfl
  iat _ _ _ _ := rfl
  exp _ _ _ _ := rfl
  verify_iff now token exp hexp := by
    show token.exp.elim true (seconds now < ·) = true ↔ _
    rw [hexp]
    exact decide_eq_true_iff

/-- One user, and a browser that has never been here. -/
def exampleUsers (id : ℕ) : Option User := if id = 1 then some ⟨1⟩ else none

def newBrowser : State := ⟨none, fun _ => none, 1, 0, false⟩

/-- Log in, and log out `age` seconds later. -/
def loginLogout (age : ℤ) : List Request :=
  [⟨.login (some ⟨1⟩), 1000000, 1000000, 1000000⟩,
    ⟨.logout, 1000000 + age * 1000, 1000000 + age * 1000, 1000000 + age * 1000⟩]

theorem logout_final_afterTenSeconds :
    ∃ st, run (step exampleJwt exampleUsers 86400 900) newBrowser (loginLogout 10) = some st ∧
      st.loggedOut = true ∧ Final exampleJwt exampleUsers st := by
  have hrun : (run (step exampleJwt exampleUsers 86400 900) newBrowser (loginLogout 10)).map State.loggedOut =
      some true := by decide
  obtain ⟨st, hst, hout⟩ := Option.map_eq_some_iff.mp hrun
  refine ⟨st, hst, hout, logout_final newBrowser st (loginLogout 10) rfl ?_ hst⟩
  refine ⟨by simp [FreshLogout], fun mid hmid => ⟨?_, fun _ _ => trivial⟩⟩
  have hjar : mid.jar = some (mint exampleJwt 86400 1 1000000 ⟨1⟩) := by
    cases hmid
    rfl
  intro _ token htoken _
  rw [hjar, Option.some.injEq] at htoken
  subst htoken
  decide

/-- A logout a quarter of an hour after the login leaves a token that is accepted. -/
theorem logout_refreshed : ¬ ∀ (rs : List Request) (st : State),
    run (step exampleJwt exampleUsers 86400 900) newBrowser rs = some st → Final exampleJwt exampleUsers st := by
  intro h
  have hrun : (run (step exampleJwt exampleUsers 86400 900) newBrowser (loginLogout 900)).map
      (fun st => (st.loggedOut, st.now, st.jar, st.jar.bind fun token =>
        validate exampleJwt exampleUsers st.denylist st.now token)) =
      some (true, 1900000, some (mint exampleJwt 86400 2 1900000 ⟨1⟩), some ⟨1⟩) := by decide
  obtain ⟨st, hst, hfields⟩ := Option.map_eq_some_iff.mp hrun
  simp only [Prod.mk.injEq] at hfields
  obtain ⟨hout, -, hjar, haccepted⟩ := hfields
  rw [hjar, Option.bind_some] at haccepted
  rw [(h _ st hst hout _ hjar st.now le_rfl).1] at haccepted
  cases haccepted

end Example

end TelemetryCloud.BrowserSession
