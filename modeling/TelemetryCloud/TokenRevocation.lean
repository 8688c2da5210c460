import TelemetryCloud.BrowserSession
import Mathlib.Data.List.Basic

/-!
# A revoked token stays refused

`TokenRevocationService` at the instants Redis and the server act on: `revoke` reads the clock, Redis
carries out the `SET` later, and a token is verified and looked up whenever it is presented. Instants
are milliseconds; `exp` and the life of an entry are seconds.

* `revoke`, `isRevoked`, `validate`, `userFromToken` : the code, over what Redis and the JWT library
  answer; `Revocation` : one completed call of `revoke`;
* `Lives`, `OnlySet`, `Expires` : what the code relies on them for;
* `covered_until_exp` : **the entry of a revocation lives until the token is dead**;
* `revoked_refused` : **so the token stays refused, and no other is**;
* `accepted_late` : a token verified before it is dead and looked up after its entry is gone;
* `refused_of_store` : the same of a store in which the last `SET` of a key decides.
-/

namespace TelemetryCloud.TokenRevocation

open BrowserSession (User seconds truthy)

/-! ### The service -/

structure TokenPayload where
  userId : ℕ
  jti : Option String
  exp : Option ℤ
  deriving DecidableEq, Repr

def KEY_PREFIX : String := "auth:revoked:"

/-- An id as a condition: `undefined` and `''` are false. -/
def named (jti : Option String) : Option String := jti.filter (· ≠ "")

/-- `SET key '1' EX ttlSeconds`. -/
structure SetCommand where
  key : String
  ttlSeconds : ℤ
  deriving DecidableEq, Repr

/-- The seconds a token has left. -/
def ttlSeconds (now : ℤ) (exp : Option ℤ) : ℤ := (truthy exp).elim 0 (· - seconds now)

/-- `TokenRevocationService.revoke`: what it sends to Redis, if anything. -/
def revoke (now : ℤ) (jti : Option String) (exp : Option ℤ) : Option SetCommand :=
  match named jti with
  | none => none
  | some jti =>
    if ttlSeconds now exp ≤ 0 then none else some ⟨KEY_PREFIX ++ jti, ttlSeconds now exp⟩

section Server

variable (fetchUser : ℕ → Option User) (verifies : ℤ → TokenPayload → Bool)
  (answers : String → ℤ → Bool)

/-- `TokenRevocationService.isRevoked`, by what `EXISTS` answers. -/
def isRevoked (now : ℤ) (jti : Option String) : Bool :=
  match named jti with
  | none => false
  | some jti => answers (KEY_PREFIX ++ jti) now

/-- `JwtStrategy.validate`, behind the JWT library. -/
def validate (verifiedAt lookedUpAt : ℤ) (token : TokenPayload) : Option User :=
  if verifies verifiedAt token then
    if isRevoked answers lookedUpAt token.jti then none else fetchUser token.userId
  else none

/-- `AuthService.userFromToken`. -/
def userFromToken (verifiedAt lookedUpAt : ℤ) (token : TokenPayload) :
    Option (User × Option ℤ) :=
  if verifies verifiedAt token then
    if isRevoked answers lookedUpAt token.jti then none
    else (fetchUser token.userId).map (·, token.exp)
  else none

end Server

/-- A call of `revoke`: when it read the clock, when Redis carried its `SET` out, and when it was
over. -/
structure Revocation where
  jti : Option String
  exp : Option ℤ
  calledAt : ℤ
  setAt : ℤ
  doneAt : ℤ
  calledAt_nonneg : 0 ≤ calledAt
  calledAt_le : calledAt ≤ setAt
  setAt_le : setAt ≤ doneAt

def Revocation.command (r : Revocation) : Option SetCommand := revoke r.calledAt r.jti r.exp

/-- The call revokes the token: `logout` passes its `jti` and `exp`. -/
def Revocation.Of (r : Revocation) (token : TokenPayload) : Prop :=
  r.jti = token.jti ∧ r.exp = token.exp

/-! ### What the code relies on -/

/-- The JWT library rejects a token from its `exp` on. -/
def Expires (verifies : ℤ → TokenPayload → Bool) : Prop :=
  ∀ now token exp, token.exp = some exp → exp ≤ seconds now → verifies now token = false

/-- An entry lives at least for its seconds. -/
def Lives (answers : String → ℤ → Bool) (r : Revocation) : Prop :=
  ∀ command, r.command = some command → ∀ now, r.setAt ≤ now →
    now < r.setAt + command.ttlSeconds * 1000 → answers command.key now = true

/-- Redis holds no key that nobody set. -/
def OnlySet (answers : String → ℤ → Bool) (history : List Revocation) : Prop :=
  ∀ key now, answers key now = true →
    ∃ r ∈ history, ∃ command, r.command = some command ∧ command.key = key

section Refusal

variable {fetchUser : ℕ → Option User} {verifies : ℤ → TokenPayload → Bool}
  {answers : String → ℤ → Bool} {r : Revocation} {token : TokenPayload} {jti : String} {exp : ℤ}
  {verifiedAt lookedUpAt : ℤ}

theorem named_of_ne (hjti : jti ≠ "") : named (some jti) = some jti :=
  Option.filter_eq_some_iff.mpr ⟨rfl, decide_eq_true hjti⟩

/-- What a call sends for a token that is alive when it reads the clock. -/
theorem command_of_alive (hof : r.Of token) (hjti : token.jti = some jti) (hne : jti ≠ "")
    (hexp : token.exp = some exp) (halive : seconds r.calledAt < exp) :
    r.command = some ⟨KEY_PREFIX ++ jti, exp - seconds r.calledAt⟩ := by
  have hnonneg : 0 ≤ seconds r.calledAt := Int.ediv_nonneg r.calledAt_nonneg (by decide)
  have htruthy : truthy (some exp) = some exp :=
    Option.filter_eq_some_iff.mpr ⟨rfl, decide_eq_true (by omega)⟩
  have httl : ttlSeconds r.calledAt (some exp) = exp - seconds r.calledAt := by
    rw [ttlSeconds, htruthy, Option.elim_some]
  unfold Revocation.command revoke
  rw [hof.1, hof.2, hjti, hexp, named_of_ne hne, httl]
  exact if_neg (by omega)

/-- What a call sends is under the key of its token. -/
theorem key_of_command {command : SetCommand} (h : r.command = some command) :
    ∃ jti, r.jti = some jti ∧ command.key = KEY_PREFIX ++ jti := by
  unfold Revocation.command revoke at h
  split at h
  · cases h
  · next jti hnamed =>
    obtain ⟨-, h⟩ := Option.ite_none_left_eq_some.mp h
    cases h
    exact ⟨jti, (Option.filter_eq_some_iff.mp hnamed).1, rfl⟩

/-- The end of an entry, which was set no earlier than the clock was read, is not before `exp`. -/
theorem exp_le_end (r : Revocation) (exp : ℤ) :
    exp * 1000 ≤ r.setAt + (exp - seconds r.calledAt) * 1000 := by
  have hfloor : seconds r.calledAt * 1000 ≤ r.calledAt := Int.ediv_mul_le _ (by decide)
  have hset := r.calledAt_le
  omega

/-- **The entry of a revocation lives until the token is dead.** -/
theorem covered_until_exp (hlives : Lives answers r) (hof : r.Of token)
    (hjti : token.jti = some jti) (hne : jti ≠ "") (hexp : token.exp = some exp) {now : ℤ}
    (hset : r.setAt ≤ now) (halive : seconds r.calledAt < exp) (hnow : now < exp * 1000) :
    answers (KEY_PREFIX ++ jti) now = true :=
  hlives _ (command_of_alive hof hjti hne hexp halive) now hset
    (lt_of_lt_of_le hnow (exp_le_end r exp))

theorem refused (fetchUser : ℕ → Option User)
    (h : verifies verifiedAt token = false ∨ isRevoked answers lookedUpAt token.jti = true) :
    validate fetchUser verifies answers verifiedAt lookedUpAt token = none ∧
      userFromToken fetchUser verifies answers verifiedAt lookedUpAt token = none := by
  unfold validate userFromToken
  rcases h with h | h
  · rw [h]
    exact ⟨rfl, rfl⟩
  · rw [h]
    exact ⟨ite_self _, ite_self _⟩

/-- A revoked token is refused, but for one that was verified before it was dead and looked up
after. -/
theorem refused_or_late (hexpires : Expires verifies)
    (hcovered : seconds r.calledAt < exp → ∀ now, r.setAt ≤ now → now < exp * 1000 →
      answers (KEY_PREFIX ++ jti) now = true)
    (hjti : token.jti = some jti) (hne : jti ≠ "") (hexp : token.exp = some exp)
    (hverified : r.doneAt ≤ verifiedAt) (hlookedUp : verifiedAt ≤ lookedUpAt) :
    (verifies verifiedAt token = false ∨ isRevoked answers lookedUpAt token.jti = true) ∨
      seconds verifiedAt < exp ∧ exp * 1000 ≤ lookedUpAt := by
  rcases le_or_gt exp (seconds verifiedAt) with hdead | halive
  · exact Or.inl (Or.inl (hexpires verifiedAt token exp hexp hdead))
  rcases le_or_gt (exp * 1000) lookedUpAt with hlate | hearly
  · exact Or.inr ⟨halive, hlate⟩
  refine Or.inl (Or.inr ?_)
  -- the clock was read no later than the token was verified
  have hcalled : seconds r.calledAt ≤ seconds verifiedAt := Int.ediv_le_ediv (by decide)
    (r.calledAt_le.trans (r.setAt_le.trans hverified))
  unfold isRevoked
  rw [hjti, named_of_ne hne]
  exact hcovered (lt_of_le_of_lt hcalled halive) lookedUpAt
    (r.setAt_le.trans (hverified.trans hlookedUp)) hearly

/-- Nobody revoked a token of this id: Redis has no entry for it. -/
theorem isRevoked_eq_false {history : List Revocation} (honly : OnlySet answers history)
    (hother : ∀ r ∈ history, r.jti ≠ token.jti) : isRevoked answers lookedUpAt token.jti = false := by
  unfold isRevoked
  cases hnamed : named token.jti with
  | none => rfl
  | some jti =>
    refine Bool.eq_false_iff.mpr fun hanswer => ?_
    obtain ⟨r, hr, command, hcommand, hkey⟩ := honly _ _ hanswer
    obtain ⟨jti', hjti', hkey'⟩ := key_of_command hcommand
    refine hother r hr ?_
    rw [hjti', (Option.filter_eq_some_iff.mp hnamed).1,
      (String.append_right_inj KEY_PREFIX).mp (hkey'.symm.trans hkey)]

/-- A revoked token that is accepted all the same was verified before it was dead and looked up once
its entry could be gone. -/
theorem accepted_late (hexpires : Expires verifies) (hlives : Lives answers r) (hof : r.Of token)
    (hjti : token.jti = some jti) (hne : jti ≠ "") (hexp : token.exp = some exp)
    (hverified : r.doneAt ≤ verifiedAt) (hlookedUp : verifiedAt ≤ lookedUpAt)
    (haccepted : validate fetchUser verifies answers verifiedAt lookedUpAt token ≠ none ∨
      userFromToken fetchUser verifies answers verifiedAt lookedUpAt token ≠ none) :
    seconds verifiedAt < exp ∧ exp * 1000 ≤ lookedUpAt := by
  have hcovered : seconds r.calledAt < exp → ∀ now, r.setAt ≤ now → now < exp * 1000 →
      answers (KEY_PREFIX ++ jti) now = true := fun halive now hset hnow =>
    covered_until_exp hlives hof hjti hne hexp hset halive hnow
  rcases refused_or_late hexpires hcovered hjti hne hexp hverified hlookedUp with h | h
  · obtain ⟨hvalidate, huser⟩ := refused fetchUser h
    rcases haccepted with haccepted | haccepted
    · exact absurd hvalidate haccepted
    · exact absurd huser haccepted
  · exact h

end Refusal

/-! ### A store -/

/-- Redis as the calls of `revoke` in the order of their `SET`s: the last one of a key decides. -/
def store (history : List Revocation) (key : String) (now : ℤ) : Bool :=
  (history.filter fun r => r.setAt ≤ now ∧ r.command.any (·.key = key)).getLast?.any fun r =>
    now < r.setAt + r.command.elim 0 SetCommand.ttlSeconds * 1000

section Store

variable {history : List Revocation} {token : TokenPayload} {jti : String} {exp : ℤ}

theorem store_onlySet (history : List Revocation) : OnlySet (store history) history := by
  intro key now hanswer
  obtain ⟨r, hlast, -⟩ := (Option.any_eq_true _ _).mp hanswer
  obtain ⟨hr, hkey⟩ := List.mem_filter.mp (List.mem_of_getLast? hlast)
  obtain ⟨command, hcommand, hkey⟩ := (Option.any_eq_true _ _).mp (of_decide_eq_true hkey).2
  exact ⟨r, hr, command, hcommand, of_decide_eq_true hkey⟩

/-- The last `SET` of a token that was revoked more than once covers it as the first did. -/
theorem store_until_exp {r : Revocation} (hr : r ∈ history) (hof : r.Of token)
    (hsame : ∀ r ∈ history, r.jti = token.jti → r.exp = token.exp) (hjti : token.jti = some jti)
    (hne : jti ≠ "") (hexp : token.exp = some exp) (halive : seconds r.calledAt < exp) {now : ℤ}
    (hset : r.setAt ≤ now) (hnow : now < exp * 1000) :
    store history (KEY_PREFIX ++ jti) now = true := by
  have hmem : r ∈ history.filter fun r =>
      r.setAt ≤ now ∧ r.command.any (·.key = KEY_PREFIX ++ jti) := by
    refine List.mem_filter.mpr ⟨hr, decide_eq_true ⟨hset, ?_⟩⟩
    rw [command_of_alive hof hjti hne hexp halive]
    exact decide_eq_true rfl
  unfold store
  obtain ⟨last, hlast⟩ := Option.isSome_iff_exists.mp
    (List.getLast?_isSome.mpr (List.ne_nil_of_mem hmem))
  rw [hlast]
  obtain ⟨hlastMem, hlastKey⟩ := List.mem_filter.mp (List.mem_of_getLast? hlast)
  obtain ⟨hlastSet, hlastKey⟩ := of_decide_eq_true hlastKey
  obtain ⟨command, hcommand, hkey⟩ := (Option.any_eq_true _ _).mp hlastKey
  -- the last call was for this token too
  obtain ⟨jti', hjti', hkey'⟩ := key_of_command hcommand
  have hlastJti : last.jti = token.jti := by
    rw [hjti', hjti, (String.append_right_inj KEY_PREFIX).mp
      (hkey'.symm.trans (of_decide_eq_true hkey))]
  have hlastAlive : seconds last.calledAt < exp := by
    have hcalled := last.calledAt_le
    unfold seconds
    omega
  have hend := exp_le_end last exp
  refine decide_eq_true ?_
  rw [command_of_alive ⟨hlastJti, hsame last hlastMem hlastJti⟩ hjti hne hexp hlastAlive]
  show now < last.setAt + (exp - seconds last.calledAt) * 1000
  omega

/-- **Revoked for good**, however often and in whatever order tokens are revoked, if an id is that of
one token. -/
theorem refused_of_store {fetchUser : ℕ → Option User} {verifies : ℤ → TokenPayload → Bool}
    (hexpires : Expires verifies) {r : Revocation} (hr : r ∈ history) (hof : r.Of token)
    (hsame : ∀ r ∈ history, r.jti = token.jti → r.exp = token.exp) (hjti : token.jti = some jti)
    (hne : jti ≠ "") (hexp : token.exp = some exp) {now : ℤ} (hnow : r.doneAt ≤ now) :
    validate fetchUser verifies (store history) now now token = none ∧
      userFromToken fetchUser verifies (store history) now now token = none := by
  have hcovered : seconds r.calledAt < exp → ∀ now, r.setAt ≤ now → now < exp * 1000 →
      store history (KEY_PREFIX ++ jti) now = true := fun halive now =>
    store_until_exp hr hof hsame hjti hne hexp halive
  refine refused fetchUser
    ((refused_or_late hexpires hcovered hjti hne hexp hnow le_rfl).resolve_right ?_)
  rintro ⟨halive, hlate⟩
  unfold seconds at halive
  omega

end Store

/-! ### Revoked tokens -/

/-- **A revoked token stays refused, and no other is.** Whatever was revoked so far: a token that is
presented once its revocation is over is refused on both ways in, and one whose id nobody revoked is
looked up as if there were no denylist. -/
theorem revoked_refused {fetchUser : ℕ → Option User} {verifies : ℤ → TokenPayload → Bool}
    {answers : String → ℤ → Bool} {history : List Revocation} (hexpires : Expires verifies)
    (hlives : ∀ r ∈ history, Lives answers r) (honly : OnlySet answers history) :
    (∀ r ∈ history, ∀ token, r.Of token → ∀ jti, token.jti = some jti → jti ≠ "" →
      ∀ exp, token.exp = some exp → ∀ now, r.doneAt ≤ now →
        validate fetchUser verifies answers now now token = none ∧
          userFromToken fetchUser verifies answers now now token = none) ∧
    (∀ token, (∀ r ∈ history, r.jti ≠ token.jti) → ∀ verifiedAt lookedUpAt,
      validate fetchUser verifies answers verifiedAt lookedUpAt token
        = (if verifies verifiedAt token then fetchUser token.userId else none) ∧
      userFromToken fetchUser verifies answers verifiedAt lookedUpAt token
        = if verifies verifiedAt token then (fetchUser token.userId).map (·, token.exp)
          else none) := by
  constructor
  · intro r hr token hof jti hjti hne exp hexp now hnow
    refine refused fetchUser ((refused_or_late hexpires ?_ hjti hne hexp hnow le_rfl).resolve_right ?_)
    · exact fun halive now hset hnow =>
        covered_until_exp (hlives r hr) hof hjti hne hexp hset halive hnow
    · rintro ⟨halive, hlate⟩
      unfold seconds at halive
      omega
  · intro token hother verifiedAt lookedUpAt
    unfold validate userFromToken
    rw [isRevoked_eq_false honly hother]
    exact ⟨rfl, rfl⟩

section Example

/-- What the JWT library checks of a token with a good signature. -/
def verify (now : ℤ) (token : TokenPayload) : Bool := token.exp.elim true (seconds now < ·)

theorem expires_verify : Expires verify := by
  intro now token exp hexp hdead
  rw [verify, hexp, Option.elim_some]
  exact decide_eq_false (not_lt.mpr hdead)

/-- A sign-out 900 ms into a second, a minute before the token is dead. -/
def signedOut : Revocation where
  jti := some "a1"
  exp := some 100
  calledAt := 40900
  setAt := 40950
  doneAt := 41000
  calledAt_nonneg := by decide
  calledAt_le := by decide
  setAt_le := by decide

theorem lives_signedOut : Lives (store [signedOut]) signedOut := by
  intro command hcommand now hset hnow
  have hsent : signedOut.command = some ⟨"auth:revoked:a1", 60⟩ := by decide +kernel
  rw [hsent] at hcommand
  cases hcommand
  simpa [store, hsent, hset] using hnow

theorem revoked_refused_signedOut :
    validate (fun id => some ⟨id⟩) verify (store [signedOut]) 99999 99999 ⟨7, some "a1", some 100⟩
      = none ∧
    validate (fun id => some ⟨id⟩) verify (store [signedOut]) 99999 99999 ⟨7, some "b2", some 100⟩
      = some ⟨7⟩ := by
  obtain ⟨hrefused, hother⟩ := @revoked_refused (fun id => some ⟨id⟩) verify (store [signedOut])
    [signedOut] expires_verify (by simpa using lives_signedOut) (store_onlySet [signedOut])
  refine ⟨(hrefused signedOut List.mem_cons_self ⟨7, some "a1", some 100⟩ ⟨rfl, rfl⟩ "a1" rfl
    (by decide) 100 rfl 99999 (by decide)).1, ?_⟩
  rw [(hother ⟨7, some "b2", some 100⟩ (by simp [signedOut]) 99999 99999).1]
  decide

end Example

/-! ### The browser's denylist -/

/-- The denylist of `BrowserSession`, whose ids are numbers, takes an entry where a command is sent. -/
theorem browserSession_revoke (name : ℕ → String) (hname : ∀ id, name id ≠ "")
    (denylist : BrowserSession.Denylist) (now : ℤ) (id : ℕ) (exp : Option ℤ) :
    BrowserSession.revoke denylist now (some id) exp =
      (revoke now (some (name id)) exp).elim denylist fun command =>
        Function.update denylist id (some (now + command.ttlSeconds * 1000)) := by
  unfold BrowserSession.revoke revoke ttlSeconds
  rw [named_of_ne (hname id)]
  cases truthy exp with
  | none => rfl
  | some e =>
    show (if e - seconds now ≤ 0 then denylist else _) =
      (if e - seconds now ≤ 0 then none else some ⟨_, e - seconds now⟩ : Option SetCommand).elim _ _
    split
    · rfl
    · rfl

end TelemetryCloud.TokenRevocation
