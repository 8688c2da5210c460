import TelemetryCloud.Cars
import TelemetryCloud.Runs

/-!
# Broker credentials and the rows that show them

Any number of `create`, `update`, `remove` and `issueMqttCredentials` over one table of cars and one
broker, a call at a time, in any order; any call may fail.

* `follows_handler` : what the handlers ask of the table and of the broker, and when;
* `password_after` : whose password an account can hold after a call;
* `seat_after` : when a call leaves a provisioned row where it is;
* `no_orphan_credential` : **in which runs every credential belongs to a provisioned row**: those in
  which an issue that stamps its row finds it under the `deviceId` it has read, and no rename or
  delete of the car halfway through.
-/

namespace TelemetryCloud.CarCredentials

open Calls CarAccess Cars Runs TelemetryCloud.Repository
open MqttAdmin (Command Response)
open Teams (User)

/-! ### What a handler has done -/

/-- The row a handler has read first, whether it has deleted the account of that row, and whether its
`UPDATE` has affected a row. -/
structure Progress where
  op : Op
  read : Option Car
  revoked : Bool
  wrote : Bool

def note (k : Progress) : (c : Call) → Except RequestError (Answer c) → Progress
  | .findCar _, .ok car => { k with read := some (k.read.getD car) }
  | .request (.deleteClient _) _, .ok _ => { k with revoked := true }
  | .updateCar _ _, .ok true => { k with wrote := true }
  | _, _ => k

def enter (op : Op) : Progress := ⟨op, none, false, false⟩

def service (B : Broker) :
    Service (Store B) Op Progress (Option (Surroundings B)) Call Answer RequestError Outcome where
  exec := Store.exec
  handler := Op.handler
  enter := enter
  note := note

def carId : Op → Option ℕ
  | .create .. => none
  | .update _ carId _ _ => some carId
  | .remove _ carId => some carId
  | .issue _ carId _ _ _ => some carId

/-- The secret of a new account, which nobody is given. -/
def throwaway : Op → Option String
  | .create _ _ secret => some secret
  | .update _ _ _ secret => some secret
  | .remove .. => none
  | .issue _ _ secret _ _ => some secret

/-- The password an issue returns. -/
def password : Op → Option String
  | .issue _ _ _ password _ => some password
  | _ => none

def secrets (op : Op) : List String := (throwaway op).toList ++ (password op).toList

/-- An update of the `deviceId`, or a delete. -/
def unseats : Op → Bool
  | .update _ _ dto _ => dto.deviceId.isSome
  | .remove .. => true
  | _ => false

/-- What a handler may write to the row of its car. -/
def Patches (k : Progress) (car : Car) (patch : CarPatch) : Prop :=
  match k.op with
  | .issue .. => patch.deviceId = none ∧ ∃ t, patch.mqttProvisionedAt = some (some t)
  | .update _ _ dto _ => (dto.deviceId.isSome = true ∧ k.revoked = true) ∨
      (patch.mqttProvisionedAt = none ∧ patch.deviceId = dto.deviceId ∧
        ∀ deviceId, dto.deviceId = some deviceId → deviceId = some car.deviceId)
  | _ => False

/-- What a handler may ask of the table, and of the broker. -/
def Allowed (k : Progress) : Call → Prop
  | .findCar id => carId k.op = some id
  | .updateCar id patch => carId k.op = some id ∧ ∃ car, k.read = some car ∧ Patches k car patch
  | .deleteCar id => carId k.op = some id ∧ unseats k.op = true ∧ k.read.isSome ∧ k.revoked = true
  | .request (.createClient _ secret) _ => throwaway k.op = some secret
  | .request (.setClientPassword username secret) _ =>
    password k.op = some secret ∧ k.wrote = false ∧ ∃ car, k.read = some car ∧ username = car.deviceId
  | .request (.deleteClient username) tolerate =>
    tolerate = MqttAdmin.NOT_PRESENT ∧ unseats k.op = true ∧ ∃ car, k.read = some car ∧ username = car.deviceId
  | _ => True

/-- A handler that returns a credential has stamped the row. -/
def Stamps (k : Progress) (r : Except RequestError Outcome) : Prop :=
  ∀ credentials, r = .ok (.issued credentials) →
    password k.op = some credentials.password ∧ k.wrote = true

/-! ### The handlers keep to it -/

/-- A part of a handler keeps to what is allowed, and ends as `Fin` says. -/
def Keeps {α : Type} (p : Handler α) (Fin : Progress → Except RequestError α → Prop) (k : Progress) :
    Prop :=
  p.Follows note Allowed Fin k

theorem keeps_ofTeams {α : Type} (p : Teams.Handler α) (k : Progress) :
    Keeps (ofTeams p) (fun k' _ => k' = k) k := by
  induction p with
  | done a => exact rfl
  | fail e => exact rfl
  | await c next ih => exact ⟨trivial, ih⟩

/-- A call of the admin service, all of whose commands are allowed and none deletes an account. -/
theorem keeps_ofAdmin {p : MqttAdmin.Prog} {k : Progress}
    (hp : Sends (fun command => ∀ tolerate, Allowed k (.request command tolerate) ∧
      ∀ r, note k (.request command tolerate) r = k) p) :
    Keeps (ofAdmin p) (fun k' _ => k' = k) k := by
  induction p with
  | done a => exact rfl
  | fail e => exact rfl
  | request command tolerate next ih =>
    obtain ⟨hallowed, hnote⟩ := hp.1 tolerate
    refine ⟨hallowed, fun r => ?_⟩
    rw [hnote r]
    cases r with
    | error e => exact rfl
    | ok response => exact ih response (hp.2 response)

theorem makesRole_allowed {k : Progress} {command : Command} (h : MakesRole command)
    (tolerate : List String) : Allowed k (.request command tolerate) ∧
      ∀ r, note k (.request command tolerate) r = k := by
  cases h <;> exact ⟨trivial, fun r => rfl⟩

theorem keeps_ensureCarThen {k : Progress} {deviceId : Option String} {secret : String}
    {rest : MqttAdmin.Prog} (hsecret : throwaway k.op = some secret)
    (hrest : Sends (fun command => ∀ tolerate, Allowed k (.request command tolerate) ∧
      ∀ r, note k (.request command tolerate) r = k) rest) :
    Keeps (ofAdmin (MqttAdmin.ensureCarThen deviceId secret rest)) (fun k' _ => k' = k) k := by
  apply keeps_ofAdmin
  exact sends_ensureCarThen (fun _ h => makesRole_allowed h) (fun _ => ⟨hsecret, fun _ => rfl⟩) hrest

theorem keeps_ensureCar {k : Progress} {deviceId : Option String} {secret : String}
    (hsecret : throwaway k.op = some secret) :
    Keeps (ensureCar deviceId secret) (fun k' _ => k' = k) k :=
  keeps_ensureCarThen hsecret trivial

/-- `requireWritableCar` is the first to read the row. -/
theorem keeps_requireWritableCar {op : Op} {id : ℕ} (hid : carId op = some id) (user : User) :
    Keeps (requireWritableCar user id)
      (fun k r => ∀ car, r = .ok car → k = ⟨op, some car, false, false⟩) (enter op) := by
  have haccess : Keeps (CarAccess.resolveAccess (fun id => query (.findCar id))
      (fun userId teamId => query (.teams (.findMembership userId teamId))) user id)
      (fun k r => ∀ x, r = .ok x → k = ⟨op, some x.1, false, false⟩) (enter op) := by
    refine ⟨hid, fun r => ?_⟩
    cases r with
    | error e => exact fun x hx => by cases hx
    | ok car =>
      obtain ⟨carId, name, make, model, deviceId, provisionedAt, ownerId, teamId⟩ := car
      cases teamId with
      | none => exact fun x hx => by cases hx; rfl
      | some teamId =>
        refine ⟨trivial, fun r => ?_⟩
        cases r with
        | error e => exact fun x hx => by cases hx
        | ok membership => exact fun x hx => by cases hx; rfl
  apply haccess.bind
  · exact fun k e _ car hcar => by cases hcar
  · intro k access h
    have hdone : Keeps (.done access.1 : Handler Car)
        (fun k r => ∀ car, r = .ok car → k = ⟨op, some car, false, false⟩) k := by
      intro car hcar
      cases hcar
      exact h access rfl
    have hfail : ∀ e, Keeps (.fail e : Handler Car)
        (fun k r => ∀ car, r = .ok car → k = ⟨op, some car, false, false⟩) k :=
      fun e car hcar => by cases hcar
    show Keeps ((CarAccess.assertReadable user access.1 access.2).bind _) _ k
    unfold CarAccess.assertReadable
    split
    · show Keeps (if _ then _ else if _ then _ else _) _ k
      split
      · exact hdone
      · split
        · exact hdone
        · exact hfail _
    · exact hfail _

theorem keeps_requireMovable (user : User) (car : Car) (dto : UpdateCarDto) (k : Progress) :
    Keeps (requireMovable user car dto) (fun k' _ => k' = k) k := by
  obtain ⟨p, hp⟩ := requireMovable_ofTeams user car dto
  rw [hp]
  exact keeps_ofTeams p k

/-- An update of the row changes nothing but `wrote`. -/
theorem keeps_updateCar {k : Progress} {id : ℕ} {car : Car} {patch : CarPatch}
    (hid : carId k.op = some id) (hread : k.read = some car) (hpatch : Patches k car patch) :
    Keeps (updateCar id patch)
      (fun k' r => k'.op = k.op ∧ k'.read = k.read ∧ k'.revoked = k.revoked ∧
        ∀ a, r = .ok a → k'.wrote = true) k := by
  refine ⟨⟨hid, car, hread, hpatch⟩, fun r => ?_⟩
  cases r with
  | error e => exact ⟨rfl, rfl, rfl, fun a ha => by cases ha⟩
  | ok affected =>
    cases affected with
    | false => exact ⟨rfl, rfl, rfl, fun a ha => by cases ha⟩
    | true =>
      refine ⟨hid, fun r => ?_⟩
      cases r with
      | error e => exact ⟨rfl, rfl, rfl, fun a ha => by cases ha⟩
      | ok row =>
        refine ⟨rfl, ?_, rfl, fun _ _ => rfl⟩
        show some (k.read.getD row) = k.read
        rw [hread, Option.getD_some]

theorem keeps_removeCar {k : Progress} {car : Car} (hop : unseats k.op = true)
    (hread : k.read = some car) :
    Keeps (removeCar car.deviceId)
      (fun k' r => ∀ a, r = .ok a → k' = { k with revoked := true }) k := by
  refine ⟨⟨rfl, hop, car, hread, rfl⟩, fun r => ?_⟩
  cases r with
  | error e => exact fun a ha => by cases ha
  | ok response =>
    refine ⟨trivial, fun r => ?_⟩
    cases r with
    | error e => exact fun a ha => by cases ha
    | ok response => exact fun a _ => rfl

/-- From where the old account is gone, a rename may write what it likes. -/
theorem keeps_renameCar {user : User} {id : ℕ} {dto : UpdateCarDto} {deviceId : Option String}
    {secret : String} {car : Car} (hdevice : dto.deviceId = some deviceId) :
    Keeps (renameCar id dto deviceId secret) (fun _ _ => True)
      ⟨.update user id dto secret, some car, true, false⟩ := by
  have hpatch : ∀ {k : Progress}, k.op = .update user id dto secret → k.revoked = true →
      ∀ patch, Patches k car patch := by
    intro k hop hrevoked patch
    unfold Patches
    rw [hop]
    exact .inl ⟨by rw [hdevice]; rfl, hrevoked⟩
  let revoked : Progress := ⟨.update user id dto secret, some car, true, false⟩
  have hensure : Keeps (ensureCar deviceId secret) (fun k _ => k = revoked) revoked :=
    keeps_ensureCar rfl
  have htry : Keeps ((ensureCar deviceId secret).bind fun _ =>
      updateCar id { dto with mqttProvisionedAt := some none })
      (fun k _ => k.op = .update user id dto secret ∧ k.read = some car ∧ k.revoked = true)
      revoked := by
    apply hensure.bind
    · exact fun k e h => h ▸ ⟨rfl, rfl, rfl⟩
    · intro k _ h
      obtain rfl := h
      have hupdate := @keeps_updateCar revoked id car _ rfl rfl
        (hpatch rfl rfl { dto with mqttProvisionedAt := some none })
      exact hupdate.mono fun k r h => ⟨h.1, h.2.1, h.2.2.1⟩
  apply htry.catchError
  · exact fun _ _ _ => trivial
  · intro k e h
    obtain ⟨hop, hread, hrevoked⟩ := h
    have hid : carId k.op = some id := by
      rw [hop]
      rfl
    have hupdate := keeps_updateCar hid hread (hpatch hop hrevoked (.provisionedAt none))
    have hmark : Keeps (markUnprovisioned id) (fun _ _ => True) k := by
      have hdiscard : Keeps (discard (updateCar id (.provisionedAt none))) (fun _ _ => True) k := by
        apply hupdate.bind
        · exact fun _ _ _ => trivial
        · exact fun _ _ _ => trivial
      apply hdiscard.catchError
      · exact fun _ _ _ => trivial
      · exact fun _ _ _ => trivial
    apply hmark.bind
    · exact fun _ _ _ => trivial
    · exact fun _ _ _ => trivial

/-- An operation whose result is no credential. -/
theorem stamps_of_ne {k : Progress} {r : Except RequestError Outcome}
    (h : ∀ credentials, r ≠ .ok (.issued credentials)) : Stamps k r :=
  fun credentials hr => absurd hr (h credentials)

theorem keeps_requireCreatable (user : User) (dto : CreateCarDto) (k : Progress) :
    Keeps (requireCreatable user dto) (fun k' _ => k' = k) k := by
  unfold requireCreatable
  split
  · exact keeps_ofTeams _ _
  · exact rfl

theorem keeps_create (user : User) (dto : CreateCarDto) (secret : String) :
    Keeps (create user dto secret) (fun _ _ => True) (enter (.create user dto secret)) := by
  apply (keeps_requireCreatable user dto _).bind
  · exact fun _ _ _ => trivial
  · intro k _ h
    obtain rfl := h
    have hinsert : Keeps (createCar dto user.id) (fun k _ => k = enter (.create user dto secret))
        (enter (.create user dto secret)) := by
      refine ⟨trivial, fun r => ?_⟩
      cases r <;> exact rfl
    apply hinsert.bind
    · exact fun _ _ _ => trivial
    · intro k car h
      obtain rfl := h
      have hensure : Keeps (ensureCar car.deviceId secret)
          (fun k _ => k = enter (.create user dto secret)) (enter (.create user dto secret)) :=
        keeps_ensureCar rfl
      have hbestEffort : Keeps ((ensureCar car.deviceId secret).catchError fun _ => pure none)
          (fun _ _ => True) (enter (.create user dto secret)) := by
        apply hensure.catchError
        · exact fun _ _ _ => trivial
        · exact fun _ _ _ => trivial
      apply hbestEffort.bind
      · exact fun _ _ _ => trivial
      · exact fun _ _ _ => trivial

theorem keeps_update (user : User) (id : ℕ) (dto : UpdateCarDto) (secret : String) :
    Keeps (update user id dto secret) (fun _ _ => True) (enter (.update user id dto secret)) := by
  apply (keeps_requireWritableCar rfl user).bind
  · exact fun _ _ _ => trivial
  · intro k car h
    obtain rfl := h car rfl
    apply (keeps_requireMovable user car dto _).bind
    · exact fun _ _ _ => trivial
    · intro k _ h
      obtain rfl := h
      -- an update that is no rename
      have hsame : (∀ deviceId, dto.deviceId = some deviceId → deviceId = some car.deviceId) →
          Keeps (updateCar id { dto with mqttProvisionedAt := none }) (fun _ _ => True)
            ⟨.update user id dto secret, some car, false, false⟩ := by
        intro h
        have hpatch : Patches ⟨.update user id dto secret, some car, false, false⟩ car
            { dto with mqttProvisionedAt := none } := .inr ⟨rfl, rfl, h⟩
        exact (keeps_updateCar rfl rfl hpatch).mono fun _ _ _ => trivial
      split
      · rename_i hdevice
        exact hsame fun d hd => by rw [hdevice] at hd; cases hd
      · rename_i deviceId hdevice
        split
        · rename_i heq
          exact hsame fun d hd => by rw [hdevice] at hd; cases hd; exact heq
        · have hop : unseats (.update user id dto secret) = true := by
            show dto.deviceId.isSome = true
            rw [hdevice]
            rfl
          have hremove := @keeps_removeCar ⟨.update user id dto secret, some car, false, false⟩ car
            hop rfl
          apply hremove.bind
          · exact fun _ _ _ => trivial
          · intro k a h
            obtain rfl := h a rfl
            exact keeps_renameCar hdevice

theorem keeps_remove (user : User) (id : ℕ) :
    Keeps (remove user id) (fun _ _ => True) (enter (.remove user id)) := by
  apply (keeps_requireWritableCar rfl user).bind
  · exact fun _ _ _ => trivial
  · intro k car h
    obtain rfl := h car rfl
    have hremove := @keeps_removeCar ⟨.remove user id, some car, false, false⟩ car rfl rfl
    apply hremove.bind
    · exact fun _ _ _ => trivial
    · intro k a h
      obtain rfl := h a rfl
      refine ⟨⟨rfl, rfl, rfl, rfl⟩, fun r => ?_⟩
      cases r with
      | error e => trivial
      | ok affected => cases affected <;> trivial

theorem keeps_issue (user : User) (id : ℕ) (secret secret' : String) (issuedAt : ℤ) :
    Keeps (issueMqttCredentials user id secret secret' issuedAt)
      (fun k r => ∀ credentials, r = .ok credentials →
        password k.op = some credentials.password ∧ k.wrote = true)
      (enter (.issue user id secret secret' issuedAt)) := by
  apply (keeps_requireWritableCar rfl user).bind
  · exact fun k e _ c h => by cases h
  · intro k car h
    obtain rfl := h car rfl
    have hissue : Keeps (issuePassword car.deviceId secret secret')
        (fun k _ => k = ⟨.issue user id secret secret' issuedAt, some car, false, false⟩)
        ⟨.issue user id secret secret' issuedAt, some car, false, false⟩ :=
      keeps_ensureCarThen rfl
        ⟨fun _ => ⟨⟨rfl, rfl, car, rfl, rfl⟩, fun _ => rfl⟩, fun _ => trivial⟩
    apply hissue.bind
    · exact fun k e _ c h => by cases h
    · intro k _ h
      obtain rfl := h
      have hpatch : Patches ⟨.issue user id secret secret' issuedAt, some car, false, false⟩ car
          (.provisionedAt (some issuedAt)) := ⟨rfl, issuedAt, rfl⟩
      apply (keeps_updateCar rfl rfl hpatch).bind
      · exact fun k e _ c h => by cases h
      · intro k row h credentials hc
        cases hc
        exact ⟨by rw [h.1]; rfl, h.2.2.2 row rfl⟩

/-- **Every handler keeps to what is allowed**, and returns a credential only when it has stamped the
row. -/
theorem follows_handler (op : Op) : Keeps op.handler Stamps (enter op) := by
  cases op with
  | create user dto secret =>
    apply (keeps_create user dto secret).bind
    · exact fun k e _ => stamps_of_ne fun _ h => by cases h
    · exact fun k car _ => stamps_of_ne fun _ h => by cases h
  | update user id dto secret =>
    apply (keeps_update user id dto secret).bind
    · exact fun k e _ => stamps_of_ne fun _ h => by cases h
    · exact fun k car _ => stamps_of_ne fun _ h => by cases h
  | remove user id =>
    apply (keeps_remove user id).bind
    · exact fun k e _ => stamps_of_ne fun _ h => by cases h
    · exact fun k car _ => stamps_of_ne fun _ h => by cases h
  | issue user id secret secret' issuedAt =>
    apply (keeps_issue user id secret secret' issuedAt).bind
    · exact fun k e _ => stamps_of_ne fun _ h => by cases h
    · intro k credentials h c hc
      cases hc
      exact h credentials rfl

/-! ### What one call does -/

section Effects

variable {B : Broker} {s s' : Store B} {k : Progress} {c : Call} {around : Option (Surroundings B)}
  {r : Except RequestError (Answer c)}

@[simp] theorem note_op (k : Progress) (c : Call) (r : Except RequestError (Answer c)) :
    (note k c r).op = k.op := by
  unfold note
  split <;> rfl

/-- What a call may do to the store. -/
inductive Effect (s : Store B) : Call → Store B → Prop
  | none (c : Call) : Effect s c s
  | inserted {dto : CreateCarDto} {ownerId : ℕ} (car : Car) (hid : car.id = s.nextId) :
    Effect s (.insertCar dto ownerId) { s with cars := s.cars ++ [car], nextId := s.nextId + 1 }
  | updated {id : ℕ} {patch : CarPatch} :
    Effect s (.updateCar id patch) { s with cars := updateWhere s.cars (·.id = id) patch.apply }
  | deleted {id : ℕ} : Effect s (.deleteCar id) { s with cars := deleteWhere s.cars (·.id = id) }
  | requested {command : Command} {tolerate : List String} (choice : B.Choice) :
    Effect s (.request command tolerate)
      { s with broker := (B.respond s.broker command choice).1 }

theorem exec_effect (h : s.exec c around = some (s', r)) : Effect s c s' := by
  cases around with
  | none =>
    cases h
    exact .none c
  | some around =>
    replace h : s.execute around c = (s', r) := Option.some.inj h
    obtain rfl : (s.execute around c).1 = s' := congrArg Prod.fst h
    cases c with
    | insertCar dto ownerId =>
      show Effect s _ (s.insertCar dto ownerId).1
      unfold Store.insertCar
      split
      · exact .none _
      · exact .inserted _ rfl
    | updateCar id patch =>
      show Effect s _ (s.updateCar id patch).1
      unfold Store.updateCar
      split
      · exact .none _
      · split
        · exact .none _
        · exact .updated
    | deleteCar id => exact .deleted
    | request command tolerate => exact .requested around.broker
    | _ => exact .none _

/-- Only a command changes an account. -/
theorem exec_broker (h : s.exec c around = some (s', r)) :
    s'.broker = s.broker ∨ ∃ command tolerate around', c = .request command tolerate ∧
      s' = { s with broker := (B.respond s.broker command around').1 } := by
  cases exec_effect h with
  | requested choice => exact .inr ⟨_, _, choice, rfl, rfl⟩
  | _ => exact .inl rfl

/-- **Whose password an account can hold after a call**: one it held before, a secret nobody is
given, or the one an issue is about to return, and then the account is that of the row it has
read. -/
theorem password_after (hB : B.Lawful) (hallowed : Allowed k c) (h : s.exec c around = some (s', r))
    {username p : String} (hp : B.password s'.broker username = some p) :
    B.password s.broker username = some p ∨ throwaway k.op = some p ∨
      password k.op = some p ∧ k.wrote = false ∧
        ∃ car, k.read = some car ∧ username = car.deviceId := by
  obtain hsame | ⟨command, tolerate, choice, rfl, rfl⟩ := exec_broker h
  · exact .inl (hsame ▸ hp)
  · by_cases haccount : account command = some username
    · cases command with
      | createClient u secret =>
        obtain rfl : u = some username := haccount
        rcases hB.createClient s.broker username secret choice with hsame | ⟨-, hnew⟩
        · exact .inl (hsame ▸ hp)
        · obtain rfl := Option.some.inj (hnew.symm.trans hp)
          exact .inr (.inl hallowed)
      | setClientPassword u secret =>
        obtain rfl : u = username := Option.some.inj haccount
        rcases hB.setClientPassword s.broker u secret choice with hsame | hnew
        · exact .inl (hsame ▸ hp)
        · obtain rfl := Option.some.inj (hnew.symm.trans hp)
          exact .inr (.inr hallowed)
      | deleteClient u =>
        obtain rfl : u = username := Option.some.inj haccount
        rcases hB.deleteClient s.broker u choice with hsame | hnew
        · exact .inl (hsame ▸ hp)
        · cases hnew.symm.trans hp
      | _ => cases haccount
    · exact .inl (hB.frame s.broker command choice username haccount ▸ hp)

/-- A call that fails tells a handler nothing. -/
theorem note_error (k : Progress) (c : Call) (e : RequestError) : note k c (.error e) = k := by
  cases c with
  | request command tolerate => cases command <;> rfl
  | _ => rfl

/-- A handler that has just deleted an account has left none. -/
theorem note_revoked (hB : B.Lawful) (hallowed : Allowed k c) (h : s.exec c around = some (s', r)) :
    (note k c r).revoked = k.revoked ∨
      ∃ car, k.read = some car ∧ B.password s'.broker car.deviceId = none := by
  cases r with
  | error e => exact .inl (by rw [note_error])
  | ok answer =>
    cases c with
    | request command tolerate =>
      cases command with
      | deleteClient username =>
        obtain ⟨rfl, -, car, hread, rfl⟩ := hallowed
        cases around with
        | none => cases h
        | some around =>
          replace h : s.request (.deleteClient car.deviceId) MqttAdmin.NOT_PRESENT around.broker =
            (s', .ok answer) := Option.some.inj h
          obtain ⟨rfl, hr⟩ := Prod.mk.injEq .. ▸ h
          refine .inr ⟨car, hread, hB.deleted s.broker car.deviceId around.broker _ _ rfl ?_⟩
          intro message hmessage
          rw [hmessage] at hr
          by_contra hno
          simp only [hno] at hr
          cases hr
      | _ => exact .inl rfl
    | updateCar id patch => cases answer <;> exact .inl rfl
    | _ => exact .inl rfl

/-- What a handler knows of its row: what it knew, or it has just read it. -/
theorem note_read (hallowed : Allowed k c) (h : s.exec c around = some (s', r)) :
    (note k c r).read = k.read ∨
      (k.read = none ∧ (note k c r).revoked = k.revoked ∧ (note k c r).wrote = k.wrote ∧
        ∃ car ∈ s.cars, carId k.op = some car.id ∧ (note k c r).read = some car) := by
  cases r with
  | error e => exact .inl (by rw [note_error])
  | ok answer =>
    cases c with
    | findCar id =>
      cases hread : k.read with
      | some car => exact .inl (by show some (k.read.getD _) = _; rw [hread, Option.getD_some])
      | none =>
        cases around with
        | none => cases h
        | some around =>
          have hfind : findOne s.cars (·.id = id) = .ok answer :=
            congrArg Prod.snd (Option.some.inj h)
          obtain ⟨hcar, hid⟩ := findOne_eq_ok hfind
          refine .inr ⟨rfl, rfl, rfl, answer, hcar, ?_, ?_⟩
          · rw [show answer.id = id from of_decide_eq_true hid]
            exact hallowed
          · show some (k.read.getD answer) = _
            rw [hread, Option.getD_none]
    | request command tolerate => cases command <;> exact .inl rfl
    | updateCar id patch => cases answer <;> exact .inl rfl
    | _ => exact .inl rfl

theorem read_kept (hallowed : Allowed k c) (h : s.exec c around = some (s', r)) {car : Car}
    (hread : k.read = some car) : (note k c r).read = some car := by
  rcases note_read hallowed h with hsame | ⟨hnone, -⟩
  · rw [hsame, hread]
  · rw [hread] at hnone
    cases hnone

/-- A handler writes to the row when its `UPDATE` reaches the table. -/
theorem note_wrote (h : s.exec c around = some (s', r)) :
    (note k c r).wrote = k.wrote ∨ ∃ id patch around', c = .updateCar id patch ∧
      around = some around' ∧ s' = { s with cars := updateWhere s.cars (·.id = id) patch.apply } := by
  cases r with
  | error e => exact .inl (by rw [note_error])
  | ok answer =>
    cases c with
    | updateCar id patch =>
      cases answer with
      | false => exact .inl rfl
      | true =>
        cases around with
        | none => cases h
        | some around =>
          replace h : s.updateCar id patch = (s', .ok true) := Option.some.inj h
          refine .inr ⟨id, patch, around, rfl, rfl, ?_⟩
          unfold Store.updateCar at h
          split at h
          · cases h
          · split at h
            · cases h
            · exact (congrArg Prod.fst h).symm
    | request command tolerate => cases command <;> exact .inl rfl
    | _ => exact .inl rfl

/-- There is a row of the car `id` under the `deviceId`, and it reads as provisioned. -/
def Seat (s : Store B) (id : ℕ) (deviceId : String) : Prop :=
  ∃ car ∈ s.cars, car.id = id ∧ car.deviceId = deviceId ∧ car.mqttProvisionedAt ≠ none

/-- What a handler that has revoked nothing writes to the row it has read leaves a provisioned row
where it is. -/
theorem patches_keep {read car : Car} {patch : CarPatch} (hpatch : Patches k read patch)
    (hclear : unseats k.op = true → read.deviceId = car.deviceId ∧ k.revoked = false)
    (hprovisioned : car.mqttProvisionedAt ≠ none) :
    (patch.apply car).deviceId = car.deviceId ∧ (patch.apply car).mqttProvisionedAt ≠ none := by
  unfold Patches at hpatch
  show patch.deviceId.join.getD car.deviceId = car.deviceId ∧
    patch.mqttProvisionedAt.getD car.mqttProvisionedAt ≠ none
  split at hpatch
  · obtain ⟨hdevice, t, hstamp⟩ := hpatch
    rw [hdevice, hstamp]
    exact ⟨rfl, by rintro ⟨⟩⟩
  · rename_i user id dto secret hop
    rw [hop] at hclear
    obtain ⟨hsome, hrevoked⟩ | ⟨hkeep, hdevice, hsame⟩ := hpatch
    · rw [(hclear hsome).2] at hrevoked
      cases hrevoked
    · rw [hkeep, hdevice]
      refine ⟨?_, hprovisioned⟩
      cases hd : dto.deviceId with
      | none => rfl
      | some deviceId =>
        rw [hsame deviceId hd, Option.join_some, Option.getD_some]
        exact (hclear (by rw [unseats, hd]; rfl)).1
  · exact hpatch.elim

/-- The row an issue has stamped reads as provisioned, under the `deviceId` it had. -/
theorem seat_stamped {p : String} (hp : password k.op = some p) {read row : Car} {patch : CarPatch}
    (hpatch : Patches k read patch) (hrow : row ∈ s.cars) {id : ℕ} {deviceId : String}
    (hid : row.id = id) (hdevice : row.deviceId = deviceId) :
    Seat { s with cars := updateWhere s.cars (·.id = id) patch.apply } id deviceId := by
  unfold Patches at hpatch
  split at hpatch
  · obtain ⟨hkeep, t, hstamp⟩ := hpatch
    refine ⟨_, List.mem_map_of_mem hrow, ?_⟩
    rw [if_pos (decide_eq_true hid)]
    refine ⟨hid, ?_, ?_⟩
    · show patch.deviceId.join.getD row.deviceId = deviceId
      rw [hkeep, Option.join_none, Option.getD_none, hdevice]
    · show patch.mqttProvisionedAt.getD row.mqttProvisionedAt ≠ none
      rw [hstamp]
      rintro ⟨⟩
  · rename_i hop
    rw [hop] at hp
    cases hp
  · exact hpatch.elim

/-- **When a call leaves a provisioned row where it is**: a handler that unseats the car has read the
row as it is and has not revoked its account. -/
theorem seat_after {id : ℕ} {deviceId : String} (hseat : Seat s id deviceId) (hallowed : Allowed k c)
    (hclear : unseats k.op = true → carId k.op = some id → ∀ car, k.read = some car →
      car.deviceId = deviceId ∧ k.revoked = false)
    (h : s.exec c around = some (s', r)) : Seat s' id deviceId := by
  obtain ⟨car, hcar, hid, hdevice, hprovisioned⟩ := hseat
  cases exec_effect h with
  | none => exact ⟨car, hcar, hid, hdevice, hprovisioned⟩
  | inserted => exact ⟨car, List.mem_append_left _ hcar, hid, hdevice, hprovisioned⟩
  | @updated id' patch =>
    obtain ⟨hown, read, hread, hpatch⟩ := hallowed
    refine ⟨_, List.mem_map_of_mem hcar, ?_⟩
    by_cases heq : car.id = id'
    · obtain ⟨hdevice', hprovisioned'⟩ := patches_keep hpatch (fun hunseats => by
        rw [hdevice]
        exact hclear hunseats (by rw [hown, ← heq, hid]) read hread) hprovisioned
      rw [if_pos (decide_eq_true heq)]
      exact ⟨hid, hdevice'.trans hdevice, hprovisioned'⟩
    · rw [if_neg (by simpa using heq)]
      exact ⟨hid, hdevice, hprovisioned⟩
  | @deleted id' =>
    refine ⟨car, List.mem_filter.mpr ⟨hcar, ?_⟩, hid, hdevice, hprovisioned⟩
    obtain ⟨hown, hunseats, hread, hrevoked⟩ := hallowed
    obtain ⟨read, hread⟩ := Option.isSome_iff_exists.mp hread
    have hne : id' ≠ id := by
      intro heq
      rw [(hclear hunseats (heq ▸ hown) read hread).2] at hrevoked
      cases hrevoked
    simp [hid, Ne.symm hne]
  | requested => exact ⟨car, hcar, hid, hdevice, hprovisioned⟩

/-- Rows have ids of their own, all of them given out. -/
structure Keyed (s : Store B) : Prop where
  ids : (s.cars.map (·.id)).Nodup
  fresh : ∀ car ∈ s.cars, car.id < s.nextId

theorem keyed_after (hs : Keyed s) (h : s.exec c around = some (s', r)) : Keyed s' := by
  cases exec_effect h with
  | none => exact hs
  | inserted car hid =>
    constructor
    · exact nodup_map_concat hs.ids fun other hother => hid ▸ hs.fresh other hother
    · intro other hother
      rcases List.mem_append.mp hother with hother | hother
      · exact Nat.lt_succ_of_lt (hs.fresh other hother)
      · rw [List.mem_singleton.mp hother, hid]
        exact Nat.lt_succ_self _
  | @updated id patch =>
    constructor
    · have hids : (updateWhere s.cars (·.id = id) patch.apply).map (·.id) =
          s.cars.map (·.id) := by
        apply map_updateWhere
        intro car
        rfl
      rw [hids]
      exact hs.ids
    · intro car hcar
      obtain ⟨old, hold, ⟨-, rfl⟩ | ⟨-, rfl⟩⟩ := mem_updateWhere hcar
      · exact hs.fresh old hold
      · exact hs.fresh car hold
  | deleted =>
    constructor
    · exact hs.ids.sublist (List.filter_sublist.map _)
    · exact fun car hcar => hs.fresh car (List.mem_of_mem_filter hcar)
  | requested => exact ⟨hs.ids, hs.fresh⟩

end Effects

/-! ### Runs -/

section Runs

variable {B : Broker}

abbrev CarsPool (B : Broker) : Type :=
  Pool (Store B) Progress Call Answer RequestError Outcome

/-- Handler `i` of the pool, with what it has done. -/
def At (st : CarsPool B) (i : ℕ) (k : Progress) (q : Handler Outcome) : Prop :=
  st.handlers[i]? = some (k, q)

/-- The secrets `generateSecret` returns to a new operation are new: nobody has been given one of
them, and no account holds one. -/
def FreshSecrets (st : CarsPool B) : Event Op (Option (Surroundings B)) → Prop
  | .invoke op => (secrets op).Nodup ∧ ∀ p ∈ secrets op,
      (∀ username, B.password st.store.broker username ≠ some p) ∧
        ∀ i k q, At st i k q → p ∉ secrets k.op
  | _ => True

/-- A rename or a delete of the car that is under way has read its row under this `deviceId`, and not
yet deleted the account. -/
def Undisturbed (st : CarsPool B) (id : ℕ) (deviceId : String) : Prop :=
  ∀ i k q car, At st i k q → q.pending.isSome = true → unseats k.op = true →
    carId k.op = some id → k.read = some car → car.deviceId = deviceId ∧ k.revoked = false

/-- An issue whose password the account holds finds, when it stamps the row, the row under the
`deviceId` it has read, and no rename or delete of the car halfway through. -/
def StampsOwnRow (st : CarsPool B) : Event Op (Option (Surroundings B)) → Prop
  | .answer i (some _) => ∀ k id patch p car, st.pending i = some (k, .updateCar id patch) →
      password k.op = some p → k.read = some car →
      B.password st.store.broker car.deviceId = some p →
      (∃ row ∈ st.store.cars, row.id = id ∧ row.deviceId = car.deviceId) ∧
        Undisturbed st id car.deviceId
  | _ => True

structure Inv (st : CarsPool B) : Prop where
  keyed : Keyed st.store
  unread : ∀ i k q, At st i k q → k.read = none →
    k.revoked = false ∧ k.wrote = false
  distinct : ∀ i k q, At st i k q → (secrets k.op).Nodup
  apart : ∀ i j k l q q', At st i k q → At st j l q' → i ≠ j →
    ∀ p ∈ secrets k.op, p ∉ secrets l.op
  /-- An account that holds the password of an issue is that of the row the issue has read. -/
  held : ∀ i k q p username, At st i k q → password k.op = some p →
    B.password st.store.broker username = some p → ∃ car, k.read = some car ∧ username = car.deviceId
  /-- Once the issue has stamped the row, the row is there as long as the account holds the
  password, and nobody is about to take it away. -/
  seated : ∀ i k q p car id, At st i k q → password k.op = some p →
    k.read = some car → k.wrote = true → carId k.op = some id →
    B.password st.store.broker car.deviceId = some p →
    Seat st.store id car.deviceId ∧ Undisturbed st id car.deviceId

theorem inv_init {s : Store B} (hs : Keyed s) : Inv ⟨s, []⟩ where
  keyed := hs
  unread := by
    intro i k q h
    cases h
  distinct := by
    intro i k q h
    cases h
  apart := by
    intro i j k l q q' h
    cases h
  held := by
    intro i k q p username h
    cases h
  seated := by
    intro i k q p car id h
    cases h

theorem mem_secrets_of_password {op : Op} {p : String} (h : password op = some p) : p ∈ secrets op := by
  rw [secrets, h]
  exact List.mem_append_right _ List.mem_cons_self

theorem mem_secrets_of_throwaway {op : Op} {p : String} (h : throwaway op = some p) :
    p ∈ secrets op := by
  rw [secrets, h]
  exact List.mem_append_left _ List.mem_cons_self

theorem at_append {st : CarsPool B} {k l : Progress} {q q' : Handler Outcome} {i : ℕ}
    (h : At ⟨st.store, st.handlers ++ [(k, q)]⟩ i l q') :
    At st i l q' ∨ (i = st.handlers.length ∧ l = k ∧ q' = q) := by
  rcases getElem?_append_singleton h with h | ⟨hi, heq⟩
  · exact .inl h
  · obtain ⟨rfl, rfl⟩ := Prod.mk.injEq .. ▸ heq
    exact .inr ⟨hi, rfl, rfl⟩

theorem inv_invoke {st : CarsPool B} {op : Op} {q : Handler Outcome} (hi : Inv st)
    (hfresh : FreshSecrets st (.invoke op)) :
    Inv ⟨st.store, st.handlers ++ [(enter op, q)]⟩ where
  keyed := hi.keyed
  unread := by
    intro i k q' h hread
    rcases at_append h with h | ⟨-, rfl, -⟩
    · exact hi.unread i k q' h hread
    · exact ⟨rfl, rfl⟩
  distinct := by
    intro i k q' h
    rcases at_append h with h | ⟨-, rfl, -⟩
    · exact hi.distinct i k q' h
    · exact hfresh.1
  apart := by
    intro i j k l q' q'' hik hjl hne p hp
    rcases at_append hik with hik | ⟨hi', rfl, -⟩ <;> rcases at_append hjl with hjl | ⟨hj, rfl, -⟩
    · exact hi.apart i j k l q' q'' hik hjl hne p hp
    · exact fun hnew => (hfresh.2 p hnew).2 i k q' hik hp
    · exact (hfresh.2 p hp).2 j l q'' hjl
    · exact absurd (hi'.trans hj.symm) hne
  held := by
    intro i k q' p username h hp hheld
    rcases at_append h with h | ⟨-, rfl, -⟩
    · exact hi.held i k q' p username h hp hheld
    · exact absurd hheld ((hfresh.2 p (mem_secrets_of_password hp)).1 username)
  seated := by
    intro i k q' p car id h hp hread hwrote hid hheld
    rcases at_append h with h | ⟨-, rfl, -⟩
    · obtain ⟨hseat, hundisturbed⟩ := hi.seated i k q' p car id h hp hread hwrote hid hheld
      refine ⟨hseat, fun j l q'' car' hj hpending hop hown hread' => ?_⟩
      rcases at_append hj with hj | ⟨-, rfl, -⟩
      · exact hundisturbed j l q'' car' hj hpending hop hown hread'
      · cases hread'
    · cases hread

section Answer

variable {st : CarsPool B} {i : ℕ} {k : Progress} {c : Call}
  {next : Except RequestError (Answer c) → Handler Outcome} {s' : Store B}
  {around : Option (Surroundings B)} {r : Except RequestError (Answer c)}

theorem at_set {j : ℕ} {k l : Progress} {q q' : Handler Outcome}
    (h : At ⟨s', st.handlers.set i (k, q)⟩ j l q') :
    (j = i ∧ l = k ∧ q' = q) ∨ (j ≠ i ∧ At st j l q') := by
  rcases getElem?_set_cases h with ⟨hj, heq⟩ | h
  · obtain ⟨rfl, rfl⟩ := Prod.mk.injEq .. ▸ heq
    exact .inl ⟨hj, rfl, rfl⟩
  · exact .inr h

/-- The password of an issue, held by an account after a call of handler `i`, was held before, unless
it is that of `i` itself, which has not stamped its row. -/
theorem held_before (hB : B.Lawful) (hi : Inv st) (hk : At st i k (.await c next))
    (hallowed : Allowed k c) (h : st.store.exec c around = some (s', r)) {j : ℕ} {l : Progress}
    {q : Handler Outcome} (hl : At st j l q) {p username : String} (hp : password l.op = some p)
    (hheld : B.password s'.broker username = some p) :
    B.password st.store.broker username = some p ∨
      (j = i ∧ k.wrote = false ∧ ∃ car, k.read = some car ∧ username = car.deviceId) := by
  rcases password_after hB hallowed h hheld with hbefore | hthrow | ⟨hpass, hwrote, hread⟩
  · exact .inl hbefore
  · -- the secret nobody is given is nobody's password
    exfalso
    by_cases hji : j = i
    · subst hji
      obtain ⟨rfl, -⟩ := Prod.mk.injEq .. ▸ Option.some.inj (Eq.trans (Eq.symm hl) hk)
      have hdistinct := hi.distinct j l _ hl
      rw [secrets, hthrow, hp] at hdistinct
      exact absurd hdistinct (by simp)
    · exact hi.apart j i l k q _ hl hk hji p (mem_secrets_of_password hp)
        (mem_secrets_of_throwaway hthrow)
  · by_cases hji : j = i
    · exact .inr ⟨hji, hwrote, hread⟩
    · exact absurd (mem_secrets_of_password hpass)
        (hi.apart j i l k q _ hl hk hji p (mem_secrets_of_password hp))

/-- A handler that goes on does not disturb a seat it has not disturbed: if it reads the row only
now, it reads it as it is; and it has not deleted an account that still holds a password. -/
theorem undisturbed_after (hB : B.Lawful) (hi : Inv st) (hk : At st i k (.await c next))
    (hallowed : Allowed k c) (h : st.store.exec c around = some (s', r)) {id : ℕ}
    {deviceId p : String} (hrow : ∃ row ∈ st.store.cars, row.id = id ∧ row.deviceId = deviceId)
    (hclear : Undisturbed st id deviceId) (hheld : B.password s'.broker deviceId = some p) :
    Undisturbed ⟨s', st.handlers.set i (note k c r, next r)⟩ id deviceId := by
  intro j l q car hj hpending hop hown hread
  rcases at_set hj with ⟨-, rfl, -⟩ | ⟨-, hj⟩
  · rw [note_op] at hop hown
    rcases note_read hallowed h with hsame | ⟨hnone, hrevoked, -, found, hmem, hid, hfound⟩
    · rw [hsame] at hread
      obtain ⟨hdevice, hrevoked⟩ := hclear i k _ car hk rfl hop hown hread
      refine ⟨hdevice, ?_⟩
      rcases note_revoked hB hallowed h with hkept | ⟨car', hread', hgone⟩
      · rw [hkept, hrevoked]
      · obtain rfl := Option.some.inj (hread.symm.trans hread')
        rw [hdevice, hheld] at hgone
        cases hgone
    · obtain rfl := Option.some.inj (hfound.symm.trans hread)
      obtain ⟨row, hrow, hid', hdevice⟩ := hrow
      obtain rfl := List.inj_on_of_nodup_map hi.keyed.ids hmem hrow
        ((Option.some.inj (hid.symm.trans hown)).trans hid'.symm)
      exact ⟨hdevice, hrevoked.trans (hi.unread i k _ hk hnone).1⟩
  · exact hclear j l q car hj hpending hop hown hread

/-- A seat nobody disturbs is there after the call, and nobody disturbs it. -/
theorem seated_after (hB : B.Lawful) (hi : Inv st) (hk : At st i k (.await c next))
    (hallowed : Allowed k c) (h : st.store.exec c around = some (s', r)) {id : ℕ}
    {deviceId p : String} (hseat : Seat st.store id deviceId) (hclear : Undisturbed st id deviceId)
    (hheld : B.password s'.broker deviceId = some p) :
    Seat s' id deviceId ∧
      Undisturbed ⟨s', st.handlers.set i (note k c r, next r)⟩ id deviceId := by
  constructor
  · exact seat_after hseat hallowed
      (fun hop hown car hread => hclear i k _ car hk rfl hop hown hread) h
  · obtain ⟨row, hrow, hid, hdevice, -⟩ := hseat
    exact undisturbed_after hB hi hk hallowed h ⟨row, hrow, hid, hdevice⟩ hclear hheld

/-- A password of an issue that an account holds after the call: its handler has read the row. -/
theorem held_after (hB : B.Lawful) (hi : Inv st) (hk : At st i k (.await c next))
    (hallowed : Allowed k c) (h : st.store.exec c around = some (s', r)) {p username : String}
    (hp : password k.op = some p) (hheld : B.password s'.broker username = some p) :
    ∃ car, (note k c r).read = some car ∧ username = car.deviceId := by
  have hread : ∃ car, k.read = some car ∧ username = car.deviceId := by
    rcases held_before hB hi hk hallowed h hk hp hheld with hbefore | ⟨-, -, hread⟩
    · exact hi.held i k _ p username hk hp hbefore
    · exact hread
  obtain ⟨car, hread, hdevice⟩ := hread
  exact ⟨car, read_kept hallowed h hread, hdevice⟩

/-- The handler that the call answers has stamped a row: the seat is there and undisturbed. -/
theorem seated_answered (hB : B.Lawful) (hi : Inv st) (hk : At st i k (.await c next))
    (hallowed : Allowed k c) (h : st.store.exec c around = some (s', r))
    (hstamps : StampsOwnRow st (.answer i around)) {p : String} {car : Car} {id : ℕ}
    (hp : password k.op = some p) (hread : (note k c r).read = some car)
    (hwrote : (note k c r).wrote = true) (hid : carId k.op = some id)
    (hheld : B.password s'.broker car.deviceId = some p) :
    Seat s' id car.deviceId ∧
      Undisturbed ⟨s', st.handlers.set i (note k c r, next r)⟩ id car.deviceId := by
  rcases note_read hallowed h with hsame | ⟨hnone, -, hkept, -⟩
  · rw [hsame] at hread
    rcases note_wrote h (k := k) with hkept | ⟨id', patch, around', rfl, rfl, rfl⟩
    · -- it had stamped the row before
      rw [hkept] at hwrote
      rcases held_before hB hi hk hallowed h hk hp hheld with hbefore | ⟨-, hunstamped, -⟩
      · obtain ⟨hseat, hclear⟩ := hi.seated i k _ p car id hk hp hread hwrote hid hbefore
        exact seated_after hB hi hk hallowed h hseat hclear hheld
      · rw [hwrote] at hunstamped
        cases hunstamped
    · -- it stamps the row now
      obtain rfl := Option.some.inj (hid.symm.trans hallowed.1)
      obtain ⟨hrow, hclear⟩ := hstamps k id patch p car (pending_of_await hk) hp hread hheld
      refine ⟨?_, undisturbed_after hB hi hk hallowed h hrow hclear hheld⟩
      obtain ⟨-, read, -, hpatch⟩ := hallowed
      obtain ⟨row, hrow, hrowId, hdevice⟩ := hrow
      exact seat_stamped hp hpatch hrow hrowId hdevice
  · rw [hkept, (hi.unread i k _ hk hnone).2] at hwrote
    cases hwrote

theorem inv_answer (hB : B.Lawful) (hi : Inv st) (hk : At st i k (.await c next))
    (hallowed : Allowed k c) (h : st.store.exec c around = some (s', r))
    (hstamps : StampsOwnRow st (.answer i around)) :
    Inv ⟨s', st.handlers.set i (note k c r, next r)⟩ where
  keyed := keyed_after hi.keyed h
  unread := by
    intro j l q hj hread
    rcases at_set hj with ⟨-, rfl, -⟩ | ⟨-, hj⟩
    · rcases note_read hallowed h with hsame | ⟨-, -, -, row, -, -, hfound⟩
      · rw [hsame] at hread
        obtain ⟨hrevoked, hwrote⟩ := hi.unread i k _ hk hread
        constructor
        · rcases note_revoked hB hallowed h with hkept | ⟨car, hsome, -⟩
          · rw [hkept, hrevoked]
          · rw [hread] at hsome
            cases hsome
        · rcases note_wrote h (k := k) with hkept | ⟨id, patch, around', rfl, -, -⟩
          · rw [hkept, hwrote]
          · obtain ⟨-, car, hsome, -⟩ := hallowed
            rw [hread] at hsome
            cases hsome
      · rw [hfound] at hread
        cases hread
    · exact hi.unread j l q hj hread
  distinct := by
    intro j l q hj
    rcases at_set hj with ⟨-, rfl, -⟩ | ⟨-, hj⟩
    · rw [note_op]
      exact hi.distinct i k _ hk
    · exact hi.distinct j l q hj
  apart := by
    -- the operations are what they were
    have hop : ∀ {j l q}, At ⟨s', st.handlers.set i (note k c r, next r)⟩ j l q →
        ∃ l' q', At st j l' q' ∧ l'.op = l.op := by
      intro j l q hj
      rcases at_set hj with ⟨rfl, rfl, -⟩ | ⟨-, hj⟩
      · exact ⟨k, _, hk, (note_op k c r).symm⟩
      · exact ⟨l, q, hj, rfl⟩
    intro j m l l' q q' hj hm hne
    obtain ⟨k₁, q₁, hj, h₁⟩ := hop hj
    obtain ⟨k₂, q₂, hm, h₂⟩ := hop hm
    rw [← h₁, ← h₂]
    exact hi.apart j m k₁ k₂ q₁ q₂ hj hm hne
  held := by
    intro j l q p username hj hp hheld
    rcases at_set hj with ⟨rfl, rfl, -⟩ | ⟨hne, hj⟩
    · rw [note_op] at hp
      exact held_after hB hi hk hallowed h hp hheld
    · rcases held_before hB hi hk hallowed h hj hp hheld with hbefore | ⟨heq, -⟩
      · exact hi.held j l q p username hj hp hbefore
      · exact absurd heq hne
  seated := by
    intro j l q p car id hj hp hread hwrote hid hheld
    rcases at_set hj with ⟨rfl, rfl, -⟩ | ⟨hne, hj⟩
    · rw [note_op] at hp hid
      exact seated_answered hB hi hk hallowed h hstamps hp hread hwrote hid hheld
    · rcases held_before hB hi hk hallowed h hj hp hheld with hbefore | ⟨heq, -⟩
      · obtain ⟨hseat, hclear⟩ := hi.seated j l q p car id hj hp hread hwrote hid hbefore
        exact seated_after hB hi hk hallowed h hseat hclear hheld
      · exact absurd heq hne

end Answer

theorem inv_step (hB : B.Lawful) {st st' : CarsPool B} {e : Event Op (Option (Surroundings B))}
    (hi : Inv st) (hfollow : AllFollow (service B) Allowed Stamps st)
    (he : FreshSecrets st e ∧ StampsOwnRow st e) (h : step (service B) st e = some st') : Inv st' := by
  obtain ⟨op, rfl, rfl⟩ | ⟨i, around, k, c, next, s, r, rfl, hk, hexec, rfl⟩ := step_cases h
  · exact inv_invoke hi he.1
  · exact inv_answer hB hi hk (hfollow i k _ hk).1 hexec he.2

/-- A password that was returned to the caller of an issue. -/
def Returned (st : CarsPool B) (p : String) : Prop :=
  ∃ i k credentials, At st i k (.done (.issued credentials)) ∧ credentials.password = p

/-- Every account that holds a password that was returned is that of a row, and the row reads as
provisioned. -/
def NoOrphan (st : CarsPool B) : Prop :=
  ∀ username p, B.password st.store.broker username = some p → Returned st p →
    ∃ car ∈ st.store.cars, car.deviceId = username ∧ car.mqttProvisionedAt ≠ none

/-- **No orphan credential.**  In every run in which an issue that stamps its row, with the account
holding its password, finds the row under the `deviceId` it has read and no rename or delete of the
car halfway through: whenever an account holds a password that was returned, a row that reads as
provisioned shows it. -/
theorem no_orphan_credential (hB : B.Lawful) {s : Store B} (hs : Keyed s)
    (es : List (Event Op (Option (Surroundings B)))) (st : CarsPool B)
    (hrun : run (step (service B)) ⟨s, []⟩ es = some st)
    (hfresh : Meets (step (service B)) FreshSecrets ⟨s, []⟩ es)
    (hstamps : Meets (step (service B)) StampsOwnRow ⟨s, []⟩ es) : NoOrphan st := by
  have hinv : Inv st ∧ AllFollow (service B) Allowed Stamps st := by
    refine run_invariant (step (service B))
      (I := fun st => Inv st ∧ AllFollow (service B) Allowed Stamps st) ?_ es _ st
      ⟨inv_init hs, ?_⟩ (meets_and _ hfresh hstamps) hrun
    · intro st e st' hi he hstep
      exact ⟨inv_step hB hi.1 hi.2 he hstep, follows_step follows_handler hi.2 hstep⟩
    · intro i k p hi
      cases hi
  obtain ⟨hi, hfollow⟩ := hinv
  intro username p hheld hreturned
  obtain ⟨i, k, credentials, hk, rfl⟩ := hreturned
  obtain ⟨hpassword, hwrote⟩ := hfollow i k _ hk credentials rfl
  obtain ⟨car, hread, rfl⟩ := hi.held i k _ _ username hk hpassword hheld
  have hid : ∃ id, carId k.op = some id := by
    cases hop : k.op with
    | issue user id secret secret' issuedAt => exact ⟨id, rfl⟩
    | _ =>
      rw [hop] at hpassword
      cases hpassword
  obtain ⟨id, hid⟩ := hid
  obtain ⟨⟨row, hrow, -, hdevice, hprovisioned⟩, -⟩ :=
    hi.seated i k _ _ car id hk hpassword hread hwrote hid hheld
  exact ⟨row, hrow, hdevice, hprovisioned⟩

end Runs

section Example

theorem exampleStore_keyed : Keyed exampleStore where
  ids := List.nodup_singleton 1
  fresh := by
    intro car hcar
    rw [List.mem_singleton.mp hcar]
    decide

/-- The owner of the car asks for a new credential. -/
def exampleIssue : Op := .issue exampleOwner 1 "throwaway" "secret" 2000

theorem exampleIssue_fresh {handlers : List (Progress × Handler Outcome)}
    (h : ∀ x ∈ handlers, secrets x.1.op = []) :
    FreshSecrets ⟨exampleStore, handlers⟩ (.invoke exampleIssue) := by
  refine ⟨by decide, fun p hp => ⟨fun username => ?_, fun i k q hk => ?_⟩⟩
  · show (if username = "TEST123" then some "issued" else none) ≠ some p
    have hne : p ≠ "issued" := by
      rintro rfl
      revert hp
      decide
    split
    · exact fun heq => hne (Option.some.inj heq).symm
    · rintro ⟨⟩
  · rw [h (k, q) (List.mem_of_getElem? hk)]
    exact List.not_mem_nil

/-- Events that start no operation draw no secrets. -/
theorem fresh_of_answers {st : CarsPool exampleBroker}
    {es : List (Event Op (Option (Surroundings exampleBroker)))}
    (h : check (step (service exampleBroker)) (fun _ e => match e with
      | .invoke _ => false
      | .answer .. => true) st es = true) :
    Meets (step (service exampleBroker)) FreshSecrets st es := by
  apply meets_of_check _ ?_ h
  intro st e he
  cases e with
  | invoke op => cases he
  | answer i around => trivial

/-- A step that stamps no row, or stamps a row no other operation is at work on. -/
def stampsAlone (st : CarsPool exampleBroker) :
    Event Op (Option (Surroundings exampleBroker)) → Bool
  | .invoke _ => true
  | .answer i _ => match st.pending i with
    | some (k, .updateCar id _) => st.handlers.all (fun h => !unseats h.1.op) &&
      k.read.all fun car => st.store.cars.any fun row => row.id = id && row.deviceId = car.deviceId
    | _ => true

theorem stampsOwnRow_of_alone (st : CarsPool exampleBroker)
    (e : Event Op (Option (Surroundings exampleBroker))) (h : stampsAlone st e = true) :
    StampsOwnRow st e := by
  cases e with
  | invoke op => trivial
  | answer i around =>
    cases around with
    | none => trivial
    | some around =>
      intro k id patch p car hpending hp hread hheld
      rw [stampsAlone, hpending] at h
      simp only [Bool.and_eq_true, List.all_eq_true, hread, Option.all_some, List.any_eq_true,
        decide_eq_true_eq] at h
      obtain ⟨hall, row, hrow, hid⟩ := h
      refine ⟨⟨row, hrow, hid⟩, fun j l q car' hj _ hop => ?_⟩
      have hnot := hall (l, q) (List.mem_of_getElem? hj)
      simp [hop] at hnot

/-- The issue, with nothing beside it. -/
def issueAlone : List (Event Op (Option (Surroundings exampleBroker))) :=
  .invoke exampleIssue :: List.replicate 11 (.answer 0 (some answered))

theorem no_orphan_credential_issueAlone : ∃ st,
    run (step (service exampleBroker)) ⟨exampleStore, []⟩ issueAlone = some st ∧ NoOrphan st := by
  refine ⟨_, rfl, no_orphan_credential exampleBroker_lawful exampleStore_keyed issueAlone _ rfl ?_ ?_⟩
  · refine ⟨exampleIssue_fresh (fun x hx => by cases hx), fun t ht => ?_⟩
    cases ht
    exact fresh_of_answers (by decide +kernel)
  · exact meets_of_check _ stampsOwnRow_of_alone (by decide +kernel)

/-- Nothing is in flight. -/
def Quiet (st : CarsPool exampleBroker) : Prop := ∀ i k q, At st i k q → q.pending = none

/-- The issue comes between the two halves of a delete, and makes the account again. -/
def issueWithinRemove : List (Event Op (Option (Surroundings exampleBroker))) :=
  [.invoke (.remove exampleOwner 1), .invoke exampleIssue] ++
    List.replicate 3 (.answer 0 (some answered)) ++ List.replicate 11 (.answer 1 (some answered)) ++
      [.answer 0 (some answered)]

/-- Everything has returned, the second operation with the password that the account holds, and no row
is left. -/
def orphaned (st : CarsPool exampleBroker) : Bool :=
  st.handlers.all (fun h => h.2.pending.isNone) && st.store.cars.isEmpty &&
    st.handlers.any (fun h => match h.2 with
      | .done (.issued credentials) =>
        exampleBroker.password st.store.broker credentials.username = some credentials.password
      | _ => false)

theorem not_noOrphan_of_orphaned {st : CarsPool exampleBroker} (h : orphaned st = true) :
    Quiet st ∧ ¬ NoOrphan st := by
  simp only [orphaned, Bool.and_eq_true, List.all_eq_true, List.any_eq_true,
    Option.isNone_iff_eq_none, List.isEmpty_iff] at h
  obtain ⟨⟨hquiet, hcars⟩, ⟨k, q⟩, hmem, hq⟩ := h
  refine ⟨fun i k' q' hi => hquiet (k', q') (List.mem_of_getElem? hi), fun hno => ?_⟩
  split at hq
  · rename_i credentials heq
    obtain rfl : q = _ := heq
    obtain ⟨i, hi⟩ := List.getElem?_of_mem hmem
    obtain ⟨car, hcar, -⟩ := hno credentials.username credentials.password (of_decide_eq_true hq)
      ⟨i, k, credentials, hi, rfl⟩
    rw [hcars] at hcar
    cases hcar
  · cases hq

/-- **An orphan**: the credential was returned, its account is there, and the car is not. -/
theorem issueWithinRemove_orphan : ¬ ∀ (s : Store exampleBroker), Keyed s →
    ∀ (es : List (Event Op (Option (Surroundings exampleBroker)))) (st : CarsPool exampleBroker),
      run (step (service exampleBroker)) ⟨s, []⟩ es = some st →
      Meets (step (service exampleBroker)) FreshSecrets ⟨s, []⟩ es → Quiet st → NoOrphan st := by
  intro h
  have hend : (run (step (service exampleBroker)) ⟨exampleStore, []⟩ issueWithinRemove).any
      orphaned = true := by decide +kernel
  obtain ⟨st, hrun, horphaned⟩ := (Option.any_eq_true _ _).mp hend
  obtain ⟨hquiet, horphan⟩ := not_noOrphan_of_orphaned horphaned
  refine horphan (h exampleStore exampleStore_keyed issueWithinRemove st hrun ?_ hquiet)
  refine ⟨⟨List.nodup_nil, fun p hp => by cases hp⟩, fun t ht => ?_⟩
  cases ht
  refine ⟨exampleIssue_fresh fun x hx => ?_, fun t ht => ?_⟩
  · rw [List.mem_singleton.mp hx]
    rfl
  · cases ht
    exact fresh_of_answers (by decide +kernel)

end Example

end TelemetryCloud.CarCredentials
