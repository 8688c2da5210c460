import TelemetryCloud.CarAccess
import TelemetryCloud.MqttAdmin
import Mathlib.Logic.Function.Basic

/-!
# Cars and their broker accounts

`CarsService` over the table `cars` and the accounts of the broker.  Every database call and every
broker command is one atomic step.  The broker is not part of the repository: what a command does to
an account, and how it is answered, is a parameter, with the laws `Broker.Lawful`.

* `create`, `update`, `remove`, `issueMqttCredentials` : the operations;
* `Broker`, `Broker.Lawful` : the broker, and what the service relies on;
* `sends_ensureCarThen` : what `ensureCar` sends.
-/

namespace TelemetryCloud.Cars

open Calls CarAccess TelemetryCloud.Repository
open MqttAdmin (Command Response NOT_PRESENT tolerated)
open Teams (User UserRole TeamMember MANAGING_TEAM_ROLES)

/-! ### Requests and patches -/

structure CreateCarDto where
  name : String
  make : Option String
  model : Option String
  deviceId : String
  teamId : Option ℕ
  deriving DecidableEq, Repr

/-- The fields a request patches.  Each may be there as `null`, which `@IsOptional` lets through. -/
structure UpdateCarDto where
  name : Option (Option String)
  make : Option (Option String)
  model : Option (Option String)
  deviceId : Option (Option String)
  teamId : Option (Option ℕ)
  deriving DecidableEq, Repr

/-- What an `UPDATE` of a car sets. -/
structure CarPatch extends UpdateCarDto where
  mqttProvisionedAt : Option (Option ℤ)
  deriving DecidableEq, Repr

/-- The patch that sets `mqttProvisionedAt` and nothing else. -/
def CarPatch.provisionedAt (mqttProvisionedAt : Option ℤ) : CarPatch :=
  ⟨⟨none, none, none, none, none⟩, some mqttProvisionedAt⟩

/-- The patch sets a column that takes no null to null. -/
def CarPatch.violatesNotNull (patch : CarPatch) : Bool :=
  patch.name = some none || patch.deviceId = some none

/-- A row under a patch that the columns take. -/
def CarPatch.apply (patch : CarPatch) (car : Car) : Car where
  id := car.id
  name := patch.name.join.getD car.name
  make := patch.make.getD car.make
  model := patch.model.getD car.model
  deviceId := patch.deviceId.join.getD car.deviceId
  mqttProvisionedAt := patch.mqttProvisionedAt.getD car.mqttProvisionedAt
  ownerId := car.ownerId
  teamId := patch.teamId.getD car.teamId

@[simp] theorem CarPatch.apply_id (patch : CarPatch) (car : Car) : (patch.apply car).id = car.id := rfl

/-! ### Calls -/

inductive Call
  | findCar (id : ℕ)
  | teams (call : Teams.Call)
  | insertCar (dto : CreateCarDto) (ownerId : ℕ)
  | updateCar (id : ℕ) (patch : CarPatch)
  | deleteCar (id : ℕ)
  | request (command : Command) (tolerate : List String)

/-- An `UPDATE` and a `DELETE` answer whether they affected a row. -/
@[reducible] def Answer : Call → Type
  | .findCar _ => Car
  | .teams call => Teams.Answer call
  | .insertCar .. => Car
  | .updateCar .. => Bool
  | .deleteCar _ => Bool
  | .request .. => Option Response

abbrev Handler (α : Type) := Prog Call Answer RequestError α

def query (c : Call) : Handler (Answer c) := Prog.call c

/-- A handler of `TeamsService` within one of `CarsService`. -/
def ofTeams {α : Type} : Teams.Handler α → Handler α
  | .done result => .done result
  | .fail error => .fail error
  | .await call next => .await (.teams call) fun r => ofTeams (next r)

/-- A call of `MqttAdminService` within a handler of `CarsService`. -/
def ofAdmin : MqttAdmin.Prog → Handler (Option String)
  | .done password => .done password
  | .fail _ => .fail .failed
  | .request command tolerate next =>
    (query (.request command tolerate)).bind fun response => ofAdmin (next response)

def ensureCar (deviceId : Option String) (secret : String) : Handler (Option String) :=
  ofAdmin (MqttAdmin.ensureCar deviceId secret)

def issuePassword (deviceId secret password : String) : Handler (Option String) :=
  ofAdmin (MqttAdmin.issuePassword deviceId secret password)

def removeCar (deviceId : String) : Handler (Option String) :=
  ofAdmin (MqttAdmin.removeCar deviceId)

/-! ### The repository -/

def DEVICE_CONFLICT : String := "Car could not be saved"

/-- `CarsRepository.createCar`. -/
def createCar (createCarDto : CreateCarDto) (ownerId : ℕ) : Handler Car :=
  (query (.insertCar createCarDto ownerId)).catchError fun error =>
    .fail (asConflict error DEVICE_CONFLICT)

/-- `findOneAndUpdate`: the `UPDATE`, then the row is read again. -/
def findOneAndUpdateCar (id : ℕ) (patch : CarPatch) : Handler Car := do
  let affected ← query (.updateCar id patch)
  if affected = true then query (.findCar id) else .fail (.notFound "Entity not found")

/-- `CarsRepository.updateCar`. -/
def updateCar (id : ℕ) (patch : CarPatch) : Handler Car :=
  (findOneAndUpdateCar id patch).catchError fun error => .fail (asConflict error DEVICE_CONFLICT)

/-- `findOneAndDelete`. -/
def findOneAndDeleteCar (id : ℕ) : Handler Unit := do
  let affected ← query (.deleteCar id)
  if affected = true then return () else .fail (.notFound "Entity not found")

/-! ### The operations -/

def requireTeamRole (user : User) (teamId : ℕ) : Handler (Option TeamMember) :=
  ofTeams (Teams.requireTeamRole user teamId MANAGING_TEAM_ROLES)

def requireWritableCar (user : User) (carId : ℕ) : Handler Car :=
  CarAccess.requireWritableCar (fun id => query (.findCar id))
    (fun userId teamId => query (.teams (.findMembership userId teamId))) user carId

/-- The check of `create` on a team. -/
def requireCreatable (user : User) (createCarDto : CreateCarDto) : Handler (Option TeamMember) :=
  match createCarDto.teamId with
  | some teamId => requireTeamRole user teamId
  | none => pure none

/-- The secrets an operation is given are what `generateSecret` returns to it. -/
def create (user : User) (createCarDto : CreateCarDto) (secret : String) : Handler Car := do
  let _ ← requireCreatable user createCarDto
  let car ← createCar createCarDto user.id
  let _ ← (ensureCar car.deviceId secret).catchError fun _ => pure none
  return car

/-- The checks of `update` on a patch of `teamId`. -/
def requireMovable (user : User) (car : Car) (updateCarDto : UpdateCarDto) :
    Handler (Option TeamMember) :=
  match updateCarDto.teamId with
  | none => pure none
  | some teamId =>
    if teamId = car.teamId then pure none
    else if car.teamId.isSome ∧ car.ownerId ≠ user.id ∧ user.role ≠ .admin then
      .fail (.forbidden "Only the car owner may move it between teams")
    else
      match teamId with
      | some teamId => requireTeamRole user teamId
      | none => pure none

/-- The checks on a patch are calls of `TeamsService`. -/
theorem requireMovable_ofTeams (user : User) (car : Car) (updateCarDto : UpdateCarDto) :
    ∃ p, requireMovable user car updateCarDto = ofTeams p := by
  unfold requireMovable
  split
  · exact ⟨.done none, rfl⟩
  · split
    · exact ⟨.done none, rfl⟩
    · split
      · exact ⟨.fail _, rfl⟩
      · split
        · exact ⟨_, rfl⟩
        · exact ⟨.done none, rfl⟩

def markUnprovisioned (carId : ℕ) : Handler Unit :=
  (discard (updateCar carId (.provisionedAt none))).catchError fun _ => pure ()

/-- A rename, from where the old account is gone. -/
def renameCar (carId : ℕ) (updateCarDto : UpdateCarDto) (deviceId : Option String)
    (secret : String) : Handler Car :=
  Prog.catchError
    (do
      let _ ← ensureCar deviceId secret
      updateCar carId { updateCarDto with mqttProvisionedAt := some none })
    fun error => do
      let _ ← markUnprovisioned carId
      .fail error

def update (user : User) (carId : ℕ) (updateCarDto : UpdateCarDto) (secret : String) :
    Handler Car := do
  let car ← requireWritableCar user carId
  let _ ← requireMovable user car updateCarDto
  match updateCarDto.deviceId with
  | none => updateCar carId { updateCarDto with mqttProvisionedAt := none }
  | some deviceId =>
    if deviceId = some car.deviceId then
      updateCar carId { updateCarDto with mqttProvisionedAt := none }
    else do
      let _ ← removeCar car.deviceId
      renameCar carId updateCarDto deviceId secret

def remove (user : User) (carId : ℕ) : Handler Unit := do
  let car ← requireWritableCar user carId
  let _ ← removeCar car.deviceId
  findOneAndDeleteCar carId

structure MqttCredentialsDto where
  username : String
  password : String
  issuedAt : ℤ
  deriving DecidableEq, Repr

def issueMqttCredentials (user : User) (carId : ℕ) (secret password : String) (issuedAt : ℤ) :
    Handler MqttCredentialsDto := do
  let car ← requireWritableCar user carId
  let _ ← issuePassword car.deviceId secret password
  let _ ← updateCar carId (.provisionedAt (some issuedAt))
  return ⟨car.deviceId, password, issuedAt⟩

/-! ### The table and the broker -/

/-- The broker's dynamic-security plugin: the credential of an account, and what a command does and
is answered; `Choice` is everything that is not in the command (that it is lost, that its answer
is). -/
structure Broker where
  State : Type
  Choice : Type
  password : State → String → Option String
  respond : State → Command → Choice → State × Except String Response

/-- The account a command is about. -/
def account : Command → Option String
  | .createClient username _ => username
  | .setClientPassword username _ => some username
  | .deleteClient username => some username
  | _ => none

/-- What the plugin documents of its accounts: a command changes only the account it is about;
`createClient` leaves an account there is as it was; a command that is not answered may have been
carried out or not; and an account whose `deleteClient` was answered, were it with `NOT_PRESENT`, is
gone. -/
structure Broker.Lawful (B : Broker) : Prop where
  frame : ∀ s command choice username, account command ≠ some username →
    B.password (B.respond s command choice).1 username = B.password s username
  createClient : ∀ s username password choice,
    let s' := (B.respond s (.createClient (some username) password) choice).1
    B.password s' username = B.password s username ∨
      B.password s username = none ∧ B.password s' username = some password
  setClientPassword : ∀ s username password choice,
    let s' := (B.respond s (.setClientPassword username password) choice).1
    B.password s' username = B.password s username ∨ B.password s' username = some password
  deleteClient : ∀ s username choice,
    let s' := (B.respond s (.deleteClient username) choice).1
    B.password s' username = B.password s username ∨ B.password s' username = none
  deleted : ∀ s username choice s' result, B.respond s (.deleteClient username) choice = (s', result) →
    (∀ message, result = .error message → tolerated NOT_PRESENT message = true) →
    B.password s' username = none

/-- The rows of `cars`, and the broker. -/
structure Store (B : Broker) where
  cars : List Car
  nextId : ℕ
  broker : B.State

/-- What a call finds outside: the tables of teams, and the broker's side of a command. -/
structure Surroundings (B : Broker) where
  teams : Teams.Db
  broker : B.Choice

namespace Store

variable {B : Broker} (s : Store B)

/-- An insert, with the unique index on `deviceId`. -/
def insertCar (dto : CreateCarDto) (ownerId : ℕ) : Store B × Except RequestError Car :=
  if s.cars.any (·.deviceId = dto.deviceId) then (s, .error .uniqueViolation)
  else
    let car : Car :=
      ⟨s.nextId, dto.name, dto.make, dto.model, dto.deviceId, none, ownerId, dto.teamId⟩
    ({ s with cars := s.cars ++ [car], nextId := s.nextId + 1 }, .ok car)

/-- The `deviceId` is another car's. -/
def taken (id : ℕ) (deviceId : String) : Bool :=
  s.cars.any fun car => car.id ≠ id && car.deviceId = deviceId

/-- The `UPDATE`, with the columns that take no null and the unique index on `deviceId`. -/
def updateCar (id : ℕ) (patch : CarPatch) : Store B × Except RequestError Bool :=
  if s.cars.any (·.id = id) && patch.violatesNotNull then (s, .error .failed)
  else if s.cars.any (·.id = id) && patch.deviceId.join.any (s.taken id) then
    (s, .error .uniqueViolation)
  else
    ({ s with cars := updateWhere s.cars (·.id = id) patch.apply }, .ok (s.cars.any (·.id = id)))

def deleteCar (id : ℕ) : Store B × Except RequestError Bool :=
  ({ s with cars := deleteWhere s.cars (·.id = id) }, .ok (s.cars.any (·.id = id)))

/-- `request`: a tolerated error is a `null`. -/
def request (command : Command) (tolerate : List String) (choice : B.Choice) :
    Store B × Except RequestError (Option Response) :=
  let (broker, result) := B.respond s.broker command choice
  ({ s with broker := broker }, match result with
    | .ok response => .ok (some response)
    | .error message => if tolerated tolerate message then .ok none else .error .failed)

/-- A call that reaches the database or the broker. -/
def execute (around : Surroundings B) : (c : Call) → Store B × Except RequestError (Answer c)
  | .findCar id => (s, findOne s.cars (·.id = id))
  | .teams call => (s, (around.teams.execute call).2)
  | .insertCar dto ownerId => s.insertCar dto ownerId
  | .updateCar id patch => s.updateCar id patch
  | .deleteCar id => s.deleteCar id
  | .request command tolerate => s.request command tolerate around.broker

/-- A call as the environment lets it be; `none` is a call that fails on its way. -/
def exec (c : Call) (around : Option (Surroundings B)) :
    Option (Store B × Except RequestError (Answer c)) :=
  some (match around with
    | some around => s.execute around c
    | none => (s, .error .failed))

/-- A call with the database available: what fails it is the broker, or the table. -/
def reach (c : Call) (around : Surroundings B) :
    Option (Store B × Except RequestError (Answer c)) :=
  some (s.execute around c)

end Store

inductive Op
  | create (user : User) (createCarDto : CreateCarDto) (secret : String)
  | update (user : User) (carId : ℕ) (updateCarDto : UpdateCarDto) (secret : String)
  | remove (user : User) (carId : ℕ)
  | issue (user : User) (carId : ℕ) (secret password : String) (issuedAt : ℤ)
  deriving DecidableEq, Repr

inductive Outcome
  | car (car : Car)
  | removed
  | issued (credentials : MqttCredentialsDto)

def Op.handler : Op → Handler Outcome
  | .create user dto secret => Outcome.car <$> Cars.create user dto secret
  | .update user carId dto secret => Outcome.car <$> Cars.update user carId dto secret
  | .remove user carId => (fun _ => Outcome.removed) <$> Cars.remove user carId
  | .issue user carId secret password issuedAt =>
    Outcome.issued <$> issueMqttCredentials user carId secret password issuedAt

/-! ### What the admin calls send -/

/-- Every command the call sends is one `P` allows. -/
def Sends (P : Command → Prop) : MqttAdmin.Prog → Prop
  | .request command _ next => P command ∧ ∀ response, Sends P (next response)
  | _ => True

/-- The commands of `ensureCar` about the role of the car. -/
inductive MakesRole : Command → Prop
  | createRole (rolename : String) : MakesRole (.createRole rolename)
  | addRoleACL (rolename topic : String) : MakesRole (.addRoleACL rolename topic)
  | getClient (username : Option String) : MakesRole (.getClient username)
  | addClientRole (username : Option String) (rolename : String) :
      MakesRole (.addClientRole username rolename)

/-- `ensureCar` creates the account of the car, under the given secret; its other commands are about
the role. -/
theorem sends_ensureCarThen {P : Command → Prop} {deviceId : Option String} {secret : String}
    {rest : MqttAdmin.Prog} (hrole : ∀ command, MakesRole command → P command)
    (hclient : P (.createClient deviceId secret))
    (hrest : Sends P rest) : Sends P (MqttAdmin.ensureCarThen deviceId secret rest) := by
  have hacl : ∀ (topics : List String) (next : MqttAdmin.Prog), Sends P next →
      Sends P (topics.foldr (fun topic rest =>
        .request (.addRoleACL (MqttAdmin.carRoleName (deviceId.getD "null")) topic)
          MqttAdmin.ALREADY_PRESENT
          fun _ => rest) next) := by
    intro topics next hnext
    induction topics with
    | nil => exact hnext
    | cons topic topics ih => exact ⟨hrole _ (.addRoleACL _ _), fun _ => ih⟩
  refine ⟨hrole _ (.createRole _), fun _ => hacl _ _ ⟨hclient, fun _ => ⟨hrole _ (.getClient _), ?_⟩⟩⟩
  intro response
  show Sends P (if _ then _ else _)
  split
  · exact hrest
  · exact ⟨hrole _ (.addClientRole _ _), fun _ => hrest⟩

section Example

/-- A command on the accounts there are. -/
def carryOut (accounts : String → Option String) (command : Command) :
    (String → Option String) × Except String Response :=
  let done : Except String Response := .ok ⟨command.name, none, none⟩
  match command with
  | .createClient none _ => (accounts, .error "Invalid/missing username")
  | .createClient (some username) password =>
    if (accounts username).isSome then (accounts, .error "Client already exists")
    else (Function.update accounts username (some password), done)
  | .setClientPassword username password =>
    if (accounts username).isSome then (Function.update accounts username (some password), done)
    else (accounts, .error "Client not found")
  | .deleteClient username =>
    if (accounts username).isSome then (Function.update accounts username none, done)
    else (accounts, .error "Client not found")
  | _ => (accounts, done)

/-- A broker which a command may not reach, and whose answer may not come back. -/
def exampleBroker : Broker where
  State := String → Option String
  Choice := Bool × Bool
  password accounts := accounts
  respond accounts command := fun (reached, answered) =>
    (if reached then (carryOut accounts command).1 else accounts,
      if reached && answered then (carryOut accounts command).2
      else .error "MQTT broker did not respond")

theorem carryOut_frame {accounts : String → Option String} {command : Command} {username : String}
    (h : account command ≠ some username) :
    (carryOut accounts command).1 username = accounts username := by
  have hne : ∀ u, account command = some u → username ≠ u := fun u hu heq => h (heq ▸ hu)
  cases command with
  | createClient u p =>
    cases u with
    | none => rfl
    | some u =>
      simp only [carryOut]
      split
      · rfl
      · exact Function.update_of_ne (hne u rfl) _ _
  | setClientPassword u p =>
    simp only [carryOut]
    split
    · exact Function.update_of_ne (hne u rfl) _ _
    · rfl
  | deleteClient u =>
    simp only [carryOut]
    split
    · exact Function.update_of_ne (hne u rfl) _ _
    · rfl
  | _ => rfl

theorem carryOut_deleteClient (accounts : String → Option String) (username : String) :
    (carryOut accounts (.deleteClient username)).1 username = none := by
  simp only [carryOut]
  split
  · exact Function.update_self _ _ _
  · rename_i h
    simpa using h

theorem exampleBroker_lawful : exampleBroker.Lawful where
  frame := by
    intro s command choice username h
    obtain ⟨reached, answered⟩ := choice
    cases reached with
    | false => rfl
    | true => exact carryOut_frame h
  createClient := by
    intro s username password choice
    obtain ⟨reached, answered⟩ := choice
    cases reached with
    | false => exact .inl rfl
    | true =>
      show (carryOut s (.createClient (some username) password)).1 username = s username ∨ _ ∧
        (carryOut s (.createClient (some username) password)).1 username = some password
      simp only [carryOut]
      split
      · exact .inl rfl
      · rename_i h
        exact .inr ⟨Option.not_isSome_iff_eq_none.mp h, Function.update_self _ _ _⟩
  setClientPassword := by
    intro s username password choice
    obtain ⟨reached, answered⟩ := choice
    cases reached with
    | false => exact .inl rfl
    | true =>
      show (carryOut s (.setClientPassword username password)).1 username = s username ∨
        (carryOut s (.setClientPassword username password)).1 username = some password
      simp only [carryOut]
      split
      · exact .inr (Function.update_self _ _ _)
      · exact .inl rfl
  deleteClient := by
    intro s username choice
    obtain ⟨reached, answered⟩ := choice
    cases reached with
    | false => exact .inl rfl
    | true => exact .inr (carryOut_deleteClient s username)
  deleted := by
    intro s username choice s' result h htolerated
    obtain ⟨reached, answered⟩ := choice
    cases reached with
    | false =>
      cases h
      exact absurd (htolerated _ rfl) (by decide)
    | true =>
      obtain ⟨rfl, -⟩ := Prod.mk.injEq .. ▸ h
      exact carryOut_deleteClient s username

/-- A car whose credential was issued, and its account. -/
def exampleCar : Car where
  id := 1
  name := "E46"
  make := none
  model := none
  deviceId := "TEST123"
  mqttProvisionedAt := some 1000
  ownerId := 7
  teamId := none

def exampleStore : Store exampleBroker where
  cars := [exampleCar]
  nextId := 2
  broker := fun username => if username = "TEST123" then some "issued" else none

def exampleOwner : User := ⟨7, "owner", .driver⟩

/-- A command that goes through, and one that is lost. -/
def answered : Surroundings exampleBroker := ⟨.empty, (true, true)⟩
def lost : Surroundings exampleBroker := ⟨.empty, (false, false)⟩

end Example

end TelemetryCloud.Cars
