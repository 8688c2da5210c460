import TelemetryCloud.Teams
import Mathlib.Data.Int.Notation

/-!
# Who may see a car, and who may change it

The scoping primitives of `CarsService`.  `SessionsService` scopes by them too, so they are written
over any service that can look up a car and a membership.

* `requireReadableCar` : the owner, an administrator, or a member of the car's team;
* `requireWritableCar` : the owner, an administrator, or a manager of the car's team.
-/

namespace TelemetryCloud.CarAccess

open Calls Teams TelemetryCloud.Repository

/-- A row of `cars`. -/
structure Car where
  id : ℕ
  name : String
  make : Option String
  model : Option String
  deviceId : String
  mqttProvisionedAt : Option ℤ
  ownerId : ℕ
  teamId : Option ℕ
  deriving DecidableEq, Repr

section Access

variable {Call : Type} {Answer : Call → Type}
  (findCar : ℕ → Prog Call Answer RequestError Car)
  (getMembership : (userId teamId : ℕ) → Prog Call Answer RequestError (Option TeamMember))

/-- `CarsService.resolveAccess`. -/
def resolveAccess (user : User) (carId : ℕ) :
    Prog Call Answer RequestError (Car × Option TeamMember) := do
  let car ← findCar carId
  match car.teamId with
  | some teamId => do
    let membership ← getMembership user.id teamId
    return (car, membership)
  | none => return (car, none)

/-- `CarsService.assertReadable`. -/
def assertReadable (user : User) (car : Car) (membership : Option TeamMember) :
    Prog Call Answer RequestError Car :=
  if user.role = .admin ∨ car.ownerId = user.id ∨ membership.isSome then .done car
  else .fail (.notFound "Car not found")

/-- `CarsService.requireReadableCar`. -/
def requireReadableCar (user : User) (carId : ℕ) : Prog Call Answer RequestError Car := do
  let (car, membership) ← resolveAccess findCar getMembership user carId
  assertReadable user car membership

/-- `CarsService.requireWritableCar`. -/
def requireWritableCar (user : User) (carId : ℕ) : Prog Call Answer RequestError Car := do
  let (car, membership) ← resolveAccess findCar getMembership user carId
  let _ ← assertReadable user car membership
  if user.role = .admin ∨ car.ownerId = user.id then return car
  else if membership.any (·.role ∈ MANAGING_TEAM_ROLES) then return car
  else .fail (.forbidden "Insufficient permissions for this car")

end Access

end TelemetryCloud.CarAccess
