import Mathlib.Data.List.Basic
import Mathlib.Data.List.Infix

/-!
# The broker's admin channel: calls, queue and the command in flight

`MqttAdminService` as a state machine.  A call of `ensureCar`, `issuePassword` or `removeCar` is a
`Prog`: the requests it makes, each with how it goes on.  Requests wait in one queue; `sendNow` puts
the next one in flight, and a response, a timeout or a failed publish settles it.

* `ensureCar`, `issuePassword`, `removeCar` : the three calls;
* `dispatch`, `onResponse`, `settle` : the plumbing;
* `settle_inFlight_ne` : a settle for an abandoned command leaves its successor alone;
* `onResponse_eq` : what a response does is decided by the name of the command in flight.
-/

namespace TelemetryCloud.MqttAdmin

/-! ### Commands and calls -/

def carTelemetryTopic (deviceId : String) : String := "cars/" ++ deviceId ++ "/telemetry"
def carSessionTopic (deviceId : String) : String := "cars/" ++ deviceId ++ "/session"
def carBackfillTopic (deviceId : String) : String := "cars/" ++ deviceId ++ "/backfill"

def carPublishTopics (deviceId : String) : List String :=
  [carTelemetryTopic deviceId, carSessionTopic deviceId, carBackfillTopic deviceId]

def carRoleName (deviceId : String) : String := "car-" ++ deviceId

/-- A command of the dynamic-security plugin, with the fields that differ from call to call.  The
`deviceId` that `ensureCar` is given, and sends as the username, may be `null`. -/
inductive Command
  | createRole (rolename : String)
  | addRoleACL (rolename topic : String)
  | createClient (username : Option String) (password : String)
  | getClient (username : Option String)
  | addClientRole (username : Option String) (rolename : String)
  | setClientPassword (username password : String)
  | deleteClient (username : String)
  | deleteRole (rolename : String)
  deriving DecidableEq, Repr

/-- The `command` field of the payload. -/
def Command.name : Command → String
  | .createRole _ => "createRole"
  | .addRoleACL _ _ => "addRoleACL"
  | .createClient _ _ => "createClient"
  | .getClient _ => "getClient"
  | .addClientRole _ _ => "addClientRole"
  | .setClientPassword _ _ => "setClientPassword"
  | .deleteClient _ => "deleteClient"
  | .deleteRole _ => "deleteRole"

/-- `DynsecResponse`, with the role names of `data.client.roles`. -/
structure Response where
  command : String
  error : Option String
  roles : Option (List String)
  deriving DecidableEq, Repr

def ALREADY_PRESENT : List String := ["already exists", "already in"]
def NOT_PRESENT : List String := ["not found", "does not exist"]

/-- `tolerate.some((fragment) => message.includes(fragment))`. -/
def tolerated (tolerate : List String) (message : String) : Bool :=
  tolerate.any fun fragment => fragment.toList <:+: message.toList.map Char.toLower

/-- What is left of a call: it has returned (with the password, for `issuePassword`), it has thrown,
or it awaits a `request`. -/
inductive Prog
  | done (password : Option String)
  | fail (message : String)
  | request (command : Command) (tolerate : List String) (next : Option Response → Prog)

/-- `ensureCar`, and what the caller goes on with.  In the names of the role and of the topics a
`null` is spelled out. -/
def ensureCarThen (deviceId : Option String) (secret : String) (rest : Prog) : Prog :=
  let named := deviceId.getD "null"
  let rolename := carRoleName named
  let account :=
    .request (.createClient deviceId secret) ALREADY_PRESENT fun _ =>
    .request (.getClient deviceId) NOT_PRESENT fun response =>
      if (response.bind Response.roles).any (·.any (· = rolename)) then rest
      else .request (.addClientRole deviceId rolename) [] fun _ => rest
  .request (.createRole rolename) ALREADY_PRESENT fun _ =>
    (carPublishTopics named).foldr
      (fun topic rest => .request (.addRoleACL rolename topic) ALREADY_PRESENT fun _ => rest) account

def ensureCar (deviceId : Option String) (secret : String) : Prog :=
  ensureCarThen deviceId secret (.done none)

/-- `issuePassword`; the secrets are what `generateSecret` returns. -/
def issuePassword (deviceId secret password : String) : Prog :=
  ensureCarThen deviceId secret <|
    .request (.setClientPassword deviceId password) [] fun _ => .done (some password)

def removeCar (deviceId : String) : Prog :=
  .request (.deleteClient deviceId) NOT_PRESENT fun _ =>
  .request (.deleteRole (carRoleName deviceId)) NOT_PRESENT fun _ => .done none

/-- A call of the service. -/
inductive Operation
  | ensureCar (deviceId : Option String) (secret : String)
  | issuePassword (deviceId secret password : String)
  | removeCar (deviceId : String)
  deriving DecidableEq, Repr

def Operation.prog : Operation → Prog
  | .ensureCar deviceId secret => MqttAdmin.ensureCar deviceId secret
  | .issuePassword deviceId secret password => MqttAdmin.issuePassword deviceId secret password
  | .removeCar deviceId => MqttAdmin.removeCar deviceId

/-! ### The service -/

/-- A `request` that waits in the queue, with the call that awaits it. -/
structure Request where
  caller : ℕ
  command : Command
  tolerate : List String
  next : Option Response → Prog

structure InFlight where
  token : ℕ
  request : Request

/-- What settled a command. -/
inductive Cause
  | response
  | timeout
  | unreachable
  deriving DecidableEq, Repr

/-- `settled` records every token that was settled and by what, `returned` every call that is
over. -/
structure Admin where
  connected : Bool
  nextToken : ℕ
  inFlight : Option InFlight
  queue : List Request
  settled : List (ℕ × Cause)
  returned : List (ℕ × Except String (Option String))

namespace Admin

def init : Admin := ⟨true, 0, none, [], [], []⟩

/-- A call goes on to its next request, or returns. -/
def perform (a : Admin) (caller : ℕ) : Prog → Admin
  | .done password => { a with returned := a.returned ++ [(caller, .ok password)] }
  | .fail message => { a with returned := a.returned ++ [(caller, .error message)] }
  | .request command tolerate next =>
    { a with queue := a.queue ++ [{ caller, command, tolerate, next }] }

/-- `request` after its await: a tolerated error is a `null`. -/
def finish (a : Admin) (r : Request) : Except String Response → Admin
  | .ok response => a.perform r.caller (r.next (some response))
  | .error message =>
    if tolerated r.tolerate message then a.perform r.caller (r.next none)
    else a.perform r.caller (.fail message)

/-- `settle`: only if `token` is still in flight. -/
def settle (a : Admin) (token : ℕ) (cause : Cause) (result : Except String Response) : Admin :=
  match a.inFlight with
  | none => a
  | some f =>
    if f.token = token then
      finish { a with inFlight := none, settled := a.settled ++ [(token, cause)] } f.request result
    else a

/-- `sendNow` for the next request of the queue, with what is published. -/
def dispatch (a : Admin) : Option (Admin × Option (ℕ × Command)) :=
  match a.inFlight, a.queue with
  | none, r :: rest =>
    if a.connected then
      some ({ a with
        queue := rest
        nextToken := a.nextToken + 1
        inFlight := some ⟨a.nextToken + 1, r⟩ }, some (a.nextToken + 1, r.command))
    else some (finish { a with queue := rest } r (.error "MQTT broker unavailable"), none)
  | _, _ => none

/-- `onResponse`; `none` is a frame without a response to read. -/
def onResponse (a : Admin) (message : Option Response) : Admin :=
  match a.inFlight, message with
  | some f, some response =>
    if response.command = f.request.command.name then
      a.settle f.token .response (match response.error with
        | none | some "" => .ok response
        | some error => .error error)
    else a
  | _, _ => a

/-- The timer of the command in flight. -/
def onTimeout (a : Admin) : Option Admin :=
  a.inFlight.map fun f => a.settle f.token .timeout (.error "MQTT broker did not respond")

/-- The publish callback of `token`. -/
def onPublished (a : Admin) (token : ℕ) (failed : Bool) : Admin :=
  if failed then a.settle token .unreachable (.error "Could not reach the MQTT broker") else a

/-- The token a message settles. -/
def settles (a : Admin) (message : Option Response) : Option ℕ :=
  match a.inFlight, message with
  | some f, some response =>
    if response.command = f.request.command.name then some f.token else none
  | _, _ => none

/-! ### What the plumbing leaves alone -/

variable (a : Admin)

theorem perform_frame (caller : ℕ) (p : Prog) :
    (a.perform caller p).inFlight = a.inFlight ∧ (a.perform caller p).nextToken = a.nextToken ∧
      (a.perform caller p).settled = a.settled ∧
      (a.perform caller p).connected = a.connected := by
  cases p <;> exact ⟨rfl, rfl, rfl, rfl⟩

theorem finish_frame (r : Request) (result : Except String Response) :
    (a.finish r result).inFlight = a.inFlight ∧ (a.finish r result).nextToken = a.nextToken ∧
      (a.finish r result).settled = a.settled ∧
      (a.finish r result).connected = a.connected := by
  cases result with
  | ok response => exact a.perform_frame _ _
  | error message =>
    simp only [finish]
    split
    · exact a.perform_frame _ _
    · exact a.perform_frame _ _

variable {a}

/-- A settle for any other command does nothing. -/
theorem settle_inFlight_ne {token : ℕ} (h : ∀ f ∈ a.inFlight, f.token ≠ token) (cause : Cause)
    (result : Except String Response) : a.settle token cause result = a := by
  unfold settle
  split
  · rfl
  · rename_i f hf
    rw [if_neg (h f hf)]

/-- A settle for the command in flight takes it out of flight and records it. -/
theorem settle_inFlight {f : InFlight} (h : a.inFlight = some f) (cause : Cause)
    (result : Except String Response) :
    (a.settle f.token cause result).inFlight = none ∧
      (a.settle f.token cause result).nextToken = a.nextToken ∧
      (a.settle f.token cause result).settled = a.settled ++ [(f.token, cause)] := by
  unfold settle
  rw [h]
  simp only [if_true]
  obtain ⟨hinFlight, htoken, hsettled, -⟩ := finish_frame
    { a with inFlight := none, settled := a.settled ++ [(f.token, cause)] } f.request result
  exact ⟨hinFlight, htoken, hsettled⟩

/-- **What a message does**: it settles the command in flight if it carries its name, and is ignored
otherwise. -/
theorem onResponse_eq (message : Option Response) :
    (a.settles message = none ∧ a.onResponse message = a) ∨
      ∃ f result, a.inFlight = some f ∧ a.settles message = some f.token ∧
        a.onResponse message = a.settle f.token .response result := by
  unfold settles onResponse
  split
  · rename_i f response hf
    split
    · exact .inr ⟨f, _, hf, rfl, rfl⟩
    · exact .inl ⟨rfl, rfl⟩
  · exact .inl ⟨rfl, rfl⟩

/-- **What a dispatch does**: it puts the next request in flight under a new token, or, with the
broker out of reach, answers it at once. -/
theorem dispatch_cases {a' : Admin} {sent : Option (ℕ × Command)}
    (h : a.dispatch = some (a', sent)) :
    a.inFlight = none ∧ a'.settled = a.settled ∧
      ((∃ r, sent = some (a.nextToken + 1, r.command) ∧ a'.nextToken = a.nextToken + 1 ∧
          a'.inFlight = some ⟨a.nextToken + 1, r⟩) ∨
        (sent = none ∧ a'.nextToken = a.nextToken ∧ a'.inFlight = none)) := by
  unfold dispatch at h
  split at h
  · rename_i r rest hin hq
    split at h
    · cases h
      exact ⟨hin, rfl, .inl ⟨r, rfl, rfl, rfl⟩⟩
    · cases h
      obtain ⟨hinFlight, htoken, hsettled, -⟩ :=
        finish_frame { a with queue := rest } r (.error "MQTT broker unavailable")
      exact ⟨hin, hsettled, .inr ⟨rfl, htoken, hinFlight.trans hin⟩⟩
  · cases h

end Admin

end TelemetryCloud.MqttAdmin
