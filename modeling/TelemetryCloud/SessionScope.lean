import TelemetryCloud.SessionClosing
import Mathlib.Data.List.Dedup

/-!
# Which sessions a user sees

Visibility is decided twice: by the queries `SessionsService.findVisible` assembles from optional
scopes, and row by row by `requireReadableSession`.  Both are run over one state of the tables.

* `findAll`, `requireReadableSession` : the two handlers, with the repository queries they make;
* `CanSee` : what both are about, a relation between users and sessions;
* `requireReadableSession_iff`, `mem_findVisible` : each decides it;
* `list_agrees_check` : **the list and the check agree**, for every user, filter and state.
-/

namespace TelemetryCloud.SessionScope

open Calls CarAccess IngestService SessionClosing Teams TelemetryCloud.Repository

/-! ### The tables and their queries -/

/-- A row of `laps`, as the rollup of the list reads it. -/
structure LapRow where
  sessionId : ℕ
  lapMs : ℕ
  deriving DecidableEq, Repr

/-- The tables, with the primary keys of the two that rows are looked up in. -/
structure Db where
  teams : Teams.Db
  cars : List Car
  sessions : List SessionRef
  laps : List LapRow
  carKey : (cars.map (·.id)).Nodup
  sessionKey : (sessions.map (·.id)).Nodup

structure CarScope where
  ownerId : Option ℕ
  teamIds : List ℕ

structure LapSummary where
  sessionId : ℕ
  lapCount : ℕ
  bestLapMs : Option ℕ
  deriving DecidableEq, Repr

inductive Call
  | findCar (id : ℕ)
  | findVisibleIds (scope : CarScope)
  | findAllIds
  | teams (call : Teams.Call)
  | findMemberships (userId : ℕ)
  | findSession (id : ℕ)
  | findVisible (driverId : Option ℕ) (carIds : List ℕ) (status : Option SessionStatus)
  | findAllFiltered (status : Option SessionStatus)
  | findBySessions (sessionIds : List ℕ)

@[reducible] def Answer : Call → Type
  | .findCar _ => Car
  | .findVisibleIds _ => List ℕ
  | .findAllIds => List ℕ
  | .teams call => Teams.Answer call
  | .findMemberships _ => List TeamMember
  | .findSession _ => SessionRef
  | .findVisible .. => List SessionRef
  | .findAllFiltered _ => List SessionRef
  | .findBySessions _ => List LapSummary

/-- The rows a query assembled from predicates selects; without any there is no query to make. -/
def selectAny {T : Type} (rows : List T) (predicates : List (T → Bool)) : List T :=
  if predicates.isEmpty then [] else rows.filter fun row => predicates.any (· row)

namespace Db

variable (db : Db)

/-- `CarsRepository.scopedQuery` and its rows. -/
def scopedQuery (scope : CarScope) : List Car :=
  let byOwner : List (Car → Bool) := match scope.ownerId with
    | some ownerId => [(·.ownerId = ownerId)]
    | none => []
  let byTeam : List (Car → Bool) :=
    if scope.teamIds.isEmpty then [] else [fun car => car.teamId.any (· ∈ scope.teamIds)]
  selectAny db.cars (byOwner ++ byTeam)

/-- `SessionsRepository.finish`. -/
def finish (rows : List SessionRef) (status : Option SessionStatus) : List SessionRef :=
  let matching : List SessionRef := match status with
    | some status => rows.filter fun session => session.status = status
    | none => rows
  matching.mergeSort fun a b => b.startedAt ≤ a.startedAt

/-- `SessionsRepository.findVisible`. -/
def findVisible (driverId : Option ℕ) (carIds : List ℕ) (status : Option SessionStatus) :
    List SessionRef :=
  let byDriver : List (SessionRef → Bool) := match driverId with
    | some driverId => [(·.driverId = driverId)]
    | none => []
  let byCar : List (SessionRef → Bool) := if carIds.isEmpty then [] else [(·.carId ∈ carIds)]
  finish (selectAny db.sessions (byDriver ++ byCar)) status

/-- `LapSummaryRepository.findBySessions`. -/
def findBySessions (sessionIds : List ℕ) : List LapSummary :=
  if sessionIds.isEmpty then []
  else
    let rows := db.laps.filter (·.sessionId ∈ sessionIds)
    (rows.map (·.sessionId)).dedup.map fun sessionId =>
      let laps := rows.filter (·.sessionId = sessionId)
      ⟨sessionId, laps.length, (laps.map (·.lapMs)).min?⟩

def answer : (c : Call) → Except RequestError (Answer c)
  | .findCar id => findOne db.cars (·.id = id)
  | .findVisibleIds scope => .ok ((db.scopedQuery scope).map (·.id))
  | .findAllIds => .ok (db.cars.map (·.id))
  | .teams call => (db.teams.execute call).2
  | .findMemberships userId => .ok (db.teams.members.filter (·.userId = userId))
  | .findSession id => findOne db.sessions (·.id = id)
  | .findVisible driverId carIds status => .ok (db.findVisible driverId carIds status)
  | .findAllFiltered status => .ok (finish db.sessions status)
  | .findBySessions sessionIds => .ok (db.findBySessions sessionIds)

end Db

/-! ### Handlers -/

abbrev Handler (α : Type) := Prog Call Answer RequestError α

def query (c : Call) : Handler (Answer c) := Prog.call c

/-- A handler of `TeamsService` within one of these. -/
def ofTeams {α : Type} : Teams.Handler α → Handler α
  | .done result => .done result
  | .fail error => .fail error
  | .await call next => .await (.teams call) fun r => ofTeams (next r)

def getMembership (userId teamId : ℕ) : Handler (Option TeamMember) :=
  query (.teams (.findMembership userId teamId))

/-- `TeamsService.getUserTeamIds`. -/
def getUserTeamIds (userId : ℕ) : Handler (List ℕ) := do
  let memberships ← query (.findMemberships userId)
  return memberships.map (·.teamId)

def requireReadableCar (user : User) (carId : ℕ) : Handler Car :=
  CarAccess.requireReadableCar (fun id => query (.findCar id)) getMembership user carId

/-- `CarsService.getVisibleCarIds`. -/
def getVisibleCarIds (user : User) (teamId : Option ℕ) : Handler (List ℕ) :=
  match teamId with
  | some teamId => query (.findVisibleIds ⟨none, [teamId]⟩)
  | none =>
    if user.role = .admin then query .findAllIds
    else do
      let teamIds ← getUserTeamIds user.id
      query (.findVisibleIds ⟨some user.id, teamIds⟩)

/-- `SessionsService.requireSession`. -/
def requireSession {α : Type} (user : User) (sessionId : ℕ) (authorizeCar : User → ℕ → Handler α) :
    Handler SessionRef := do
  let session ← query (.findSession sessionId)
  if user.role = .admin ∨ session.driverId = user.id then return session
  else
    let _ ← (authorizeCar user session.carId).catchError fun error => .fail (asSessionError error)
    return session

def requireReadableSession (user : User) (sessionId : ℕ) : Handler SessionRef :=
  requireSession user sessionId requireReadableCar

structure QuerySessionsDto where
  carId : Option ℕ
  teamId : Option ℕ
  status : Option SessionStatus

/-- The team part of `findVisible`. -/
def findOfTeam (user : User) (teamId : ℕ) (status : Option SessionStatus) :
    Handler (List SessionRef) := do
  (if user.role ≠ .admin then discard (ofTeams (requireTeamRole user teamId [])) else pure ())
  let teamCarIds ← getVisibleCarIds user (some teamId)
  query (.findVisible none teamCarIds status)

/-- `SessionsService.findVisible`. -/
def findVisible (user : User) : QuerySessionsDto → Handler (List SessionRef)
  | ⟨some carId, _, status⟩ => do
    let _ ← requireReadableCar user carId
    query (.findVisible none [carId] status)
  | ⟨none, some teamId, status⟩ => findOfTeam user teamId status
  | ⟨none, none, status⟩ =>
    if user.role = .admin then query (.findAllFiltered status)
    else do
      let carIds ← getVisibleCarIds user none
      query (.findVisible (some user.id) carIds status)

structure SessionListItemDto extends SessionRef where
  lapCount : ℕ
  bestLapMs : Option ℕ
  deriving DecidableEq, Repr

/-- `SessionsService.withLapSummary`. -/
def withLapSummary (sessions : List SessionRef) : Handler (List SessionListItemDto) := do
  let summaries ← query (.findBySessions (sessions.map (·.id)))
  return sessions.map fun session =>
    let summary := summaries.find? (·.sessionId = session.id)
    ⟨session, (summary.map (·.lapCount)).getD 0, summary.bind (·.bestLapMs)⟩

/-- `SessionsService.findAll`. -/
def findAll (user : User) (dto : QuerySessionsDto) : Handler (List SessionListItemDto) := do
  let sessions ← findVisible user dto
  withLapSummary sessions

/-! ### What both decide -/

/-- The user owns the car, or is a member of the team it runs under. -/
def OwnCar (db : Db) (user : User) (car : Car) : Prop :=
  car.ownerId = user.id ∨
    ∃ m ∈ db.teams.members, m.userId = user.id ∧ car.teamId = some m.teamId

/-- Administrators see every session, others those they drove and those of the cars they have. -/
def CanSee (db : Db) (user : User) (session : SessionRef) : Prop :=
  user.role = .admin ∨ session.driverId = user.id ∨
    ∃ car ∈ db.cars, car.id = session.carId ∧ OwnCar db user car

/-! ### The queries -/

section Queries

variable {T : Type} {rows : List T} {predicates : List (T → Bool)} {row : T}

/-- **An empty scope selects nothing.** -/
theorem mem_selectAny :
    row ∈ selectAny rows predicates ↔ row ∈ rows ∧ ∃ p ∈ predicates, p row = true := by
  unfold selectAny
  split
  · rename_i hempty
    rw [List.isEmpty_iff.mp hempty]
    simp
  · rw [List.mem_filter, List.any_eq_true]

theorem mem_selectAny_append {more : List (T → Bool)} :
    row ∈ selectAny rows (predicates ++ more) ↔
      row ∈ rows ∧ ((∃ p ∈ predicates, p row = true) ∨ ∃ p ∈ more, p row = true) := by
  rw [mem_selectAny]
  simp only [List.mem_append, or_and_right, exists_or]

theorem selectAny_sublist : (selectAny rows predicates).Sublist rows := by
  unfold selectAny
  split
  · exact List.nil_sublist rows
  · exact List.filter_sublist

variable (db : Db)

theorem mem_scopedQuery (scope : CarScope) (car : Car) :
    car ∈ db.scopedQuery scope ↔ car ∈ db.cars ∧
      (scope.ownerId = some car.ownerId ∨ ∃ teamId ∈ scope.teamIds, car.teamId = some teamId) := by
  obtain ⟨ownerId, teamIds⟩ := scope
  unfold Db.scopedQuery
  rw [mem_selectAny_append]
  apply and_congr_right
  intro _
  apply or_congr
  · cases ownerId with
    | none => simp
    | some ownerId =>
      simp only [List.mem_singleton, exists_eq_left, decide_eq_true_eq, Option.some.injEq]
      exact eq_comm
  · cases teamIds with
    | nil => simp
    | cons teamId rest => cases hteam : car.teamId <;> simp [hteam]

/-- The sessions a repository query answers, in the order it answers them. -/
theorem mem_finish {sessions : List SessionRef} {status : Option SessionStatus}
    {session : SessionRef} : session ∈ Db.finish sessions status ↔
      session ∈ sessions ∧ ∀ s, status = some s → session.status = s := by
  unfold Db.finish
  rw [List.mem_mergeSort]
  cases status with
  | none => simp
  | some status => simp

theorem nodup_finish {sessions : List SessionRef} (status : Option SessionStatus)
    (h : (sessions.map (·.id)).Nodup) : ((Db.finish sessions status).map (·.id)).Nodup := by
  unfold Db.finish
  rw [((List.mergeSort_perm _ _).map _).nodup_iff]
  cases status with
  | none => exact h
  | some status => exact h.sublist (List.filter_sublist.map _)

theorem mem_queryVisible (driverId : Option ℕ) (carIds : List ℕ) (status : Option SessionStatus)
    (session : SessionRef) : session ∈ db.findVisible driverId carIds status ↔
      session ∈ db.sessions ∧ (driverId = some session.driverId ∨ session.carId ∈ carIds) ∧
        ∀ s, status = some s → session.status = s := by
  unfold Db.findVisible
  rw [mem_finish, mem_selectAny_append, and_assoc]
  apply and_congr_right
  intro _
  apply and_congr_left
  intro _
  apply or_congr
  · cases driverId with
    | none => simp
    | some driverId =>
      simp only [List.mem_singleton, exists_eq_left, decide_eq_true_eq, Option.some.injEq]
      exact eq_comm
  · cases carIds with
    | nil => simp
    | cons carId rest => simp

end Queries

/-! ### The checks -/

section Checks

variable (db : Db)

@[simp] theorem eval_query (c : Call) : (query c).eval db.answer = db.answer c := Prog.eval_call c

@[simp] theorem eval_ofTeams {α : Type} (p : Teams.Handler α) :
    (ofTeams p).eval db.answer = p.eval fun c => (db.teams.execute c).2 := by
  induction p with
  | done a => rfl
  | fail e => rfl
  | await c next ih => exact ih _

theorem eval_getMembership (userId teamId : ℕ) : (getMembership userId teamId).eval db.answer =
    .ok (db.teams.members.find? (Teams.Db.isMember userId teamId)) := by
  rw [getMembership, eval_query]
  rfl

/-- The caller's row in the team a car runs under. -/
def standing (user : User) (car : Car) : Option TeamMember :=
  car.teamId.bind fun teamId => db.teams.members.find? (Teams.Db.isMember user.id teamId)

theorem ownCar_iff (user : User) (car : Car) :
    OwnCar db user car ↔ car.ownerId = user.id ∨ (standing db user car).isSome := by
  unfold OwnCar standing
  cases car.teamId with
  | none => simp
  | some teamId => simp [Teams.Db.isMember, @eq_comm ℕ teamId]

theorem eval_resolveAccess (user : User) (carId : ℕ) :
    (resolveAccess (fun id => query (.findCar id)) getMembership user carId).eval db.answer =
      (findOne db.cars (·.id = carId)).map fun car => (car, standing db user car) := by
  unfold resolveAccess
  rw [Prog.eval_bind, eval_query]
  show (findOne db.cars (·.id = carId)).bind _ = _
  cases findOne db.cars (·.id = carId) with
  | error e => rfl
  | ok car =>
    show Prog.eval db.answer _ = .ok (car, standing db user car)
    unfold standing
    cases car.teamId with
    | none => rfl
    | some teamId =>
      rw [Prog.eval_bind, eval_getMembership]
      rfl

/-- **A car is readable** when it is there and the user has it, or is an administrator. -/
theorem requireReadableCar_iff (user : User) (carId : ℕ) {car : Car} :
    (requireReadableCar user carId).eval db.answer = .ok car ↔
      car ∈ db.cars ∧ car.id = carId ∧ (user.role = .admin ∨ OwnCar db user car) := by
  rw [← and_assoc, ← findOne_key_iff db.carKey, ownCar_iff]
  unfold requireReadableCar CarAccess.requireReadableCar
  rw [Prog.eval_bind, eval_resolveAccess]
  cases findOne db.cars (·.id = carId) with
  | error e => simp [Except.map, Except.bind]
  | ok found =>
    show Prog.eval db.answer (assertReadable user found (standing db user found)) = _ ↔ _
    unfold assertReadable
    split
    · rename_i hreadable
      constructor
      · intro h
        cases h
        exact ⟨rfl, hreadable⟩
      · intro h
        exact congrArg Except.ok (Except.ok.inj h.1)
    · rename_i hunreadable
      constructor
      · intro h
        cases h
      · intro h
        cases h.1
        exact absurd h.2 hunreadable

theorem eval_requireSession {α : Type} (user : User) (sessionId : ℕ)
    (authorizeCar : User → ℕ → Handler α) {session : SessionRef} :
    (requireSession user sessionId authorizeCar).eval db.answer = .ok session ↔
      (session ∈ db.sessions ∧ session.id = sessionId) ∧ (user.role = .admin ∨
        session.driverId = user.id ∨
          ∃ a, (authorizeCar user session.carId).eval db.answer = .ok a) := by
  rw [← findOne_key_iff db.sessionKey]
  unfold requireSession
  rw [Prog.eval_bind, eval_query]
  show (findOne db.sessions (·.id = sessionId)).bind _ = _ ↔ _
  cases findOne db.sessions (·.id = sessionId) with
  | error e => simp [Except.bind]
  | ok found =>
    show Prog.eval db.answer (if _ then _ else _) = _ ↔ _
    split
    · rename_i hown
      constructor
      · intro h
        cases h
        exact ⟨rfl, or_assoc.mp (.inl hown)⟩
      · intro h
        exact congrArg Except.ok (Except.ok.inj h.1)
    · rename_i hother
      rw [Prog.eval_bind, Prog.eval_catchError]
      cases hcar : (authorizeCar user found.carId).eval db.answer with
      | error e =>
        constructor
        · intro h
          cases h
        · intro h
          obtain ⟨hfound, hadmin | hdriver | ⟨a, ha⟩⟩ := h
          all_goals cases hfound
          · exact absurd (.inl hadmin) hother
          · exact absurd (.inr hdriver) hother
          · rw [hcar] at ha
            cases ha
      | ok a =>
        constructor
        · intro h
          cases h
          exact ⟨rfl, .inr (.inr ⟨a, hcar⟩)⟩
        · intro h
          exact congrArg Except.ok (Except.ok.inj h.1)

/-- **The check decides visibility.** -/
theorem requireReadableSession_iff (user : User) {session : SessionRef} :
    (requireReadableSession user session.id).eval db.answer = .ok session ↔
      session ∈ db.sessions ∧ CanSee db user session := by
  unfold requireReadableSession
  rw [eval_requireSession, and_iff_left rfl]
  apply and_congr_right
  intro _
  constructor
  · intro h
    obtain hadmin | hdriver | ⟨car, hcar⟩ := h
    · exact .inl hadmin
    · exact .inr (.inl hdriver)
    · obtain ⟨hcar, hid, hadmin | hown⟩ := (requireReadableCar_iff db user session.carId).mp hcar
      · exact .inl hadmin
      · exact .inr (.inr ⟨car, hcar, hid, hown⟩)
  · intro h
    obtain hadmin | hdriver | ⟨car, hcar, hid, hown⟩ := h
    · exact .inl hadmin
    · exact .inr (.inl hdriver)
    · exact .inr (.inr ⟨car, (requireReadableCar_iff db user _).mpr ⟨hcar, hid, .inr hown⟩⟩)

end Checks

/-! ### The list -/

section List

variable (db : Db) (user : User)

/-- The team ids a user's scope is made of. -/
def teamIdsOf (userId : ℕ) : List ℕ :=
  (db.teams.members.filter (·.userId = userId)).map (·.teamId)

theorem exists_mem_teamIdsOf (car : Car) :
    (∃ teamId ∈ teamIdsOf db user.id, car.teamId = some teamId) ↔
      ∃ m ∈ db.teams.members, m.userId = user.id ∧ car.teamId = some m.teamId := by
  simp [teamIdsOf, and_assoc]

theorem eval_getVisibleCarIds_none (h : user.role ≠ .admin) :
    (getVisibleCarIds user none).eval db.answer =
      .ok ((db.scopedQuery ⟨some user.id, teamIdsOf db user.id⟩).map (·.id)) := by
  simp only [getVisibleCarIds]
  rw [if_neg h]
  rfl

theorem mem_ownCarIds (carId : ℕ) :
    carId ∈ (db.scopedQuery ⟨some user.id, teamIdsOf db user.id⟩).map (·.id) ↔
      ∃ car ∈ db.cars, car.id = carId ∧ OwnCar db user car := by
  rw [List.mem_map]
  apply exists_congr
  intro car
  rw [mem_scopedQuery]
  unfold OwnCar
  rw [exists_mem_teamIdsOf, Option.some.injEq, @eq_comm ℕ user.id, and_assoc, and_comm (a := _ ∨ _)]

/-- The list is the sessions it scopes, each with the summary of its laps. -/
theorem eval_withLapSummary (sessions : List SessionRef) :
    ∃ items, (withLapSummary sessions).eval db.answer = .ok items ∧
      items.map (·.toSessionRef) = sessions := by
  unfold withLapSummary
  rw [Prog.eval_bind, eval_query]
  refine ⟨_, rfl, ?_⟩
  rw [List.map_map]
  exact List.map_id sessions

/-- **The list without a filter** is what the user can see, each session once. -/
theorem eval_findVisible (status : Option SessionStatus) :
    ∃ sessions, (findVisible user ⟨none, none, status⟩).eval db.answer = .ok sessions ∧
      (sessions.map (·.id)).Nodup ∧ ∀ session, session ∈ sessions ↔
        session ∈ db.sessions ∧ CanSee db user session ∧
          ∀ s, status = some s → session.status = s := by
  simp only [findVisible]
  by_cases hadmin : user.role = .admin
  · rw [if_pos hadmin, eval_query]
    refine ⟨_, rfl, nodup_finish status db.sessionKey, ?_⟩
    intro session
    rw [mem_finish, and_congr_right_iff]
    intro _
    exact (and_iff_right (.inl hadmin)).symm
  · rw [if_neg hadmin, Prog.eval_bind, eval_getVisibleCarIds_none db user hadmin]
    refine ⟨_, rfl, ?_, ?_⟩
    · exact nodup_finish status (db.sessionKey.sublist (selectAny_sublist.map _))
    · intro session
      rw [mem_queryVisible, mem_ownCarIds, CanSee, or_iff_right hadmin, Option.some.injEq,
        @eq_comm ℕ user.id]

/-- The sessions of one car, for a user who may read it. -/
theorem canSee_ofCar {carId : ℕ} {status : Option SessionStatus} {car : Car}
    (hcar : (requireReadableCar user carId).eval db.answer = .ok car) :
    ∀ session ∈ db.findVisible none [carId] status,
      session ∈ db.sessions ∧ CanSee db user session := by
  obtain ⟨hmem, hid, hreadable⟩ := (requireReadableCar_iff db user carId).mp hcar
  intro session hsession
  obtain ⟨hin, hscope | hscope, -⟩ := (mem_queryVisible db none [carId] status session).mp hsession
  · cases hscope
  · refine ⟨hin, ?_⟩
    rw [List.mem_singleton] at hscope
    rcases hreadable with hadmin | hown
    · exact .inl hadmin
    · exact .inr (.inr ⟨car, hmem, hid.trans hscope.symm, hown⟩)

/-- The sessions of the cars of one team, for one of its members or an administrator. -/
theorem canSee_ofTeam {teamId : ℕ} {status : Option SessionStatus}
    (h : user.role = .admin ∨ ∃ m ∈ db.teams.members, m.userId = user.id ∧ m.teamId = teamId) :
    ∀ session ∈ db.findVisible none ((db.scopedQuery ⟨none, [teamId]⟩).map (·.id)) status,
      session ∈ db.sessions ∧ CanSee db user session := by
  intro session hsession
  obtain ⟨hin, hscope | hscope, -⟩ := (mem_queryVisible db none _ status session).mp hsession
  · cases hscope
  · refine ⟨hin, ?_⟩
    obtain ⟨car, hcar, hid⟩ := List.mem_map.mp hscope
    obtain ⟨hmem, howner | ⟨teamId', hteamId, hteam⟩⟩ := (mem_scopedQuery db _ car).mp hcar
    · cases howner
    · cases List.mem_singleton.mp hteamId
      rcases h with hadmin | ⟨m, hm, huser, hteam'⟩
      · exact .inl hadmin
      · rw [← hteam'] at hteam
        exact .inr (.inr ⟨car, hmem, hid, .inr ⟨m, hm, huser, hteam⟩⟩)

theorem membership_of_requireTeamRole {teamId : ℕ} (hadmin : user.role ≠ .admin)
    {m : Option TeamMember}
    (h : (ofTeams (requireTeamRole user teamId [])).eval db.answer = .ok m) :
    ∃ m ∈ db.teams.members, m.userId = user.id ∧ m.teamId = teamId := by
  rw [eval_ofTeams] at h
  unfold requireTeamRole at h
  rw [Prog.eval_bind] at h
  change Prog.eval _ (if user.role = .admin then _ else _) = _ at h
  rw [if_neg hadmin] at h
  cases hfind : db.teams.members.find? (Teams.Db.isMember user.id teamId) with
  | none =>
    rw [hfind] at h
    cases h
  | some member =>
    have hkey := List.find?_some hfind
    rw [Teams.Db.isMember, Bool.and_eq_true, decide_eq_true_eq, decide_eq_true_eq] at hkey
    exact ⟨member, List.mem_of_find?_eq_some hfind, hkey⟩

theorem canSee_of_findOfTeam {teamId : ℕ} {status : Option SessionStatus}
    {sessions : List SessionRef}
    (h : (findOfTeam user teamId status).eval db.answer = .ok sessions) :
    ∀ session ∈ sessions, session ∈ db.sessions ∧ CanSee db user session := by
  unfold findOfTeam at h
  rw [Prog.eval_bind] at h
  by_cases hadmin : user.role = .admin
  · rw [if_neg (not_not.mpr hadmin)] at h
    cases h
    exact canSee_ofTeam db user (.inl hadmin)
  · have hdiscard : (discard (ofTeams (requireTeamRole user teamId [])) : Handler Unit) =
        ofTeams (requireTeamRole user teamId []) >>= fun _ => pure () := rfl
    rw [if_pos hadmin, hdiscard, Prog.eval_bind] at h
    cases hrole : (ofTeams (requireTeamRole user teamId [])).eval db.answer with
    | error e =>
      rw [hrole] at h
      cases h
    | ok m =>
      rw [hrole] at h
      cases h
      exact canSee_ofTeam db user (.inr (membership_of_requireTeamRole db user hadmin hrole))

/-- **No filter widens the list.** -/
theorem canSee_of_findVisible (dto : QuerySessionsDto) {sessions : List SessionRef}
    (h : (findVisible user dto).eval db.answer = .ok sessions) :
    ∀ session ∈ sessions, session ∈ db.sessions ∧ CanSee db user session := by
  obtain ⟨carId, teamId, status⟩ := dto
  cases carId with
  | some carId =>
    simp only [findVisible] at h
    rw [Prog.eval_bind] at h
    cases hcar : (requireReadableCar user carId).eval db.answer with
    | error e =>
      rw [hcar] at h
      cases h
    | ok car =>
      rw [hcar] at h
      cases h
      exact canSee_ofCar db user hcar
  | none =>
    cases teamId with
    | some teamId => exact canSee_of_findOfTeam db user h
    | none =>
      obtain ⟨_, hlist, -, hmem⟩ := eval_findVisible db user status
      rw [hlist] at h
      cases h
      intro session hsession
      have hsees := (hmem session).mp hsession
      exact ⟨hsees.1, hsees.2.1⟩

end List

/-! ### The list and the check -/

/-- **The list and the check agree.**  Without a car or a team to narrow it to, the list is the
sessions the check admits, each once; under every filter it holds only sessions the check admits. -/
theorem list_agrees_check (db : Db) (user : User) :
    (∀ status, ∃ items, (findAll user ⟨none, none, status⟩).eval db.answer = .ok items ∧
      (items.map (·.id)).Nodup ∧ ∀ session, session ∈ items.map (·.toSessionRef) ↔
        (requireReadableSession user session.id).eval db.answer = .ok session ∧
          ∀ s, status = some s → session.status = s) ∧
      ∀ dto items, (findAll user dto).eval db.answer = .ok items → ∀ item ∈ items,
        (requireReadableSession user item.id).eval db.answer = .ok item.toSessionRef := by
  constructor
  · intro status
    obtain ⟨sessions, hsessions, hkey, hmem⟩ := eval_findVisible db user status
    obtain ⟨items, hitems, hmap⟩ := eval_withLapSummary db sessions
    refine ⟨items, ?_, ?_, ?_⟩
    · unfold findAll
      rw [Prog.eval_bind, hsessions]
      exact hitems
    · rw [← hmap, List.map_map] at hkey
      exact hkey
    · intro session
      rw [hmap, hmem, requireReadableSession_iff, and_assoc]
  · intro dto items h item hitem
    unfold findAll at h
    rw [Prog.eval_bind] at h
    cases hsessions : (findVisible user dto).eval db.answer with
    | error e =>
      rw [hsessions] at h
      cases h
    | ok sessions =>
      rw [hsessions] at h
      obtain ⟨_, hitems, hmap⟩ := eval_withLapSummary db sessions
      change (withLapSummary sessions).eval db.answer = .ok items at h
      rw [hitems] at h
      cases h
      have hin : item.toSessionRef ∈ sessions := hmap ▸ List.mem_map_of_mem hitem
      exact (requireReadableSession_iff db user).mpr
        (canSee_of_findVisible db user dto hsessions _ hin)

section Example

/-- Bob is in the team of one of Ann's two cars, and drove the other one once. -/
def paddock : Db where
  teams := ⟨[⟨7, "crew"⟩], [⟨8, 7, 1, .owner⟩, ⟨9, 7, 2, .driver⟩], [], 10⟩
  cars := [⟨0, "a", none, none, "d0", none, 1, some 7⟩, ⟨1, "b", none, none, "d1", none, 1, none⟩]
  sessions := [⟨0, 0, 1, "", 5, none, .live, none, none⟩, ⟨1, 1, 2, "", 6, none, .live, none, none⟩,
    ⟨2, 1, 1, "", 7, none, .live, none, none⟩]
  laps := []
  carKey := by decide
  sessionKey := by decide

theorem list_agrees_check_paddock :
    ∃ items, (findAll bob ⟨none, some 7, none⟩).eval paddock.answer = .ok items ∧ items ≠ [] ∧
      ∀ item ∈ items,
        (requireReadableSession bob item.id).eval paddock.answer = .ok item.toSessionRef := by
  have hlist : (findAll bob ⟨none, some 7, none⟩).eval paddock.answer =
      .ok [⟨⟨0, 0, 1, "", 5, none, .live, none, none⟩, 0, none⟩] := by decide +kernel
  exact ⟨_, hlist, List.cons_ne_nil _ _, (list_agrees_check paddock bob).2 _ _ hlist⟩

end Example

end TelemetryCloud.SessionScope
