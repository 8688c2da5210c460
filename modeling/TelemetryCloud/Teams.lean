import TelemetryCloud.Calls
import TelemetryCloud.Repository
import Mathlib.Data.List.Nodup
import Mathlib.Order.Basic

/-!
# Teams and their owners

`TeamsService` over the tables `teams`, `team_members` and `team_invites`: every repository call is
one atomic step, and any number of requests interleave between them.

* `requireTeamRole`, `updateMemberRole`, `removeMember`, … : the handlers;
* `execute_ownersKept_iff` : which single call can leave a team without an owner;
* `ownersKept_iff` : **in which runs every team keeps an owner**: exactly those in which, whenever a
  membership that is an owner's is demoted or removed, `assertNotLastOwner` would still pass.
-/

namespace TelemetryCloud.Teams

open Calls Runs TelemetryCloud.Repository

/-! ### Rows and calls -/

inductive TeamRole
  | owner
  | manager
  | driver
  deriving DecidableEq, Repr

def MANAGING_TEAM_ROLES : List TeamRole := [.owner, .manager]

inductive UserRole
  | driver
  | manager
  | admin
  deriving DecidableEq, Repr

/-- The authenticated user of a request. -/
structure User where
  id : ℕ
  email : String
  role : UserRole
  deriving DecidableEq, Repr

structure Team where
  id : ℕ
  name : String
  deriving DecidableEq, Repr

structure TeamMember where
  id : ℕ
  teamId : ℕ
  userId : ℕ
  role : TeamRole
  deriving DecidableEq, Repr

structure TeamInvite where
  id : ℕ
  teamId : ℕ
  email : String
  role : TeamRole
  deriving DecidableEq, Repr

structure Db where
  teams : List Team
  members : List TeamMember
  invites : List TeamInvite
  nextId : ℕ

def Db.empty : Db := ⟨[], [], [], 0⟩

/-- The calls of the three repositories. -/
inductive Call
  | createWithOwner (name : String) (ownerId : ℕ)
  | findTeam (id : ℕ)
  | updateTeam (id : ℕ) (name : Option (Option String))
  | deleteTeam (id : ℕ)
  | findMembership (userId teamId : ℕ)
  | countByRole (teamId : ℕ) (role : TeamRole)
  | createMember (teamId userId : ℕ) (role : TeamRole)
  | updateMember (id : ℕ) (role : TeamRole)
  | deleteMember (id : ℕ)
  | findInvite (id : ℕ)
  | findPending (teamId : ℕ) (email : String)
  | createInvite (teamId : ℕ) (email : String) (role : TeamRole)
  | updateInvite (id : ℕ) (role : TeamRole)
  | deleteInvite (id : ℕ)
  | deleteInviteOf (id teamId : ℕ)
  deriving DecidableEq, Repr

@[reducible] def Answer : Call → Type
  | .createWithOwner .. => Team
  | .findTeam _ => Team
  | .updateTeam .. => Team
  | .deleteTeam _ => Unit
  | .findMembership .. => Option TeamMember
  | .countByRole .. => ℕ
  | .createMember .. => TeamMember
  | .updateMember .. => TeamMember
  | .deleteMember _ => Unit
  | .findInvite _ => TeamInvite
  | .findPending .. => Option TeamInvite
  | .createInvite .. => TeamInvite
  | .updateInvite .. => TeamInvite
  | .deleteInvite _ => Unit
  | .deleteInviteOf .. => Unit

namespace Db

variable (db : Db)

def isMember (userId teamId : ℕ) (m : TeamMember) : Bool := m.userId = userId && m.teamId = teamId

def hasRole (teamId : ℕ) (role : TeamRole) (m : TeamMember) : Bool :=
  m.teamId = teamId && m.role = role

/-- `TeamMembersRepository.countByRole`. -/
def countByRole (teamId : ℕ) (role : TeamRole) : ℕ := db.members.countP (hasRole teamId role)

def hasTeam (teamId : ℕ) : Bool := db.teams.any (·.id = teamId)

/-- `TeamsRepository.createWithOwner`: both rows or neither. -/
def createWithOwner (name : String) (ownerId : ℕ) : Db × Except RequestError Team :=
  let team : Team := ⟨db.nextId, name⟩
  ({ db with
    teams := db.teams ++ [team]
    members := db.members ++ [⟨db.nextId + 1, team.id, ownerId, .owner⟩]
    nextId := db.nextId + 2 }, .ok team)

/-- The patch of a team: one without a name sets `updatedAt` alone, and one with `null` violates the
`NOT NULL` of the column. -/
def updateTeam (id : ℕ) (name : Option (Option String)) : Db × Except RequestError Team :=
  if db.hasTeam id ∧ name = some none then (db, .error .failed)
  else
    let updated := findOneAndUpdate db.teams (·.id = id) fun t =>
      { t with name := name.join.getD t.name }
    ({ db with teams := updated.1 }, updated.2)

/-- A team takes its members and its invites along (`ON DELETE CASCADE`). -/
def deleteTeam (id : ℕ) : Db × Except RequestError Unit :=
  let deleted := findOneAndDelete db.teams (·.id = id)
  ({ db with
    teams := deleted.1
    members := db.members.filter fun m => deleted.1.any (·.id = m.teamId)
    invites := db.invites.filter fun i => deleted.1.any (·.id = i.teamId) }, deleted.2)

/-- An insert, with the unique index on `(teamId, userId)` and the foreign key on `teamId`. -/
def createMember (teamId userId : ℕ) (role : TeamRole) : Db × Except RequestError TeamMember :=
  if db.members.any (isMember userId teamId) then (db, .error .uniqueViolation)
  else if db.hasTeam teamId then
    let member : TeamMember := ⟨db.nextId, teamId, userId, role⟩
    ({ db with members := db.members ++ [member], nextId := db.nextId + 1 }, .ok member)
  else (db, .error .failed)

/-- `TeamInvitesRepository.createInvite`, with the unique index on `(teamId, email)`. -/
def createInvite (teamId : ℕ) (email : String) (role : TeamRole) :
    Db × Except RequestError TeamInvite :=
  if db.invites.any fun i => i.teamId = teamId && i.email = email then
    (db, .error (asConflict .uniqueViolation "Invite already exists"))
  else if db.hasTeam teamId then
    let invite : TeamInvite := ⟨db.nextId, teamId, email, role⟩
    ({ db with invites := db.invites ++ [invite], nextId := db.nextId + 1 }, .ok invite)
  else (db, .error .failed)

/-- A call that reaches the database. -/
def execute : (c : Call) → Db × Except RequestError (Answer c)
  | .createWithOwner name ownerId => db.createWithOwner name ownerId
  | .findTeam id => (db, findOne db.teams (·.id = id))
  | .updateTeam id name => db.updateTeam id name
  | .deleteTeam id => db.deleteTeam id
  | .findMembership userId teamId => (db, .ok (db.members.find? (isMember userId teamId)))
  | .countByRole teamId role => (db, .ok (db.countByRole teamId role))
  | .createMember teamId userId role => db.createMember teamId userId role
  | .updateMember id role =>
    let updated := findOneAndUpdate db.members (·.id = id) fun m => { m with role }
    ({ db with members := updated.1 }, updated.2)
  | .deleteMember id =>
    let deleted := findOneAndDelete db.members (·.id = id)
    ({ db with members := deleted.1 }, deleted.2)
  | .findInvite id => (db, findOne db.invites (·.id = id))
  | .findPending teamId email =>
    (db, .ok (db.invites.find? fun i => i.teamId = teamId && i.email = email))
  | .createInvite teamId email role => db.createInvite teamId email role
  | .updateInvite id role =>
    let updated := findOneAndUpdate db.invites (·.id = id) fun i => { i with role }
    ({ db with invites := updated.1 }, updated.2)
  | .deleteInvite id =>
    let deleted := findOneAndDelete db.invites (·.id = id)
    ({ db with invites := deleted.1 }, deleted.2)
  | .deleteInviteOf id teamId =>
    let deleted := findOneAndDelete db.invites fun i => i.id = id && i.teamId = teamId
    ({ db with invites := deleted.1 }, deleted.2)

/-- A call as the environment lets it be: it reaches the database, or it fails. -/
def exec (c : Call) (ok : Bool) : Option (Db × Except RequestError (Answer c)) :=
  some (if ok then db.execute c else (db, .error .failed))

end Db

/-! ### Handlers -/

abbrev Handler (α : Type) := Prog Call Answer RequestError α

def query (c : Call) : Handler (Answer c) := Prog.call c

/-- `TeamsService.requireTeamRole`. -/
def requireTeamRole (user : User) (teamId : ℕ) (roles : List TeamRole) :
    Handler (Option TeamMember) := do
  let membership ← query (.findMembership user.id teamId)
  if user.role = .admin then
    let _ ← query (.findTeam teamId)
    return membership
  else
    match membership with
    | none => .fail (.notFound "Team not found")
    | some m =>
      if roles ≠ [] ∧ m.role ∉ roles then .fail (.forbidden "Insufficient team role")
      else return some m

/-- `TeamsService.resolveMember`. -/
def resolveMember (teamId targetUserId callerId : ℕ) (callerMembership : Option TeamMember) :
    Handler TeamMember := do
  let membership ← (if targetUserId = callerId ∧ callerMembership.isSome then pure callerMembership
    else query (.findMembership targetUserId teamId) : Handler (Option TeamMember))
  match membership with
  | none => .fail (.notFound "Member not found")
  | some m => return m

/-- `TeamsService.assertNotLastOwner`. -/
def assertNotLastOwner (teamId : ℕ) : Handler Unit := do
  let owners ← query (.countByRole teamId .owner)
  if owners ≤ 1 then .fail (.forbidden "A team must keep at least one owner") else return ()

def create (user : User) (name : String) : Handler Team := query (.createWithOwner name user.id)

/-- The `name` of the patch may be left out, and `@IsOptional` lets `null` through. -/
def update (user : User) (teamId : ℕ) (name : Option (Option String)) : Handler Team := do
  let _ ← requireTeamRole user teamId [.owner]
  query (.updateTeam teamId name)

def remove (user : User) (teamId : ℕ) : Handler Unit := do
  let _ ← requireTeamRole user teamId [.owner]
  query (.deleteTeam teamId)

def updateMemberRole (user : User) (teamId targetUserId : ℕ) (role : TeamRole) :
    Handler TeamMember := do
  let callerMembership ← requireTeamRole user teamId [.owner]
  let membership ← resolveMember teamId targetUserId user.id callerMembership
  (if membership.role = .owner ∧ role ≠ .owner then assertNotLastOwner teamId else pure ())
  query (.updateMember membership.id role)

def removeMember (user : User) (teamId targetUserId : ℕ) : Handler Unit := do
  let callerMembership ← (if targetUserId = user.id then requireTeamRole user teamId []
    else requireTeamRole user teamId [.owner] : Handler (Option TeamMember))
  let membership ← resolveMember teamId targetUserId user.id callerMembership
  (if membership.role = .owner then assertNotLastOwner teamId else pure ())
  query (.deleteMember membership.id)

section Invites

variable (toLowerCase : String → String)

def inviteMember (user : User) (teamId : ℕ) (email : String) (role : Option TeamRole) :
    Handler Unit := do
  let membership ← requireTeamRole user teamId MANAGING_TEAM_ROLES
  let teamRole := role.getD .driver
  if teamRole = .owner ∧ user.role ≠ .admin ∧ membership.map (·.role) ≠ some .owner then
    .fail (.forbidden "Only an owner may invite an owner")
  else
    let normalizedEmail := toLowerCase email
    match ← query (.findPending teamId normalizedEmail) with
    | some alreadyInvited =>
      let _ ← query (.updateInvite alreadyInvited.id teamRole)
      return ()
    | none =>
      let _ ← query (.createInvite teamId normalizedEmail teamRole)
      return ()

def requireOwnInvite (user : User) (inviteId : ℕ) : Handler TeamInvite := do
  let invite ← query (.findInvite inviteId)
  if invite.email ≠ toLowerCase user.email then .fail (.notFound "Invite not found")
  else return invite

def acceptInvite (user : User) (inviteId : ℕ) : Handler TeamMember := do
  let invite ← requireOwnInvite toLowerCase user inviteId
  let existing ← query (.findMembership user.id invite.teamId)
  let member ← (match existing with
    | some m => pure m
    | none => query (.createMember invite.teamId user.id invite.role) : Handler TeamMember)
  let _ ← query (.deleteInvite invite.id)
  return member

def declineInvite (user : User) (inviteId : ℕ) : Handler Unit := do
  let invite ← requireOwnInvite toLowerCase user inviteId
  query (.deleteInvite invite.id)

def revokeInvite (user : User) (teamId inviteId : ℕ) : Handler Unit := do
  let _ ← requireTeamRole user teamId MANAGING_TEAM_ROLES
  query (.deleteInviteOf inviteId teamId)

/-- A request that writes, by its caller. -/
inductive Op
  | create (user : User) (name : String)
  | update (user : User) (teamId : ℕ) (name : Option (Option String))
  | remove (user : User) (teamId : ℕ)
  | updateMemberRole (user : User) (teamId targetUserId : ℕ) (role : TeamRole)
  | removeMember (user : User) (teamId targetUserId : ℕ)
  | inviteMember (user : User) (teamId : ℕ) (email : String) (role : Option TeamRole)
  | acceptInvite (user : User) (inviteId : ℕ)
  | declineInvite (user : User) (inviteId : ℕ)
  | revokeInvite (user : User) (teamId inviteId : ℕ)
  deriving DecidableEq, Repr

def Op.handler : Op → Handler Unit
  | .create user name => discard (Teams.create user name)
  | .update user teamId name => discard (Teams.update user teamId name)
  | .remove user teamId => Teams.remove user teamId
  | .updateMemberRole user teamId target role => discard (Teams.updateMemberRole user teamId target role)
  | .removeMember user teamId target => Teams.removeMember user teamId target
  | .inviteMember user teamId email role => Teams.inviteMember toLowerCase user teamId email role
  | .acceptInvite user inviteId => discard (Teams.acceptInvite toLowerCase user inviteId)
  | .declineInvite user inviteId => Teams.declineInvite toLowerCase user inviteId
  | .revokeInvite user teamId inviteId => Teams.revokeInvite user teamId inviteId

/-- The service; a handler is followed by the request it answers. -/
def service : Service Db Op Op Bool Call Answer RequestError Unit where
  exec := Db.exec
  handler := Op.handler toLowerCase
  enter := id
  note op _ _ := op

end Invites

/-! ### Owners -/

/-- Every team has a membership with role `OWNER`. -/
def OwnersKept (db : Db) : Prop :=
  ∀ team ∈ db.teams, ∃ m ∈ db.members, m.teamId = team.id ∧ m.role = .owner

/-- If the call takes the role of owner from a membership that has it, `assertNotLastOwner` passes
for the team at this moment. -/
def SparesLastOwner (db : Db) : Call → Prop
  | .updateMember id role => role ≠ .owner → ∀ m ∈ db.members, m.id = id → m.role = .owner →
      ¬ db.countByRole m.teamId .owner ≤ 1
  | .deleteMember id => ∀ m ∈ db.members, m.id = id → m.role = .owner →
      ¬ db.countByRole m.teamId .owner ≤ 1
  | _ => True

/-- What the constraints of the tables give: members belong to teams there are, and ids are unique. -/
structure Consistent (db : Db) : Prop where
  team : ∀ m ∈ db.members, ∃ team ∈ db.teams, team.id = m.teamId
  ids : (db.members.map (·.id)).Nodup
  fresh : ∀ m ∈ db.members, m.id < db.nextId

theorem consistent_empty : Consistent .empty where
  team := by
    intro m hm
    cases hm
  ids := List.nodup_nil
  fresh := by
    intro m hm
    cases hm

theorem ownersKept_iff_count (db : Db) :
    OwnersKept db ↔ ∀ team ∈ db.teams, 0 < db.countByRole team.id .owner := by
  refine forall₂_congr fun team _ => ?_
  rw [Db.countByRole, List.countP_pos_iff]
  simp only [Db.hasRole, Bool.and_eq_true, decide_eq_true_eq]

theorem consistent_append {db : Db} (h : Consistent db) {teams : List Team} {m : TeamMember}
    {nextId : ℕ} (hteams : ∀ team ∈ db.teams, team ∈ teams)
    (hm : ∃ team ∈ teams, team.id = m.teamId) (hid : db.nextId ≤ m.id) (hnext : m.id < nextId) :
    Consistent { db with teams, members := db.members ++ [m], nextId } where
  team := by
    intro m' hm'
    rcases List.mem_append.mp hm' with hm' | hm'
    · obtain ⟨team, hteam, heq⟩ := h.team m' hm'
      exact ⟨team, hteams team hteam, heq⟩
    · rw [List.mem_singleton.mp hm']
      exact hm
  ids := nodup_map_concat h.ids fun m' hm' => Nat.lt_of_lt_of_le (h.fresh m' hm') hid
  fresh := by
    intro m' hm'
    rcases List.mem_append.mp hm' with hm' | hm'
    · have hlt := h.fresh m' hm'
      show m'.id < nextId
      omega
    · rw [List.mem_singleton.mp hm']
      exact hnext

/-- A patch of a team changes the id of none and no other table. -/
theorem updateTeam_frame (db : Db) (id : ℕ) (name : Option (Option String)) :
    (db.updateTeam id name).1.teams.map (·.id) = db.teams.map (·.id) ∧
      (db.updateTeam id name).1.members = db.members ∧
      (db.updateTeam id name).1.invites = db.invites ∧
      (db.updateTeam id name).1.nextId = db.nextId := by
  unfold Db.updateTeam
  split
  · exact ⟨rfl, rfl, rfl, rfl⟩
  · refine ⟨?_, rfl, rfl, rfl⟩
    show (findOneAndUpdate db.teams _ _).1.map _ = _
    rw [findOneAndUpdate_rows]
    apply map_updateWhere
    intro t
    rfl

/-- The teams there are after a patch are those there were. -/
theorem mem_updateTeam_ids {db : Db} {id teamId : ℕ} {name : Option (Option String)} :
    (∃ team ∈ (db.updateTeam id name).1.teams, team.id = teamId) ↔
      ∃ team ∈ db.teams, team.id = teamId := by
  have hids := (updateTeam_frame db id name).1
  rw [← List.mem_map (f := fun t : Team => t.id), hids, List.mem_map]

theorem consistent_updateMember {db : Db} (h : Consistent db) (id : ℕ) (role : TeamRole) :
    Consistent (db.execute (.updateMember id role)).1 := by
  show Consistent { db with members := (findOneAndUpdate db.members _ _).1 }
  rw [findOneAndUpdate_rows]
  have hmem : ∀ m ∈ updateWhere db.members (·.id = id) (fun m => { m with role }),
      ∃ m' ∈ db.members, m'.id = m.id ∧ m'.teamId = m.teamId := by
    intro m hm
    obtain ⟨m', hm', ⟨-, rfl⟩ | ⟨-, rfl⟩⟩ := mem_updateWhere hm
    · exact ⟨m', hm', rfl, rfl⟩
    · exact ⟨m, hm', rfl, rfl⟩
  refine ⟨?_, ?_, ?_⟩
  · intro m hm
    obtain ⟨m', hm', -, hteam⟩ := hmem m hm
    rw [← hteam]
    exact h.team m' hm'
  · have hids : (updateWhere db.members (·.id = id) fun m => { m with role }).map (·.id) =
        db.members.map (·.id) := by
      apply map_updateWhere
      intro m
      rfl
    rw [hids]
    exact h.ids
  · intro m hm
    obtain ⟨m', hm', hid, -⟩ := hmem m hm
    rw [← hid]
    exact h.fresh m' hm'

/-- No call breaks the constraints. -/
theorem consistent_execute {db : Db} (h : Consistent db) (c : Call) :
    Consistent (db.execute c).1 := by
  cases c with
  | createWithOwner name ownerId =>
    refine consistent_append h (fun team hteam => List.mem_append_left _ hteam) ?_ ?_ ?_
    · exact ⟨_, List.mem_append_right _ List.mem_cons_self, rfl⟩
    · show db.nextId ≤ db.nextId + 1
      omega
    · show db.nextId + 1 < db.nextId + 2
      omega
  | createMember teamId userId role =>
    show Consistent (db.createMember teamId userId role).1
    unfold Db.createMember
    split
    · exact h
    · split
      · rename_i hteam
        obtain ⟨team, hmem, heq⟩ := List.any_eq_true.mp hteam
        exact consistent_append h (fun _ ht => ht) ⟨team, hmem, of_decide_eq_true heq⟩
          (Nat.le_refl _) (Nat.lt_succ_self _)
      · exact h
  | createInvite teamId email role =>
    show Consistent (db.createInvite teamId email role).1
    unfold Db.createInvite
    split
    · exact h
    · split
      · exact ⟨h.team, h.ids, fun m hm => Nat.lt_succ_of_lt (h.fresh m hm)⟩
      · exact h
  | deleteTeam id =>
    show Consistent (db.deleteTeam id).1
    unfold Db.deleteTeam
    refine ⟨?_, h.ids.sublist (List.filter_sublist.map _), ?_⟩
    · intro m hm
      obtain ⟨team, hteam, heq⟩ := List.any_eq_true.mp (List.mem_filter.mp hm).2
      exact ⟨team, hteam, of_decide_eq_true heq⟩
    · intro m hm
      exact h.fresh m (List.mem_filter.mp hm).1
  | updateMember id role => exact consistent_updateMember h id role
  | deleteMember id =>
    show Consistent { db with members := (findOneAndDelete db.members _).1 }
    rw [findOneAndDelete_rows]
    have hmem : ∀ m ∈ deleteWhere db.members (·.id = id), m ∈ db.members :=
      fun m hm => (List.mem_filter.mp hm).1
    exact ⟨fun m hm => h.team m (hmem m hm), h.ids.sublist (List.filter_sublist.map _),
      fun m hm => h.fresh m (hmem m hm)⟩
  | updateTeam id name =>
    obtain ⟨-, hmembers, -, hnext⟩ := updateTeam_frame db id name
    show Consistent (db.updateTeam id name).1
    refine ⟨?_, by rw [hmembers]; exact h.ids, by rw [hmembers, hnext]; exact h.fresh⟩
    intro m hm
    rw [hmembers] at hm
    exact mem_updateTeam_ids.mpr (h.team m hm)
  | findTeam id => exact h
  | findMembership userId teamId => exact h
  | countByRole teamId role => exact h
  | findInvite id => exact h
  | findPending teamId email => exact h
  | updateInvite id role => exact ⟨h.team, h.ids, h.fresh⟩
  | deleteInvite id => exact ⟨h.team, h.ids, h.fresh⟩
  | deleteInviteOf id teamId => exact ⟨h.team, h.ids, h.fresh⟩

/-- Taking one membership out of the owners of its team, by whatever write. -/
theorem ownersKept_write_iff {db : Db} (h : Consistent db) (hkept : OwnersKept db)
    {members : List TeamMember} {m : TeamMember} (hm : m ∈ db.members)
    (hcount : ∀ teamId, members.countP (Db.hasRole teamId .owner) +
      (Db.hasRole teamId .owner m).toNat = db.countByRole teamId .owner) :
    OwnersKept { db with members } ↔
      (m.role = .owner → ¬ db.countByRole m.teamId .owner ≤ 1) := by
  rw [ownersKept_iff_count] at hkept ⊢
  constructor
  · intro hall hrole hle
    obtain ⟨team, hteam, heq⟩ := h.team m hm
    have hpos : 0 < members.countP (Db.hasRole team.id .owner) := hall team hteam
    have hmine : Db.hasRole m.teamId .owner m = true := by simp [Db.hasRole, hrole]
    have hsum := hcount m.teamId
    rw [hmine, Bool.toNat_true] at hsum
    rw [heq] at hpos
    omega
  · intro hspare team hteam
    show 0 < members.countP (Db.hasRole team.id .owner)
    have hsum := hcount team.id
    have hold := hkept team hteam
    cases hown : Db.hasRole team.id .owner m with
    | false =>
      rw [hown, Bool.toNat_false] at hsum
      omega
    | true =>
      rw [hown, Bool.toNat_true] at hsum
      simp only [Db.hasRole, Bool.and_eq_true, decide_eq_true_eq] at hown
      have hmany := hspare hown.2
      rw [hown.1] at hmany
      omega

/-- **Which role change leaves a team without an owner**: a demotion of its last one. -/
theorem ownersKept_updateMember_iff {db : Db} (h : Consistent db) (hkept : OwnersKept db) (id : ℕ)
    (role : TeamRole) : OwnersKept (db.execute (.updateMember id role)).1 ↔
      SparesLastOwner db (.updateMember id role) := by
  show OwnersKept { db with members := (findOneAndUpdate db.members _ _).1 } ↔ _
  rw [findOneAndUpdate_rows]
  by_cases hfound : ∃ m ∈ db.members, m.id = id
  · obtain ⟨m, hm, rfl⟩ := hfound
    have honly : ∀ m' ∈ db.members, m'.id = m.id → m' = m :=
      fun m' hm' heq => List.inj_on_of_nodup_map h.ids hm' hm heq
    have hmove := countP_updateWhere (·.id) h.ids hm fun m : TeamMember => { m with role }
    by_cases hrole : role = .owner
    · -- a promotion takes no owner from any team
      refine iff_of_true ?_ fun hne => absurd hrole hne
      rw [ownersKept_iff_count] at hkept ⊢
      intro team hteam
      have hsum := hmove (Db.hasRole team.id .owner)
      have hle : (Db.hasRole team.id .owner m).toNat ≤
          (Db.hasRole team.id .owner { m with role }).toNat := by
        rw [hrole]
        cases hown : Db.hasRole team.id .owner m with
        | false => exact Nat.zero_le _
        | true =>
          simp only [Db.hasRole, Bool.and_eq_true, decide_eq_true_eq] at hown
          simp [Db.hasRole, hown.1]
      have hold : 0 < db.members.countP (Db.hasRole team.id .owner) := hkept team hteam
      show 0 < (updateWhere db.members _ _).countP (Db.hasRole team.id .owner)
      omega
    · rw [ownersKept_write_iff h hkept hm]
      · constructor
        · intro hspare _ m' hm' heq hown
          rw [honly m' hm' heq] at hown ⊢
          exact hspare hown
        · exact fun hspare hown => hspare hrole m hm rfl hown
      · intro teamId
        have hnot : Db.hasRole teamId .owner { m with role } = false := by
          simp [Db.hasRole, hrole]
        have hsum := hmove (Db.hasRole teamId .owner)
        rw [hnot, Bool.toNat_false, Nat.add_zero] at hsum
        exact hsum
  · have hnone : ∀ m ∈ db.members, decide (m.id = id) = false :=
      fun m hm => decide_eq_false fun heq => hfound ⟨m, hm, heq⟩
    rw [updateWhere_eq_self hnone]
    exact iff_of_true hkept fun _ m hm heq => absurd ⟨m, hm, heq⟩ hfound

theorem ownersKept_deleteMember_iff {db : Db} (h : Consistent db) (hkept : OwnersKept db) (id : ℕ) :
    OwnersKept (db.execute (.deleteMember id)).1 ↔ SparesLastOwner db (.deleteMember id) := by
  show OwnersKept { db with members := (findOneAndDelete db.members _).1 } ↔ _
  rw [findOneAndDelete_rows]
  by_cases hfound : ∃ m ∈ db.members, m.id = id
  · obtain ⟨m, hm, rfl⟩ := hfound
    rw [ownersKept_write_iff h hkept hm fun teamId =>
      countP_deleteWhere (·.id) h.ids hm (Db.hasRole teamId .owner)]
    constructor
    · intro hspare m' hm' heq hown
      rw [List.inj_on_of_nodup_map h.ids hm' hm heq] at hown ⊢
      exact hspare hown
    · exact fun hspare hown => hspare m hm rfl hown
  · have hnone : ∀ m ∈ db.members, decide (m.id = id) = false :=
      fun m hm => decide_eq_false fun heq => hfound ⟨m, hm, heq⟩
    rw [deleteWhere_eq_self hnone]
    exact iff_of_true hkept fun m hm heq => absurd ⟨m, hm, heq⟩ hfound

/-- **Which call leaves a team without an owner**: the one that demotes or removes an owner when
`assertNotLastOwner` would refuse. -/
theorem execute_ownersKept_iff {db : Db} (h : Consistent db) (hkept : OwnersKept db) (c : Call) :
    OwnersKept (db.execute c).1 ↔ SparesLastOwner db c := by
  cases c with
  | createWithOwner name ownerId =>
    refine iff_of_true ?_ trivial
    intro team hteam
    rcases List.mem_append.mp hteam with hteam | hteam
    · obtain ⟨m, hm, hown⟩ := hkept team hteam
      exact ⟨m, List.mem_append_left _ hm, hown⟩
    · rw [List.mem_singleton.mp hteam]
      exact ⟨_, List.mem_append_right _ List.mem_cons_self, rfl, rfl⟩
  | createMember teamId userId role =>
    refine iff_of_true ?_ trivial
    show OwnersKept (db.createMember teamId userId role).1
    unfold Db.createMember
    split
    · exact hkept
    · split
      · intro team hteam
        obtain ⟨m, hm, hown⟩ := hkept team hteam
        exact ⟨m, List.mem_append_left _ hm, hown⟩
      · exact hkept
  | createInvite teamId email role =>
    refine iff_of_true ?_ trivial
    show OwnersKept (db.createInvite teamId email role).1
    unfold Db.createInvite
    split
    · exact hkept
    · split <;> exact hkept
  | deleteTeam id =>
    refine iff_of_true ?_ trivial
    intro team hteam
    have hold : team ∈ db.teams := by
      have hsub : (findOneAndDelete db.teams fun t => t.id = id).1 = _ := findOneAndDelete_rows _ _
      have hmem : team ∈ (findOneAndDelete db.teams fun t => t.id = id).1 := hteam
      rw [hsub] at hmem
      exact (List.mem_filter.mp hmem).1
    obtain ⟨m, hm, hown⟩ := hkept team hold
    refine ⟨m, List.mem_filter.mpr ⟨hm, List.any_eq_true.mpr ⟨team, hteam, ?_⟩⟩, hown⟩
    exact decide_eq_true hown.1.symm
  | updateTeam id name =>
    refine iff_of_true ?_ trivial
    intro team hteam
    obtain ⟨old, hold, heq⟩ := mem_updateTeam_ids.mp ⟨team, hteam, rfl⟩
    obtain ⟨m, hm, hown⟩ := hkept old hold
    rw [heq] at hown
    exact ⟨m, by rw [Db.execute, (updateTeam_frame db id name).2.1]; exact hm, hown⟩
  | updateMember id role => exact ownersKept_updateMember_iff h hkept id role
  | deleteMember id => exact ownersKept_deleteMember_iff h hkept id
  | findTeam id => exact iff_of_true hkept trivial
  | findMembership userId teamId => exact iff_of_true hkept trivial
  | countByRole teamId role => exact iff_of_true hkept trivial
  | findInvite id => exact iff_of_true hkept trivial
  | findPending teamId email => exact iff_of_true hkept trivial
  | updateInvite id role => exact iff_of_true hkept trivial
  | deleteInvite id => exact iff_of_true hkept trivial
  | deleteInviteOf id teamId => exact iff_of_true hkept trivial

/-! ### One request alone -/

section Alone

/-- A query leaves the tables alone; its answer is the table's, or the query fails. -/
theorem holds_query {db : Db} {c : Call} (hC : SparesLastOwner db c)
    {Q : Db → Except RequestError (Answer c) → Prop} (hfail : Q db (.error .failed))
    (hok : Q (db.execute c).1 (db.execute c).2) :
    (query c).Holds Db.exec SparesLastOwner Q db := by
  refine ⟨hC, fun ok db' r hexec => ?_⟩
  have hQ : Q db' r := by
    rw [Db.exec, Option.some.injEq] at hexec
    cases ok with
    | false =>
      cases hexec
      exact hfail
    | true =>
      simp only [if_true] at hexec
      rw [hexec] at hok
      exact hok
  cases r with
  | ok answer => exact hQ
  | error error => exact hQ

/-- What a handler that only reads has found: the tables as they were, and a membership of the
team. -/
def Found (db : Db) (teamId : ℕ) (db' : Db) (found : Except RequestError (Option TeamMember)) : Prop :=
  db' = db ∧ ∀ m, found = .ok (some m) → m ∈ db.members ∧ m.teamId = teamId

theorem found_membership (db : Db) (userId teamId : ℕ) :
    (query (.findMembership userId teamId)).Holds Db.exec SparesLastOwner (Found db teamId) db := by
  apply holds_query (c := .findMembership userId teamId) trivial
  · exact ⟨rfl, fun m hm => by cases hm⟩
  · refine ⟨rfl, fun m hm => ?_⟩
    have hfind : db.members.find? (Db.isMember userId teamId) = some m := Except.ok.inj hm
    have hpred := List.find?_some hfind
    simp only [Db.isMember, Bool.and_eq_true, decide_eq_true_eq] at hpred
    exact ⟨List.mem_of_find?_eq_some hfind, hpred.2⟩

/-- The handler keeps every team an owner, when no other request comes between. -/
def Safe (db : Db) {α : Type} (p : Handler α) : Prop :=
  p.Holds Db.exec SparesLastOwner (fun _ _ => True) db

theorem safe_query {db : Db} {c : Call} (hC : SparesLastOwner db c) : Safe db (query c) :=
  holds_query hC trivial trivial

/-- Whatever follows a safe handler is safe if it is from every state. -/
theorem Safe.bind {db : Db} {α β : Type} {p : Handler α} {rest : α → Handler β}
    {P : Db → Except RequestError α → Prop} (hp : p.Holds Db.exec SparesLastOwner P db)
    (hrest : ∀ db' a, P db' (.ok a) → Safe db' (rest a)) : Safe db (p >>= rest) :=
  hp.bind (fun _ _ _ => trivial) hrest

theorem holds_requireTeamRole (db : Db) (user : User) (teamId : ℕ) (roles : List TeamRole) :
    (requireTeamRole user teamId roles).Holds Db.exec SparesLastOwner (Found db teamId) db := by
  apply (found_membership db user.id teamId).bind
  · exact fun s e h => ⟨h.1, fun m hm => by cases hm⟩
  · intro s membership hfound
    obtain ⟨rfl, hmember⟩ := hfound
    by_cases hadmin : user.role = .admin
    · rw [if_pos hadmin]
      have hteam : (query (.findTeam teamId)).Holds Db.exec SparesLastOwner (fun s' _ => s' = s) s :=
        holds_query (c := .findTeam teamId) trivial rfl rfl
      apply hteam.bind
      · exact fun s' e h => ⟨h, fun m hm => by cases hm⟩
      · exact fun s' _ h => ⟨h, hmember⟩
    · rw [if_neg hadmin]
      cases membership with
      | none => exact ⟨rfl, fun m hm => by cases hm⟩
      | some m =>
        by_cases hrole : roles ≠ [] ∧ m.role ∉ roles
        · simp only [if_pos hrole]
          exact ⟨rfl, fun m hm => by cases hm⟩
        · simp only [if_neg hrole]
          exact ⟨rfl, hmember⟩

theorem holds_resolveMember (db : Db) (teamId targetUserId callerId : ℕ)
    {callerMembership : Option TeamMember}
    (hcaller : ∀ m, callerMembership = some m → m ∈ db.members ∧ m.teamId = teamId) :
    (resolveMember teamId targetUserId callerId callerMembership).Holds Db.exec SparesLastOwner
      (fun db' r => db' = db ∧ ∀ m, r = .ok m → m ∈ db.members ∧ m.teamId = teamId) db := by
  have hfirst : Prog.Holds Db.exec SparesLastOwner (Found db teamId)
      (if targetUserId = callerId ∧ callerMembership.isSome then
        (pure callerMembership : Handler (Option TeamMember))
      else query (.findMembership targetUserId teamId)) db := by
    split
    · exact ⟨rfl, fun m hm => hcaller m (Except.ok.inj hm)⟩
    · exact found_membership db targetUserId teamId
  apply hfirst.bind
  · exact fun s e h => ⟨h.1, fun m hm => by cases hm⟩
  · intro s membership hfound
    obtain ⟨rfl, hmember⟩ := hfound
    cases membership with
    | none => exact ⟨rfl, fun m hm => by cases hm⟩
    | some m =>
      refine ⟨rfl, fun m' hm' => ?_⟩
      obtain rfl := Except.ok.inj hm'
      exact hmember m rfl

theorem holds_guard (db : Db) (teamId : ℕ) (isOwner : Prop) [Decidable isOwner] :
    Prog.Holds Db.exec SparesLastOwner
      (fun db' r => db' = db ∧ (r = .ok () → isOwner → ¬ db.countByRole teamId .owner ≤ 1))
      (if isOwner then assertNotLastOwner teamId else pure ()) db := by
  split
  · have hcount : (query (.countByRole teamId .owner)).Holds Db.exec SparesLastOwner
        (fun s r => s = db ∧ ∀ n, r = .ok n → n = db.countByRole teamId .owner) db := by
      apply holds_query (c := .countByRole teamId .owner) trivial
      · exact ⟨rfl, fun n hn => by cases hn⟩
      · exact ⟨rfl, fun n hn => (Except.ok.inj hn).symm⟩
    apply hcount.bind
    · exact fun s e hs => ⟨hs.1, fun hr => by cases hr⟩
    · intro s owners hs
      obtain ⟨rfl, howners⟩ := hs
      obtain rfl := howners owners rfl
      split
      · exact ⟨rfl, fun hr => by cases hr⟩
      · rename_i hmany
        exact ⟨rfl, fun _ _ => hmany⟩
  · rename_i hnot
    exact ⟨rfl, fun _ howner => absurd howner hnot⟩

/-- The guard, and then a write to the membership it was read for. -/
theorem safe_guarded {db : Db} {teamId : ℕ} {isOwner : Prop} [Decidable isOwner] {c : Call}
    (hc : (isOwner → ¬ db.countByRole teamId .owner ≤ 1) → SparesLastOwner db c) :
    Safe db ((if isOwner then assertNotLastOwner teamId else pure ()) >>= fun _ => query c) := by
  apply Safe.bind (holds_guard db teamId isOwner)
  intro s _ hs
  obtain ⟨rfl, hmany⟩ := hs
  exact safe_query (hc (hmany rfl))

/-- The caller's membership is read, then the target's, and what follows is about that row. -/
theorem safe_resolved {α : Type} {db : Db} {teamId target callerId : ℕ}
    {first : Handler (Option TeamMember)}
    (hfirst : Prog.Holds Db.exec SparesLastOwner (Found db teamId) first db)
    {rest : TeamMember → Handler α} (hrest : ∀ m ∈ db.members, m.teamId = teamId → Safe db (rest m)) :
    Safe db (first >>= fun caller => resolveMember teamId target callerId caller >>= rest) := by
  apply Safe.bind hfirst
  intro s callerMembership hcaller
  obtain ⟨rfl, hcaller⟩ := hcaller
  apply Safe.bind (holds_resolveMember s teamId target callerId fun m hm => hcaller m (hm ▸ rfl))
  intro s' m hm
  obtain ⟨rfl, hmember⟩ := hm
  exact hrest m (hmember m rfl).1 (hmember m rfl).2

theorem safe_updateMemberRole {db : Db} (h : Consistent db) (user : User) (teamId target : ℕ)
    (role : TeamRole) : Safe db (updateMemberRole user teamId target role) := by
  refine safe_resolved (holds_requireTeamRole db user teamId [.owner]) fun m hmem hteam => ?_
  subst hteam
  apply safe_guarded
  intro hmany hrole m' hm' heq hown
  obtain rfl : m' = m := List.inj_on_of_nodup_map h.ids hm' hmem heq
  exact hmany ⟨hown, hrole⟩

theorem safe_removeMember {db : Db} (h : Consistent db) (user : User) (teamId target : ℕ) :
    Safe db (removeMember user teamId target) := by
  have hfirst : Prog.Holds Db.exec SparesLastOwner (Found db teamId)
      (if target = user.id then requireTeamRole user teamId []
        else requireTeamRole user teamId [.owner]) db := by
    split
    · exact holds_requireTeamRole db user teamId []
    · exact holds_requireTeamRole db user teamId [.owner]
  refine safe_resolved hfirst fun m hmem hteam => ?_
  subst hteam
  apply safe_guarded
  intro hmany m' hm' heq hown
  obtain rfl : m' = m := List.inj_on_of_nodup_map h.ids hm' hmem heq
  exact hmany hown

/-- **The guard works for one request at a time**: a request with no other between its reads and its
write demotes or removes no last owner. -/
theorem safe_handler (toLowerCase : String → String) {db : Db} (h : Consistent db) (op : Op) :
    Safe db (op.handler toLowerCase) := by
  have hany : ∀ {α : Type} {db : Db} {c : Call} {rest : Answer c → Handler α},
      SparesLastOwner db c → (∀ db' a, Safe db' (rest a)) → Safe db (query c >>= rest) :=
    fun hc hrest => Safe.bind (safe_query hc) fun db' a _ => hrest db' a
  have hinvite : ∀ {α : Type} {db : Db} (user : User) (inviteId : ℕ) {rest : TeamInvite → Handler α},
      (∀ db' a, Safe db' (rest a)) → Safe db (requireOwnInvite toLowerCase user inviteId >>= rest) := by
    intro α db user inviteId rest hrest
    refine Safe.bind (P := fun _ _ => True) (hany trivial fun db' invite => ?_)
      fun db' a _ => hrest db' a
    split <;> trivial
  cases op with
  | create user name => exact hany trivial fun _ _ => trivial
  | update user teamId name =>
    refine Safe.bind (P := fun _ _ => True) ?_ fun _ _ _ => trivial
    exact Safe.bind (holds_requireTeamRole db user teamId [.owner]) fun _ _ _ => safe_query trivial
  | remove user teamId =>
    exact Safe.bind (holds_requireTeamRole db user teamId [.owner]) fun _ _ _ => safe_query trivial
  | updateMemberRole user teamId target role =>
    exact Safe.bind (safe_updateMemberRole h user teamId target role) fun _ _ _ => trivial
  | removeMember user teamId target => exact safe_removeMember h user teamId target
  | inviteMember user teamId email role =>
    apply Safe.bind (holds_requireTeamRole db user teamId MANAGING_TEAM_ROLES)
    intro s membership _
    dsimp only
    split
    · trivial
    · apply hany (c := .findPending teamId (toLowerCase email)) trivial
      intro s' pending
      cases pending with
      | some invite => exact hany trivial fun _ _ => trivial
      | none => exact hany trivial fun _ _ => trivial
  | acceptInvite user inviteId =>
    refine Safe.bind (P := fun _ _ => True) (hinvite user inviteId fun s invite => ?_)
      fun _ _ _ => trivial
    apply hany (c := .findMembership user.id invite.teamId) trivial
    intro s' existing
    refine Safe.bind (P := fun _ _ => True) ?_ fun s'' _ _ => hany trivial fun _ _ => trivial
    cases existing with
    | some m => trivial
    | none => exact safe_query trivial
  | declineInvite user inviteId => exact hinvite user inviteId fun _ _ => safe_query trivial
  | revokeInvite user teamId inviteId =>
    exact Safe.bind (holds_requireTeamRole db user teamId MANAGING_TEAM_ROLES) fun _ _ _ =>
      safe_query trivial

end Alone

/-! ### Runs -/

section Runs

variable (toLowerCase : String → String)

/-- The state before any request. -/
def init : Pool Db Op Call Answer RequestError Unit := ⟨.empty, []⟩

/-- Whenever a call that reaches the database demotes or removes an owner, `assertNotLastOwner`
would still pass. -/
def Guarded (st : Pool Db Op Call Answer RequestError Unit) : Event Op Bool → Prop
  | .answer i true => ∀ op c, st.pending i = some (op, c) → SparesLastOwner st.store c
  | _ => True

theorem consistent_step {st st' : Pool Db Op Call Answer RequestError Unit} {e : Event Op Bool}
    (hc : Consistent st.store) (h : step (service toLowerCase) st e = some st') :
    Consistent st'.store := by
  obtain ⟨op, -, rfl⟩ | ⟨i, ok, k, c, next, db, r, -, -, hexec, rfl⟩ := step_cases h
  · exact hc
  · simp only [service, Db.exec, Option.some.injEq] at hexec
    cases ok with
    | false =>
      cases hexec
      exact hc
    | true =>
      have hdb : db = (st.store.execute c).1 := (congrArg Prod.fst hexec).symm
      rw [hdb]
      exact consistent_execute hc c

theorem ownersKept_step_iff {st st' : Pool Db Op Call Answer RequestError Unit} {e : Event Op Bool}
    (hc : Consistent st.store) (hkept : OwnersKept st.store)
    (h : step (service toLowerCase) st e = some st') : OwnersKept st'.store ↔ Guarded st e := by
  obtain ⟨op, rfl, rfl⟩ | ⟨i, ok, k, c, next, db, r, rfl, hi, hexec, rfl⟩ := step_cases h
  · exact iff_of_true hkept trivial
  · simp only [service, Db.exec, Option.some.injEq] at hexec
    cases ok with
    | false =>
      cases hexec
      exact iff_of_true hkept trivial
    | true =>
      have hdb : db = (st.store.execute c).1 := (congrArg Prod.fst hexec).symm
      show OwnersKept db ↔ _
      rw [hdb, execute_ownersKept_iff hc hkept c]
      constructor
      · intro hspare op c' hpending
        rw [pending_of_await hi] at hpending
        cases hpending
        exact hspare
      · exact fun hg => hg k c (pending_of_await hi)

/-- **In which runs every team keeps an owner.**  However the requests interleave, every team there
is has an owner in every state of the run exactly when, whenever a write demotes or removes an owner,
the count `assertNotLastOwner` made earlier would still let it. -/
theorem ownersKept_iff (es : List (Event Op Bool)) (st : Pool Db Op Call Answer RequestError Unit)
    (h : run (step (service toLowerCase)) init es = some st) :
    (∀ pre mid, pre <+: es → run (step (service toLowerCase)) init pre = some mid →
      OwnersKept mid.store) ↔ Meets (step (service toLowerCase)) Guarded init es := by
  refine (meets_iff_prefixes (step (service toLowerCase)) (I := fun s => Consistent s.store)
    (J := fun s => OwnersKept s.store) ?_ ?_ es init st ?_ ?_ h).symm
  · exact fun _ _ _ hc hs => consistent_step toLowerCase hc hs
  · exact fun _ _ _ hc hk hs => ownersKept_step_iff toLowerCase hc hk hs
  · exact consistent_empty
  · intro team hteam
    cases hteam

end Runs

section Example

/-- Two people who own a team together. -/
def ann : User := ⟨1, "ann", .driver⟩
def bob : User := ⟨2, "bob", .driver⟩

/-- Ann founds a team, invites Bob as an owner, Bob accepts; then both leave at once: each counts two
owners before either membership is deleted. -/
def bothLeave : List (Event Op Bool) :=
  [.invoke (.create ann "crew"), .answer 0 true,
    .invoke (.inviteMember ann 0 "bob" (some .owner)), .answer 1 true, .answer 1 true, .answer 1 true,
    .invoke (.acceptInvite bob 2), .answer 2 true, .answer 2 true, .answer 2 true, .answer 2 true,
    .invoke (.removeMember ann 0 1), .invoke (.removeMember bob 0 2),
    .answer 3 true, .answer 4 true, .answer 3 true, .answer 4 true, .answer 3 true, .answer 4 true]

/-- In the end there is the team and nobody in it. -/
theorem bothLeave_ran : ∃ st, run (step (service id)) init bothLeave = some st ∧
    ¬ OwnersKept st.store := by
  have hrun : (run (step (service id)) init bothLeave).map
      (fun st => (st.store.teams.length, st.store.members.length)) = some (1, 0) := by decide
  obtain ⟨st, hst, hlen⟩ := Option.map_eq_some_iff.mp hrun
  rw [Prod.mk.injEq] at hlen
  refine ⟨st, hst, fun hkept => ?_⟩
  have hteams : 0 < st.store.teams.length := by omega
  obtain ⟨m, hm, -⟩ := hkept _ (List.getElem_mem hteams)
  have hmembers := List.length_pos_of_mem hm
  omega

/-- The second to leave is let go by a count that does not hold any more. -/
theorem ownersKept_iff_bothLeave : ¬ Meets (step (service id)) Guarded init bothLeave := by
  obtain ⟨st, hst, hnot⟩ := bothLeave_ran
  exact fun hmeets =>
    hnot ((ownersKept_iff id bothLeave st hst).mpr hmeets bothLeave st List.prefix_rfl hst)

/-- **Both owners of a team leave it at once**, and nobody is left who could administer it. -/
theorem bothLeave_ownerless : ¬ ∀ (toLowerCase : String → String) (es : List (Event Op Bool))
    (st : Pool Db Op Call Answer RequestError Unit),
    run (step (service toLowerCase)) init es = some st → OwnersKept st.store := by
  intro h
  obtain ⟨st, hst, hnot⟩ := bothLeave_ran
  exact hnot (h id bothLeave st hst)

end Example

end TelemetryCloud.Teams
