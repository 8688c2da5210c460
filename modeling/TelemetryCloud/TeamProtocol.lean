import TelemetryCloud.Teams
import Mathlib.Data.List.Induction

/-!
# What the handlers of `TeamsService` read and write

A handler writes on the strength of what it has read before.  What that is for each of its writes, and
what a call leaves in the tables, is said here once; an induction over runs then takes whatever is
true of the rows a handler may write to the rows of every state.

* `Makes`, `Standing` : a call of a run, and the role its handler has found its caller in;
* `Allowed`, `follows_handler` : what a handler has read when it writes;
* `wrote_execute`, `wroteInvite_execute` : the rows there are after a call;
* `Later` : a row never moves to another team;
* `Sources`, `Sources.traced_run` : **what is true of the rows of a run**, in every interleaving.
-/

namespace TelemetryCloud.TeamProtocol

open Calls Runs TelemetryCloud.Repository Teams

abbrev State := Pool Db Op Call Answer RequestError Unit

section Makes

variable (toLowerCase : String → String) (es : List (Event Op Bool))

/-- In the run, handler `i`, which answers `op`, makes the call in the state `mid`, and the call
reaches the database. -/
def Makes (i : ℕ) (op : Op) (call : Call) (mid : State) : Prop :=
  ∃ pre, pre ++ [.answer i true] <+: es ∧
    run (step (service toLowerCase)) Teams.init pre = some mid ∧ mid.pending i = some (op, call)

/-- The caller of handler `i` is an `ADMIN`, or had one of the roles in the team when the handler read
the membership. -/
def Standing (roles : List TeamRole) (i : ℕ) (op : Op) (user : User) (teamId : ℕ) : Prop :=
  user.role = .admin ∨ ∃ mid, Makes toLowerCase es i op (.findMembership user.id teamId) mid ∧
    ∃ m ∈ mid.store.members, m.userId = user.id ∧ m.teamId = teamId ∧ m.role ∈ roles

variable {toLowerCase es} {es' : List (Event Op Bool)} (hpre : es <+: es')
include hpre

theorem Makes.mono {i : ℕ} {op : Op} {call : Call} {mid : State}
    (h : Makes toLowerCase es i op call mid) : Makes toLowerCase es' i op call mid := by
  obtain ⟨pre, hes, hrun, hpending⟩ := h
  exact ⟨pre, hes.trans hpre, hrun, hpending⟩

theorem Standing.mono {roles : List TeamRole} {i : ℕ} {op : Op} {user : User} {teamId : ℕ}
    (h : Standing toLowerCase es roles i op user teamId) :
    Standing toLowerCase es' roles i op user teamId := by
  rcases h with hadmin | ⟨mid, hmakes, hm⟩
  · exact .inl hadmin
  · exact .inr ⟨mid, hmakes.mono hpre, hm⟩

end Makes

/-! ### What a handler may write -/

/-- A call that was answered, with the answer. -/
abbrev Entry := Σ call : Call, Except RequestError (Answer call)

/-- A handler with the answers it has had. -/
structure Track where
  op : Op
  seen : List Entry

def note (k : Track) (call : Call) (r : Except RequestError (Answer call)) : Track :=
  { k with seen := k.seen ++ [⟨call, r⟩] }

/-- The handler has read a membership of the team. -/
def Track.Read (k : Track) (userId teamId : ℕ) (m : TeamMember) : Prop :=
  (⟨.findMembership userId teamId, .ok (some m)⟩ : Entry) ∈ k.seen

/-- The caller is an `ADMIN`, or has one of the roles in the team, as far as the handler has read. -/
def Track.Standing (k : Track) (roles : List TeamRole) (user : User) (teamId : ℕ) : Prop :=
  user.role = .admin ∨ ∃ m, k.Read user.id teamId m ∧ m.role ∈ roles

/-- What a handler has read when its `inviteMember` gives a role. -/
structure Track.Gives (k : Track) (user : User) (teamId : ℕ) (email : String) (role : TeamRole) :
    Prop where
  asked : ∃ asked : Option TeamRole,
    k.op = .inviteMember user teamId email asked ∧ role = asked.getD .driver
  manager : k.Standing MANAGING_TEAM_ROLES user teamId
  owner : role = .owner → k.Standing [.owner] user teamId

/-- The writes of memberships and invites, with what the handler that makes them has read. -/
def Allowed (toLowerCase : String → String) (k : Track) : Call → Prop
  | .createWithOwner name ownerId => ∃ user, k.op = .create user name ∧ ownerId = user.id
  | .updateMember id role => ∃ user teamId target userId m,
      k.op = .updateMemberRole user teamId target role ∧ k.Standing [.owner] user teamId ∧
        k.Read userId teamId m ∧ id = m.id
  | .createMember teamId userId role => ∃ user inviteId invite,
      k.op = .acceptInvite user inviteId ∧ userId = user.id ∧ teamId = invite.teamId ∧
        role = invite.role ∧ invite.email = toLowerCase user.email ∧
        (⟨.findInvite inviteId, .ok invite⟩ : Entry) ∈ k.seen
  | .createInvite teamId email role => ∃ user address,
      email = toLowerCase address ∧ k.Gives user teamId address role
  | .updateInvite id role => ∃ user teamId address email invite, k.Gives user teamId address role ∧
      (⟨.findPending teamId email, .ok (some invite)⟩ : Entry) ∈ k.seen ∧ id = invite.id
  | _ => True

/-- The handler has gone on from `k`. -/
def Track.Extends (k k' : Track) : Prop := k'.op = k.op ∧ k.seen ⊆ k'.seen

theorem Track.Extends.refl (k : Track) : k.Extends k := ⟨rfl, fun _ h => h⟩

theorem Track.Extends.trans {a b c : Track} (hab : a.Extends b) (hbc : b.Extends c) : a.Extends c :=
  ⟨hbc.1.trans hab.1, fun _ h => hbc.2 (hab.2 h)⟩

theorem extends_note (k : Track) (call : Call) (r : Except RequestError (Answer call)) :
    k.Extends (note k call r) := ⟨rfl, fun _ h => List.mem_append_left _ h⟩

theorem mem_note (k : Track) (call : Call) (r : Except RequestError (Answer call)) :
    (⟨call, r⟩ : Entry) ∈ (note k call r).seen := List.mem_append_right _ List.mem_cons_self

theorem Track.Standing.mono {k k' : Track} (h : k.Extends k') {roles : List TeamRole} {user : User}
    {teamId : ℕ} (hs : k.Standing roles user teamId) : k'.Standing roles user teamId := by
  rcases hs with hadmin | ⟨m, hm, hrole⟩
  · exact .inl hadmin
  · exact .inr ⟨m, h.2 hm, hrole⟩

theorem Track.Gives.mono {k k' : Track} (h : k.Extends k') {user : User} {teamId : ℕ} {email : String}
    {role : TeamRole} (hg : k.Gives user teamId email role) : k'.Gives user teamId email role where
  asked := by
    obtain ⟨asked, hop, hrole⟩ := hg.asked
    exact ⟨asked, h.1.trans hop, hrole⟩
  manager := hg.manager.mono h
  owner := fun howner => (hg.owner howner).mono h

section Follows

variable (toLowerCase : String → String)

/-- The handler keeps to the protocol and ends as `Fin` says. -/
def Keeps {α : Type} (Fin : Track → Except RequestError α → Prop) (k : Track) (p : Handler α) :
    Prop :=
  p.Follows note (Allowed toLowerCase) Fin k

/-- However the handler ends. -/
def Any {α : Type} : Track → Except RequestError α → Prop := fun _ _ => True

variable {toLowerCase}

theorem keeps_query {k : Track} {call : Call} (h : Allowed toLowerCase k call) :
    Keeps toLowerCase (fun k' r => k' = note k call r) k (query call) := by
  refine ⟨h, fun r => ?_⟩
  cases r <;> rfl

theorem keeps_query_any {k : Track} {call : Call} (h : Allowed toLowerCase k call) :
    Keeps toLowerCase Any k (query call) :=
  (keeps_query h).mono fun _ _ _ => trivial

/-- The first part ends as `P` says, and from there the rest ends as `Q` says. -/
theorem Keeps.bind {α β : Type} {k : Track} {p : Handler α} {rest : α → Handler β}
    {P : Track → Except RequestError α → Prop} {Q : Track → Except RequestError β → Prop}
    (hp : Keeps toLowerCase P k p) (herr : ∀ k' e, P k' (.error e) → Q k' (.error e))
    (hrest : ∀ k' a, P k' (.ok a) → Keeps toLowerCase Q k' (rest a)) :
    Keeps toLowerCase Q k (p >>= rest) :=
  Prog.Follows.bind herr hrest hp

theorem Keeps.bind_any {α β : Type} {k : Track} {p : Handler α} {rest : α → Handler β}
    {P : Track → Except RequestError α → Prop} (hp : Keeps toLowerCase P k p)
    (hrest : ∀ k' a, P k' (.ok a) → Keeps toLowerCase Any k' (rest a)) :
    Keeps toLowerCase Any k (p >>= rest) :=
  hp.bind (fun _ _ _ => trivial) hrest

/-- **What `requireTeamRole` has established** when it returns: the caller is an `ADMIN`, or has one of
the roles asked for; and a membership it returns is one it has read. -/
theorem keeps_requireTeamRole (k : Track) (user : User) (teamId : ℕ) (roles : List TeamRole) :
    Keeps toLowerCase (fun k' r => k.Extends k' ∧ ∀ membership, r = .ok membership →
      (roles ≠ [] → k'.Standing roles user teamId) ∧
        ∀ m, membership = some m → k'.Read user.id teamId m) k
      (requireTeamRole user teamId roles) := by
  apply Keeps.bind (@keeps_query toLowerCase k (.findMembership user.id teamId) trivial)
  · intro k' e hk'
    exact ⟨hk' ▸ extends_note _ _ _, fun _ h => by cases h⟩
  · intro k' membership hk'
    have hext : k.Extends k' := hk' ▸ extends_note _ _ _
    have hread : ∀ m, membership = some m → k'.Read user.id teamId m := by
      rintro m rfl
      rw [hk']
      exact mem_note _ _ _
    by_cases hadmin : user.role = .admin
    · rw [if_pos hadmin]
      apply Keeps.bind (@keeps_query toLowerCase k' (.findTeam teamId) trivial)
      · intro k'' e hk''
        exact ⟨hext.trans (hk'' ▸ extends_note _ _ _), fun _ h => by cases h⟩
      · intro k'' team hk''
        have hext' : k'.Extends k'' := hk'' ▸ extends_note _ _ _
        refine ⟨hext.trans hext', ?_⟩
        intro membership' h
        cases h
        exact ⟨fun _ => .inl hadmin, fun m hm => hext'.2 (hread m hm)⟩
    · rw [if_neg hadmin]
      cases membership with
      | none => exact ⟨hext, fun _ h => by cases h⟩
      | some m =>
        by_cases hrole : roles ≠ [] ∧ m.role ∉ roles
        · simp only [if_pos hrole]
          exact ⟨hext, fun _ h => by cases h⟩
        · simp only [if_neg hrole]
          refine ⟨hext, ?_⟩
          intro membership' h
          cases h
          refine ⟨fun hne => .inr ⟨m, hread m rfl, ?_⟩, hread⟩
          by_contra hnot
          exact hrole ⟨hne, hnot⟩

/-- A membership `resolveMember` returns is one the handler has read. -/
theorem keeps_resolveMember (k : Track) (teamId target callerId : ℕ)
    {callerMembership : Option TeamMember}
    (hcaller : ∀ m, callerMembership = some m → k.Read callerId teamId m) :
    Keeps toLowerCase
      (fun k' r => k.Extends k' ∧ ∀ m, r = .ok m → ∃ userId, k'.Read userId teamId m) k
      (resolveMember teamId target callerId callerMembership) := by
  have hfirst : Keeps toLowerCase
      (fun k' r => k.Extends k' ∧ ∀ m, r = .ok (some m) → ∃ userId, k'.Read userId teamId m) k
      (if target = callerId ∧ callerMembership.isSome then
        (pure callerMembership : Handler (Option TeamMember))
      else query (.findMembership target teamId)) := by
    split
    · refine ⟨.refl k, ?_⟩
      intro m h
      exact ⟨callerId, hcaller m (Except.ok.inj h)⟩
    · apply (@keeps_query toLowerCase k (.findMembership target teamId) trivial).mono
      intro k' r hk'
      refine ⟨hk' ▸ extends_note _ _ _, ?_⟩
      rintro m rfl
      rw [hk']
      exact ⟨target, mem_note _ _ _⟩
  apply hfirst.bind
  · intro k' e hk'
    exact ⟨hk'.1, fun _ h => by cases h⟩
  · intro k' membership hk'
    cases membership with
    | none => exact ⟨hk'.1, fun _ h => by cases h⟩
    | some m =>
      refine ⟨hk'.1, ?_⟩
      intro m' h
      cases h
      exact hk'.2 m rfl

/-- The guard of the last owner reads only. -/
theorem keeps_guard (k : Track) (teamId : ℕ) (isOwner : Prop) [Decidable isOwner] :
    Keeps toLowerCase (fun k' _ => k.Extends k') k
      (if isOwner then assertNotLastOwner teamId else pure ()) := by
  split
  · apply Keeps.bind (@keeps_query toLowerCase k (.countByRole teamId .owner) trivial)
    · exact fun k' e hk' => hk' ▸ extends_note _ _ _
    · intro k' owners hk'
      have hext : k.Extends k' := hk' ▸ extends_note _ _ _
      by_cases hle : owners ≤ 1
      · rw [if_pos hle]
        exact hext
      · rw [if_neg hle]
        exact hext
  · exact .refl k

/-- An invite `requireOwnInvite` returns is one it has read, to the address of the caller. -/
theorem keeps_requireOwnInvite (k : Track) (user : User) (inviteId : ℕ) :
    Keeps toLowerCase (fun k' r => k.Extends k' ∧ ∀ invite, r = .ok invite →
      (⟨.findInvite inviteId, .ok invite⟩ : Entry) ∈ k'.seen ∧
        invite.email = toLowerCase user.email) k (requireOwnInvite toLowerCase user inviteId) := by
  apply Keeps.bind (@keeps_query toLowerCase k (.findInvite inviteId) trivial)
  · intro k' e hk'
    exact ⟨hk' ▸ extends_note _ _ _, fun _ h => by cases h⟩
  · intro k' invite hk'
    have hext : k.Extends k' := hk' ▸ extends_note _ _ _
    by_cases hemail : invite.email ≠ toLowerCase user.email
    · rw [if_pos hemail]
      exact ⟨hext, fun _ h => by cases h⟩
    · rw [if_neg hemail]
      refine ⟨hext, ?_⟩
      intro invite' h
      cases h
      rw [hk']
      exact ⟨mem_note _ _ _, not_not.mp hemail⟩

theorem keeps_updateMemberRole (user : User) (teamId target : ℕ) (role : TeamRole) :
    Keeps toLowerCase Any ⟨.updateMemberRole user teamId target role, []⟩
      (updateMemberRole user teamId target role) := by
  apply (keeps_requireTeamRole _ user teamId [.owner]).bind_any
  intro k callerMembership hk
  obtain ⟨hext, hcaller⟩ := hk
  obtain ⟨howner, hread⟩ := hcaller callerMembership rfl
  have hstanding : k.Standing [.owner] user teamId := howner (List.cons_ne_nil _ _)
  apply (keeps_resolveMember k teamId target user.id hread).bind_any
  intro k' m hk'
  obtain ⟨hext', hm⟩ := hk'
  obtain ⟨userId, hm⟩ := hm m rfl
  apply (keeps_guard k' teamId (m.role = .owner ∧ role ≠ .owner)).bind_any
  intro k'' _ hext''
  apply keeps_query_any
  exact ⟨user, teamId, target, userId, m, ((hext.trans hext').trans hext'').1,
    (hstanding.mono hext').mono hext'', hext''.2 hm, rfl⟩

theorem keeps_removeMember (k : Track) (user : User) (teamId target : ℕ) :
    Keeps toLowerCase Any k (removeMember user teamId target) := by
  have hfirst : Keeps toLowerCase (fun k' r => ∀ membership, r = .ok membership →
      ∀ m, membership = some m → k'.Read user.id teamId m) k
      (if target = user.id then requireTeamRole user teamId []
        else requireTeamRole user teamId [.owner]) := by
    split
    · exact (keeps_requireTeamRole k user teamId []).mono fun _ _ h membership hr =>
        (h.2 membership hr).2
    · exact (keeps_requireTeamRole k user teamId [.owner]).mono fun _ _ h membership hr =>
        (h.2 membership hr).2
  apply hfirst.bind_any
  intro k' callerMembership hread
  apply (keeps_resolveMember k' teamId target user.id (hread callerMembership rfl)).bind_any
  intro k'' m _
  apply (keeps_guard k'' teamId (m.role = .owner)).bind_any
  intro _ _ _
  exact keeps_query_any trivial

theorem keeps_inviteMember (user : User) (teamId : ℕ) (email : String) (role : Option TeamRole) :
    Keeps toLowerCase Any ⟨.inviteMember user teamId email role, []⟩
      (inviteMember toLowerCase user teamId email role) := by
  apply (keeps_requireTeamRole _ user teamId MANAGING_TEAM_ROLES).bind_any
  intro k membership hk
  obtain ⟨hext, hcaller⟩ := hk
  obtain ⟨hmanager, hread⟩ := hcaller membership rfl
  dsimp only
  split
  · trivial
  · rename_i hnot
    have hgives : k.Gives user teamId email (role.getD .driver) := by
      refine ⟨⟨role, hext.1, rfl⟩, hmanager (List.cons_ne_nil _ _), fun howner => ?_⟩
      -- an owner is only invited by those who may make one
      by_cases hadmin : user.role = .admin
      · exact .inl hadmin
      · have hrole : membership.map (·.role) = some .owner := by
          by_contra hother
          exact hnot ⟨howner, hadmin, hother⟩
        obtain ⟨m, rfl, hm⟩ := Option.map_eq_some_iff.mp hrole
        exact .inr ⟨m, hread m rfl, List.mem_singleton.mpr hm⟩
    apply (@keeps_query toLowerCase k (.findPending teamId (toLowerCase email)) trivial).bind_any
    intro k' pending hk'
    have hext' : k.Extends k' := hk' ▸ extends_note _ _ _
    cases pending with
    | some invite =>
      have hallowed : Allowed toLowerCase k' (.updateInvite invite.id (role.getD .driver)) := by
        refine ⟨user, teamId, email, toLowerCase email, invite, hgives.mono hext', ?_, rfl⟩
        rw [hk']
        exact mem_note _ _ _
      apply (keeps_query_any hallowed).bind_any
      intro _ _ _
      trivial
    | none =>
      have hallowed : Allowed toLowerCase k'
          (.createInvite teamId (toLowerCase email) (role.getD .driver)) :=
        ⟨user, email, rfl, hgives.mono hext'⟩
      apply (keeps_query_any hallowed).bind_any
      intro _ _ _
      trivial

theorem keeps_acceptInvite (user : User) (inviteId : ℕ) :
    Keeps toLowerCase Any ⟨.acceptInvite user inviteId, []⟩
      (acceptInvite toLowerCase user inviteId) := by
  apply (keeps_requireOwnInvite _ user inviteId).bind_any
  intro k invite hk
  obtain ⟨hext, hinvite⟩ := hk
  obtain ⟨hread, hemail⟩ := hinvite invite rfl
  apply (@keeps_query toLowerCase k (.findMembership user.id invite.teamId) trivial).bind_any
  intro k' existing hk'
  have hext' : k.Extends k' := hk' ▸ extends_note _ _ _
  have hdelete : ∀ (k'' : Track) (m : TeamMember), Keeps toLowerCase Any k''
      (query (.deleteInvite invite.id) >>= fun _ => (pure m : Handler TeamMember)) := by
    intro k'' m
    apply (@keeps_query_any toLowerCase k'' (.deleteInvite invite.id) trivial).bind_any
    intro _ _ _
    trivial
  cases existing with
  | some m => exact hdelete k' m
  | none =>
    have hallowed : Allowed toLowerCase k' (.createMember invite.teamId user.id invite.role) :=
      ⟨user, inviteId, invite, (hext.trans hext').1, rfl, rfl, rfl, hemail, hext'.2 hread⟩
    apply (keeps_query_any hallowed).bind_any
    intro k'' member _
    exact hdelete k'' member

/-- **Every handler keeps to the protocol.** -/
theorem follows_handler (op : Op) : Keeps toLowerCase Any ⟨op, []⟩ (op.handler toLowerCase) := by
  cases op with
  | create user name =>
    apply (@keeps_query_any toLowerCase _ (.createWithOwner name user.id) ⟨user, rfl, rfl⟩).bind_any
    intro _ _ _
    trivial
  | update user teamId name =>
    have hupdate : Keeps toLowerCase Any ⟨.update user teamId name, []⟩
        (Teams.update user teamId name) := by
      apply (keeps_requireTeamRole _ user teamId [.owner]).bind_any
      intro _ _ _
      exact keeps_query_any trivial
    apply hupdate.bind_any
    intro _ _ _
    trivial
  | remove user teamId =>
    apply (keeps_requireTeamRole _ user teamId [.owner]).bind_any
    intro _ _ _
    exact keeps_query_any trivial
  | updateMemberRole user teamId target role =>
    apply (keeps_updateMemberRole user teamId target role).bind_any
    intro _ _ _
    trivial
  | removeMember user teamId target => exact keeps_removeMember _ user teamId target
  | inviteMember user teamId email role => exact keeps_inviteMember user teamId email role
  | acceptInvite user inviteId =>
    apply (keeps_acceptInvite user inviteId).bind_any
    intro _ _ _
    trivial
  | declineInvite user inviteId =>
    apply (keeps_requireOwnInvite _ user inviteId).bind_any
    intro _ _ _
    exact keeps_query_any trivial
  | revokeInvite user teamId inviteId =>
    apply (keeps_requireTeamRole _ user teamId MANAGING_TEAM_ROLES).bind_any
    intro _ _ _
    exact keeps_query_any trivial

end Follows

/-! ### What a call writes -/

/-- Where a membership comes from that is there after a call. -/
inductive Wrote (db : Db) (m : TeamMember) : Call → Prop
  | kept (call : Call) (h : m ∈ db.members) : Wrote db m call
  | founded (name : String) (ownerId : ℕ) (h : m = ⟨db.nextId + 1, db.nextId, ownerId, .owner⟩) :
      Wrote db m (.createWithOwner name ownerId)
  | created (teamId userId : ℕ) (role : TeamRole) (h : m = ⟨db.nextId, teamId, userId, role⟩)
      (hnext : (db.createMember teamId userId role).1.nextId = db.nextId + 1) :
      Wrote db m (.createMember teamId userId role)
  | updated (id : ℕ) (role : TeamRole) (old : TeamMember) (hold : old ∈ db.members)
      (hid : old.id = id) (h : m = { old with role }) : Wrote db m (.updateMember id role)

theorem wrote_execute {db : Db} {call : Call} {m : TeamMember}
    (h : m ∈ (db.execute call).1.members) : Wrote db m call := by
  cases call with
  | createWithOwner name ownerId =>
    rcases List.mem_append.mp h with h | h
    · exact .kept _ h
    · exact .founded name ownerId (List.mem_singleton.mp h)
  | createMember teamId userId role =>
    have hm : m ∈ (db.createMember teamId userId role).1.members := h
    unfold Db.createMember at hm
    split at hm
    · exact .kept _ hm
    · rename_i hfree
      split at hm
      · rename_i hteam
        rcases List.mem_append.mp hm with hm | hm
        · exact .kept _ hm
        · apply Wrote.created teamId userId role (List.mem_singleton.mp hm)
          rw [Db.createMember, if_neg hfree, if_pos hteam]
      · exact .kept _ hm
  | updateMember id role =>
    have hm : m ∈ (findOneAndUpdate db.members (·.id = id) fun m => { m with role }).1 := h
    rw [findOneAndUpdate_rows] at hm
    obtain ⟨old, hold, ⟨hid, heq⟩ | ⟨-, heq⟩⟩ := mem_updateWhere hm
    · exact .updated id role old hold (of_decide_eq_true hid) heq
    · exact .kept _ (heq ▸ hold)
  | deleteMember id =>
    have hm : m ∈ (findOneAndDelete db.members (·.id = id)).1 := h
    rw [findOneAndDelete_rows] at hm
    exact .kept _ (List.mem_filter.mp hm).1
  | deleteTeam id => exact .kept _ (List.mem_filter.mp h).1
  | updateTeam id name =>
    have hm : m ∈ (db.updateTeam id name).1.members := h
    rw [(updateTeam_frame db id name).2.1] at hm
    exact .kept _ hm
  | createInvite teamId email role =>
    have hm : m ∈ (db.createInvite teamId email role).1.members := h
    unfold Db.createInvite at hm
    split at hm
    · exact .kept _ hm
    · split at hm <;> exact .kept _ hm
  | _ => exact .kept _ h

/-- Where an invite comes from that is there after a call. -/
inductive WroteInvite (db : Db) (invite : TeamInvite) : Call → Prop
  | kept (call : Call) (h : invite ∈ db.invites) : WroteInvite db invite call
  | created (teamId : ℕ) (email : String) (role : TeamRole)
      (h : invite = ⟨db.nextId, teamId, email, role⟩)
      (hnext : (db.createInvite teamId email role).1.nextId = db.nextId + 1) :
      WroteInvite db invite (.createInvite teamId email role)
  | updated (id : ℕ) (role : TeamRole) (old : TeamInvite) (hold : old ∈ db.invites)
      (hid : old.id = id) (h : invite = { old with role }) :
      WroteInvite db invite (.updateInvite id role)

theorem wroteInvite_execute {db : Db} {call : Call} {invite : TeamInvite}
    (h : invite ∈ (db.execute call).1.invites) : WroteInvite db invite call := by
  cases call with
  | createInvite teamId email role =>
    have hi : invite ∈ (db.createInvite teamId email role).1.invites := h
    unfold Db.createInvite at hi
    split at hi
    · exact .kept _ hi
    · rename_i hfree
      split at hi
      · rename_i hteam
        rcases List.mem_append.mp hi with hi | hi
        · exact .kept _ hi
        · apply WroteInvite.created teamId email role (List.mem_singleton.mp hi)
          rw [Db.createInvite, if_neg hfree, if_pos hteam]
      · exact .kept _ hi
  | updateInvite id role =>
    have hi : invite ∈ (findOneAndUpdate db.invites (·.id = id) fun i => { i with role }).1 := h
    rw [findOneAndUpdate_rows] at hi
    obtain ⟨old, hold, ⟨hid, heq⟩ | ⟨-, heq⟩⟩ := mem_updateWhere hi
    · exact .updated id role old hold (of_decide_eq_true hid) heq
    · exact .kept _ (heq ▸ hold)
  | deleteInvite id =>
    have hi : invite ∈ (findOneAndDelete db.invites (·.id = id)).1 := h
    rw [findOneAndDelete_rows] at hi
    exact .kept _ (List.mem_filter.mp hi).1
  | deleteInviteOf id teamId =>
    have hi : invite ∈
        (findOneAndDelete db.invites fun i => i.id = id && i.teamId = teamId).1 := h
    rw [findOneAndDelete_rows] at hi
    exact .kept _ (List.mem_filter.mp hi).1
  | deleteTeam id => exact .kept _ (List.mem_filter.mp h).1
  | updateTeam id name =>
    have hi : invite ∈ (db.updateTeam id name).1.invites := h
    rw [(updateTeam_frame db id name).2.2.1] at hi
    exact .kept _ hi
  | createMember teamId userId role =>
    have hi : invite ∈ (db.createMember teamId userId role).1.invites := h
    unfold Db.createMember at hi
    split at hi
    · exact .kept _ hi
    · split at hi <;> exact .kept _ hi
  | _ => exact .kept _ h

theorem nextId_execute (db : Db) (call : Call) : db.nextId ≤ (db.execute call).1.nextId := by
  cases call with
  | createWithOwner name ownerId => exact Nat.le_add_right _ 2
  | createMember teamId userId role =>
    show db.nextId ≤ (db.createMember teamId userId role).1.nextId
    unfold Db.createMember
    split
    · exact Nat.le_refl _
    · split
      · exact Nat.le_succ _
      · exact Nat.le_refl _
  | createInvite teamId email role =>
    show db.nextId ≤ (db.createInvite teamId email role).1.nextId
    unfold Db.createInvite
    split
    · exact Nat.le_refl _
    · split
      · exact Nat.le_succ _
      · exact Nat.le_refl _
  | updateTeam id name => exact Nat.le_of_eq (updateTeam_frame db id name).2.2.2.symm
  | _ => exact Nat.le_refl _

/-! ### Rows stay with their team -/

/-- The ids of the tables are below the next one, and those of the invites are distinct. -/
structure Numbered (db : Db) : Prop where
  members : ∀ m ∈ db.members, m.id < db.nextId
  invites : ∀ i ∈ db.invites, i.id < db.nextId
  memberIds : ∀ m ∈ db.members, ∀ m' ∈ db.members, m.id = m'.id → m.teamId = m'.teamId
  inviteIds : ∀ i ∈ db.invites, ∀ i' ∈ db.invites, i.id = i'.id → i.teamId = i'.teamId

/-- A row that has an id from before belongs to the team that row belonged to. -/
structure Later (db db' : Db) : Prop where
  nextId : db.nextId ≤ db'.nextId
  members : ∀ m' ∈ db'.members, m'.id < db.nextId →
    ∃ m ∈ db.members, m.id = m'.id ∧ m.teamId = m'.teamId
  invites : ∀ i' ∈ db'.invites, i'.id < db.nextId →
    ∃ i ∈ db.invites, i.id = i'.id ∧ i.teamId = i'.teamId

theorem Later.refl (db : Db) : Later db db :=
  ⟨Nat.le_refl _, fun m hm _ => ⟨m, hm, rfl, rfl⟩, fun i hi _ => ⟨i, hi, rfl, rfl⟩⟩

theorem Later.trans {a b c : Db} (hab : Later a b) (hbc : Later b c) : Later a c := by
  refine ⟨Nat.le_trans hab.nextId hbc.nextId, ?_, ?_⟩
  · intro m'' hm'' hlt
    obtain ⟨m', hm', hid', hteam'⟩ := hbc.members m'' hm'' (Nat.lt_of_lt_of_le hlt hab.nextId)
    obtain ⟨m, hm, hid, hteam⟩ := hab.members m' hm' (hid' ▸ hlt)
    exact ⟨m, hm, hid.trans hid', hteam.trans hteam'⟩
  · intro i'' hi'' hlt
    obtain ⟨i', hi', hid', hteam'⟩ := hbc.invites i'' hi'' (Nat.lt_of_lt_of_le hlt hab.nextId)
    obtain ⟨i, hi, hid, hteam⟩ := hab.invites i' hi' (hid' ▸ hlt)
    exact ⟨i, hi, hid.trans hid', hteam.trans hteam'⟩

theorem later_execute (db : Db) (call : Call) : Later db (db.execute call).1 := by
  refine ⟨nextId_execute db call, ?_, ?_⟩
  · intro m hm hlt
    cases wrote_execute hm with
    | kept _ h => exact ⟨m, h, rfl, rfl⟩
    | founded name ownerId h =>
      subst h
      have : db.nextId + 1 < db.nextId := hlt
      omega
    | created teamId userId role h hnext =>
      subst h
      exact absurd hlt (Nat.lt_irrefl _)
    | updated id role old hold hid h =>
      subst h
      exact ⟨old, hold, rfl, rfl⟩
  · intro invite hi hlt
    cases wroteInvite_execute hi with
    | kept _ h => exact ⟨invite, h, rfl, rfl⟩
    | created teamId email role h hnext =>
      subst h
      exact absurd hlt (Nat.lt_irrefl _)
    | updated id role old hold hid h =>
      subst h
      exact ⟨old, hold, rfl, rfl⟩

/-- **A row has one team for good.** -/
theorem Later.team_eq {db db' : Db} (h : Later db db') (hn : Numbered db) {m m' : TeamMember}
    (hm : m ∈ db.members) (hm' : m' ∈ db'.members) (hid : m.id = m'.id) : m.teamId = m'.teamId := by
  obtain ⟨old, hold, hid', hteam⟩ := h.members m' hm' (hid ▸ hn.members m hm)
  rw [← hteam]
  exact hn.memberIds m hm old hold (hid.trans hid'.symm)

theorem Later.inviteTeam_eq {db db' : Db} (h : Later db db') (hn : Numbered db)
    {i i' : TeamInvite} (hi : i ∈ db.invites) (hi' : i' ∈ db'.invites) (hid : i.id = i'.id) :
    i.teamId = i'.teamId := by
  obtain ⟨old, hold, hid', hteam⟩ := h.invites i' hi' (hid ▸ hn.invites i hi)
  rw [← hteam]
  exact hn.inviteIds i hi old hold (hid.trans hid'.symm)

/-- The one membership a call may create. -/
def newMember (db : Db) : Call → Option TeamMember
  | .createWithOwner _ ownerId => some ⟨db.nextId + 1, db.nextId, ownerId, .owner⟩
  | .createMember teamId userId role => some ⟨db.nextId, teamId, userId, role⟩
  | _ => none

def newInvite (db : Db) : Call → Option TeamInvite
  | .createInvite teamId email role => some ⟨db.nextId, teamId, email, role⟩
  | _ => none

/-- A membership after a call has an id from before, or is the new one. -/
theorem member_id_cases {db : Db} (hn : Numbered db) {call : Call} {m : TeamMember}
    (hm : m ∈ (db.execute call).1.members) : m.id < db.nextId ∨
      newMember db call = some m ∧ m.id < (db.execute call).1.nextId := by
  cases wrote_execute hm with
  | kept _ h => exact .inl (hn.members m h)
  | founded name ownerId h =>
    subst h
    exact .inr ⟨rfl, Nat.lt_succ_self _⟩
  | created teamId userId role h hnext =>
    subst h
    refine .inr ⟨rfl, ?_⟩
    show db.nextId < (db.createMember teamId userId role).1.nextId
    omega
  | updated id role old hold hid h =>
    subst h
    exact .inl (hn.members old hold)

theorem invite_id_cases {db : Db} (hn : Numbered db) {call : Call} {invite : TeamInvite}
    (hi : invite ∈ (db.execute call).1.invites) : invite.id < db.nextId ∨
      newInvite db call = some invite ∧ invite.id < (db.execute call).1.nextId := by
  cases wroteInvite_execute hi with
  | kept _ h => exact .inl (hn.invites invite h)
  | created teamId email role h hnext =>
    subst h
    refine .inr ⟨rfl, ?_⟩
    show db.nextId < (db.createInvite teamId email role).1.nextId
    omega
  | updated id role old hold hid h =>
    subst h
    exact .inl (hn.invites old hold)

theorem newMember_id_le {db : Db} {call : Call} {m : TeamMember}
    (h : newMember db call = some m) : db.nextId ≤ m.id := by
  cases call with
  | createWithOwner name ownerId =>
    cases h
    exact Nat.le_succ _
  | createMember teamId userId role =>
    cases h
    exact Nat.le_refl _
  | _ => cases h

theorem newInvite_id_le {db : Db} {call : Call} {invite : TeamInvite}
    (h : newInvite db call = some invite) : db.nextId ≤ invite.id := by
  cases call with
  | createInvite teamId email role =>
    cases h
    exact Nat.le_refl _
  | _ => cases h

theorem numbered_execute {db : Db} (hn : Numbered db) (call : Call) :
    Numbered (db.execute call).1 := by
  have hlater := later_execute db call
  refine ⟨?_, ?_, ?_, ?_⟩
  · intro m hm
    rcases member_id_cases hn hm with hlt | ⟨-, hlt⟩
    · exact Nat.lt_of_lt_of_le hlt hlater.nextId
    · exact hlt
  · intro invite hi
    rcases invite_id_cases hn hi with hlt | ⟨-, hlt⟩
    · exact Nat.lt_of_lt_of_le hlt hlater.nextId
    · exact hlt
  · intro m hm m' hm' hid
    rcases member_id_cases hn hm with hlt | ⟨hnew, -⟩
    · obtain ⟨old, hold, hoid, hteam⟩ := hlater.members m hm hlt
      rw [← hteam]
      exact hlater.team_eq hn hold hm' (hoid.trans hid)
    · rcases member_id_cases hn hm' with hlt' | ⟨hnew', -⟩
      · have := newMember_id_le hnew
        omega
      · rw [hnew] at hnew'
        cases hnew'
        rfl
  · intro invite hi invite' hi' hid
    rcases invite_id_cases hn hi with hlt | ⟨hnew, -⟩
    · obtain ⟨old, hold, hoid, hteam⟩ := hlater.invites invite hi hlt
      rw [← hteam]
      exact hlater.inviteTeam_eq hn hold hi' (hoid.trans hid)
    · rcases invite_id_cases hn hi' with hlt' | ⟨hnew', -⟩
      · have := newInvite_id_le hnew
        omega
      · rw [hnew] at hnew'
        cases hnew'
        rfl

/-! ### Runs -/

section Runs

variable {toLowerCase : String → String} {es : List (Event Op Bool)} {st st' : State}

/-- **What one event does**: a handler joins, or one call of a handler reaches the database or
fails. -/
theorem step_effect {e : Event Op Bool} (h : step (service toLowerCase) st e = some st') :
    (∃ op, e = .invoke op ∧ st' = ⟨st.store, st.handlers ++ [(op, op.handler toLowerCase)]⟩) ∨
      ∃ i op call next ok r, e = .answer i ok ∧ st.handlers[i]? = some (op, .await call next) ∧
        ((ok = true ∧ st'.store = (st.store.execute call).1 ∧ r = (st.store.execute call).2) ∨
          (ok = false ∧ st'.store = st.store ∧ r = .error .failed)) ∧
        st'.handlers = st.handlers.set i (op, next r) := by
  obtain ⟨op, rfl, rfl⟩ | ⟨i, ok, op, call, next, db, r, rfl, hi, hexec, rfl⟩ := step_cases h
  · exact .inl ⟨op, rfl, rfl⟩
  · refine .inr ⟨i, op, call, next, ok, r, rfl, hi, ?_, rfl⟩
    simp only [service, Db.exec, Option.some.injEq] at hexec
    cases ok with
    | false =>
      cases hexec
      exact .inr ⟨rfl, rfl, rfl⟩
    | true =>
      have hdb : db = (st.store.execute call).1 := (congrArg Prod.fst hexec).symm
      have hr : r = (st.store.execute call).2 := (congrArg Prod.snd hexec).symm
      exact .inl ⟨rfl, hdb, hr⟩

theorem numbered_later_step {e : Event Op Bool} (hn : Numbered st.store)
    (h : step (service toLowerCase) st e = some st') :
    Numbered st'.store ∧ Later st.store st'.store := by
  obtain ⟨op, -, rfl⟩ | ⟨i, op, call, next, ok, r, -, -, ⟨-, hstore, -⟩ | ⟨-, hstore, -⟩, -⟩ :=
    step_effect h
  · exact ⟨hn, .refl _⟩
  · rw [hstore]
    exact ⟨numbered_execute hn call, later_execute _ call⟩
  · rw [hstore]
    exact ⟨hn, .refl _⟩

theorem numbered_empty : Numbered Db.empty := by
  constructor <;> simp [Db.empty]

theorem numbered_run (h : run (step (service toLowerCase)) Teams.init es = some st) :
    Numbered st.store :=
  run_invariant_of_step (step (service toLowerCase)) (I := fun s => Numbered s.store)
    (fun _ _ _ hn hs => (numbered_later_step hn hs).1) es _ st numbered_empty h

/-- The state of a run is later than the state of any part of it. -/
theorem later_run {pre : List (Event Op Bool)} {mid : State} (hpre : pre <+: es)
    (hmid : run (step (service toLowerCase)) Teams.init pre = some mid)
    (h : run (step (service toLowerCase)) Teams.init es = some st) : Later mid.store st.store := by
  obtain ⟨post, rfl⟩ := hpre
  rw [run_append, hmid, Option.bind_some] at h
  have hboth := run_invariant_of_step (step (service toLowerCase))
    (I := fun s => Numbered s.store ∧ Later mid.store s.store)
    (fun _ _ _ hI hs => ⟨(numbered_later_step hI.1 hs).1,
      hI.2.trans (numbered_later_step hI.1 hs).2⟩) post mid st ⟨numbered_run hmid, .refl _⟩ h
  exact hboth.2

end Runs

/-! ### Rows of a run -/

/-- What is said of a membership and of an invite, given the events there have been. -/
structure Sources where
  member : List (Event Op Bool) → TeamMember → Prop
  invite : List (Event Op Bool) → TeamInvite → Prop

namespace Sources

variable (S : Sources) (toLowerCase : String → String)

/-- What an answer says about the state it was given in. -/
def Witnessed (es : List (Event Op Bool)) (i : ℕ) (op : Op) :
    (call : Call) → Except RequestError (Answer call) → Prop
  | .findMembership userId teamId, r => ∀ m, r = .ok (some m) → m.userId = userId ∧
      m.teamId = teamId ∧ ∃ mid, Makes toLowerCase es i op (.findMembership userId teamId) mid ∧
        m ∈ mid.store.members
  | .findPending teamId email, r => ∀ invite, r = .ok (some invite) → invite.teamId = teamId ∧
      ∃ mid, Makes toLowerCase es i op (.findPending teamId email) mid ∧ invite ∈ mid.store.invites
  | .findInvite id, r => ∀ invite, r = .ok invite → invite.id = id ∧ S.invite es invite
  | _, _ => True

/-- The rows of a state are as the sources say, and its handlers keep to the protocol, with answers
that were true when they were given. -/
structure Traced (es : List (Event Op Bool)) (st : State) : Prop where
  members : ∀ m ∈ st.store.members, S.member es m
  invites : ∀ invite ∈ st.store.invites, S.invite es invite
  handlers : ∀ (i : ℕ) (op : Op) (p : Handler Unit), st.handlers[i]? = some (op, p) →
    ∃ seen, Keeps toLowerCase Any ⟨op, seen⟩ p ∧
      ∀ call r, (⟨call, r⟩ : Entry) ∈ seen → S.Witnessed toLowerCase es i op call r

/-- The call handler `i` makes next, with everything known about the handler. -/
structure Pending (es : List (Event Op Bool)) (st : State) (i : ℕ) (op : Op) (call : Call)
    (seen : List Entry) : Prop where
  run : run (step (service toLowerCase)) Teams.init es = some st
  pending : st.pending i = some (op, call)
  allowed : Allowed toLowerCase ⟨op, seen⟩ call
  seen : ∀ call r, (⟨call, r⟩ : Entry) ∈ seen → S.Witnessed toLowerCase es i op call r

/-- What is said of a row stays true, and every call leaves rows of which it is true. -/
structure Kept : Prop where
  member_mono : ∀ {es es' m}, es <+: es' → S.member es m → S.member es' m
  invite_mono : ∀ {es es' invite}, es <+: es' → S.invite es invite → S.invite es' invite
  member : ∀ {es st i op call seen m}, S.Traced toLowerCase es st →
    S.Pending toLowerCase es st i op call seen → m ∈ (st.store.execute call).1.members →
    S.member (es ++ [.answer i true]) m
  invite : ∀ {es st i op call seen invite}, S.Traced toLowerCase es st →
    S.Pending toLowerCase es st i op call seen → invite ∈ (st.store.execute call).1.invites →
    S.invite (es ++ [.answer i true]) invite

variable {S toLowerCase} {es : List (Event Op Bool)} {st st' : State} {i : ℕ} {op : Op} {call : Call}
  {seen : List Entry}

theorem traced_init : S.Traced toLowerCase [] Teams.init where
  members m hm := by cases hm
  invites invite hi := by cases hi
  handlers i op p hi := by cases hi

theorem Pending.makes (hp : S.Pending toLowerCase es st i op call seen) :
    Makes toLowerCase (es ++ [.answer i true]) i op call st :=
  ⟨es, List.prefix_rfl, hp.run, hp.pending⟩

/-- What a handler has read of its caller is true of the state it read it in. -/
theorem Pending.standing (hp : S.Pending toLowerCase es st i op call seen) {roles : List TeamRole}
    {user : User} {teamId : ℕ} (h : Track.Standing ⟨op, seen⟩ roles user teamId) :
    Standing toLowerCase (es ++ [.answer i true]) roles i op user teamId := by
  rcases h with hadmin | ⟨m, hread, hrole⟩
  · exact .inl hadmin
  · obtain ⟨huser, hteam, mid, hmakes, hmem⟩ := hp.seen _ _ hread m rfl
    exact .inr ⟨mid, hmakes.mono (List.prefix_append _ _), m, hmem, huser, hteam, hrole⟩

/-- The membership a handler has read of a team is of that team still when the handler writes it. -/
theorem Pending.team_eq (hp : S.Pending toLowerCase es st i op call seen) {userId teamId : ℕ}
    {m old : TeamMember} (hread : Track.Read ⟨op, seen⟩ userId teamId m)
    (hold : old ∈ st.store.members) (hid : old.id = m.id) : old.teamId = teamId := by
  obtain ⟨-, hteam, mid, ⟨pre, hes, hmid, -⟩, hmem⟩ := hp.seen _ _ hread m rfl
  have hlater := later_run ((List.prefix_append _ _).trans hes) hmid hp.run
  rw [← hteam]
  exact (hlater.team_eq (numbered_run hmid) hmem hold hid.symm).symm

theorem Pending.inviteTeam_eq (hp : S.Pending toLowerCase es st i op call seen) {teamId : ℕ}
    {email : String} {invite old : TeamInvite}
    (hread : (⟨.findPending teamId email, .ok (some invite)⟩ : Entry) ∈ seen)
    (hold : old ∈ st.store.invites) (hid : old.id = invite.id) : old.teamId = teamId := by
  obtain ⟨hteam, mid, ⟨pre, hes, hmid, -⟩, hmem⟩ := hp.seen _ _ hread invite rfl
  have hlater := later_run ((List.prefix_append _ _).trans hes) hmid hp.run
  rw [← hteam]
  exact (hlater.inviteTeam_eq (numbered_run hmid) hmem hold hid.symm).symm

section Kept

variable (hS : S.Kept toLowerCase)
include hS

theorem Witnessed.mono {es' : List (Event Op Bool)} (hpre : es <+: es')
    {r : Except RequestError (Answer call)} (h : S.Witnessed toLowerCase es i op call r) :
    S.Witnessed toLowerCase es' i op call r := by
  cases call with
  | findMembership userId teamId =>
    intro m hm
    obtain ⟨huser, hteam, mid, hmakes, hmem⟩ := h m hm
    exact ⟨huser, hteam, mid, hmakes.mono hpre, hmem⟩
  | findPending teamId email =>
    intro invite hi
    obtain ⟨hteam, mid, hmakes, hmem⟩ := h invite hi
    exact ⟨hteam, mid, hmakes.mono hpre, hmem⟩
  | findInvite id =>
    intro invite hi
    obtain ⟨hid, hsource⟩ := h invite hi
    exact ⟨hid, hS.invite_mono hpre hsource⟩
  | _ => trivial

/-- What an answer of the database says about the state it is given in. -/
theorem witnessed_execute (ht : S.Traced toLowerCase es st)
    (hmakes : Makes toLowerCase (es ++ [.answer i true]) i op call st) :
    S.Witnessed toLowerCase (es ++ [.answer i true]) i op call (st.store.execute call).2 := by
  cases call with
  | findMembership userId teamId =>
    intro m hm
    have hfind : st.store.members.find? (Db.isMember userId teamId) = some m := Except.ok.inj hm
    have hpred := List.find?_some hfind
    simp only [Db.isMember, Bool.and_eq_true, decide_eq_true_eq] at hpred
    exact ⟨hpred.1, hpred.2, st, hmakes, List.mem_of_find?_eq_some hfind⟩
  | findPending teamId email =>
    intro invite hinvite
    have hfind : (st.store.invites.find? fun i => i.teamId = teamId && i.email = email) =
        some invite := Except.ok.inj hinvite
    have hpred := List.find?_some hfind
    simp only [Bool.and_eq_true, decide_eq_true_eq] at hpred
    exact ⟨hpred.1, st, hmakes, List.mem_of_find?_eq_some hfind⟩
  | findInvite id =>
    intro invite hinvite
    obtain ⟨hmem, hid⟩ := findOne_eq_ok hinvite
    exact ⟨of_decide_eq_true hid, hS.invite_mono (List.prefix_append _ _) (ht.invites invite hmem)⟩
  | _ => trivial

/-- The handlers after an answer, which is true of the state it was given in. -/
theorem handlers_answer (ht : S.Traced toLowerCase es st) {ok : Bool}
    {next : Except RequestError (Answer call) → Handler Unit} {r : Except RequestError (Answer call)}
    (hkeeps : Keeps toLowerCase Any ⟨op, seen⟩ (.await call next))
    (hseen : ∀ call r, (⟨call, r⟩ : Entry) ∈ seen → S.Witnessed toLowerCase es i op call r)
    (hhandlers : st'.handlers = st.handlers.set i (op, next r))
    (hr : S.Witnessed toLowerCase (es ++ [.answer i ok]) i op call r) :
    ∀ (j : ℕ) (op' : Op) (p : Handler Unit), st'.handlers[j]? = some (op', p) →
      ∃ seen, Keeps toLowerCase Any ⟨op', seen⟩ p ∧ ∀ call r, (⟨call, r⟩ : Entry) ∈ seen →
        S.Witnessed toLowerCase (es ++ [.answer i ok]) j op' call r := by
  have hpre : es <+: es ++ [.answer i ok] := List.prefix_append _ _
  intro j op' p hj
  rw [hhandlers] at hj
  rcases getElem?_set_cases hj with ⟨rfl, hp⟩ | ⟨-, hj⟩
  · cases hp
    have hnext : Keeps toLowerCase Any ⟨op, seen ++ [⟨call, r⟩]⟩ (next r) := hkeeps.2 r
    refine ⟨seen ++ [⟨call, r⟩], hnext, ?_⟩
    intro call' r' hmem
    rcases List.mem_append.mp hmem with hmem | hmem
    · exact Witnessed.mono hS hpre (hseen call' r' hmem)
    · cases List.mem_singleton.mp hmem
      exact hr
  · obtain ⟨seen', hkeeps', hseen'⟩ := ht.handlers j op' p hj
    exact ⟨seen', hkeeps', fun call' r' hmem => Witnessed.mono hS hpre (hseen' call' r' hmem)⟩

theorem traced_step (ht : S.Traced toLowerCase es st) {e : Event Op Bool}
    (hrun : run (step (service toLowerCase)) Teams.init es = some st)
    (h : step (service toLowerCase) st e = some st') : S.Traced toLowerCase (es ++ [e]) st' := by
  have hpre : es <+: es ++ [e] := List.prefix_append _ _
  obtain ⟨op, rfl, rfl⟩ |
    ⟨i, op, call, next, ok, r, rfl, hawait, hstore, hhandlers⟩ := step_effect h
  · refine ⟨fun m hm => hS.member_mono hpre (ht.members m hm),
      fun invite hinvite => hS.invite_mono hpre (ht.invites invite hinvite), ?_⟩
    intro j op' p hj
    rcases getElem?_append_singleton hj with hj | ⟨-, hp⟩
    · obtain ⟨seen, hkeeps, hseen⟩ := ht.handlers j op' p hj
      exact ⟨seen, hkeeps, fun call r hr => Witnessed.mono hS hpre (hseen call r hr)⟩
    · cases hp
      exact ⟨[], follows_handler op, fun _ _ hr => by cases hr⟩
  · obtain ⟨seen, hkeeps, hseen⟩ := ht.handlers i op _ hawait
    rcases hstore with ⟨rfl, hstore, rfl⟩ | ⟨rfl, hstore, rfl⟩
    · have hp : S.Pending toLowerCase es st i op call seen :=
        ⟨hrun, pending_of_await hawait, hkeeps.1, hseen⟩
      refine ⟨?_, ?_, handlers_answer hS ht hkeeps hseen hhandlers (witnessed_execute hS ht hp.makes)⟩
      · intro m hm
        rw [hstore] at hm
        exact hS.member ht hp hm
      · intro invite hinvite
        rw [hstore] at hinvite
        exact hS.invite ht hp hinvite
    · refine ⟨?_, ?_, handlers_answer hS ht hkeeps hseen hhandlers ?_⟩
      · intro m hm
        rw [hstore] at hm
        exact hS.member_mono hpre (ht.members m hm)
      · intro invite hinvite
        rw [hstore] at hinvite
        exact hS.invite_mono hpre (ht.invites invite hinvite)
      · -- a call that failed has no answer to read
        cases call <;> first | trivial | exact fun _ h => by cases h

/-- **What is true of the rows a handler may write is true of every row**, in every run from the empty
database. -/
theorem traced_run (h : run (step (service toLowerCase)) Teams.init es = some st) :
    S.Traced toLowerCase es st := by
  induction es using List.reverseRecOn generalizing st with
  | nil =>
    cases h
    exact traced_init
  | append_singleton es e ih =>
    obtain ⟨mid, hmid, hstep⟩ := (run_snoc_eq_some _).mp h
    exact traced_step hS (ih hmid) hmid hstep

end Kept

end Sources

section Runs

variable {toLowerCase : String → String} {es : List (Event Op Bool)} {st : State}

/-- A handler answers a request of the run. -/
theorem invoked_run (h : run (step (service toLowerCase)) Teams.init es = some st) :
    ∀ (i : ℕ) (op : Op) (p : Handler Unit), st.handlers[i]? = some (op, p) → .invoke op ∈ es := by
  induction es using List.reverseRecOn generalizing st with
  | nil =>
    cases h
    intro i op p hi
    cases hi
  | append_singleton es e ih =>
    obtain ⟨mid, hmid, hstep⟩ := (run_snoc_eq_some _).mp h
    intro j op' p hj
    obtain ⟨op, rfl, rfl⟩ | ⟨i, op, call, next, ok, r, -, hawait, -, hhandlers⟩ := step_effect hstep
    · rcases getElem?_append_singleton hj with hj | ⟨-, hp⟩
      · exact List.mem_append_left _ (ih hmid j op' p hj)
      · cases hp
        exact List.mem_append_right _ List.mem_cons_self
    · rw [hhandlers] at hj
      rcases getElem?_set_cases hj with ⟨rfl, hp⟩ | ⟨-, hj⟩
      · cases hp
        exact List.mem_append_left _ (ih hmid j _ _ hawait)
      · exact List.mem_append_left _ (ih hmid j op' p hj)

theorem Makes.invoked {i : ℕ} {op : Op} {call : Call} {mid : State}
    (h : Makes toLowerCase es i op call mid) : .invoke op ∈ es := by
  obtain ⟨pre, hes, hmid, hpending⟩ := h
  rw [Pool.pending, Option.bind_eq_some_iff] at hpending
  obtain ⟨⟨op', p⟩, hi, hcall⟩ := hpending
  obtain ⟨call', -, heq⟩ := Option.map_eq_some_iff.mp hcall
  cases heq
  have hpre : pre <+: es := (List.prefix_append _ _).trans hes
  exact hpre.subset (invoked_run hmid i _ _ hi)

end Runs

def caller : Op → User
  | .create user _ | .update user _ _ | .remove user _ | .updateMemberRole user _ _ _
  | .removeMember user _ _ | .inviteMember user _ _ _ | .acceptInvite user _
  | .declineInvite user _ | .revokeInvite user _ _ => user

end TelemetryCloud.TeamProtocol
