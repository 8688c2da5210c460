import TelemetryCloud.TeamProtocol

/-!
# Where the owners of a team come from

Three paths of `TeamsService` write a role (the roster, a new invite, a pending one invited again)
and a fourth, `acceptInvite`, spends it later under another name.  Authority is traced through the
tables over whole runs: every `OWNER` there is goes back to a founder, or to a call whose caller was
an `OWNER` of the team, or a platform `ADMIN`, when that call checked.

* `Cleared` : who may make owners;
* `OwnerSource`, `Invited` : where an owner and an invite of one may come from;
* `owners_kept` : one call makes no other;
* `owner_sources` : **where owners come from**, in every interleaving.
-/

namespace TelemetryCloud.TeamOwners

open Calls Runs TelemetryCloud.Repository Teams TeamProtocol

section Sources

variable (toLowerCase : String → String) (es : List (Event Op Bool))

/-- Handler `i` may make owners of the team: its caller is an `ADMIN`, or was an `OWNER` of the team
when the handler read the membership. -/
def Cleared (i : ℕ) (op : Op) (user : User) (teamId : ℕ) : Prop :=
  Standing toLowerCase es [.owner] i op user teamId

/-- An `inviteMember` of a caller who may make owners set the role of the invite to `OWNER`, when it
created the invite or later. -/
def Invited (invite : TeamInvite) : Prop :=
  ∃ i user email call mid,
    Makes toLowerCase es i (.inviteMember user invite.teamId email (some .owner)) call mid ∧
      (call = .updateInvite invite.id .owner ∨
        call = .createInvite invite.teamId (toLowerCase email) .owner ∧
          invite.id = mid.store.nextId) ∧
      Cleared toLowerCase es i (.inviteMember user invite.teamId email (some .owner)) user
        invite.teamId

/-- Where an `OWNER` may come from. -/
inductive OwnerSource (m : TeamMember) : Prop
  /-- The caller founded the team. -/
  | founded (i : ℕ) (user : User) (name : String) (mid : State)
      (hcall : Makes toLowerCase es i (.create user name) (.createWithOwner name user.id) mid)
      (huser : m.userId = user.id) (hteam : m.teamId = mid.store.nextId)
  /-- A caller who may make owners promoted the member. -/
  | promoted (i : ℕ) (user : User) (target : ℕ) (mid : State)
      (hcall : Makes toLowerCase es i (.updateMemberRole user m.teamId target .owner)
        (.updateMember m.id .owner) mid)
      (hcleared : Cleared toLowerCase es i (.updateMemberRole user m.teamId target .owner) user
        m.teamId)
  /-- The member accepted an invite that such a caller made an owner's. -/
  | accepted (i : ℕ) (user : User) (invite : TeamInvite) (mid : State)
      (hcall : Makes toLowerCase es i (.acceptInvite user invite.id)
        (.createMember m.teamId m.userId .owner) mid)
      (huser : m.userId = user.id) (hteam : invite.teamId = m.teamId)
      (hinvited : Invited toLowerCase es invite)

end Sources

section Mono

variable {toLowerCase : String → String} {es es' : List (Event Op Bool)} (hpre : es <+: es')
include hpre

theorem Invited.mono {invite : TeamInvite} (h : Invited toLowerCase es invite) :
    Invited toLowerCase es' invite := by
  obtain ⟨i, user, email, call, mid, hmakes, hcall, hcleared⟩ := h
  exact ⟨i, user, email, call, mid, hmakes.mono hpre, hcall, Standing.mono hpre hcleared⟩

theorem OwnerSource.mono {m : TeamMember} (h : OwnerSource toLowerCase es m) :
    OwnerSource toLowerCase es' m := by
  cases h with
  | founded i user name mid hcall huser hteam =>
    exact .founded i user name mid (hcall.mono hpre) huser hteam
  | promoted i user target mid hcall hcleared =>
    exact .promoted i user target mid (hcall.mono hpre) (Standing.mono hpre hcleared)
  | accepted i user invite mid hcall huser hteam hinvited =>
    exact .accepted i user invite mid (hcall.mono hpre) huser hteam (hinvited.mono hpre)

end Mono

/-! ### One call -/

section Call

variable {toLowerCase : String → String} {es : List (Event Op Bool)} {st : State} {i : ℕ} {op : Op}
  {call : Call} {seen : List Entry}

variable (toLowerCase) in
/-- Where the owners and their invites come from. -/
def sources : Sources where
  member es m := m.role = .owner → OwnerSource toLowerCase es m
  invite es invite := invite.role = .owner → Invited toLowerCase es invite

/-- Who invites an owner has asked for one, and may make one. -/
theorem gives_owner (hp : (sources toLowerCase).Pending toLowerCase es st i op call seen) {user : User}
    {teamId : ℕ} {email : String} (h : Track.Gives ⟨op, seen⟩ user teamId email .owner) :
    op = .inviteMember user teamId email (some .owner) ∧
      Cleared toLowerCase (es ++ [.answer i true]) i op user teamId := by
  obtain ⟨asked, hop, hrole⟩ := h.asked
  have hasked : asked = some .owner := by
    cases asked with
    | none => cases hrole
    | some role => exact congrArg some hrole.symm
  exact ⟨hasked ▸ hop, hp.standing (h.owner rfl)⟩

/-- **Every owner after a call has a source.** -/
theorem member_source (ht : (sources toLowerCase).Traced toLowerCase es st)
    (hp : (sources toLowerCase).Pending toLowerCase es st i op call seen) {m : TeamMember}
    (hm : m ∈ (st.store.execute call).1.members) (hrole : m.role = .owner) :
    OwnerSource toLowerCase (es ++ [.answer i true]) m := by
  have hpre : es <+: es ++ [.answer i true] := List.prefix_append _ _
  have hallowed := hp.allowed
  have hmakes := hp.makes
  cases wrote_execute hm with
  | kept _ h => exact (ht.members m h hrole).mono hpre
  | founded name ownerId h =>
    obtain ⟨user, hop, howner⟩ := hallowed
    have hop' : op = .create user name := hop
    rw [hop', howner] at hmakes
    subst h
    exact .founded i user name st hmakes howner rfl
  | created teamId userId role h hnext =>
    subst h
    obtain rfl : role = .owner := hrole
    obtain ⟨user, inviteId, invite, hop, huser, hteam, howner, -, hread⟩ := hallowed
    obtain ⟨hid, hinvited⟩ := hp.seen _ _ hread invite rfl
    have hop' : op = .acceptInvite user inviteId := hop
    rw [hop', ← hid] at hmakes
    exact .accepted i user invite st hmakes huser hteam.symm ((hinvited howner.symm).mono hpre)
  | updated id role old hold hid h =>
    subst h
    obtain rfl : role = .owner := hrole
    obtain ⟨user, teamId, target, userId, m₀, hop, hstanding, hread, heq⟩ := hallowed
    -- the row that is written is the one that was read, and has stayed with its team
    have hsame : old.teamId = teamId := hp.team_eq hread hold (hid.trans heq)
    have hcleared := hp.standing hstanding
    have hop' : op = .updateMemberRole user teamId target .owner := hop
    rw [hop', ← hsame] at hcleared
    rw [hop', ← hid, ← hsame] at hmakes
    exact .promoted i user target st hmakes hcleared

/-- **Every invite of an owner after a call has a source.** -/
theorem invite_source (ht : (sources toLowerCase).Traced toLowerCase es st)
    (hp : (sources toLowerCase).Pending toLowerCase es st i op call seen) {invite : TeamInvite}
    (hinvite : invite ∈ (st.store.execute call).1.invites) (hrole : invite.role = .owner) :
    Invited toLowerCase (es ++ [.answer i true]) invite := by
  have hpre : es <+: es ++ [.answer i true] := List.prefix_append _ _
  have hallowed := hp.allowed
  have hmakes := hp.makes
  cases wroteInvite_execute hinvite with
  | kept _ h => exact (ht.invites invite h hrole).mono hpre
  | created teamId email role h hnext =>
    subst h
    obtain rfl : role = .owner := hrole
    obtain ⟨user, address, hemail, hgives⟩ := hallowed
    obtain ⟨hop, hcleared⟩ := gives_owner hp hgives
    rw [hop] at hcleared
    rw [hop, hemail] at hmakes
    exact ⟨i, user, address, _, st, hmakes, .inr ⟨rfl, rfl⟩, hcleared⟩
  | updated id role old hold hid h =>
    subst h
    obtain rfl : role = .owner := hrole
    obtain ⟨user, teamId, address, email, invite₀, hgives, hread, heq⟩ := hallowed
    have hsame : old.teamId = teamId := hp.inviteTeam_eq hread hold (hid.trans heq)
    obtain ⟨hop, hcleared⟩ := gives_owner hp hgives
    rw [hop, ← hsame] at hcleared
    rw [hop, ← hid, ← hsame] at hmakes
    exact ⟨i, user, address, _, st, hmakes, .inl rfl, hcleared⟩

/-- **One call makes no owner, and no invite of one, without a source.** -/
theorem owners_kept : (sources toLowerCase).Kept toLowerCase where
  member_mono hpre h hrole := (h hrole).mono hpre
  invite_mono hpre h hrole := (h hrole).mono hpre
  member ht hp hm := member_source ht hp hm
  invite ht hp hinvite := invite_source ht hp hinvite

end Call

/-! ### Owners -/

/-- The user is no platform `ADMIN`, and in no state of the run an `OWNER` of the team. -/
def NeverAbove (toLowerCase : String → String) (es : List (Event Op Bool)) (teamId : ℕ)
    (user : User) : Prop :=
  user.role ≠ .admin ∧ ∀ pre mid, pre <+: es →
    run (step (service toLowerCase)) Teams.init pre = some mid →
    ∀ m ∈ mid.store.members, m.userId = user.id → m.teamId = teamId → m.role ≠ .owner

/-- Whoever is never above the other members is never cleared to make owners. -/
theorem not_cleared {toLowerCase : String → String} {es : List (Event Op Bool)} {teamId : ℕ}
    {user : User} (h : NeverAbove toLowerCase es teamId user) (i : ℕ) (op : Op) :
    ¬ Cleared toLowerCase es i op user teamId := by
  rintro (hadmin | ⟨mid, ⟨pre, hes, hmid, -⟩, m, hm, huser, hteam, hrole⟩)
  · exact h.1 hadmin
  · exact h.2 pre mid ((List.prefix_append _ _).trans hes) hmid m hm huser hteam
      (List.mem_singleton.mp hrole)

/-- **Where owners come from.**  However the requests interleave, every `OWNER` founded the team, or
was promoted by, or accepted an invite made an owner's by, a caller who was an `ADMIN` or an `OWNER`
of the same team when that call checked.  In particular, if all requests but the founding of teams
come from users who are never `ADMIN` or `OWNER` of a team, its only owners are its founders. -/
theorem owner_sources (toLowerCase : String → String) (es : List (Event Op Bool)) (st : State)
    (h : run (step (service toLowerCase)) Teams.init es = some st) :
    (∀ m ∈ st.store.members, m.role = .owner → OwnerSource toLowerCase es m) ∧
      ∀ teamId, (∀ op, .invoke op ∈ es →
          (∃ user name, op = .create user name) ∨ NeverAbove toLowerCase es teamId (caller op)) →
        ∀ m ∈ st.store.members, m.teamId = teamId → m.role = .owner → ∃ i user name mid,
          Makes toLowerCase es i (.create user name) (.createWithOwner name user.id) mid ∧
            m.userId = user.id ∧ m.teamId = mid.store.nextId := by
  have ht := Sources.traced_run owners_kept h
  refine ⟨ht.members, ?_⟩
  intro teamId hbelow m hm hteam hrole
  subst hteam
  cases ht.members m hm hrole with
  | founded i user name mid hcall huser hnew => exact ⟨i, user, name, mid, hcall, huser, hnew⟩
  | promoted i user target mid hcall hcleared =>
    rcases hbelow _ hcall.invoked with ⟨_, _, hop⟩ | hnever
    · cases hop
    · exact absurd hcleared (not_cleared hnever _ _)
  | accepted i user invite mid hcall huser hsame hinvited =>
    obtain ⟨j, inviter, email, call, mid', hset, -, hcleared⟩ := hinvited
    rw [hsame] at hset hcleared
    rcases hbelow _ hset.invoked with ⟨_, _, hop⟩ | hnever
    · cases hop
    · exact absurd hcleared (not_cleared hnever _ _)

section Example

/-- Ann founds a team and invites Bob as an owner; Bob accepts. -/
def ownerInvited : List (Event Op Bool) :=
  [.invoke (.create ann "crew"), .answer 0 true,
    .invoke (.inviteMember ann 0 "bob" (some .owner)),
    .answer 1 true, .answer 1 true, .answer 1 true,
    .invoke (.acceptInvite bob 2), .answer 2 true, .answer 2 true, .answer 2 true]

theorem owner_sources_ownerInvited :
    ∃ st, run (step (service id)) Teams.init ownerInvited = some st ∧
    ∃ m ∈ st.store.members, m.userId = 2 ∧ OwnerSource id ownerInvited m := by
  have hrun : ((run (step (service id)) Teams.init ownerInvited).any fun st =>
      st.store.members.any fun m => m.userId = 2 && m.role = .owner) = true := by decide +kernel
  obtain ⟨st, hst, hany⟩ := (Option.any_eq_true _ _).mp hrun
  obtain ⟨m, hm, hboth⟩ := List.any_eq_true.mp hany
  rw [Bool.and_eq_true, decide_eq_true_eq, decide_eq_true_eq] at hboth
  exact ⟨st, hst, m, hm, hboth.1, (owner_sources id ownerInvited st hst).1 m hm hboth.2⟩

end Example

end TelemetryCloud.TeamOwners
