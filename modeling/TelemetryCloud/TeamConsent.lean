import TelemetryCloud.TeamProtocol

/-!
# Nobody is in a team they did not join

An invite is a row of its own, and only `acceptInvite` turns it into a membership.  Every membership
there is goes back, over whole runs, to the member: they founded the team, or accepted an invite that
bears their address and that a caller who managed the team had sent before.

* `Addressed`, `Joined` : where an invite and a membership come from;
* `consents_kept` : one call adds no other;
* `members_consented` : **nobody is in a team they did not join**, in every interleaving.
-/

namespace TelemetryCloud.TeamConsent

open Calls Runs TelemetryCloud.Repository Teams TeamProtocol

section Sources

variable (toLowerCase : String → String)

/-- The caller of handler `i` managed the team when the handler read the membership, or is an
`ADMIN`. -/
def Managing (es : List (Event Op Bool)) (i : ℕ) (op : Op) (user : User) (teamId : ℕ) : Prop :=
  Standing toLowerCase es MANAGING_TEAM_ROLES i op user teamId

/-- An `inviteMember` of a caller who managed the team wrote the invite, to the address it bears. -/
def Addressed (es : List (Event Op Bool)) (invite : TeamInvite) : Prop :=
  ∃ i user email role mid,
    Makes toLowerCase es i (.inviteMember user invite.teamId email role)
      (.createInvite invite.teamId invite.email (role.getD .driver)) mid ∧
    invite.id = mid.store.nextId ∧ invite.email = toLowerCase email ∧
    Managing toLowerCase es i (.inviteMember user invite.teamId email role) user invite.teamId

/-- How a member has joined. -/
inductive Joined (es : List (Event Op Bool)) (m : TeamMember) : Prop
  /-- The member founded the team. -/
  | founded (i : ℕ) (user : User) (name : String) (mid : State)
      (hcall : Makes toLowerCase es i (.create user name) (.createWithOwner name user.id) mid)
      (huser : m.userId = user.id) (hteam : m.teamId = mid.store.nextId)
  /-- The member accepted an invite that bore their address and had been sent before. -/
  | accepted (i : ℕ) (user : User) (invite : TeamInvite) (role : TeamRole) (mid : State)
      (pre : List (Event Op Bool)) (hpre : pre ++ [.answer i true] <+: es)
      (hrun : run (step (service toLowerCase)) Teams.init pre = some mid)
      (hcall : mid.pending i =
        some (.acceptInvite user invite.id, .createMember m.teamId m.userId role))
      (huser : m.userId = user.id) (hteam : invite.teamId = m.teamId)
      (hemail : invite.email = toLowerCase user.email)
      (hinvited : Addressed toLowerCase pre invite)

end Sources

section Mono

variable {toLowerCase : String → String} {es es' : List (Event Op Bool)} (hpre : es <+: es')
include hpre

theorem Addressed.mono {invite : TeamInvite} (h : Addressed toLowerCase es invite) :
    Addressed toLowerCase es' invite := by
  obtain ⟨i, user, email, role, mid, hmakes, hid, hemail, hmanaging⟩ := h
  exact ⟨i, user, email, role, mid, hmakes.mono hpre, hid, hemail, Standing.mono hpre hmanaging⟩

theorem Joined.mono {m : TeamMember} (h : Joined toLowerCase es m) : Joined toLowerCase es' m := by
  cases h with
  | founded i user name mid hcall huser hteam =>
    exact .founded i user name mid (hcall.mono hpre) huser hteam
  | accepted i user invite role mid pre hes hrun hcall huser hteam hemail hinvited =>
    exact .accepted i user invite role mid pre (hes.trans hpre) hrun hcall huser hteam hemail hinvited

end Mono

/-! ### One call -/

section Call

variable {toLowerCase : String → String} {es : List (Event Op Bool)} {st : State} {i : ℕ} {op : Op}
  {call : Call} {seen : List Entry}

variable (toLowerCase) in
/-- Where the members and the invites come from. -/
def sources : Sources := ⟨Joined toLowerCase, Addressed toLowerCase⟩

/-- **A call adds only members who have joined.** -/
theorem member_joined (ht : (sources toLowerCase).Traced toLowerCase es st)
    (hp : (sources toLowerCase).Pending toLowerCase es st i op call seen) {m : TeamMember}
    (hm : m ∈ (st.store.execute call).1.members) :
    Joined toLowerCase (es ++ [.answer i true]) m := by
  have hpre : es <+: es ++ [.answer i true] := List.prefix_append _ _
  have hallowed := hp.allowed
  have hpending := hp.pending
  cases wrote_execute hm with
  | kept _ h => exact (ht.members m h).mono hpre
  | founded name ownerId h =>
    obtain ⟨user, hop, howner⟩ := hallowed
    have hop' : op = .create user name := hop
    have hmakes := hp.makes
    rw [hop', howner] at hmakes
    subst h
    exact .founded i user name st hmakes howner rfl
  | created teamId userId role h =>
    subst h
    obtain ⟨user, inviteId, invite, hop, huser, hteam, -, hemail, hread⟩ := hallowed
    obtain ⟨hid, haddressed⟩ := hp.seen _ _ hread invite rfl
    have hop' : op = .acceptInvite user inviteId := hop
    rw [hop', ← hid] at hpending
    exact .accepted i user invite role st es List.prefix_rfl hp.run hpending huser hteam.symm hemail
      haddressed
  | updated id role old hold hid h =>
    -- a new role makes no other member
    subst h
    cases (ht.members old hold).mono hpre with
    | founded i user name mid hcall huser hteam => exact .founded i user name mid hcall huser hteam
    | accepted i user invite role mid pre hes hrun hcall huser hteam hemail hinvited =>
      exact .accepted i user invite role mid pre hes hrun hcall huser hteam hemail hinvited

/-- **A call adds only invites that a manager sends.** -/
theorem invite_addressed (ht : (sources toLowerCase).Traced toLowerCase es st)
    (hp : (sources toLowerCase).Pending toLowerCase es st i op call seen) {invite : TeamInvite}
    (hinvite : invite ∈ (st.store.execute call).1.invites) :
    Addressed toLowerCase (es ++ [.answer i true]) invite := by
  have hpre : es <+: es ++ [.answer i true] := List.prefix_append _ _
  have hallowed := hp.allowed
  have hmakes := hp.makes
  cases wroteInvite_execute hinvite with
  | kept _ h => exact (ht.invites invite h).mono hpre
  | created teamId email role h =>
    subst h
    obtain ⟨user, address, hemail, hgives⟩ := hallowed
    obtain ⟨asked, hop, hrole⟩ := hgives.asked
    have hop' : op = .inviteMember user teamId address asked := hop
    have hmanaging := hp.standing hgives.manager
    rw [hop'] at hmanaging
    rw [hop', hrole] at hmakes
    exact ⟨i, user, address, asked, st, hmakes, rfl, hemail, hmanaging⟩
  | updated id role old hold hid h =>
    subst h
    exact (ht.invites old hold).mono hpre

/-- **One call adds no member, and no invite, without a source.** -/
theorem consents_kept : (sources toLowerCase).Kept toLowerCase where
  member_mono hpre h := h.mono hpre
  invite_mono hpre h := h.mono hpre
  member ht hp hm := member_joined ht hp hm
  invite ht hp hinvite := invite_addressed ht hp hinvite

end Call

/-! ### Members -/

/-- The request joins a team: it founds one, or accepts an invite. -/
def joins : Op → Bool
  | .create _ _ | .acceptInvite _ _ => true
  | _ => false

/-- **Nobody is in a team they did not join.**  However the requests interleave and whichever calls
fail, every member of a team founded it, or accepted an invite to that team that bears their address
and that a caller who then managed the team, or an `ADMIN`, had sent.  In particular, a user none of
whose requests founds a team or accepts an invite is in no team. -/
theorem members_consented (toLowerCase : String → String) (es : List (Event Op Bool)) (st : State)
    (h : run (step (service toLowerCase)) Teams.init es = some st) :
    (∀ m ∈ st.store.members, Joined toLowerCase es m) ∧
      ∀ userId, (∀ op, .invoke op ∈ es → joins op = true → (caller op).id ≠ userId) →
        ∀ m ∈ st.store.members, m.userId ≠ userId := by
  have hmembers := (Sources.traced_run consents_kept h).members
  refine ⟨hmembers, fun userId hnever m hm huser => ?_⟩
  cases hmembers m hm with
  | founded i user name mid hcall hm' =>
    exact hnever _ hcall.invoked rfl (hm'.symm.trans huser)
  | accepted i user invite role mid pre hes hrun hcall hm' =>
    have hmakes : Makes toLowerCase es i (.acceptInvite user invite.id)
        (.createMember m.teamId m.userId role) mid := ⟨pre, hes, hrun, hcall⟩
    exact hnever _ hmakes.invoked rfl (hm'.symm.trans huser)

section Example

/-- Ann founds a team and invites Bob; Bob accepts. -/
def driverInvited : List (Event Op Bool) :=
  [.invoke (.create ann "crew"), .answer 0 true, .invoke (.inviteMember ann 0 "bob" none),
    .answer 1 true, .answer 1 true, .answer 1 true,
    .invoke (.acceptInvite bob 2), .answer 2 true, .answer 2 true, .answer 2 true]

theorem members_consented_driverInvited :
    ∃ st, run (step (service id)) Teams.init driverInvited = some st ∧
      (∃ m ∈ st.store.members, m.userId = 2 ∧ Joined id driverInvited m) ∧
      ∀ m ∈ st.store.members, m.userId ≠ 3 := by
  have hrun : ((run (step (service id)) Teams.init driverInvited).any fun st =>
      st.store.members.any (·.userId = 2)) = true := by decide +kernel
  obtain ⟨st, hst, hany⟩ := (Option.any_eq_true _ _).mp hrun
  obtain ⟨m, hm, huser⟩ := List.any_eq_true.mp hany
  obtain ⟨hjoined, hnever⟩ := members_consented id driverInvited st hst
  refine ⟨st, hst, ⟨m, hm, of_decide_eq_true huser, hjoined m hm⟩, hnever 3 fun op hop _ => ?_⟩
  simp only [driverInvited, List.mem_cons, Event.invoke.injEq, reduceCtorEq, List.not_mem_nil,
    or_false, false_or] at hop
  rcases hop with rfl | rfl | rfl <;> decide

end Example

end TelemetryCloud.TeamConsent
