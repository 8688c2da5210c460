import TelemetryCloud.Cars

/-!
# A rename or a delete that is cut short

`update` and `remove` revoke the broker account of a car before they change its row.  With the
database available and nothing else at work on the car, a command may still fail at any point.

* `Truthful` : a row reads as provisioned only while the broker holds the credential it was issued;
* `truthful_iff` : **which calls leave the row truthful**: those in which `removeCar` does not throw
  after the account of a provisioned car is gone.
-/

namespace TelemetryCloud.CarRevocation

open Calls CarAccess Cars TelemetryCloud.Repository
open MqttAdmin (Command Response)
open Teams (User)

variable {B : Broker}

/-- If the broker does not hold the account of the car with the credential `issued`, the row reads as
not provisioned (or is gone). -/
def Truthful (carId : ℕ) (issued : String) (s : Store B) : Prop :=
  ∀ car ∈ s.cars, car.id = carId → B.password s.broker car.deviceId ≠ some issued →
    car.mqttProvisionedAt = none

def Provisioned (carId : ℕ) (s : Store B) : Prop :=
  ∃ car ∈ s.cars, car.id = carId ∧ car.mqttProvisionedAt ≠ none

/-- If `removeCar` throws here and the row reads as provisioned, the account is as it was: its
`deleteClient` was not carried out, and it has not come to its `deleteRole`. -/
def CutSafely (carId : ℕ) (s : Store B) :
    (c : Call) → Except RequestError (Answer c) → Store B → Prop
  | .request (.deleteClient username) _, .error _, s' =>
    Provisioned carId s → B.password s'.broker username = B.password s.broker username
  | .request (.deleteRole _) _, .error _, _ => ¬ Provisioned carId s
  | _, _, _ => True

/-- A call that is no command of `removeCar`. -/
def Spares : Call → Prop
  | .request (.deleteClient _) _ => False
  | .request (.deleteRole _) _ => False
  | _ => True

theorem cutSafely_of_spares {carId : ℕ} {c : Call} (h : Spares c) (s : Store B)
    (r : Except RequestError (Answer c)) (s' : Store B) : CutSafely carId s c r s' := by
  cases c with
  | request command tolerate =>
    cases command with
    | deleteClient _ => exact h.elim
    | deleteRole _ => exact h.elim
    | _ => trivial
  | _ => trivial

/-! ### The parts that revoke nothing -/

/-- A part that does not touch a role or an account for good, and ends as `Q` says. -/
def Ends {α : Type} (p : Handler α) (Q : Store B → Except RequestError α → Prop) (s : Store B) :
    Prop :=
  p.Holds Store.reach (fun _ c => Spares c) Q s

theorem ends_ofTeams {α : Type} (p : Teams.Handler α) (s : Store B) :
    Ends (ofTeams p) (fun s' _ => s' = s) s := by
  induction p with
  | done a => exact rfl
  | fail e => exact rfl
  | await c next ih =>
    refine ⟨trivial, fun around s' r h => ?_⟩
    cases h
    exact ih _

theorem ends_ofAdmin {p : MqttAdmin.Prog}
    (hp : Sends (fun command => ∀ tolerate, Spares (.request command tolerate)) p) (s : Store B) :
    Ends (ofAdmin p) (fun _ _ => True) s := by
  induction p generalizing s with
  | done a => trivial
  | fail e => trivial
  | request command tolerate next ih =>
    refine ⟨hp.1 tolerate, fun around s' r h => ?_⟩
    cases r with
    | error e => trivial
    | ok response => exact ih response (hp.2 response) s'

theorem ends_ensureCar (deviceId : Option String) (secret : String) (s : Store B) :
    Ends (ensureCar deviceId secret) (fun _ _ => True) s := by
  apply ends_ofAdmin
  apply sends_ensureCarThen
  · intro command hrole tolerate
    cases hrole <;> trivial
  · exact fun _ => trivial
  · trivial

/-- The car a handler may write is the row of the table. -/
theorem ends_requireWritableCar (user : User) (carId : ℕ) (s : Store B) :
    Ends (requireWritableCar user carId)
      (fun s' r => s' = s ∧ ∀ car, r = .ok car → car ∈ s.cars ∧ car.id = carId) s := by
  have haccess : Ends (CarAccess.resolveAccess (fun id => query (.findCar id))
      (fun userId teamId => query (.teams (.findMembership userId teamId))) user carId)
      (fun s' r => s' = s ∧ ∀ x, r = .ok x → x.1 ∈ s.cars ∧ x.1.id = carId) s := by
    refine ⟨trivial, fun around s' r h => ?_⟩
    cases h
    cases hfind : findOne s.cars (·.id = carId) with
    | error e => exact ⟨rfl, fun x hx => by cases hx⟩
    | ok car =>
      obtain ⟨hcar, hid⟩ := findOne_eq_ok hfind
      have hread : car ∈ s.cars ∧ car.id = carId := ⟨hcar, of_decide_eq_true hid⟩
      obtain ⟨carId, name, make, model, deviceId, provisionedAt, ownerId, teamId⟩ := car
      cases teamId with
      | none => exact ⟨rfl, fun x hx => by cases hx; exact hread⟩
      | some teamId =>
        refine ⟨trivial, fun around s' r h => ?_⟩
        cases h
        exact ⟨rfl, fun x hx => by cases hx; exact hread⟩
  apply haccess.bind
  · exact fun s' e h => ⟨h.1, fun car hcar => by cases hcar⟩
  · intro s' access h
    obtain ⟨rfl, hread⟩ := h
    have hdone : Ends (.done access.1 : Handler Car)
        (fun t r => t = s' ∧ ∀ car, r = .ok car → car ∈ s'.cars ∧ car.id = carId) s' :=
      ⟨rfl, fun car hcar => by cases hcar; exact hread access rfl⟩
    have hfail : ∀ e, Ends (.fail e : Handler Car)
        (fun t r => t = s' ∧ ∀ car, r = .ok car → car ∈ s'.cars ∧ car.id = carId) s' :=
      fun e => ⟨rfl, fun car hcar => by cases hcar⟩
    show Ends ((CarAccess.assertReadable user access.1 access.2).bind _) _ s'
    unfold CarAccess.assertReadable
    split
    · show Ends (if _ then _ else if _ then _ else _) _ s'
      split
      · exact hdone
      · split
        · exact hdone
        · exact hfail _
    · exact hfail _

theorem ends_requireMovable (user : User) (car : Car) (dto : UpdateCarDto) (s : Store B) :
    Ends (requireMovable user car dto) (fun s' _ => s' = s) s := by
  obtain ⟨p, hp⟩ := requireMovable_ofTeams user car dto
  rw [hp]
  exact ends_ofTeams p s

/-- What an update of the row may end in: the `UPDATE` violates a constraint, or the row is
updated. -/
theorem ends_updateCar {carId : ℕ} {patch : CarPatch}
    {Q : Store B → Except RequestError Car → Prop} {s : Store B}
    (hrejected : patch.name ≠ none ∨ patch.deviceId ≠ none → ∀ e, Q s (.error e))
    (hupdated : ∀ r, Q { s with cars := updateWhere s.cars (·.id = carId) patch.apply } r) :
    Ends (updateCar carId patch) Q s := by
  refine ⟨trivial, fun around s' r h => ?_⟩
  replace h : s.updateCar carId patch = (s', r) := Option.some.inj h
  unfold Store.updateCar at h
  split at h
  · rename_i hnull
    cases h
    apply hrejected
    by_contra hneither
    rw [not_or, not_not, not_not] at hneither
    simp [CarPatch.violatesNotNull, hneither.1, hneither.2] at hnull
  split at h
  · rename_i htaken
    cases h
    apply hrejected
    refine .inr fun hnone => ?_
    rw [hnone, Option.join_none, Option.any_none, Bool.and_false] at htaken
    cases htaken
  · obtain ⟨rfl, rfl⟩ := Prod.mk.injEq .. ▸ h
    cases s.cars.any (·.id = carId) with
    | false => exact hupdated _
    | true =>
      refine ⟨trivial, fun around s' r h => ?_⟩
      obtain ⟨rfl, -⟩ := Prod.mk.injEq .. ▸ Option.some.inj h
      cases r with
      | ok car => exact hupdated _
      | error e => exact hupdated _

/-! ### The row -/

/-- The row of the car after an update of it. -/
theorem mem_updateCar {cars : List Car} {carId : ℕ} {patch : CarPatch} {car : Car}
    (h : car ∈ updateWhere cars (·.id = carId) patch.apply) (hid : car.id = carId) :
    ∃ old ∈ cars, old.id = carId ∧ car = patch.apply old := by
  obtain ⟨old, hold, ⟨hm, hcar⟩ | ⟨hm, rfl⟩⟩ := mem_updateWhere h
  · exact ⟨old, hold, of_decide_eq_true hm, hcar⟩
  · exact absurd hid (of_decide_eq_false hm)

/-- An update that sets `mqttProvisionedAt` to null leaves a row that claims nothing. -/
theorem truthful_cleared {carId : ℕ} {issued : String} {s : Store B} {patch : CarPatch}
    (hpatch : patch.mqttProvisionedAt = some none) :
    Truthful carId issued { s with cars := updateWhere s.cars (·.id = carId) patch.apply } := by
  intro car hcar hid _
  obtain ⟨old, -, -, rfl⟩ := mem_updateCar hcar hid
  show patch.mqttProvisionedAt.getD old.mqttProvisionedAt = none
  rw [hpatch, Option.getD_some]

/-- An update that leaves the `deviceId` as it is, and `mqttProvisionedAt`, leaves the row as
truthful as it was. -/
theorem truthful_patched {carId : ℕ} {issued : String} {s : Store B} {patch : CarPatch}
    (h : Truthful carId issued s) (hpatch : patch.mqttProvisionedAt = none)
    (hdevice : ∀ car ∈ s.cars, car.id = carId →
      patch.deviceId.join.getD car.deviceId = car.deviceId) :
    Truthful carId issued { s with cars := updateWhere s.cars (·.id = carId) patch.apply } := by
  intro car hcar hid hgone
  obtain ⟨old, hold, hid', rfl⟩ := mem_updateCar hcar hid
  show patch.mqttProvisionedAt.getD old.mqttProvisionedAt = none
  rw [hpatch, Option.getD_none]
  apply h old hold hid'
  rw [← hdevice old hold hid']
  exact hgone

/-- From where the old account is gone, a rename leaves the row unprovisioned, however it ends. -/
theorem ends_renameCar (carId : ℕ) (dto : UpdateCarDto) (deviceId : Option String)
    (secret issued : String) (s : Store B) :
    Ends (renameCar carId dto deviceId secret) (fun s' _ => Truthful carId issued s') s := by
  apply Prog.Holds.catchError
    (P := fun s' r => ∀ car, r = .ok car → Truthful carId issued s') (fun s' car h => h car rfl)
  · intro s' e _
    have hmark : Ends (markUnprovisioned carId) (fun s' _ => Truthful carId issued s') s' := by
      have hupdate : Ends (updateCar carId (.provisionedAt none))
          (fun s' _ => Truthful carId issued s') s' :=
        ends_updateCar (fun h => h.elim (absurd rfl) (absurd rfl)) fun _ => truthful_cleared rfl
      show Ends (((updateCar carId (.provisionedAt none)).bind fun _ => .done ()).catchError
        fun _ => .done ()) _ s'
      apply Prog.Holds.catchError (P := fun s' _ => Truthful carId issued s')
      · exact fun _ _ h => h
      · exact fun _ _ h => h
      · apply hupdate.bind
        · exact fun _ _ h => h
        · exact fun _ _ h => h
    apply hmark.bind
    · exact fun _ _ h => h
    · exact fun _ _ h => h
  · apply (ends_ensureCar deviceId secret s).bind
    · exact fun _ _ _ car h => by cases h
    · intro s' _ _
      exact ends_updateCar (fun _ e car h => by cases h) fun _ _ _ => truthful_cleared rfl

/-! ### The part that revokes -/

section Revoke

variable {carId : ℕ} {issued : String} {s s' : Store B} {car : Car}

theorem reach_request {command : Command} {tolerate : List String} {around : Surroundings B}
    {r : Except RequestError (Option Response)}
    (h : s.reach (.request command tolerate) around = some (s', r)) :
    s'.cars = s.cars ∧ s'.broker = (B.respond s.broker command around.broker).1 ∧
      ((∃ response, r = .ok response) →
        ∀ message, (B.respond s.broker command around.broker).2 = .error message →
          MqttAdmin.tolerated tolerate message = true) := by
  replace h : s.request command tolerate around.broker = (s', r) := Option.some.inj h
  unfold Store.request at h
  obtain ⟨rfl, rfl⟩ := Prod.mk.injEq .. ▸ h
  refine ⟨rfl, rfl, fun hok message hmessage => ?_⟩
  obtain ⟨response, hok⟩ := hok
  rw [hmessage] at hok
  by_contra hno
  simp only [hno] at hok
  cases hok

/-- A provisioned row whose account is not the issued one any more is not truthful. -/
theorem not_truthful (hcar : car ∈ s.cars) (hid : car.id = carId)
    (hprovisioned : car.mqttProvisionedAt ≠ none)
    (hgone : B.password s.broker car.deviceId ≠ some issued) : ¬ Truthful carId issued s :=
  fun h => hprovisioned (h car hcar hid hgone)

/-- The row is the only one of the car. -/
theorem provisioned_iff (hids : (s.cars.map (·.id)).Nodup) (hcar : car ∈ s.cars)
    (hid : car.id = carId) : Provisioned carId s ↔ car.mqttProvisionedAt ≠ none := by
  constructor
  · intro h
    obtain ⟨other, hother, hid', hprovisioned⟩ := h
    rwa [List.inj_on_of_nodup_map hids hcar hother (hid.trans hid'.symm)]
  · exact fun h => ⟨car, hcar, hid, h⟩

/-- The row is truthful if it claims nothing, or its account is there as it was. -/
theorem truthful_of (hids : (s.cars.map (·.id)).Nodup) (hcar : car ∈ s.cars) (hid : car.id = carId)
    (h : car.mqttProvisionedAt ≠ none → B.password s.broker car.deviceId = some issued) :
    Truthful carId issued s := by
  intro other hother hid' hgone
  obtain rfl := List.inj_on_of_nodup_map hids hcar hother (hid.trans hid'.symm)
  by_contra hne
  exact hgone (h hne)

/-- **`removeCar` throws with the row truthful exactly if it is cut safely.** -/
theorem removeCar_exact (hB : B.Lawful) (hids : (s.cars.map (·.id)).Nodup) (hcar : car ∈ s.cars)
    (hid : car.id = carId) (htruthful : Truthful carId issued s) :
    (removeCar car.deviceId).Exact Store.reach (CutSafely carId)
      (fun s' r => ∀ e, r = .error e → Truthful carId issued s') s := by
  -- what the broker holds while the row claims a credential
  have hheld : car.mqttProvisionedAt ≠ none → B.password s.broker car.deviceId = some issued := by
    intro hne
    by_contra hgone
    exact not_truthful hcar hid hne hgone htruthful
  intro around s₁ r h
  obtain ⟨hcars, hbroker, hok⟩ := reach_request h
  have hids₁ : (s₁.cars.map (·.id)).Nodup := hcars ▸ hids
  have hcar₁ : car ∈ s₁.cars := hcars ▸ hcar
  cases r with
  | error e =>
    by_cases hcut : CutSafely carId s (.request (.deleteClient car.deviceId) MqttAdmin.NOT_PRESENT)
        (.error e) s₁
    · refine .inl ⟨hcut, fun e' _ => truthful_of hids₁ hcar₁ hid fun hne => ?_⟩
      rw [← hheld hne]
      exact hcut ⟨car, hcar, hid, hne⟩
    · refine .inr ⟨hcut, e, rfl, fun htruthful₁ => hcut fun hprovisioned => ?_⟩
      have hne := (provisioned_iff hids hcar hid).mp hprovisioned
      rw [hheld hne]
      by_contra hgone
      exact not_truthful hcar₁ hid hne hgone (htruthful₁ e rfl)
  | ok response =>
    -- the account is gone
    have hgone : B.password s₁.broker car.deviceId = none := by
      rw [hbroker]
      exact hB.deleted s.broker car.deviceId around.broker _ _ rfl (hok ⟨response, rfl⟩)
    refine .inl ⟨trivial, ?_⟩
    intro around s₂ r h
    obtain ⟨hcars₂, hbroker₂, -⟩ := reach_request h
    have hcar₂ : car ∈ s₂.cars := hcars₂ ▸ hcar₁
    have hids₂ : (s₂.cars.map (·.id)).Nodup := hcars₂ ▸ hids₁
    have hgone₂ : B.password s₂.broker car.deviceId = none := by
      rw [hbroker₂, hB.frame _ _ _ _ (by rintro ⟨⟩)]
      exact hgone
    cases r with
    | error e =>
      by_cases hne : car.mqttProvisionedAt = none
      · refine .inl ⟨fun hprovisioned => (provisioned_iff hids₁ hcar₁ hid).mp hprovisioned hne, ?_⟩
        exact fun e' _ => truthful_of hids₂ hcar₂ hid fun h => absurd hne h
      · refine .inr ⟨fun hcut => hcut ⟨car, hcar₁, hid, hne⟩, e, rfl, fun htruthful₂ => ?_⟩
        apply not_truthful hcar₂ hid hne ?_ (htruthful₂ e rfl)
        rw [hgone₂]
        rintro ⟨⟩
    | ok response => exact .inl ⟨trivial, fun e he => by cases he⟩

/-- A part that revokes nothing is exact as it is. -/
theorem Ends.exact {α : Type} {p : Handler α} {Q : Store B → Except RequestError α → Prop}
    {s : Store B} (h : Ends p Q s) (carId : ℕ) : p.Exact Store.reach (CutSafely carId) Q s :=
  Prog.Exact.of_holds (C := fun _ c => Spares c)
    (fun s _ hc r s' => cutSafely_of_spares hc s r s') h

/-- What an operation on the car does before it revokes is to read; if it throws by then, nothing has
changed. -/
theorem exact_from_read {α : Type} (htruthful : Truthful carId issued s) {user : User}
    {rest : Car → Handler α}
    (hrest : ∀ car ∈ s.cars, car.id = carId → (rest car).Exact Store.reach (CutSafely carId)
      (fun s' _ => Truthful carId issued s') s) :
    ((requireWritableCar user carId).bind rest).Exact Store.reach (CutSafely carId)
      (fun s' _ => Truthful carId issued s') s := by
  have hread : Ends (requireWritableCar user carId) (fun s' r => Truthful carId issued s' ∧
      ∀ car, r = .ok car → s' = s ∧ car ∈ s.cars ∧ car.id = carId) s := by
    apply (ends_requireWritableCar user carId s).mono
    intro s' r h
    obtain ⟨rfl, hcar⟩ := h
    exact ⟨htruthful, fun car hr => ⟨rfl, hcar car hr⟩⟩
  apply (hread.exact carId).bind
  · intro s' e
    exact ⟨fun h => h.1, fun h => ⟨h, fun car hcar => by cases hcar⟩⟩
  · intro s' car h
    obtain ⟨rfl, hcar, hid⟩ := h.2 car rfl
    exact hrest car hcar hid

/-- Once `removeCar` has gone through, what follows must leave the row truthful by itself. -/
theorem exact_from_removeCar {α : Type} (hB : B.Lawful) (hids : (s.cars.map (·.id)).Nodup)
    (hcar : car ∈ s.cars) (hid : car.id = carId) (htruthful : Truthful carId issued s)
    {rest : Handler α} (hrest : ∀ t : Store B, Ends rest (fun s' _ => Truthful carId issued s') t) :
    ((removeCar car.deviceId).bind fun _ => rest).Exact Store.reach (CutSafely carId)
      (fun s' _ => Truthful carId issued s') s := by
  apply (removeCar_exact hB hids hcar hid htruthful).bind
  · exact fun s' e => ⟨fun h => h e rfl, fun h _ _ => h⟩
  · exact fun s' _ _ => (hrest s').exact carId

end Revoke

/-- The operations that revoke an account. -/
inductive Revokes (carId : ℕ) : Op → Prop
  | update (user : User) (dto : UpdateCarDto) (secret : String) :
      Revokes carId (.update user carId dto secret)
  | remove (user : User) : Revokes carId (.remove user carId)

theorem update_exact (hB : B.Lawful) {carId : ℕ} {issued : String} {s : Store B} (user : User)
    (dto : UpdateCarDto) (secret : String) (hids : (s.cars.map (·.id)).Nodup)
    (htruthful : Truthful carId issued s) :
    (update user carId dto secret).Exact Store.reach (CutSafely carId)
      (fun s' _ => Truthful carId issued s') s := by
  apply exact_from_read htruthful
  intro car hcar hid
  -- an update that is no rename
  have hpatch : (∀ d, dto.deviceId = some d → d = some car.deviceId) →
      Ends (updateCar carId { dto with mqttProvisionedAt := none })
        (fun s' _ => Truthful carId issued s') s := by
    intro hsame
    apply ends_updateCar (fun _ _ => htruthful)
    intro r
    apply truthful_patched htruthful rfl
    intro other hother hid'
    obtain rfl := List.inj_on_of_nodup_map hids hcar hother (hid.trans hid'.symm)
    show dto.deviceId.join.getD car.deviceId = car.deviceId
    cases hdevice : dto.deviceId with
    | none => rfl
    | some d =>
      rw [hsame d hdevice]
      rfl
  have hmovable : Ends (requireMovable user car dto) (fun s' r => Truthful carId issued s' ∧
      ∀ membership, r = .ok membership → s' = s) s :=
    (ends_requireMovable user car dto s).mono fun s' _ h => ⟨h ▸ htruthful, fun _ _ => h⟩
  apply (hmovable.exact carId).bind
  · intro s' e
    exact ⟨fun h => h.1, fun h => ⟨h, fun membership hm => by cases hm⟩⟩
  · intro s' membership h
    obtain rfl := h.2 membership rfl
    split
    · rename_i hdevice
      exact (hpatch fun d hd => by rw [hdevice] at hd; cases hd).exact carId
    · rename_i deviceId hdevice
      split
      · rename_i hsame
        exact (hpatch fun d hd => by rw [hdevice] at hd; cases hd; exact hsame).exact carId
      · exact exact_from_removeCar hB hids hcar hid htruthful fun s' =>
          ends_renameCar carId dto deviceId secret issued s'

theorem remove_exact (hB : B.Lawful) {carId : ℕ} {issued : String} {s : Store B} (user : User)
    (hids : (s.cars.map (·.id)).Nodup) (htruthful : Truthful carId issued s) :
    (remove user carId).Exact Store.reach (CutSafely carId)
      (fun s' _ => Truthful carId issued s') s := by
  apply exact_from_read htruthful
  intro car hcar hid
  apply exact_from_removeCar hB hids hcar hid htruthful
  intro s'
  refine ⟨trivial, fun around s₁ r h => ?_⟩
  obtain ⟨rfl, rfl⟩ := Prod.mk.injEq .. ▸ Option.some.inj h
  -- no row of the car is left
  have hgone : Truthful carId issued { s' with cars := deleteWhere s'.cars (·.id = carId) } := by
    intro other hother hid'
    have hkept := (List.mem_filter.mp hother).2
    simp [hid'] at hkept
  show Ends (if _ then _ else _) _ _
  split
  · exact hgone
  · exact hgone

/-- **When a rename or a delete leaves the row truthful.**  Of a car whose row is truthful, alone and
with the database available: an `update` or a `remove`, however its commands turn out, leaves the row
truthful exactly if it is not cut where the account of a provisioned row is gone. -/
theorem truthful_iff (hB : B.Lawful) {carId : ℕ} {issued : String} {s s' : Store B} {op : Op}
    (hop : Revokes carId op) (hids : (s.cars.map (·.id)).Nodup)
    (htruthful : Truthful carId issued s) {around : List (Surroundings B)}
    {r : Except RequestError Outcome}
    (h : op.handler.alone Store.reach s around = some (s', r)) :
    Truthful carId issued s' ↔ op.handler.Along Store.reach (CutSafely carId) s around := by
  have hexact : op.handler.Exact Store.reach (CutSafely carId)
      (fun s' _ => Truthful carId issued s') s := by
    cases hop with
    | update user dto secret =>
      apply (update_exact hB user dto secret hids htruthful).bind
      · exact fun _ _ => Iff.rfl
      · exact fun _ _ h => h
    | remove user =>
      apply (remove_exact hB user hids htruthful).bind
      · exact fun _ _ => Iff.rfl
      · exact fun _ _ h => h
  exact hexact.iff h

section Example

theorem exampleStore_ids : (exampleStore.cars.map (·.id)).Nodup := List.nodup_singleton 1

theorem exampleStore_truthful : Truthful 1 "issued" exampleStore := by
  intro car hcar _ hgone
  obtain rfl := List.mem_singleton.mp hcar
  exact absurd rfl hgone

/-- The new account of a rename cannot be made, and the row says so: the rename was cut safely. -/
theorem truthful_iff_rename :
    let op : Op := .update exampleOwner 1 ⟨none, none, none, some (some "NEW456"), none⟩ "secret"
    let around := [answered, answered, answered, lost, answered, answered]
    ∃ s' r, op.handler.alone Store.reach exampleStore around = some (s', r) ∧
      s'.cars.map (·.mqttProvisionedAt) = [none] ∧
      op.handler.Along Store.reach (CutSafely 1) exampleStore around := by
  refine ⟨_, _, rfl, rfl, (truthful_iff exampleBroker_lawful (.update exampleOwner _ _) exampleStore_ids
    exampleStore_truthful rfl).mp ?_⟩
  intro car hcar _ _
  rw [List.mem_singleton.mp hcar]
  rfl

/-- **A delete cut between the account and its role**: one command is lost, and the car reads as
provisioned with no account. -/
theorem roleNotDeleted_untruthful : ¬ ∀ (carId : ℕ) (issued : String) (s s' : Store exampleBroker)
    (op : Op) (around : List (Surroundings exampleBroker)) (r : Except RequestError Outcome),
    Revokes carId op → (s.cars.map (·.id)).Nodup → Truthful carId issued s →
    around.countP (fun a => a.broker ≠ (true, true)) ≤ 1 →
    op.handler.alone Store.reach s around = some (s', r) → Truthful carId issued s' := by
  intro h
  have htruthful := h 1 "issued" exampleStore _ (.remove exampleOwner 1) [answered, answered, lost] _
    (.remove exampleOwner) exampleStore_ids exampleStore_truthful (by decide) rfl
  exact absurd (htruthful exampleCar List.mem_cons_self rfl (by decide)) (by decide)

end Example

end TelemetryCloud.CarRevocation
