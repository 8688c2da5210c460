import TelemetryCloud.CarAccess
import TelemetryCloud.IngestSystem

/-!
# Closing a session, from two processes

A row of `sessions` is closed over REST by `SessionsService.close` and on behalf of the device by
`IngestSessionsService.closeSession`; `openSession` makes rows and finds them again.  Every database
call is one atomic step, and any number of these operations interleave.

* `close`, `closeSession`, `openSession` : the handlers;
* `closed_once` : **in which runs a session is closed once**: those in which the unconditional
  `UPDATE` of a REST close meets a row that is still live;
* `close_reported_twice` : a REST close that lost the race to a stop closes the session again.
-/

namespace TelemetryCloud.SessionClosing

open Calls CarAccess IngestService IngestSystem Runs Teams TelemetryCloud.Repository

/-! ### The table and its calls -/

structure Db where
  sessions : List SessionRef
  nextId : ℕ

inductive Call
  | findById (id : ℕ)
  | closeById (id : ℕ)
  | findCar (id : ℕ)
  | findMembership (userId teamId : ℕ)
  | findBySid (sid : String)
  | insert (car : CarRef) (sid : String) (monoMs : Option ℕ) (track : Option String)
  | closeLive (carId : ℕ) (sid : String)

@[reducible] def Answer : Call → Type
  | .findById _ => SessionRef
  | .closeById _ => Bool
  | .findCar _ => Car
  | .findMembership .. => Option TeamMember
  | .findBySid _ => Option SessionRef
  | .insert .. => SessionRef
  | .closeLive .. => Bool

/-- What a call finds around the table: the time on the clock of its process, and the row of `cars`
and of `team_members` it asks for. -/
structure Surroundings where
  now : ℤ
  car : Option Car
  membership : Option TeamMember

/-- What both ways of closing write. -/
def closedAt (now : ℤ) (row : SessionRef) : SessionRef :=
  { row with status := .completed, endedAt := some now }

namespace Db

variable (db : Db)

/-- An `UPDATE`, with whether it affected a row. -/
def update (matching : SessionRef → Bool) (now : ℤ) : Db × Except RequestError Bool :=
  ({ db with sessions := updateWhere db.sessions matching (closedAt now) },
    .ok (db.sessions.any matching))

/-- `save`, with the unique index on `deviceSessionId`. -/
def insert (now : ℤ) (car : CarRef) (sid : String) (monoMs : Option ℕ) (track : Option String) :
    Db × Except RequestError SessionRef :=
  match findByDeviceSessionId db.sessions sid with
  | some _ => (db, .error .uniqueViolation)
  | none =>
    let row := createSession db.nextId now car sid monoMs track
    (⟨db.sessions ++ [row], db.nextId + 1⟩, .ok row)

/-- A call that reaches the database. -/
def execute (around : Surroundings) : (c : Call) → Db × Except RequestError (Answer c)
  | .findById id => (db, findOne db.sessions (·.id = id))
  | .closeById id => db.update (·.id = id) around.now
  | .findCar _ => (db, match around.car with
    | some car => .ok car
    | none => .error (.notFound "Entity not found"))
  | .findMembership .. => (db, .ok around.membership)
  | .findBySid sid => (db, .ok (findByDeviceSessionId db.sessions sid))
  | .insert car sid monoMs track => db.insert around.now car sid monoMs track
  | .closeLive carId sid => db.update (State.closes carId sid) around.now

/-- A call as the environment lets it be; `none` is a call that fails. -/
def exec (c : Call) (around : Option Surroundings) : Option (Db × Except RequestError (Answer c)) :=
  some (match around with
    | some around => db.execute around c
    | none => (db, .error .failed))

end Db

/-! ### Handlers -/

abbrev Handler (α : Type) := Prog Call Answer RequestError α

def query (c : Call) : Handler (Answer c) := Prog.call c

/-- What `requireSession` throws when the car refuses. -/
def asSessionError : RequestError → RequestError
  | .notFound _ => .notFound "Session not found"
  | .forbidden _ => .forbidden "Insufficient permissions for this session"
  | error => error

/-- `SessionsService.requireWritableSession`. -/
def requireWritableSession (user : User) (sessionId : ℕ) : Handler SessionRef := do
  let session ← query (.findById sessionId)
  if user.role = .admin ∨ session.driverId = user.id then return session
  else
    let _ ← (requireWritableCar (fun id => query (.findCar id))
      (fun userId teamId => query (.findMembership userId teamId)) user session.carId).catchError
        fun error => .fail (asSessionError error)
    return session

/-- `SessionsService.close`. -/
def close (user : User) (sessionId : ℕ) : Handler SessionRef := do
  let session ← requireWritableSession user sessionId
  if session.status ≠ .live then .fail (.conflict "Session is not live")
  else
    let affected ← query (.closeById sessionId)
    if affected = true then query (.findById sessionId) else .fail (.notFound "Entity not found")

/-- `IngestSessionsService.openSession`. -/
def openSession (car : CarRef) (sid : String) (monoMs : Option ℕ) (track : Option String) :
    Handler (Option SessionRef) := do
  let existing ← query (.findBySid sid)
  match existing with
  | some existing => return ownSession car existing
  | none =>
    (some <$> query (.insert car sid monoMs track)).catchError fun error =>
      if error = .uniqueViolation then do
        let raced ← query (.findBySid sid)
        return raced.bind (ownSession car)
      else .fail error

/-- `IngestSessionsService.closeSession`. -/
def closeSession (carId : ℕ) (sid : String) : Handler (Option SessionRef) := do
  let affected ← query (.closeLive carId sid)
  if affected = true then query (.findBySid sid) else return none

inductive Op
  | close (user : User) (sessionId : ℕ)
  | stop (carId : ℕ) (sid : String)
  | start (car : CarRef) (sid : String) (monoMs : Option ℕ) (track : Option String)

/-- What an operation reports: a closing that took place and its session, or anything else. -/
inductive Outcome
  | closed (session : SessionRef)
  | notClosed
  | opened (session : Option SessionRef)

def Op.handler : Op → Handler Outcome
  | .close user sessionId => Outcome.closed <$> SessionClosing.close user sessionId
  | .stop carId sid => do
    let session ← closeSession carId sid
    match session with
    | some session => return .closed session
    | none => return .notClosed
  | .start car sid monoMs track => Outcome.opened <$> openSession car sid monoMs track

/-! ### What a handler has done -/

/-- How a call names a session. -/
inductive Key
  | byId (id : ℕ)
  | bySid (sid : String)

def Key.names : Key → SessionRef → Prop
  | .byId id, row => row.id = id
  | .bySid sid, row => row.deviceSessionId = some sid

/-- The session a handler's `UPDATE` has closed, and the last one it has read. -/
structure Progress where
  wrote : Option Key
  read : Option (Key × SessionRef)

def note (k : Progress) : (c : Call) → Except RequestError (Answer c) → Progress
  | .closeById id, .ok true => { k with wrote := some (.byId id) }
  | .closeLive _ sid, .ok true => { k with wrote := some (.bySid sid) }
  | .findById id, .ok row => { k with read := some (.byId id, row) }
  | .findBySid sid, .ok (some row) => { k with read := some (.bySid sid, row) }
  | _, _ => k

def service : Service Db Op Progress (Option Surroundings) Call Answer RequestError Outcome where
  exec := Db.exec
  handler := Op.handler
  enter _ := ⟨none, none⟩
  note := note

/-- A handler that reports a session as closed has closed it, and read it back since. -/
def Reports (k : Progress) (r : Except RequestError Outcome) : Prop :=
  ∀ row, r = .ok (.closed row) → ∃ key, k.wrote = some key ∧ k.read = some (key, row)

theorem reports_handler (op : Op) :
    op.handler.Follows note (fun _ _ => True) Reports ⟨none, none⟩ := by
  have hany : ∀ {α : Type} (p : Handler α) (k : Progress),
      p.Follows note (fun _ _ => True) (fun _ _ => True) k :=
    fun p k => Prog.follows_any (fun _ _ => trivial) (fun _ _ => trivial) p k
  cases op with
  | close user sessionId =>
    have hclose : (close user sessionId).Follows note (fun _ _ => True)
        (fun k r => ∀ row, r = .ok row → ∃ key, k.wrote = some key ∧ k.read = some (key, row))
        ⟨none, none⟩ := by
      apply (hany (requireWritableSession user sessionId) ⟨none, none⟩).bind
      · exact fun k e _ row h => by cases h
      · intro k session _
        split
        · exact fun row h => by cases h
        · refine ⟨trivial, fun r => ?_⟩
          cases r with
          | error e => exact fun row h => by cases h
          | ok affected =>
            cases affected with
            | false => exact fun row h => by cases h
            | true =>
              refine ⟨trivial, fun r => ?_⟩
              cases r with
              | error e => exact fun row h => by cases h
              | ok session =>
                intro row h
                cases h
                exact ⟨.byId sessionId, rfl, rfl⟩
    apply hclose.bind
    · exact fun k e _ row h => by cases h
    · intro k session h row hrow
      cases hrow
      exact h session rfl
  | stop carId sid =>
    refine ⟨trivial, fun r => ?_⟩
    cases r with
    | error e => exact fun row h => by cases h
    | ok affected =>
      cases affected with
      | false => exact fun row h => by cases h
      | true =>
        refine ⟨trivial, fun r => ?_⟩
        cases r with
        | error e => exact fun row h => by cases h
        | ok session =>
          cases session with
          | none => exact fun row h => by cases h
          | some session =>
            intro row h
            cases h
            exact ⟨.bySid sid, rfl, rfl⟩
  | start car sid monoMs track =>
    apply (hany (openSession car sid monoMs track) ⟨none, none⟩).bind
    · exact fun k e _ row h => by cases h
    · exact fun k session _ row h => by cases h

/-! ### What one call does -/

/-- The rows of a table have ids and `sid`s of their own, and an end is what closing gives them. -/
structure Consistent (db : Db) : Prop where
  ids : (db.sessions.map (·.id)).Nodup
  fresh : ∀ row ∈ db.sessions, row.id < db.nextId
  sids : ∀ a ∈ db.sessions, ∀ b ∈ db.sessions, ∀ sid, a.deviceSessionId = some sid →
    b.deviceSessionId = some sid → a = b
  unended : ∀ row ∈ db.sessions, row.status = .live → row.endedAt = none

/-- A key names at most one row. -/
theorem Consistent.names_unique {db : Db} (h : Consistent db) {key : Key} {a b : SessionRef}
    (ha : a ∈ db.sessions) (hb : b ∈ db.sessions) (hna : key.names a) (hnb : key.names b) :
    a = b := by
  cases key with
  | byId id => exact List.inj_on_of_nodup_map h.ids ha hb (hna.trans hnb.symm)
  | bySid sid => exact h.sids a ha b hb sid hna hnb

/-- The row is there still, under the same keys. -/
def Kept (db : Db) (row : SessionRef) : Prop :=
  ∃ row' ∈ db.sessions, row'.id = row.id ∧ row'.deviceSessionId = row.deviceSessionId

/-- The unconditional `UPDATE` of a REST close meets a row that is still live. -/
def MeetsLive (db : Db) : Call → Prop
  | .closeById id => ∀ row ∈ db.sessions, row.id = id → row.status = .live
  | _ => True

/-- What the call of a handler in state `k` does to the table and to `k`. -/
inductive Effect (db : Db) (c : Call) (r : Except RequestError (Answer c)) : Db → Prop
  /-- It reads: what it has found is a row of the table. -/
  | read (hwrote : ∀ k, (note k c r).wrote = k.wrote)
      (hread : ∀ k, (note k c r).read = k.read ∨
        ∃ key, ∃ row ∈ db.sessions, (note k c r).read = some (key, row) ∧ key.names row) :
      Effect db c r db
  /-- It opens a session. -/
  | opened (row : SessionRef) (sid : String) (hid : row.id = db.nextId)
      (hsid : row.deviceSessionId = some sid) (hend : row.endedAt = none)
      (hnew : ∀ other ∈ db.sessions, other.deviceSessionId ≠ some sid)
      (hnote : ∀ k, note k c r = k) :
      Effect db c r ⟨db.sessions ++ [row], db.nextId + 1⟩
  /-- It closes the rows `matching` picks, live ones under the name `key`. -/
  | closed (key : Key) (matching : SessionRef → Bool) (now : ℤ)
      (hnames : ∀ row ∈ db.sessions, matching row = true → key.names row)
      (hlive : ∀ row ∈ db.sessions, matching row = true → row.status = .live)
      (hread : ∀ k, (note k c r).read = k.read)
      (hwrote : ∀ k, (note k c r).wrote = k.wrote ∧ db.sessions.any matching = false ∨
        (note k c r).wrote = some key ∧ db.sessions.any matching = true) :
      Effect db c r ⟨updateWhere db.sessions matching (closedAt now), db.nextId⟩

/-- **What a call does**, if the `UPDATE` of a REST close meets a live row. -/
theorem exec_effect {db db' : Db} {c : Call} {around : Option Surroundings}
    {r : Except RequestError (Answer c)} (hlive : around.isSome = true → MeetsLive db c)
    (h : db.exec c around = some (db', r)) : Effect db c r db' := by
  have hfails : ∀ {c : Call}, Effect db c (.error .failed) db := fun {c} => by
    refine .read (fun k => ?_) fun k => .inl ?_ <;> cases c <;> rfl
  cases around with
  | none =>
    cases h
    exact hfails
  | some around =>
    replace h : db.execute around c = (db', r) := Option.some.inj h
    cases c with
    | findById id =>
      obtain ⟨rfl, hr⟩ := Prod.mk.injEq .. ▸ h
      cases r with
      | error e => exact .read (fun _ => rfl) fun _ => .inl rfl
      | ok row =>
        obtain ⟨hrow, hid⟩ := findOne_eq_ok hr
        rw [decide_eq_true_eq] at hid
        exact .read (fun _ => rfl) fun _ => .inr ⟨.byId id, row, hrow, rfl, hid⟩
    | closeById id =>
      cases h
      refine .closed (.byId id) (fun row => row.id = id) around.now ?_ ?_ ?_ ?_
      · intro row _ hm
        show row.id = id
        exact of_decide_eq_true hm
      · exact fun row hrow hm => hlive rfl row hrow (of_decide_eq_true hm)
      · intro k
        cases db.sessions.any fun row => row.id = id <;> rfl
      · intro k
        cases hany : db.sessions.any fun row => row.id = id with
        | false => exact .inl ⟨rfl, rfl⟩
        | true => exact .inr ⟨rfl, rfl⟩
    | findCar id =>
      cases h
      exact .read (fun _ => rfl) fun _ => .inl rfl
    | findMembership userId teamId =>
      cases h
      exact .read (fun _ => rfl) fun _ => .inl rfl
    | findBySid sid =>
      cases h
      cases hfind : findByDeviceSessionId db.sessions sid with
      | none => exact .read (fun _ => rfl) fun _ => .inl rfl
      | some row =>
        obtain ⟨hrow, hsid⟩ := findByDeviceSessionId_eq_some hfind
        exact .read (fun _ => rfl) fun _ => .inr ⟨.bySid sid, row, hrow, rfl, hsid⟩
    | insert car sid monoMs track =>
      replace h : db.insert around.now car sid monoMs track = (db', r) := h
      unfold Db.insert at h
      split at h
      · cases h
        exact .read (fun _ => rfl) fun _ => .inl rfl
      · rename_i hnone
        cases h
        refine .opened _ sid rfl rfl rfl (fun other hother hsid => ?_) fun _ => rfl
        have hno := List.find?_eq_none.mp hnone other hother
        simp [hsid] at hno
    | closeLive carId sid =>
      cases h
      refine .closed (.bySid sid) (State.closes carId sid) around.now ?_ ?_ ?_ ?_
      · intro row _ hm
        simp only [State.closes, Bool.and_eq_true, decide_eq_true_eq] at hm
        exact hm.1.1
      · intro row _ hm
        simp only [State.closes, Bool.and_eq_true, decide_eq_true_eq] at hm
        exact hm.2
      · intro k
        cases db.sessions.any (State.closes carId sid) <;> rfl
      · intro k
        cases hany : db.sessions.any (State.closes carId sid) with
        | false => exact .inl ⟨rfl, rfl⟩
        | true => exact .inr ⟨rfl, rfl⟩

section Note

variable {db db' : Db} {c : Call} {r : Except RequestError (Answer c)} {k : Progress} {key : Key}

/-- What a handler has read last, it read before or finds in the table now. -/
theorem Effect.read_cases (h : Effect db c r db') {row : SessionRef}
    (hread : (note k c r).read = some (key, row)) :
    k.read = some (key, row) ∨ row ∈ db.sessions ∧ key.names row := by
  cases h with
  | read _ hfound =>
    rcases hfound k with hsame | ⟨key', row', hrow', hnew, hnames⟩
    · rw [hsame] at hread
      exact .inl hread
    · rw [hnew, Option.some.injEq, Prod.mk.injEq] at hread
      obtain ⟨rfl, rfl⟩ := hread
      exact .inr ⟨hrow', hnames⟩
  | opened _ _ _ _ _ _ hnote =>
    rw [hnote] at hread
    exact .inl hread
  | closed _ _ _ _ _ hsame =>
    rw [hsame] at hread
    exact .inl hread

/-- What it has closed, it closed before or is closing now. -/
theorem Effect.wrote_cases (h : Effect db c r db') (hwrote : (note k c r).wrote = some key) :
    k.wrote = some key ∨ ∃ row ∈ db.sessions, key.names row := by
  cases h with
  | read hsame =>
    rw [hsame] at hwrote
    exact .inl hwrote
  | opened _ _ _ _ _ _ hnote =>
    rw [hnote] at hwrote
    exact .inl hwrote
  | closed key' matching _ hnames _ _ hnew =>
    rcases hnew k with ⟨hsame, -⟩ | ⟨hkey, hany⟩
    · rw [hsame] at hwrote
      exact .inl hwrote
    · obtain ⟨row, hrow, hm⟩ := List.any_eq_true.mp hany
      rw [hkey, Option.some.injEq] at hwrote
      subst hwrote
      exact .inr ⟨row, hrow, hnames row hrow hm⟩

end Note

/-! ### The invariant -/

/-- Handler `i` has closed the session `row` is of. -/
def Wrote (st : Pool Db Progress Call Answer RequestError Outcome) (i : ℕ) (row : SessionRef) :
    Prop :=
  ∃ k p, st.handlers[i]? = some (k, p) ∧ ∃ key, k.wrote = some key ∧ key.names row

/-- Handler `i` reports that it closed a session. -/
def Closes (st : Pool Db Progress Call Answer RequestError Outcome) (i : ℕ) (row : SessionRef) :
    Prop :=
  ∃ k, st.handlers[i]? = some (k, .done (.closed row))

/-- Whenever the `UPDATE` of a REST close reaches the database, the session is live still. -/
def StillLive (st : Pool Db Progress Call Answer RequestError Outcome) :
    Event Op (Option Surroundings) → Prop
  | .answer i (some _) => ∀ k c, st.pending i = some (k, c) → MeetsLive st.store c
  | _ => True

/-- What a handler has read is a row of the table; a session some handler has closed is not live,
and no other handler has closed it. -/
structure Inv (st : Pool Db Progress Call Answer RequestError Outcome) : Prop where
  table : Consistent st.store
  read : ∀ (i : ℕ) (k : Progress) (p : Handler Outcome), st.handlers[i]? = some (k, p) →
    ∀ (key : Key) (row : SessionRef), k.read = some (key, row) → key.names row ∧ Kept st.store row
  named : ∀ (i : ℕ) (k : Progress) (p : Handler Outcome), st.handlers[i]? = some (k, p) →
    ∀ key, k.wrote = some key → ∃ row ∈ st.store.sessions, key.names row
  left : ∀ i, ∀ row ∈ st.store.sessions, Wrote st i row → row.status ≠ .live
  once : ∀ i j, ∀ row ∈ st.store.sessions, Wrote st i row → Wrote st j row → i = j

theorem Key.names_congr {key : Key} {a b : SessionRef} (hid : a.id = b.id)
    (hsid : a.deviceSessionId = b.deviceSessionId) : key.names a ↔ key.names b := by
  cases key with
  | byId id => rw [Key.names, Key.names, hid]
  | bySid sid => rw [Key.names, Key.names, hsid]

theorem wrote_congr {st : Pool Db Progress Call Answer RequestError Outcome} {i : ℕ}
    {a b : SessionRef} (hid : a.id = b.id) (hsid : a.deviceSessionId = b.deviceSessionId) :
    Wrote st i a ↔ Wrote st i b := by
  simp only [Wrote, Key.names_congr hid hsid]

/-- The rows after an `UPDATE`: a row of before, closed now if it was picked. -/
theorem mem_updated {db : Db} {matching : SessionRef → Bool} {now : ℤ} {row : SessionRef}
    (h : row ∈ updateWhere db.sessions matching (closedAt now)) :
    ∃ old ∈ db.sessions, old.id = row.id ∧ old.deviceSessionId = row.deviceSessionId ∧
      ((matching old = true ∧ row = closedAt now old) ∨ (matching old = false ∧ row = old)) := by
  obtain ⟨old, hold, hrow⟩ := mem_updateWhere h
  refine ⟨old, hold, ?_⟩
  rcases hrow with ⟨hm, rfl⟩ | ⟨hm, rfl⟩
  · exact ⟨rfl, rfl, .inl ⟨hm, rfl⟩⟩
  · exact ⟨rfl, rfl, .inr ⟨hm, rfl⟩⟩

theorem consistent_effect {db db' : Db} {c : Call} {r : Except RequestError (Answer c)}
    (hc : Consistent db) (h : Effect db c r db') : Consistent db' := by
  cases h with
  | read => exact hc
  | opened row sid hid hsid hend hnew =>
    refine ⟨?_, ?_, ?_, ?_⟩
    · show ((db.sessions ++ [row]).map (·.id)).Nodup
      apply nodup_map_concat hc.ids
      rw [hid]
      exact hc.fresh
    · intro old hmem
      show old.id < db.nextId + 1
      rcases List.mem_append.mp hmem with hmem | hmem
      · exact Nat.lt_succ_of_lt (hc.fresh old hmem)
      · rw [List.mem_singleton.mp hmem]
        omega
    · intro a ha b hb s has hbs
      rcases List.mem_append.mp ha with ha | ha <;> rcases List.mem_append.mp hb with hb | hb
      · exact hc.sids a ha b hb s has hbs
      · rw [List.mem_singleton.mp hb, hsid, Option.some.injEq] at hbs
        exact absurd (hbs ▸ has) (hnew a ha)
      · rw [List.mem_singleton.mp ha, hsid, Option.some.injEq] at has
        exact absurd (has ▸ hbs) (hnew b hb)
      · rw [List.mem_singleton.mp ha, List.mem_singleton.mp hb]
    · intro old hmem hlive
      rcases List.mem_append.mp hmem with hmem | hmem
      · exact hc.unended old hmem hlive
      · rw [List.mem_singleton.mp hmem]
        exact hend
  | closed key matching now =>
    refine ⟨?_, ?_, ?_, ?_⟩
    · have hids : (updateWhere db.sessions matching (closedAt now)).map (·.id) =
          db.sessions.map (·.id) := by
        apply map_updateWhere
        intro row
        rfl
      rw [hids]
      exact hc.ids
    · intro row hrow
      obtain ⟨old, hold, hid, -⟩ := mem_updated hrow
      rw [← hid]
      exact hc.fresh old hold
    · intro a ha b hb s has hbs
      obtain ⟨a', ha', -, hsa, hca⟩ := mem_updated ha
      obtain ⟨b', hb', -, hsb, hcb⟩ := mem_updated hb
      obtain rfl := hc.sids a' ha' b' hb' s (hsa.trans has) (hsb.trans hbs)
      rcases hca with ⟨hm, rfl⟩ | ⟨hm, rfl⟩ <;> rcases hcb with ⟨hm', rfl⟩ | ⟨hm', rfl⟩
      · rfl
      · rw [hm] at hm'
        cases hm'
      · rw [hm] at hm'
        cases hm'
      · rfl
    · intro row hrow hlive
      obtain ⟨old, hold, -, -, ⟨-, rfl⟩ | ⟨-, rfl⟩⟩ := mem_updated hrow
      · cases hlive
      · exact hc.unended _ hold hlive

/-- What may have become of a row: it is there, it has not become live again, and its end has not
moved. -/
def Persists (db db' : Db) : Prop :=
  ∀ row ∈ db.sessions, ∃ row' ∈ db'.sessions, row'.id = row.id ∧
    row'.deviceSessionId = row.deviceSessionId ∧ (row.status ≠ .live → row'.status ≠ .live) ∧
      ∀ t, row.endedAt = some t → row'.endedAt = some t

theorem Persists.refl (db : Db) : Persists db db :=
  fun row hrow => ⟨row, hrow, rfl, rfl, fun h => h, fun _ h => h⟩

theorem Persists.trans {a b c : Db} (hab : Persists a b) (hbc : Persists b c) : Persists a c := by
  intro row hrow
  obtain ⟨mid, hmid, hid, hsid, hleft, hend⟩ := hab row hrow
  obtain ⟨last, hlast, hid', hsid', hleft', hend'⟩ := hbc mid hmid
  exact ⟨last, hlast, hid'.trans hid, hsid'.trans hsid, fun h => hleft' (hleft h),
    fun t h => hend' t (hend t h)⟩

theorem persists_effect {db db' : Db} {c : Call} {r : Except RequestError (Answer c)}
    (hc : Consistent db) (h : Effect db c r db') : Persists db db' := by
  cases h with
  | read => exact .refl db
  | opened row =>
    intro old hold
    exact ⟨old, List.mem_append_left _ hold, rfl, rfl, fun h => h, fun _ h => h⟩
  | closed key matching now hnames hlive =>
    intro old hold
    refine ⟨_, List.mem_map_of_mem hold, ?_⟩
    split
    · rename_i hm
      have hwas := hlive old hold hm
      refine ⟨rfl, rfl, fun hleft => absurd hwas hleft, fun t ht => ?_⟩
      rw [hc.unended old hold hwas] at ht
      cases ht
    · exact ⟨rfl, rfl, fun h => h, fun _ h => h⟩

theorem Kept.persists {db db' : Db} {row : SessionRef} (h : Kept db row) (hp : Persists db db') :
    Kept db' row := by
  obtain ⟨mid, hmid, hid, hsid⟩ := h
  obtain ⟨last, hlast, hid', hsid', -⟩ := hp mid hmid
  exact ⟨last, hlast, hid'.trans hid, hsid'.trans hsid⟩

/-- After a step of handler `i`, a handler that has closed a session is `i`, by what its new state
says, or it had closed it before. -/
theorem wrote_set {st : Pool Db Progress Call Answer RequestError Outcome} {db : Db} {i j : ℕ}
    {k : Progress} {p : Handler Outcome} {row : SessionRef}
    (h : Wrote ⟨db, st.handlers.set i (k, p)⟩ j row) :
    (j = i ∧ ∃ key, k.wrote = some key ∧ key.names row) ∨ (j ≠ i ∧ Wrote st j row) := by
  obtain ⟨k', p', hj, hwrote⟩ := h
  rcases getElem?_set_cases hj with ⟨rfl, heq⟩ | ⟨hne, hj⟩
  · cases heq
    exact .inl ⟨rfl, hwrote⟩
  · exact .inr ⟨hne, k', p', hj, hwrote⟩

/-- A step that closes nothing, seen from the sessions that have been closed. -/
theorem wrote_set_same {st : Pool Db Progress Call Answer RequestError Outcome} {db : Db}
    {i j : ℕ} {k k' : Progress} {p p' : Handler Outcome} {row : SessionRef}
    (hi : st.handlers[i]? = some (k, p)) (hsame : k'.wrote = k.wrote)
    (h : Wrote ⟨db, st.handlers.set i (k', p')⟩ j row) : Wrote st j row := by
  rcases wrote_set h with ⟨rfl, key, hkey, hnames⟩ | ⟨-, h⟩
  · exact ⟨k, p, hi, key, hsame ▸ hkey, hnames⟩
  · exact h

/-- What handlers have closed, after a step of handler `i`: as before, or `i` has just closed a live
row. -/
theorem wrote_effect {st : Pool Db Progress Call Answer RequestError Outcome} {i : ℕ}
    {k : Progress} {c : Call} {r : Except RequestError (Answer c)} {p p' : Handler Outcome}
    {db : Db} (hinv : Inv st) (hi : st.handlers[i]? = some (k, p))
    (h : Effect st.store c r db) {j : ℕ} {row : SessionRef} (hrow : row ∈ db.sessions)
    (hw : Wrote ⟨db, st.handlers.set i (note k c r, p')⟩ j row) :
    ∃ old ∈ st.store.sessions, old.id = row.id ∧ old.deviceSessionId = row.deviceSessionId ∧
      ((Wrote st j old ∧ (row.status = .live → old.status = .live)) ∨
        (j = i ∧ old.status = .live ∧ row.status ≠ .live)) := by
  cases h with
  | read hsame =>
    exact ⟨row, hrow, rfl, rfl, .inl ⟨wrote_set_same hi (hsame k) hw, fun h => h⟩⟩
  | opened new sid hid hsid hend hnew hnote =>
    have hold : Wrote st j row := wrote_set_same hi (congrArg Progress.wrote (hnote k)) hw
    rcases List.mem_append.mp hrow with hrow | hrow
    · exact ⟨row, hrow, rfl, rfl, .inl ⟨hold, fun h => h⟩⟩
    · -- no handler has closed the session that was opened just now
      obtain rfl := List.mem_singleton.mp hrow
      obtain ⟨k', q, hj, key, hkey, hnames⟩ := hold
      obtain ⟨old, hmem, hold⟩ := hinv.named j k' q hj key hkey
      have hsame : old = row := (consistent_effect hinv.table (.opened (c := c) (r := r) row sid hid
        hsid hend hnew hnote)).names_unique (List.mem_append_left _ hmem)
        (List.mem_append_right _ List.mem_cons_self) hold hnames
      have hlt := hinv.table.fresh old hmem
      rw [hsame] at hlt
      omega
  | closed key matching now hnames hlive hread hwrote =>
    obtain ⟨old, hold, hid, hsid, hcase⟩ := mem_updated hrow
    refine ⟨old, hold, hid, hsid, ?_⟩
    have hstatus : row.status = .live → old.status = .live := by
      rcases hcase with ⟨-, rfl⟩ | ⟨-, rfl⟩
      · exact fun h => by cases h
      · exact fun h => h
    rw [← wrote_congr hid hsid] at hw
    rcases hwrote k with ⟨hsame, -⟩ | ⟨hnew, hany⟩
    · exact .inl ⟨wrote_set_same hi hsame hw, hstatus⟩
    · rcases wrote_set hw with ⟨rfl, key', hkey, hold'⟩ | ⟨-, hw⟩
      · obtain ⟨x, hx, hm⟩ := List.any_eq_true.mp hany
        rw [hnew, Option.some.injEq] at hkey
        obtain rfl := hkey
        obtain rfl := hinv.table.names_unique hold hx hold' (hnames x hx hm)
        rcases hcase with ⟨-, rfl⟩ | ⟨hno, -⟩
        · exact .inr ⟨rfl, hlive old hold hm, fun h => by cases h⟩
        · rw [hm] at hno
          cases hno
      · exact .inl ⟨hw, hstatus⟩

theorem inv_step {st st' : Pool Db Progress Call Answer RequestError Outcome}
    {e : Event Op (Option Surroundings)} (hi : Inv st) (hlive : StillLive st e)
    (h : step service st e = some st') : Inv st' ∧ Persists st.store st'.store := by
  obtain ⟨op, -, rfl⟩ | ⟨i, around, k, c, next, db, r, rfl, hhandler, hexec, rfl⟩ := step_cases h
  · -- a handler that has just started has neither closed nor read anything
    have hwrote : ∀ j row, Wrote ⟨st.store, st.handlers ++ [(service.enter op, service.handler op)]⟩
        j row → Wrote st j row := by
      intro j row hw
      obtain ⟨k, p, hj, key, hkey, hnames⟩ := hw
      rcases getElem?_append_singleton hj with hj | ⟨-, heq⟩
      · exact ⟨k, p, hj, key, hkey, hnames⟩
      · cases heq
        cases hkey
    refine ⟨⟨hi.table, ?_, ?_, ?_, ?_⟩, .refl _⟩
    · intro j k p hj key row hread
      rcases getElem?_append_singleton hj with hj | ⟨-, heq⟩
      · exact hi.read j k p hj key row hread
      · cases heq
        cases hread
    · intro j k p hj key hkey
      rcases getElem?_append_singleton hj with hj | ⟨-, heq⟩
      · exact hi.named j k p hj key hkey
      · cases heq
        cases hkey
    · exact fun j row hrow hw => hi.left j row hrow (hwrote j row hw)
    · exact fun j l row hrow hwj hwl => hi.once j l row hrow (hwrote j row hwj) (hwrote l row hwl)
  · have heffect : Effect st.store c r db := by
      apply exec_effect ?_ hexec
      intro hsome
      cases around with
      | none => cases hsome
      | some around => exact hlive k c (pending_of_await hhandler)
    have hpersists := persists_effect hi.table heffect
    refine ⟨⟨consistent_effect hi.table heffect, ?_, ?_, ?_, ?_⟩, hpersists⟩
    · intro j k' p hj key row hread
      rcases getElem?_set_cases hj with ⟨rfl, heq⟩ | ⟨-, hj⟩
      · cases heq
        rcases heffect.read_cases hread with hold | ⟨hrow, hnames⟩
        · obtain ⟨hnames, hkept⟩ := hi.read j k _ hhandler key row hold
          exact ⟨hnames, hkept.persists hpersists⟩
        · exact ⟨hnames, Kept.persists ⟨row, hrow, rfl, rfl⟩ hpersists⟩
      · obtain ⟨hnames, hkept⟩ := hi.read j k' p hj key row hread
        exact ⟨hnames, hkept.persists hpersists⟩
    · intro j k' p hj key hkey
      have hkept : ∀ {key : Key} {row : SessionRef}, row ∈ st.store.sessions → key.names row →
          ∃ row ∈ db.sessions, key.names row := by
        intro key row hrow hnames
        obtain ⟨row', hrow', hid, hsid, -⟩ := hpersists row hrow
        exact ⟨row', hrow', (Key.names_congr hid hsid).mpr hnames⟩
      rcases getElem?_set_cases hj with ⟨rfl, heq⟩ | ⟨-, hj⟩
      · cases heq
        rcases heffect.wrote_cases hkey with hold | ⟨row, hrow, hnames⟩
        · obtain ⟨row, hrow, hnames⟩ := hi.named j k _ hhandler key hold
          exact hkept hrow hnames
        · exact hkept hrow hnames
      · obtain ⟨row, hrow, hnames⟩ := hi.named j k' p hj key hkey
        exact hkept hrow hnames
    · intro j row hrow hw hstatus
      obtain ⟨old, hold, -, -, ⟨hbefore, hwas⟩ | ⟨-, -, hleft⟩⟩ :=
        wrote_effect hi hhandler heffect hrow hw
      · exact hi.left j old hold hbefore (hwas hstatus)
      · exact hleft hstatus
    · intro j l row hrow hwj hwl
      obtain ⟨a, ha, hida, hsida, hj⟩ := wrote_effect hi hhandler heffect hrow hwj
      obtain ⟨b, hb, hidb, hsidb, hl⟩ := wrote_effect hi hhandler heffect hrow hwl
      obtain rfl := List.inj_on_of_nodup_map hi.table.ids ha hb (hida.trans hidb.symm)
      rcases hj with ⟨hj, -⟩ | ⟨rfl, hlivej, -⟩ <;> rcases hl with ⟨hl, -⟩ | ⟨rfl, hlivel, -⟩
      · exact hi.once j l a ha hj hl
      · exact absurd hlivel (hi.left j a ha hj)
      · exact absurd hlivej (hi.left l a ha hl)
      · rfl

/-- The invariant, and what becomes of the rows, along any run that meets the condition. -/
theorem inv_run (es : List (Event Op (Option Surroundings)))
    (st st' : Pool Db Progress Call Answer RequestError Outcome) (hi : Inv st)
    (hmeets : Meets (step service) StillLive st es) (h : run (step service) st es = some st') :
    Inv st' ∧ Persists st.store st'.store := by
  refine run_invariant (step service) (I := fun s => Inv s ∧ Persists st.store s.store) ?_ es st st'
    ⟨hi, .refl _⟩ hmeets h
  intro s e t hs hlive hstep
  obtain ⟨hinv, hpersists⟩ := inv_step hs.1 hlive hstep
  exact ⟨hinv, hs.2.trans hpersists⟩

theorem inv_init {db : Db} (hc : Consistent db) : Inv ⟨db, []⟩ where
  table := hc
  read := by
    intro i k p hi
    cases hi
  named := by
    intro i k p hi
    cases hi
  left := by
    intro i row _ hw
    obtain ⟨k, p, hi, -⟩ := hw
    cases hi
  once := by
    intro i j row _ hw _
    obtain ⟨k, p, hi, -⟩ := hw
    cases hi

/-- A handler that reports a session as closed is one that has closed it. -/
theorem wrote_of_closes {st : Pool Db Progress Call Answer RequestError Outcome}
    (hfollow : AllFollow service (fun _ _ => True) Reports st) (hi : Inv st) {i : ℕ}
    {row : SessionRef} (h : Closes st i row) :
    ∃ x ∈ st.store.sessions, x.id = row.id ∧ Wrote st i x := by
  obtain ⟨k, hk⟩ := h
  obtain ⟨key, hwrote, hread⟩ := hfollow i k _ hk row rfl
  obtain ⟨hnames, x, hx, hid, hsid⟩ := hi.read i k _ hk key row hread
  exact ⟨x, hx, hid, k, _, hk, key, hwrote, (Key.names_congr hid hsid).mpr hnames⟩

/-- **A session is closed once.**  In every run in which no REST close finds, when it comes to its
`UPDATE`, that the session has been closed since it looked: a session that has left `LIVE` does not
become live again, its end does not move, and at most one operation reports that it closed it. -/
theorem closed_once {db : Db} (hc : Consistent db) (es fs : List (Event Op (Option Surroundings)))
    (mid st : Pool Db Progress Call Answer RequestError Outcome)
    (hmid : run (step service) ⟨db, []⟩ es = some mid) (hst : run (step service) mid fs = some st)
    (hmeets : Meets (step service) StillLive ⟨db, []⟩ (es ++ fs)) :
    (∀ row ∈ mid.store.sessions, ∃ row' ∈ st.store.sessions, row'.id = row.id ∧
      (row.status ≠ .live → row'.status ≠ .live) ∧
        ∀ t, row.endedAt = some t → row'.endedAt = some t) ∧
      ∀ i j a b, Closes st i a → Closes st j b → a.id = b.id → i = j := by
  obtain ⟨hmidInv, -⟩ := inv_run es _ mid (inv_init hc) (meets_append_left _ hmeets) hmid
  obtain ⟨hinv, hpersists⟩ := inv_run fs mid st hmidInv (meets_append_right _ hmeets hmid) hst
  constructor
  · intro row hrow
    obtain ⟨row', hrow', hid, -, hrest⟩ := hpersists row hrow
    exact ⟨row', hrow', hid, hrest⟩
  · intro i j a b ha hb hab
    have hrun : run (step service) ⟨db, []⟩ (es ++ fs) = some st := by
      rw [run_append, hmid]
      exact hst
    have hfollow := follows_run reports_handler db (es ++ fs) st hrun
    obtain ⟨x, hx, hidx, hwi⟩ := wrote_of_closes hfollow hinv ha
    obtain ⟨y, hy, hidy, hwj⟩ := wrote_of_closes hfollow hinv hb
    obtain rfl := List.inj_on_of_nodup_map hinv.table.ids hx hy
      (hidx.trans (hab.trans hidy.symm))
    exact hinv.once i j x hx hwi hwj

section Example

/-- A run in progress, opened by the device of car 1. -/
def runInProgress : SessionRef where
  id := 1
  carId := 1
  driverId := 2
  track := "meridian"
  startedAt := 0
  endedAt := none
  status := .live
  deviceSessionId := some exampleSid
  deviceMonoStartMs := some 500

def exampleDb : Db := ⟨[runInProgress], 2⟩

theorem exampleDb_consistent : Consistent exampleDb where
  ids := List.nodup_singleton _
  fresh := by
    intro row hrow
    rw [List.mem_singleton.mp hrow]
    decide
  sids := by
    intro a ha b hb _ _ _
    rw [List.mem_singleton.mp ha, List.mem_singleton.mp hb]
  unended := by
    intro row hrow _
    rw [List.mem_singleton.mp hrow]
    rfl

/-- The driver of the run. -/
def exampleDriver : User := ⟨2, "driver", .driver⟩

def clock (now : ℤ) : Option Surroundings := some ⟨now, none, none⟩

/-- The driver closes the run over REST. -/
def restClose : List (Event Op (Option Surroundings)) :=
  [.invoke (.close exampleDriver 1), .answer 0 (clock 100), .answer 0 (clock 100)]

theorem closed_once_restClose : ∃ mid st,
    run (step service) ⟨exampleDb, []⟩ restClose = some mid ∧
      run (step service) mid [.answer 0 (clock 100)] = some st ∧
      ((∀ row ∈ mid.store.sessions, ∃ row' ∈ st.store.sessions, row'.id = row.id ∧
        (row.status ≠ .live → row'.status ≠ .live) ∧
          ∀ t, row.endedAt = some t → row'.endedAt = some t) ∧
        ∀ i j a b, Closes st i a → Closes st j b → a.id = b.id → i = j) := by
  refine ⟨_, _, rfl, rfl, closed_once exampleDb_consistent restClose [.answer 0 (clock 100)] _ _ rfl rfl ?_⟩
  refine ⟨trivial, fun t ht => ?_⟩
  cases ht
  refine ⟨fun k c h => ?_, fun t ht => ?_⟩
  · cases h
    trivial
  cases ht
  refine ⟨fun k c h => ?_, fun t ht => ?_⟩
  · cases h
    intro row hrow _
    rw [List.mem_singleton.mp hrow]
    rfl
  cases ht
  refine ⟨fun k c h => ?_, fun t ht => trivial⟩
  cases h
  trivial

/-- The driver's REST close has seen the run live when the stop of the device closes it. -/
def closeRacesStop : List (Event Op (Option Surroundings)) :=
  [.invoke (.close exampleDriver 1), .answer 0 (clock 100), .invoke (.stop 1 exampleSid),
    .answer 1 (clock 100), .answer 1 (clock 100)]

/-- **A REST close that lost the race** closes the session a second time. -/
theorem close_reported_twice : ¬ ∀ (db : Db), Consistent db →
    ∀ (es fs : List (Event Op (Option Surroundings)))
      (mid st : Pool Db Progress Call Answer RequestError Outcome),
      run (step service) ⟨db, []⟩ es = some mid → run (step service) mid fs = some st →
      (∀ row ∈ mid.store.sessions, ∃ row' ∈ st.store.sessions, row'.id = row.id ∧
        (row.status ≠ .live → row'.status ≠ .live) ∧
          ∀ t, row.endedAt = some t → row'.endedAt = some t) ∧
        ∀ i j a b, Closes st i a → Closes st j b → a.id = b.id → i = j := by
  intro h
  obtain ⟨-, honce⟩ := h exampleDb exampleDb_consistent closeRacesStop
    [.answer 0 (clock 200), .answer 0 (clock 200)] _ _ rfl rfl
  have hboth := honce 0 1 _ _ ⟨_, rfl⟩ ⟨_, rfl⟩ rfl
  cases hboth

end Example

end TelemetryCloud.SessionClosing
