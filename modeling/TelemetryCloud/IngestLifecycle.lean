import TelemetryCloud.IngestProvenance

/-!
# The lifecycle of a session on the live bus

A stop is announced by the handler whose `UPDATE` found the row LIVE, so a session has one stop at
most.  A start is announced by every handler that resolves to a session, and nothing there looks at
the status of the row.

* `Lifecycle` : while a row is LIVE nobody is closing it and no stop of it has been announced, and
  a session is closed by one handler at a time;
* `events_ordered` : **runs whose sessions start and stop in order**: those in which no start is
  announced for a row that was closed and is no longer in the hands of the stop that closed it.
-/

namespace TelemetryCloud.IngestLifecycle

open IngestWire IngestService IngestSystem IngestProvenance Runs

/-! ### Closing a session -/

/-- The handler has closed the session `id` and not announced it yet. -/
def Ends (st : State) (id : ℕ) : Handler → Prop
  | .stopReread _ sid _ => ∃ m ∈ marks st, m.sid = some sid ∧ m.id = id
  | .stopFlush _ _ _ (some row) => row.id = id
  | _ => False

/-- The handler `h` is closing the session `id`. -/
def Closing (st : State) (id h : ℕ) : Prop := ∃ handler, st.handlers h = some handler ∧ Ends st id handler

/-- The session is LIVE. -/
def Live (st : State) (id : ℕ) : Prop := ∃ row ∈ st.sessions, row.id = id ∧ row.status = .live

/-- The stop of the session has been announced. -/
def Stopped (st : State) (id : ℕ) : Prop := ∃ a ∈ st.announced, a.sessionId = id ∧ a.event = .stop

/-- After the stop of a session nothing is announced of it: no start and no second stop. -/
def Ordered (announced : List Announcement) : Prop :=
  announced.Pairwise fun a b => a.event = .stop → b.sessionId ≠ a.sessionId

structure Lifecycle (st : State) : Prop where
  live : ∀ id, Live st id → ¬ Stopped st id ∧ ∀ h, ¬ Closing st id h
  closing : ∀ id h, Closing st id h → ¬ Stopped st id
  one : ∀ id h h', Closing st id h → Closing st id h' → h = h'
  ordered : Ordered st.announced

theorem lifecycle_init : Lifecycle init where
  live := by
    intro id hlive
    obtain ⟨row, hrow, -⟩ := hlive
    cases hrow
  closing := by
    intro id h hclosing
    obtain ⟨handler, hhandler, -⟩ := hclosing
    cases hhandler
  one := by
    intro id h h' hclosing
    obtain ⟨handler, hhandler, -⟩ := hclosing
    cases hhandler
  ordered := .nil

/-- A start is announced for a session that is LIVE, or in the hands of the stop that has closed
it. -/
def StartsRunning (st : State) (e : IngestSystem.Event) : Prop :=
  ∀ a ∈ IngestProvenance.announcing st e, a.event = .start →
    Live st a.sessionId ∨ ∃ h, Closing st a.sessionId h

section Steps

variable {isUUID : String → Bool} {findCarByDeviceId : String → Option CarRef}

/-- **One step of the lifecycle.**  No session becomes LIVE but one that is nobody's; only the handler
`i` takes on a session to close, which was LIVE and is not any more; at most one event is announced,
of a session that is not stopped, and if it is a stop, of one that nobody is closing any longer. -/
theorem Lifecycle.step {st st' : State} (hl : Lifecycle st) (i : ℕ) {added : List Announcement}
    (hann : st'.announced = st.announced ++ added) (hlen : added.length ≤ 1)
    (hlive : ∀ id, Live st' id → Live st id ∨ (¬ Stopped st id ∧ ∀ h, ¬ Closing st id h))
    (hclosing : ∀ id h, Closing st' id h →
      Closing st id h ∨ (h = i ∧ Live st id ∧ ¬ Live st' id))
    (hadded : ∀ a ∈ added, ¬ Stopped st a.sessionId ∧ (a.event = .stop →
      ¬ Live st' a.sessionId ∧ ∀ h, ¬ Closing st' a.sessionId h)) : Lifecycle st' := by
  have hstopped : ∀ id, Stopped st' id →
      Stopped st id ∨ ∃ a ∈ added, a.sessionId = id ∧ a.event = .stop := by
    intro id hs
    obtain ⟨a, ha, hid, hevent⟩ := hs
    rw [hann] at ha
    rcases List.mem_append.mp ha with ha | ha
    · exact .inl ⟨a, ha, hid, hevent⟩
    · exact .inr ⟨a, ha, hid, hevent⟩
  refine ⟨?_, ?_, ?_, ?_⟩
  · intro id hid
    have hfree : ¬ Stopped st id ∧ ∀ h, ¬ Closing st id h := by
      rcases hlive id hid with hid | hnew
      · exact hl.live id hid
      · exact hnew
    constructor
    · intro hs
      rcases hstopped id hs with hs | ⟨a, ha, rfl, hevent⟩
      · exact hfree.1 hs
      · exact ((hadded a ha).2 hevent).1 hid
    · intro h hc
      rcases hclosing id h hc with hc | ⟨-, -, hdead⟩
      · exact hfree.2 h hc
      · exact hdead hid
  · intro id h hc hs
    rcases hstopped id hs with hs | ⟨a, ha, rfl, hevent⟩
    · rcases hclosing id h hc with hc | ⟨-, hid, -⟩
      · exact hl.closing id h hc hs
      · exact (hl.live id hid).1 hs
    · exact ((hadded a ha).2 hevent).2 h hc
  · intro id h h' hc hc'
    rcases hclosing id h hc with hc | ⟨rfl, hid, -⟩ <;>
      rcases hclosing id h' hc' with hc' | ⟨hh', hid', -⟩
    · exact hl.one id h h' hc hc'
    · exact absurd hc ((hl.live id hid').2 h)
    · exact absurd hc' ((hl.live id hid).2 h')
    · exact hh'.symm
  · rw [hann]
    apply List.pairwise_append.mpr
    refine ⟨hl.ordered, ?_, ?_⟩
    · match added, hlen with
      | [], _ => exact .nil
      | [a], _ => exact List.pairwise_singleton _ a
    · intro a ha b hb hevent hid
      exact (hadded b hb).1 ⟨a, ha, hid.symm, hevent⟩

/-- Whoever is closing a session, and whoever announced its stop, has met its row. -/
theorem closing_mark {st : State} {publisher : ℕ → Option String}
    (ht : Traced findCarByDeviceId st publisher) {id h : ℕ} (hc : Closing st id h) :
    ∃ m ∈ marks st, m.id = id := by
  obtain ⟨handler, hhandler, hends⟩ := hc
  obtain ⟨d, -, hw⟩ := ht.working h handler hhandler
  cases handler with
  | stopReread deviceId sid car =>
    obtain ⟨m, hm, -, hid⟩ := hends
    exact ⟨m, hm, hid⟩
  | stopFlush deviceId sid car session =>
    cases session with
    | none => cases hends
    | some row =>
      obtain ⟨-, -, hrow⟩ := hw
      obtain ⟨m, hm, hid, -⟩ := hrow row rfl
      exact ⟨m, hm, hid.trans hends⟩
  | _ => cases hends

theorem stopped_mark {st : State} {g : Ledger} (hg : Attributed findCarByDeviceId st g) {id : ℕ}
    (hs : Stopped st id) : ∃ m ∈ marks st, m.id = id := by
  obtain ⟨a, ha, hid, -⟩ := hs
  rw [hg.bus] at ha
  obtain ⟨t, ht, rfl⟩ := List.mem_map.mp ha
  obtain ⟨-, -, -, -, -, m, hm, hmid, -⟩ := hg.announced t ht
  exact ⟨m, hm, hmid.trans hid⟩

/-- A session that has no row yet is nobody's. -/
theorem fresh_free {st : State} {g : Ledger} (hi : Inv st) (hg : Attributed findCarByDeviceId st g)
    {id : ℕ} (hid : st.nextId ≤ id) : ¬ Stopped st id ∧ ∀ h, ¬ Closing st id h := by
  have hno : ¬ ∃ m ∈ marks st, m.id = id := by
    intro hex
    obtain ⟨m, hm, rfl⟩ := hex
    obtain ⟨row, hrow, rfl⟩ := List.mem_map.mp hm
    have hlt := hi.fresh _ (List.mem_map_of_mem (f := anchor) hrow)
    exact absurd hid (Nat.not_le.mpr hlt)
  exact ⟨fun hs => hno (stopped_mark hg hs), fun h hc => hno (closing_mark hg.traced hc)⟩

/-- A message that arrives closes nothing. -/
theorem deliver_closing (st : State) (now : ℤ) (deviceId : String) (payload : Json) (topic : Topic)
    {id h : ℕ} (hc : Closing (deliver isUUID st now deviceId payload topic) id h) :
    Closing st id h := by
  have hmarks : marks (deliver isUUID st now deviceId payload topic) = marks st := by
    rw [marks, (deliver_frame st now deviceId payload topic).1]
    rfl
  obtain ⟨handler, hhandler, hends⟩ := hc
  have hends' : Ends st id handler := by
    cases handler with
    | stopReread deviceId sid car =>
      obtain ⟨m, hm, hmark⟩ := hends
      exact ⟨m, hmarks ▸ hm, hmark⟩
    | stopFlush deviceId sid car session => cases session <;> exact hends
    | _ => exact hends
  refine ⟨handler, ?_, hends'⟩
  have hcases := @deliver_cases isUUID st now deviceId payload topic
  generalize deliver isUUID st now deviceId payload topic = st' at hcases hhandler
  have hspawn : ∀ new : Handler, ¬ Ends st id new →
      Function.update st.handlers st.nextHandler (some new) h = some handler →
      st.handlers h = some handler := by
    intro new hnew hupd
    by_cases hh : h = st.nextHandler
    · rw [hh, Function.update_self, Option.some.injEq] at hupd
      exact absurd (hupd ▸ hends') hnew
    · rwa [Function.update_of_ne hh] at hupd
  cases hcases with
  | dropped reason => exact hhandler
  | throws => exact hhandler
  | awaits sid monoMs track new hkind =>
    have hnew : ∀ i, ¬ Ends st id (new i) := by
      intro i hi
      cases hkind <;> exact hi
    refine hspawn _ (hnew (st.resolve now deviceId sid monoMs track).1) ?_
    rw [← hhandler]
    unfold State.resolve
    cases st.contexts (deviceId, sid) <;> rfl
  | stops sid => exact hspawn (.stopCar deviceId sid) (fun hstop : False => hstop) hhandler

/-- The row that a database call of a load adds is of a run that nobody is closing. -/
theorem query_closing {st st' : State} {publisher : ℕ → Option String} {i : ℕ} {now : ℤ} {ok : Bool}
    (ht : Traced findCarByDeviceId st publisher)
    (hs : IngestSystem.query findCarByDeviceId st i now ok = some st') {id h : ℕ}
    (hc : Closing st' id h) : Closing st id h := by
  have ht' := ht.query hs
  obtain ⟨l, pc, -, hframe, hloaded⟩ := query_effect hs
  obtain ⟨handler, hhandler, hends⟩ := hc
  rw [hframe.handlers] at hhandler
  refine ⟨handler, hhandler, ?_⟩
  cases handler with
  | stopReread deviceId sid car =>
    obtain ⟨m, hm, hsid, hid⟩ := hends
    obtain ⟨d, -, -, -, m', hm', hsid', -⟩ := ht.working h _ hhandler
    have hkeep : m' ∈ marks st' := by
      rcases marks_updated hloaded with heq | ⟨car, startedAt, -, heq⟩
      · rwa [heq]
      · rw [heq]
        exact List.mem_append_left _ hm'
    rw [ht'.sids m hm m' hkeep sid hsid hsid'] at hid
    exact ⟨m', hm', hsid', hid⟩
  | stopFlush deviceId sid car session => cases session <;> exact hends
  | _ => exact hends

theorem query_live {st st' : State} {i : ℕ} {now : ℤ} {ok : Bool}
    (hs : IngestSystem.query findCarByDeviceId st i now ok = some st') {id : ℕ}
    (hlive : Live st' id) : Live st id ∨ st.nextId ≤ id := by
  obtain ⟨l, pc, -, -, hloaded⟩ := query_effect hs
  unfold Live at hlive
  generalize st'.sessions = sessions at hloaded hlive
  cases hloaded with
  | opened car hcar startedAt hnew =>
    obtain ⟨row, hrow, hid, hstatus⟩ := hlive
    rcases List.mem_append.mp hrow with hrow | hrow
    · exact .inl ⟨row, hrow, hid, hstatus⟩
    · rw [List.mem_singleton.mp hrow] at hid
      exact .inr (Nat.le_of_eq hid)
  | _ => exact .inl hlive

theorem ends_congr {st st' : State} (h : marks st' = marks st) {id : ℕ} {handler : Handler} :
    Ends st' id handler ↔ Ends st id handler := by
  cases handler with
  | stopReread deviceId sid car =>
    unfold Ends
    rw [h]
  | stopFlush deviceId sid car session => cases session <;> exact Iff.rfl
  | _ => exact Iff.rfl

/-- The rows that are LIVE after an `UPDATE` of `closeSession` were LIVE and not matched by it. -/
theorem closeSession_live {st : State} {now : ℤ} {carId : ℕ} {sid : String} {row : SessionRef}
    (hrow : row ∈ (st.closeSession now carId sid).sessions) (hstatus : row.status = .live) :
    row ∈ st.sessions ∧ State.closes carId sid row = false := by
  obtain ⟨old, hold, heq⟩ := List.mem_map.mp hrow
  by_cases hcloses : State.closes carId sid old = true
  · rw [if_pos hcloses] at heq
    rw [← heq] at hstatus
    cases hstatus
  · rw [if_neg hcloses] at heq
    rw [← heq]
    exact ⟨hold, Bool.eq_false_iff.mpr hcloses⟩

/-- The row an `UPDATE` of `closeSession` has matched was LIVE and is not any longer. -/
theorem closeSession_closed {st : State} (hi : Inv st) {now : ℤ} {carId : ℕ} {sid : String}
    {row : SessionRef} (hrow : row ∈ st.sessions) (hcloses : State.closes carId sid row = true) :
    row.status = .live ∧
      ∀ row' ∈ (st.closeSession now carId sid).sessions, row'.id = row.id → row'.status ≠ .live := by
  have hmatch := hcloses
  simp only [State.closes, Bool.and_eq_true, decide_eq_true_eq] at hmatch
  refine ⟨hmatch.2, ?_⟩
  intro row' hrow' hid hstatus
  obtain ⟨hold, hno⟩ := closeSession_live hrow' hstatus
  have hdistinct := hi.distinct
  rw [State.anchors, List.map_map] at hdistinct
  have hsame : row = row' := List.inj_on_of_nodup_map hdistinct hrow hold hid.symm
  rw [hsame, hno] at hcloses
  cases hcloses

/-- What is being closed after handler `i` has gone on was before, or `i` closes it at the await it
goes on to. -/
theorem closing_of_frame {st st' : State} {i : ℕ} {next : Option Handler}
    (hframe : HandlerFrame st i next st') (hmarks : marks st' = marks st) {id h : ℕ}
    (hc : Closing st' id h) :
    Closing st id h ∨ (h = i ∧ ∃ handler', next = some handler' ∧ Ends st id handler') := by
  obtain ⟨handler', hhandler', hends⟩ := hc
  rw [hframe.handlers] at hhandler'
  have hends' := (ends_congr hmarks).mp hends
  by_cases hh : h = i
  · subst hh
    rw [Function.update_self] at hhandler'
    exact .inr ⟨rfl, handler', hhandler', hends'⟩
  · rw [Function.update_of_ne hh] at hhandler'
    exact .inl ⟨handler', hhandler', hends'⟩

/-- **What a handler that goes on does to the sessions**: it makes none LIVE, and if it takes one on
to close it, it was LIVE and is not any longer. -/
theorem resume_closing {st st' : State} {publisher : ℕ → Option String} (hi : Inv st)
    (ht : Traced findCarByDeviceId st publisher) {i : ℕ} {now : ℤ} {ok : Bool}
    (hs : IngestSystem.resume findCarByDeviceId st i now ok = some st') :
    (∀ id, Live st' id → Live st id) ∧ ∀ id h, Closing st' id h →
      Closing st id h ∨ (h = i ∧ Live st id ∧ ¬ Live st' id) := by
  obtain ⟨handler, next, hhandler, hframe, hresumed, -⟩ := resume_effect hs
  have hclosing : ∀ {P : ℕ → Prop}, (∀ id handler', next = some handler' → Ends st id handler' →
      Closing st id i ∨ P id) → ∀ id h, Closing st' id h → Closing st id h ∨ (h = i ∧ P id) := by
    intro P hP id h hc
    rcases closing_of_frame hframe (resumed_marks hresumed) hc with
      hc | ⟨rfl, handler', hnext, hends⟩
    · exact .inl hc
    · exact (hP id handler' hnext hends).imp_right fun hp => ⟨rfl, hp⟩
  -- a handler that goes on to no await of a stop in progress closes nothing
  have hidle : (∀ id handler', next = some handler' → ¬ Ends st id handler') → ∀ id handler',
      next = some handler' → Ends st id handler' →
        Closing st id i ∨ (Live st id ∧ ¬ Live st' id) :=
    fun hno id handler' hnext hends => absurd hends (hno id handler' hnext)
  unfold Live at hclosing hidle ⊢
  generalize st'.sessions = sessions at hresumed hclosing hidle ⊢
  cases hresumed with
  | ends handler =>
    refine ⟨fun _ h => h, hclosing (hidle ?_)⟩
    intro id handler' hnext
    cases hnext
  | carFound deviceId sid car hcar =>
    refine ⟨fun _ h => h, hclosing (hidle ?_)⟩
    intro id handler' hnext hends
    cases hnext
    exact hends
  | closes deviceId sid car now hany =>
    constructor
    · intro id hlive
      obtain ⟨row, hrow, hid, hstatus⟩ := hlive
      exact ⟨row, (closeSession_live hrow hstatus).1, hid, hstatus⟩
    · apply hclosing
      intro id handler' hnext hends
      cases hnext
      obtain ⟨m, hm, hsid, hid⟩ := hends
      obtain ⟨row, hrow, hcloses⟩ := List.any_eq_true.mp hany
      obtain ⟨hstatus, hclosed⟩ := closeSession_closed hi hrow hcloses
      have hrowSid : row.deviceSessionId = some sid := by
        simp only [State.closes, Bool.and_eq_true, decide_eq_true_eq] at hcloses
        exact hcloses.1.1
      have hmark : mark row = m := ht.sids _ (mem_marks hrow) m hm sid hrowSid hsid
      have hrowId : row.id = id := by
        rw [← hid, ← hmark]
        rfl
      refine .inr ⟨⟨row, hrow, hrowId, hstatus⟩, ?_⟩
      intro hlive
      obtain ⟨row', hrow', hid', hstatus'⟩ := hlive
      exact hclosed row' hrow' (hid'.trans hrowId.symm) hstatus'
  | notLive deviceId sid car =>
    refine ⟨fun _ h => h, hclosing (hidle ?_)⟩
    intro id handler' hnext hends
    cases hnext
    exact hends
  | rereads deviceId sid car =>
    refine ⟨fun _ h => h, hclosing ?_⟩
    intro id handler' hnext hends
    cases hnext
    cases hfind : findByDeviceSessionId st.sessions sid with
    | none =>
      rw [hfind] at hends
      cases hends
    | some row =>
      rw [hfind] at hends
      obtain ⟨hrow, hrowSid⟩ := findByDeviceSessionId_eq_some hfind
      exact .inl ⟨_, hhandler, mark row, mem_marks hrow, hrowSid, hends⟩
  | announces deviceId sid car row =>
    refine ⟨fun _ h => h, hclosing (hidle ?_)⟩
    intro id handler' hnext hends
    cases hnext
    exact hends

/-- A stop that is announced is no longer in hand. -/
theorem resume_flushed {st st' : State} {i : ℕ} {now : ℤ} {ok : Bool}
    (hs : IngestSystem.resume findCarByDeviceId st i now ok = some st') {deviceId sid : String}
    {car : CarRef} {row : SessionRef}
    (hhandler : st.handlers i = some (.stopFlush deviceId sid car (some row))) (id : ℕ) :
    ¬ Closing st' id i := by
  simp only [IngestSystem.resume, hhandler, Option.bind_some, Option.some.injEq] at hs
  intro hc
  obtain ⟨handler, hnext, hends⟩ := hc
  rw [← hs] at hnext
  replace hnext : Function.update st.handlers i (some (Handler.stopAnnounce deviceId sid)) i =
    some handler := hnext
  rw [Function.update_self, Option.some.injEq] at hnext
  rw [← hnext] at hends
  exact hends

theorem Lifecycle.resume {st st' : State} {g : Ledger} (hl : Lifecycle st) (hi : Inv st)
    (hg : Attributed findCarByDeviceId st g) {i : ℕ} {now : ℤ} {ok : Bool}
    (hstarts : StartsRunning st (.resume i now ok))
    (hs : IngestSystem.resume findCarByDeviceId st i now ok = some st') : Lifecycle st' := by
  obtain ⟨handler, next, -, -, -, hann⟩ := resume_effect hs
  obtain ⟨hlive, hclosing⟩ := resume_closing hi hg.traced hs
  apply hl.step i hann ?_ (fun id hid => .inl (hlive id hid)) hclosing ?_
  · simp only [IngestProvenance.announcing]
    split
    · rename_i j _
      cases st.found j with
      | none => exact Nat.zero_le _
      | some context => exact Nat.le_refl _
    · exact Nat.le_refl _
    · exact Nat.zero_le _
  · intro a ha
    have hstart := hstarts a ha
    simp only [IngestProvenance.announcing] at ha
    split at ha
    · rename_i j _
      obtain ⟨context, -, rfl⟩ : ∃ context, st.found j = some context ∧
          (⟨context.carId, context.sessionId, .start⟩ : Announcement) = a := by simpa using ha
      refine ⟨?_, fun hevent => by cases hevent⟩
      rcases hstart rfl with hrunning | ⟨h, hc⟩
      · exact (hl.live _ hrunning).1
      · exact hl.closing _ h hc
    · rename_i deviceId sid car row hhandler
      rw [List.mem_singleton.mp ha]
      have hc : Closing st row.id i := ⟨_, hhandler, rfl⟩
      refine ⟨hl.closing _ i hc, fun _ => ⟨?_, ?_⟩⟩
      · intro hrunning
        exact (hl.live _ (hlive _ hrunning)).2 i hc
      · intro h hc'
        rcases hclosing _ h hc' with hold | ⟨-, hrunning, -⟩
        · obtain rfl := hl.one _ i h hc hold
          exact resume_flushed hs hhandler _ hc'
        · exact (hl.live _ hrunning).2 i hc
    · cases ha

theorem lifecycle_step {st st' : State} {g : Ledger} {e : IngestSystem.Event} (hl : Lifecycle st)
    (hi : Inv st) (hg : Attributed findCarByDeviceId st g) (hstarts : StartsRunning st e)
    (h : IngestSystem.step isUUID findCarByDeviceId st e = some st') : Lifecycle st' := by
  have hann := step_announced h
  have hnone : ∀ a ∈ ([] : List Announcement), ¬ Stopped st a.sessionId ∧ (a.event = .stop →
      ¬ Live st' a.sessionId ∧ ∀ h, ¬ Closing st' a.sessionId h) := by
    intro a ha
    cases ha
  cases e with
  | deliver now deviceId topic payload =>
    cases h
    apply hl.step 0 hann (Nat.zero_le _) ?_ (fun id h hc => .inl (deliver_closing _ _ _ _ _ hc)) hnone
    intro id hlive
    obtain ⟨row, hrow, hrunning⟩ := hlive
    rw [(deliver_frame st now deviceId payload topic).1] at hrow
    exact .inl ⟨row, hrow, hrunning⟩
  | query i now ok =>
    apply hl.step 0 hann (Nat.zero_le _) ?_ (fun id h' hc => .inl (query_closing hg.traced h hc)) hnone
    intro id hlive
    rcases query_live h hlive with hlive | hfresh
    · exact .inl hlive
    · exact .inr (fresh_free hi hg hfresh)
  | resume i now ok => exact hl.resume hi hg hstarts h
  | sweep now =>
    cases h
    exact hl.step 0 hann (Nat.zero_le _) (fun id hlive => .inl hlive) (fun id h hc => .inl hc) hnone
  | restart =>
    cases h
    apply hl.step 0 hann (Nat.zero_le _) (fun id hlive => .inl hlive) ?_ hnone
    intro id h hc
    obtain ⟨handler, hhandler, -⟩ := hc
    cases hhandler

/-- **Sessions start and stop in order**: in a run that announces no start of a closed session, a
session has one stop at most and nothing is announced of it after that. -/
theorem events_ordered (es : List IngestSystem.Event) (st : State)
    (hstarts : Meets (IngestSystem.step isUUID findCarByDeviceId) StartsRunning init es)
    (h : run (IngestSystem.step isUUID findCarByDeviceId) init es = some st) :
    Ordered st.announced := by
  have hinv : Lifecycle st ∧ Inv st ∧ ∃ g, Attributed findCarByDeviceId st g := by
    apply run_invariant _
      (I := fun st => Lifecycle st ∧ Inv st ∧ ∃ g, Attributed findCarByDeviceId st g)
      ?_ es init st ⟨lifecycle_init, inv_init, Ledger.empty, attributed_init⟩ hstarts h
    intro st e st' hst hstart hs
    obtain ⟨hl, hi, g, hg⟩ := hst
    exact ⟨lifecycle_step hl hi hg hstart hs, inv_step hi hs, _, attributed_step hg hs⟩
  exact hinv.1.ordered

end Steps

section Example

/-- The start of a session that is LIVE, as a test. -/
def startsLive (st : State) (e : IngestSystem.Event) : Bool :=
  (IngestProvenance.announcing st e).all fun a => a.event = .stop ||
    st.sessions.any fun row => row.id = a.sessionId && row.status = .live

theorem startsRunning_of_startsLive (st : State) (e : IngestSystem.Event)
    (h : startsLive st e = true) : StartsRunning st e := by
  intro a ha hevent
  have hlive := List.all_eq_true.mp h a ha
  simp only [hevent, reduceCtorEq, decide_false, Bool.false_or, List.any_eq_true,
    Bool.and_eq_true, decide_eq_true_eq] at hlive
  exact .inl hlive

def exampleStart (mono : ℚ) : Json :=
  .obj [("v", .num 1), ("sid", .str exampleSid), ("event", .str "start"), ("mono", .num mono)]

/-- A run starts and stops. -/
def oneRun : List IngestSystem.Event :=
  [.deliver 1000 "car-7" .session (exampleStart 500), .query 0 1000 true, .query 0 1000 true,
    .query 0 1000 true, .resume 0 1000 true,
    .deliver 2000 "car-7" .session (exampleStop 1500), .resume 1 2000 true, .resume 1 2000 true,
    .resume 1 2000 true, .resume 1 2000 true, .resume 1 2000 true]

theorem events_ordered_oneRun :
    ∃ st, run (IngestSystem.step (· == exampleSid) exampleCars) init oneRun = some st ∧
      Ordered st.announced := by
  have hrun : (run (IngestSystem.step (· == exampleSid) exampleCars) init oneRun).isSome =
      true := by decide
  have hcheck : check (IngestSystem.step (· == exampleSid) exampleCars) startsLive init oneRun =
      true := by decide
  obtain ⟨st, hst⟩ := Option.isSome_iff_exists.mp hrun
  exact ⟨st, hst, events_ordered oneRun st (meets_of_check _ startsRunning_of_startsLive hcheck) hst⟩

/-- The broker delivers the start of that run once more. -/
def startAgain : List IngestSystem.Event :=
  oneRun ++ [.deliver 3000 "car-7" .session (exampleStart 500), .query 1 3000 true,
    .query 1 3000 true, .resume 2 3000 true]

/-- **A finished run is announced as running again.** -/
theorem startAgain_unordered : ¬ ∀ (es : List IngestSystem.Event) (st : State),
    run (IngestSystem.step (· == exampleSid) exampleCars) init es = some st →
    Ordered st.announced := by
  intro h
  have hrun : (run (IngestSystem.step (· == exampleSid) exampleCars) init startAgain).map
      (·.announced) = some [⟨1, 1, .start⟩, ⟨1, 1, .stop⟩, ⟨1, 1, .start⟩] := by
    decide
  obtain ⟨st, hst, hann⟩ := Option.map_eq_some_iff.mp hrun
  have hordered := h startAgain st hst
  rw [hann, Ordered, List.pairwise_cons, List.pairwise_cons] at hordered
  exact hordered.2.1 _ List.mem_cons_self rfl rfl

end Example

end TelemetryCloud.IngestLifecycle
