import TelemetryCloud.IngestProvenance
import TelemetryCloud.IngestWriter

/-!
# Replay

A device delivers a frame of its run as often as it likes, live or in backfill batches.  Every
delivery is placed by the one session row of the run, so where that row has a clock it comes out under
one and the same `(session_id, seq, time)`, and the unique index keeps the first of them.

* `fed_run` : every frame a handler is at work on was delivered by its publisher;
* `same_context` : the frames of one run are placed by one and the same context;
* `replayed_iff` : **in which runs the stored rows are the delivered frames, each once**.
-/

namespace TelemetryCloud.IngestReplay

open IngestWire IngestService IngestSystem IngestWriter IngestProvenance Runs

/-! ### What was delivered -/

/-- The frames a handler has yet to place. -/
def pendingFrames : Handler → List TelemetryFrame
  | .frame frame _ => [frame]
  | .backfill batch _ => batch.ownFrames
  | _ => []

section Feeding

variable (isUUID : String → Bool)

/-- The frames of its run a message brings, each with the device that published it. -/
def delivering : IngestSystem.Event → List (String × TelemetryFrame)
  | .deliver _ deviceId .telemetry payload =>
    match parse (decodeFrame isUUID) payload with
    | .ok frame => [(deviceId, frame)]
    | .error _ => []
  | .deliver _ deviceId .backfill payload =>
    match parse (decodeBatch isUUID) payload with
    | .ok batch => batch.runFrames.map (deviceId, ·)
    | .error _ => []
  | _ => []

def deliveries (es : List IngestSystem.Event) : List (String × TelemetryFrame) :=
  es.flatMap (delivering isUUID)

variable {isUUID} {findCarByDeviceId : String → Option CarRef}

theorem holding_pendingFrames : Holding isUUID pendingFrames (delivering isUUID) where
  awaits := by
    intro now deviceId payload topic sid handler h i frame hframe
    cases h with
    | frame f hp =>
      rw [List.mem_singleton.mp hframe]
      simp only [delivering, hp, List.mem_singleton]
    | backfill batch hp =>
      simp only [delivering, hp]
      exact List.mem_map_of_mem (BackfillBatch.ownFrames_subset hframe)
    | start => cases hframe
  stops := by
    intro handler h
    cases handler with
    | frame | backfill | start => exact absurd h id
    | _ => rfl

/-- What a handler places, it had to place. -/
theorem placing_pending {st : State} {i : ℕ} {now : ℤ} {ok : Bool}
    {p : SessionContext × TelemetryFrame} (hp : p ∈ IngestSystem.placing st (.resume i now ok)) :
    ∃ handler, st.handlers i = some handler ∧ p.2 ∈ pendingFrames handler := by
  simp only [IngestSystem.placing] at hp
  split at hp
  · rename_i frame j hhandler
    refine ⟨_, hhandler, ?_⟩
    obtain ⟨context, -, rfl⟩ : ∃ context, st.found j = some context ∧ (context, frame) = p := by
      simpa using hp
    exact List.mem_cons_self
  · rename_i batch j hhandler
    refine ⟨_, hhandler, ?_⟩
    obtain ⟨context, -, hp⟩ := List.mem_flatMap.mp hp
    obtain ⟨frame, hframe, rfl⟩ := List.mem_map.mp hp
    exact hframe
  · cases hp

/-- **Every frame that was placed was delivered**, in every run. -/
theorem fed_run (es : List IngestSystem.Event) :
    ∀ st, run (IngestSystem.step isUUID findCarByDeviceId) init es = some st →
      ∀ t ∈ (ledger isUUID findCarByDeviceId es).placed,
        ∃ d, t.1 = some d ∧ (d, t.2.2) ∈ deliveries isUUID es := by
  induction es using List.reverseRecOn with
  | nil =>
    intro st h t ht
    cases ht
  | append_singleton es e ih =>
    intro st h t ht
    obtain ⟨mid, hmid, hlast⟩ := (run_snoc_eq_some _).mp h
    rw [ledger, history_snoc _ record Ledger.empty hmid hlast] at ht
    rw [deliveries, List.flatMap_append]
    rcases List.mem_append.mp ht with ht | ht
    · obtain ⟨d, hd, hmem⟩ := ih mid hmid t ht
      exact ⟨d, hd, List.mem_append_left _ hmem⟩
    · obtain ⟨p, hp, rfl⟩ := List.mem_map.mp ht
      cases e with
      | resume i now ok =>
        obtain ⟨handler, hhandler, hframe⟩ := placing_pending hp
        obtain ⟨d, hd, hmem⟩ :=
          held_run holding_pendingFrames es mid hmid i handler hhandler p.2 hframe
        exact ⟨d, hd, List.mem_append_left _ hmem⟩
      | _ => cases hp

end Feeding

/-! ### The key of a frame -/

section Keys

variable {findCarByDeviceId : String → Option CarRef}

/-- A frame that was placed: its publisher, the context that placed it and the frame. -/
abbrev PlacedFrame : Type := Option String × SessionContext × TelemetryFrame

/-- The row is the one of a frame the device delivered: of the session of that run and that car, at
the instant a context that placed a frame of the run gives the counter of the frame. -/
def IsRowOf (findCarByDeviceId : String → Option CarRef) (st : State) (placed : List PlacedFrame)
    (p : String × TelemetryFrame) (row : TelemetrySample) : Prop :=
  ∃ car, findCarByDeviceId p.1 = some car ∧ ∃ t ∈ placed, t.2.2.sid = p.2.sid ∧
    Placed st p.2.sid t.2.1 ∧ t.2.1.carId = car.id ∧ row.sessionId = t.2.1.sessionId ∧
    row.seq = p.2.seq ∧ ∃ instant ∈ t.2.1.instant p.2.mono, row.time = some instant

/-- The frame is of a run of the device's own car: its `sid` is not another car's. -/
def OwnRun (findCarByDeviceId : String → Option CarRef) (st : State)
    (p : String × TelemetryFrame) : Prop :=
  ∃ car, findCarByDeviceId p.1 = some car ∧
    ∀ m ∈ marks st, m.sid = some p.2.sid → m.carId = car.id

/-- Replaying the run is idempotent: the frames of one run are placed in one session and as far
apart as their counters, and the table has exactly one row for each frame that was delivered. -/
structure Replayed (findCarByDeviceId : String → Option CarRef) (st : State)
    (placed : List PlacedFrame) (delivered : List (String × TelemetryFrame))
    (table : List TelemetrySample) : Prop where
  clock : ∀ t ∈ placed, ∀ u ∈ placed, t.2.2.sid = u.2.2.sid →
    (toSample t.2.1 t.2.2).sessionId = (toSample u.2.1 u.2.2).sessionId ∧
      ∃ x y, (toSample t.2.1 t.2.2).time = some x ∧ (toSample u.2.1 u.2.2).time = some y ∧
        x - y = (t.2.2.mono : ℤ) - u.2.2.mono
  keys : table.Pairwise fun a b => sameKey a b = false
  sound : ∀ row ∈ table, ∃ p ∈ delivered, IsRowOf findCarByDeviceId st placed p row
  complete : ∀ p ∈ delivered, OwnRun findCarByDeviceId st p →
    ∃ row ∈ table, IsRowOf findCarByDeviceId st placed p row

/-- A session without a clock was opened by a batch that begins with an array, and a context of it
counts from the message it was loaded for: those that placed frames all count from one reading. -/
def OneClock (st : State) (placed : List PlacedFrame) : Prop :=
  ∀ session ∈ st.sessions, session.deviceMonoStartMs = none →
    ∀ t ∈ placed, ∀ u ∈ placed, t.2.1.sessionId = session.id → u.2.1.sessionId = session.id →
      t.2.1.monoStartMs = u.2.1.monoStartMs

section Fits

variable (acceptsReal : ℚ → Bool) (acceptsJsonb : List (String × Json) → Bool)

/-- The frame fits every column: its lap and lap time are below `2 ^ 31`, its sequence number below
`2 ^ 63`, its instant one that both `Date` and `TIMESTAMPTZ` hold, and PostgreSQL reads its
channels. -/
def Fits (p : SessionContext × TelemetryFrame) : Prop :=
  ((∀ lap ∈ p.2.lap, lap ≤ 2147483647) ∧ (∀ lapMs ∈ p.2.lapMs, lapMs ≤ 2147483647) ∧
    p.2.seq ≤ 9223372036854775807 ∧
    ∃ t ∈ p.1.instant p.2.mono, MIN_TIMESTAMP_MS ≤ t ∧ t ≤ MAX_DATE_MS) ∧
  acceptsFrame acceptsReal acceptsJsonb p.2 = true

variable {acceptsReal acceptsJsonb}

theorem storable_iff_fits (p : SessionContext × TelemetryFrame) :
    storable acceptsReal acceptsJsonb (toSample p.1 p.2) = true ↔
      Fits acceptsReal acceptsJsonb p := by
  rw [storable, Bool.and_eq_true, fitsColumns_toSample_iff, fitsChannels_toSample]
  rfl

/-- An instant that fits its column is a `Date`. -/
theorem Fits.time {p : SessionContext × TelemetryFrame} (h : Fits acceptsReal acceptsJsonb p) :
    ∃ t ∈ p.1.instant p.2.mono, (toSample p.1 p.2).time = some t := by
  obtain ⟨⟨-, -, -, t, ht, hlo, hhi⟩, -⟩ := h
  refine ⟨t, ht, ?_⟩
  show (p.1.instant p.2.mono).bind date = some t
  rw [Option.mem_def.mp ht, Option.bind_some, date, if_pos]
  simp only [MIN_TIMESTAMP_MS, MAX_DATE_MS] at hlo hhi ⊢
  omega

end Fits

/-- Contexts of one session are of one run, and of the same row. -/
theorem same_run {st : State} (hi : Inv st) {sid sid' : String} {a b : SessionContext}
    (ha : Placed st sid a) (hb : Placed st sid' b) (hid : a.sessionId = b.sessionId) :
    sid = sid' ∧ a.anchorMs = b.anchorMs := by
  have hnodup : (st.sessions.map (·.id)).Nodup := by
    have hdistinct := hi.distinct
    rwa [State.anchors, List.map_map] at hdistinct
  obtain ⟨clock, ha, -⟩ := ha
  obtain ⟨clock', hb, -⟩ := hb
  obtain ⟨r, hr, hra⟩ := List.mem_map.mp ha
  obtain ⟨s, hs, hsb⟩ := List.mem_map.mp hb
  have hrs : r = s := by
    apply List.inj_on_of_nodup_map hnodup hr hs
    have hrid : r.id = a.sessionId := congrArg Mark.id hra
    have hsid : s.id = b.sessionId := congrArg Mark.id hsb
    rw [hrid, hsid, hid]
  rw [hrs, hsb] at hra
  simp only [Mark.mk.injEq, Option.some.injEq] at hra
  obtain ⟨-, -, hrun, hanchor, -⟩ := hra
  exact ⟨hrun.symm, hanchor.symm⟩

/-- **One run, one context**: the frames of a run are placed alike, whichever message opened the
run, whichever opener won the race for its row and whichever generation of the cache serves them. -/
theorem same_context {st : State} {g : Ledger} (hg : Attributed findCarByDeviceId st g)
    (hclock : OneClock st g.placed) {t u : PlacedFrame} (ht : t ∈ g.placed) (hu : u ∈ g.placed)
    (hsid : t.2.2.sid = u.2.2.sid) : t.2.1 = u.2.1 := by
  obtain ⟨-, -, -, -, -, clock, hmt, hct⟩ := hg.placed t ht
  obtain ⟨-, -, -, -, -, clock', hmu, hcu⟩ := hg.placed u hu
  have hmark := hg.traced.sids _ hmt _ hmu t.2.2.sid rfl (congrArg some hsid.symm)
  simp only [Mark.mk.injEq] at hmark
  obtain ⟨hid, hcar, -, hanchor, rfl⟩ := hmark
  have hmono : t.2.1.monoStartMs = u.2.1.monoStartMs := by
    cases clock with
    | some m => exact hct.symm.trans hcu
    | none =>
      obtain ⟨session, hsession, hmark⟩ := List.mem_map.mp hmt
      have hsessionId : session.id = t.2.1.sessionId := congrArg Mark.id hmark
      exact hclock session hsession (congrArg Mark.monoStartMs hmark) t ht u hu hsessionId.symm
        (hid.symm.trans hsessionId.symm)
  cases ht : t.2.1
  cases hu : u.2.1
  simp_all

end Keys

/-! ### What is stored -/

section Storing

variable {isUUID : String → Bool} {findCarByDeviceId : String → Option CarRef}
  {acceptsReal : ℚ → Bool} {acceptsJsonb : List (String × Json) → Bool}

/-- An entry of the ledger is of an own run of its publisher. -/
theorem placed_ownRun {st : State} {g : Ledger} (hg : Attributed findCarByDeviceId st g)
    {t : PlacedFrame} (ht : t ∈ g.placed) {d : String} (hd : t.1 = some d) :
    OwnRun findCarByDeviceId st (d, t.2.2) := by
  obtain ⟨d', car, hd', hcar, hown, clock, hmark, -⟩ := hg.placed t ht
  obtain rfl := Option.some.inj (hd.symm.trans hd')
  refine ⟨car, hcar, ?_⟩
  intro m hm hsid
  rw [hg.traced.sids m hm _ hmark t.2.2.sid hsid rfl]
  exact hown

/-- The sample of an entry placed in the run of a frame with its number and its counter is the
frame's row. -/
theorem isRowOf_of_same {st : State} {g : Ledger} (hg : Attributed findCarByDeviceId st g)
    {t : PlacedFrame} (ht : t ∈ g.placed) (hfits : Fits acceptsReal acceptsJsonb t.2)
    {p : String × TelemetryFrame} (hp : OwnRun findCarByDeviceId st p) (hsid : t.2.2.sid = p.2.sid)
    (hseq : t.2.2.seq = p.2.seq) (hmono : t.2.2.mono = p.2.mono) :
    IsRowOf findCarByDeviceId st g.placed p (toSample t.2.1 t.2.2) := by
  obtain ⟨car, hcar, hown⟩ := hp
  obtain ⟨d, -, -, -, -, hplaced⟩ := hg.placed t ht
  obtain ⟨instant, hinstant, htime⟩ := hfits.time
  rw [hsid] at hplaced
  rw [hmono] at hinstant
  have hcarId : t.2.1.carId = car.id := by
    obtain ⟨clock, hmark, -⟩ := hplaced
    exact hown _ hmark rfl
  exact ⟨car, hcar, t, ht, hsid, hplaced, hcarId, rfl, hseq, instant, hinstant, htime⟩

/-- Rows with one key are the rows of the same frames. -/
theorem IsRowOf.of_sameKey {st : State} {placed : List PlacedFrame} {p : String × TelemetryFrame}
    {row row' : TelemetrySample} (h : IsRowOf findCarByDeviceId st placed p row)
    (hkey : sameKey row row' = true) : IsRowOf findCarByDeviceId st placed p row' := by
  obtain ⟨car, hcar, t, ht, hsid, hplaced, hown, hid, hseq, instant, hinstant, htime⟩ := h
  simp only [sameKey, Bool.and_eq_true, decide_eq_true_eq] at hkey
  obtain ⟨⟨hid', hseq'⟩, htime'⟩ := hkey
  exact ⟨car, hcar, t, ht, hsid, hplaced, hown, hid' ▸ hid, hseq' ▸ hseq, instant, hinstant,
    htime' ▸ htime⟩

theorem all_storable_iff (batch : List PlacedFrame) :
    (batch.map fun t => toSample t.2.1 t.2.2).all (storable acceptsReal acceptsJsonb) = true ↔
      ∀ t ∈ batch, Fits acceptsReal acceptsJsonb t.2 := by
  rw [List.all_map, List.all_eq_true]
  constructor
  · intro h t ht
    exact (storable_iff_fits t.2).mp (h t ht)
  · intro h t ht
    exact (storable_iff_fits t.2).mpr (h t ht)

/-- The instant of a frame is a `Date` as soon as it is one in some delivery. -/
theorem time_of_same {st : State} {g : Ledger} (hg : Attributed findCarByDeviceId st g)
    (hclock : OneClock st g.placed) {t u : PlacedFrame} (ht : t ∈ g.placed) (hu : u ∈ g.placed)
    (hfits : Fits acceptsReal acceptsJsonb u.2) (hsid : u.2.2.sid = t.2.2.sid)
    (hmono : u.2.2.mono = t.2.2.mono) :
    ∃ instant ∈ t.2.1.instant t.2.2.mono, (toSample t.2.1 t.2.2).time = some instant := by
  obtain ⟨instant, hinstant, htime⟩ := hfits.time
  rw [same_context hg hclock hu ht hsid, hmono] at hinstant
  refine ⟨instant, hinstant, ?_⟩
  rw [← htime]
  show sampleTime t.2.1 t.2.2.mono = sampleTime u.2.1 u.2.2.mono
  rw [same_context hg hclock hu ht hsid, hmono]

/-- One context places frames as far apart as their counters. -/
theorem instant_sub {context : SessionContext} {mono mono' : ℕ} {x y : ℤ}
    (hx : x ∈ context.instant mono) (hy : y ∈ context.instant mono') :
    x - y = (mono : ℤ) - mono' := by
  obtain ⟨monoStart, hstart, rfl⟩ := Option.map_eq_some_iff.mp hx
  obtain ⟨monoStart', hstart', rfl⟩ := Option.map_eq_some_iff.mp hy
  obtain rfl := Option.some.inj (hstart.symm.trans hstart')
  omega

/-- A frame with a time has its instant. -/
theorem instant_of_time {context : SessionContext} {mono : ℕ} {x : ℤ}
    (h : sampleTime context mono = some x) : x ∈ context.instant mono := by
  obtain ⟨t, ht, hdate⟩ := Option.bind_eq_some_iff.mp h
  rw [date] at hdate
  split at hdate
  · rwa [← Option.some.inj hdate]
  · cases hdate

/-- Frames that are as far apart as their counters are placed by one clock. -/
theorem oneClock_of_clock {st : State} {g : Ledger} (hi : Inv st)
    (hg : Attributed findCarByDeviceId st g) {delivered : List (String × TelemetryFrame)}
    {table : List TelemetrySample}
    (h : Replayed findCarByDeviceId st g.placed delivered table) : OneClock st g.placed := by
  intro session hsession hnone t ht u hu hid hid'
  obtain ⟨-, -, -, -, -, hplaced⟩ := hg.placed t ht
  obtain ⟨-, -, -, -, -, hplaced'⟩ := hg.placed u hu
  obtain ⟨hsid, hanchor⟩ := same_run hi hplaced hplaced' (hid.trans hid'.symm)
  obtain ⟨-, x, y, hx, hy, hsub⟩ := h.clock t ht u hu hsid
  obtain ⟨monoStart, hstart, rfl⟩ := Option.map_eq_some_iff.mp (instant_of_time hx)
  obtain ⟨monoStart', hstart', rfl⟩ := Option.map_eq_some_iff.mp (instant_of_time hy)
  rw [hanchor] at hsub
  have hsame : monoStart = monoStart' := by omega
  rw [hstart, hstart', hsame]

/-- The sample that is the row of a frame was placed from that frame. -/
theorem frame_of_isRowOf {st : State} {g : Ledger} (hi : Inv st)
    (hg : Attributed findCarByDeviceId st g) (hclock : OneClock st g.placed) {t : PlacedFrame}
    (ht : t ∈ g.placed) (hfits : Fits acceptsReal acceptsJsonb t.2) {p : String × TelemetryFrame}
    (hrow : IsRowOf findCarByDeviceId st g.placed p (toSample t.2.1 t.2.2)) :
    t.2.2.sid = p.2.sid ∧ t.2.2.seq = p.2.seq ∧ t.2.2.mono = p.2.mono := by
  obtain ⟨car, -, u, hu, husid, hplaced, -, hid, hseq, instant, hinstant, htime⟩ := hrow
  obtain ⟨-, -, -, -, -, hplaced'⟩ := hg.placed t ht
  obtain ⟨hsid, -⟩ := same_run hi hplaced' hplaced hid
  refine ⟨hsid, hseq, ?_⟩
  obtain ⟨instant', hinstant', htime'⟩ := hfits.time
  obtain rfl := Option.some.inj (htime'.symm.trans htime)
  rw [same_context hg hclock ht hu (hsid.trans husid.symm)] at hinstant'
  have hsub := instant_sub hinstant' hinstant
  omega

/-- **In which runs replay is idempotent**, whatever of what was enqueued the writer gets to write (a
restart takes what is in its buffer) and in whatever batches: those in which every frame delivered for
a run of the device's own car comes, in at least one of its deliveries, into a batch of the writer all
of whose frames fit their columns, and the frames of a session without a clock are placed by one. -/
theorem replayed_iff (es : List IngestSystem.Event) (st : State)
    (h : run (IngestSystem.step isUUID findCarByDeviceId) init es = some st)
    (batches : List (List PlacedFrame))
    (hbatches : batches.flatten ⊆ (ledger isUUID findCarByDeviceId es).placed) :
    Replayed findCarByDeviceId st (ledger isUUID findCarByDeviceId es).placed
        (deliveries isUUID es)
        (writeAll acceptsReal acceptsJsonb
          (batches.map fun batch => batch.map fun t => toSample t.2.1 t.2.2)) ↔
      OneClock st (ledger isUUID findCarByDeviceId es).placed ∧
        ∀ p ∈ deliveries isUUID es, OwnRun findCarByDeviceId st p →
          ∃ batch ∈ batches, (∀ t ∈ batch, Fits acceptsReal acceptsJsonb t.2) ∧
            ∃ t ∈ batch, t.2.2.sid = p.2.sid ∧ t.2.2.seq = p.2.seq ∧ t.2.2.mono = p.2.mono := by
  have hg := attributed_run es st h
  have hi := inv_run es st h
  have hfed := fed_run es st h
  obtain ⟨hkeys, hsound, hcomplete⟩ := @writeAll_spec acceptsReal acceptsJsonb
    (batches.map fun batch => batch.map fun t => toSample t.2.1 t.2.2)
  have hmem : ∀ {batch : List PlacedFrame}, batch ∈ batches → ∀ t ∈ batch,
      t ∈ (ledger isUUID findCarByDeviceId es).placed :=
    fun hbatch t ht => hbatches (List.mem_flatten_of_mem hbatch ht)
  -- every row of the table comes from an entry of a batch that fits
  have hrows : ∀ row ∈ writeAll acceptsReal acceptsJsonb
      (batches.map fun batch => batch.map fun t => toSample t.2.1 t.2.2),
      ∃ batch ∈ batches, (∀ t ∈ batch, Fits acceptsReal acceptsJsonb t.2) ∧
        ∃ t ∈ batch, toSample t.2.1 t.2.2 = row := by
    intro row hrow
    obtain ⟨_, hsamples, hall, hrow⟩ := hsound row hrow
    obtain ⟨batch, hbatch, rfl⟩ := List.mem_map.mp hsamples
    exact ⟨batch, hbatch, (all_storable_iff batch).mp hall, List.mem_map.mp hrow⟩
  constructor
  · intro hreplayed
    have hclock := oneClock_of_clock hi hg hreplayed
    refine ⟨hclock, fun p hp hown => ?_⟩
    obtain ⟨row, hrow, hkey⟩ := hreplayed.complete p hp hown
    obtain ⟨batch, hbatch, hfits, t, ht, rfl⟩ := hrows row hrow
    exact ⟨batch, hbatch, hfits, t, ht,
      frame_of_isRowOf hi hg hclock (hmem hbatch t ht) (hfits t ht) hkey⟩
  · rintro ⟨hclock, hcond⟩
    have htime : ∀ t ∈ (ledger isUUID findCarByDeviceId es).placed,
        ∃ instant ∈ t.2.1.instant t.2.2.mono, (toSample t.2.1 t.2.2).time = some instant := by
      intro t ht
      obtain ⟨d, hd, hdelivered⟩ := hfed t ht
      obtain ⟨batch, hbatch, hfits, u, hu, hsid, -, hmono⟩ :=
        hcond _ hdelivered (placed_ownRun hg ht hd)
      exact time_of_same hg hclock ht (hmem hbatch u hu) (hfits u hu) hsid hmono
    refine ⟨?_, hkeys, ?_, ?_⟩
    · intro t ht u hu hsid
      have hsame := same_context hg hclock ht hu hsid
      obtain ⟨x, hx, htimex⟩ := htime t ht
      obtain ⟨y, hy, htimey⟩ := htime u hu
      rw [← hsame] at hy
      exact ⟨congrArg SessionContext.sessionId hsame, x, y, htimex, htimey, instant_sub hx hy⟩
    · intro row hrow
      obtain ⟨batch, hbatch, hfits, t, ht, rfl⟩ := hrows row hrow
      obtain ⟨d, hd, hdelivered⟩ := hfed t (hmem hbatch t ht)
      exact ⟨_, hdelivered, isRowOf_of_same hg (hmem hbatch t ht) (hfits t ht)
        (placed_ownRun hg (hmem hbatch t ht) hd) rfl rfl rfl⟩
    · intro p hp hown
      obtain ⟨batch, hbatch, hfits, t, ht, hsid, hseq, hmono⟩ := hcond p hp hown
      have hrow := isRowOf_of_same hg (hmem hbatch t ht) (hfits t ht) hown hsid hseq hmono
      obtain ⟨row, hstored, hkey⟩ := hcomplete _ (List.mem_map_of_mem hbatch)
        ((all_storable_iff batch).mpr hfits) _ (List.mem_map_of_mem ht)
      exact ⟨row, hstored, hrow.of_sameKey hkey⟩

end Storing

section Example

/-- A frame reaches ingest live, the process restarts, and the frame comes again in a batch. -/
def replayedFrame : List IngestSystem.Event :=
  [.deliver 1000 "car-7" .telemetry (exampleFrame 1 0 500), .query 0 1000 true,
    .query 0 1000 true, .query 0 1000 true, .resume 0 1000 true, .restart,
    .deliver 2000 "car-7" .backfill (exampleBatch [exampleFrame 1 0 500]),
    .query 1 2000 true, .query 1 2000 true, .resume 1 2000 true]

/-- What the writer makes of the run when it takes all of it in one batch. -/
def exampleTable (es : List IngestSystem.Event) : List TelemetrySample :=
  writeAll (fun _ => true) (fun _ => true)
    ([(ledger (· == exampleSid) exampleCars es).placed].map fun batch =>
      batch.map fun t => toSample t.2.1 t.2.2)

/-- The frame is placed twice and stored once. -/
theorem replayed_iff_replayedFrame :
    ∃ st, run (IngestSystem.step (· == exampleSid) exampleCars) init replayedFrame = some st ∧
      (ledger (· == exampleSid) exampleCars replayedFrame).placed.length = 2 ∧
      (exampleTable replayedFrame).length = 1 ∧
      Replayed exampleCars st (ledger (· == exampleSid) exampleCars replayedFrame).placed
        (deliveries (· == exampleSid) replayedFrame) (exampleTable replayedFrame) := by
  have hrun : (run (IngestSystem.step (· == exampleSid) exampleCars) init replayedFrame).map
      (fun st => st.sessions.map (·.deviceMonoStartMs)) = some [some 500] := by decide
  have hfits : (ledger (· == exampleSid) exampleCars replayedFrame).placed.all (fun t =>
      storable (fun _ => true) (fun _ => true) (toSample t.2.1 t.2.2)) = true := by decide
  have hdelivered : (deliveries (· == exampleSid) replayedFrame).all (fun p =>
      (ledger (· == exampleSid) exampleCars replayedFrame).placed.any fun t =>
        t.2.2.sid = p.2.sid && t.2.2.seq = p.2.seq && t.2.2.mono = p.2.mono) = true := by decide
  obtain ⟨st, hst, hclocks⟩ := Option.map_eq_some_iff.mp hrun
  refine ⟨st, hst, by decide, by decide,
    (replayed_iff replayedFrame st hst _ (by simp)).mpr ⟨?_, ?_⟩⟩
  · intro session hsession hnone
    have hclock := List.mem_map_of_mem (f := (·.deviceMonoStartMs)) hsession
    rw [hclocks, hnone] at hclock
    cases List.mem_singleton.mp hclock
  · intro p hp _
    obtain ⟨t, ht, hsame⟩ := List.any_eq_true.mp (List.all_eq_true.mp hdelivered p hp)
    simp only [Bool.and_eq_true, decide_eq_true_eq, and_assoc] at hsame
    exact ⟨_, List.mem_singleton_self _,
      fun t ht => (storable_iff_fits t.2).mp (List.all_eq_true.mp hfits t ht), t, ht, hsame⟩

/-- A frame of a lap no `INTEGER` column holds. -/
def hugeLapRun : List IngestSystem.Event :=
  [.deliver 1000 "car-7" .telemetry hugeLapFrame, .query 0 1000 true, .query 0 1000 true,
    .query 0 1000 true, .resume 0 1000 true]

/-- **A frame that is delivered and never stored.** -/
theorem hugeLapRun_unstored :
    ¬ ∀ (es : List IngestSystem.Event) (st : State)
      (batches : List (List PlacedFrame)),
      run (IngestSystem.step (· == exampleSid) exampleCars) init es = some st →
      batches.flatten = (ledger (· == exampleSid) exampleCars es).placed →
      Replayed exampleCars st (ledger (· == exampleSid) exampleCars es).placed
        (deliveries (· == exampleSid) es)
        (writeAll (fun _ => true) (fun _ => true)
          (batches.map fun batch => batch.map fun t => toSample t.2.1 t.2.2)) := by
  intro h
  have hrun : (run (IngestSystem.step (· == exampleSid) exampleCars) init hugeLapRun).map
      marks = some [⟨1, 1, some exampleSid, 1000, some 500⟩] := by decide
  obtain ⟨st, hst, hmarks⟩ := Option.map_eq_some_iff.mp hrun
  have hcount : (deliveries (· == exampleSid) hugeLapRun).map (fun p => (p.1, p.2.sid)) =
      [("car-7", exampleSid)] := by decide
  have hunfit : (ledger (· == exampleSid) exampleCars hugeLapRun).placed.map
      (fun t => storable (fun _ => true) (fun _ => true) (toSample t.2.1 t.2.2)) = [false] := by
    decide
  obtain ⟨p, hp⟩ : ∃ p, deliveries (· == exampleSid) hugeLapRun = [p] := by
    apply List.length_eq_one_iff.mp
    rw [← List.length_map (fun p : String × TelemetryFrame => (p.1, p.2.sid)), hcount]
    rfl
  rw [hp, List.map_singleton, List.cons.injEq, Prod.mk.injEq] at hcount
  have hreplayed := h hugeLapRun st [(ledger (· == exampleSid) exampleCars hugeLapRun).placed] hst
    (List.append_nil _)
  obtain ⟨row, hrow, -⟩ := hreplayed.complete p (by rw [hp]; exact List.mem_cons_self) (by
    refine ⟨⟨1, 2⟩, ?_, ?_⟩
    · rw [hcount.1.1]
      rfl
    · intro m hm _
      rw [hmarks, List.mem_singleton] at hm
      rw [hm])
  obtain ⟨t, ht⟩ : ∃ t, (ledger (· == exampleSid) exampleCars hugeLapRun).placed = [t] := by
    apply List.length_eq_one_iff.mp
    rw [← List.length_map (fun t : PlacedFrame =>
      storable (fun _ => true) (fun _ => true) (toSample t.2.1 t.2.2)), hunfit]
    rfl
  rw [ht, List.map_singleton, List.cons.injEq] at hunfit
  rw [ht, List.map_singleton, List.map_singleton, writeAll, List.foldl_cons, List.foldl_nil,
    write_drops List.mem_cons_self hunfit.1] at hrow
  cases hrow

/-- A batch that begins with an array opens the session without a clock, and the context loaded after
each restart counts from its own message: a frame delivered twice is stored twice. -/
example :
    (exampleTable [.deliver 1000 "car-7" .backfill (exampleBatch [.arr []]), .query 0 1000 true,
      .query 0 1000 true, .query 0 1000 true, .resume 0 1000 true, .restart,
      .deliver 2000 "car-7" .telemetry (exampleFrame 1 0 500), .query 1 2000 true,
      .query 1 2000 true, .resume 1 2000 true, .restart,
      .deliver 3000 "car-7" .telemetry (exampleFrame 1 1 700), .query 2 3000 true,
      .query 2 3000 true, .resume 2 3000 true,
      .deliver 3000 "car-7" .telemetry (exampleFrame 1 0 500), .resume 3 3000 true]).map
      (fun row => (row.seq, row.time)) = [(0, some 1000), (1, some 1000), (0, some 800)] := by
  decide

end Example

end TelemetryCloud.IngestReplay
