import TelemetryCloud.IngestService
import Mathlib.Data.List.Induction

/-!
# The writer: what one batch stores

`TelemetryWriterService.write` is one multi-row `INSERT … ON CONFLICT DO NOTHING` into
`telemetry_samples`.  PostgreSQL takes it as a whole: a value that does not fit its column fails the
statement, and the batch, which mixes the samples of all cars, is dropped.

* `fitsColumns_toSample_iff` : which frames give a row that fits its integer and time columns;
* `write_stores`, `write_drops` : what one statement stores;
* `writeAll_spec` : what one flush after the other stores;
* `frame_storable_iff` : **which validated frames fit their columns and cost no other car its
  samples**.

`acceptsReal` and `acceptsJsonb` stand for PostgreSQL's reading of a number into a `real` column and
of an object into a `jsonb` column.
-/

namespace TelemetryCloud.IngestWriter

open IngestWire IngestService

/-! ### The columns -/

/-- `INTEGER`. -/
def fitsInteger (n : ℤ) : Bool := -2147483648 ≤ n && n ≤ 2147483647

/-- `BIGINT`. -/
def fitsBigint (n : ℤ) : Bool := -9223372036854775808 ≤ n && n ≤ 9223372036854775807

/-- The first instant of `TIMESTAMPTZ`, the start of Julian day 0, in milliseconds. -/
def MIN_TIMESTAMP_MS : ℤ := -210866803200000

/-- `TIMESTAMPTZ NOT NULL`, up to the end of the year 294276. -/
def fitsTimestamptz : Option ℤ → Bool
  | none => false
  | some t => MIN_TIMESTAMP_MS ≤ t && t < 9224318016000000

/-- A nullable column. -/
def nullable {α : Type} (fits : α → Bool) : Option α → Bool
  | none => true
  | some a => fits a

/-- The columns of `telemetry_samples` whose range is a range of integers or instants. -/
def fitsColumns (sample : TelemetrySample) : Bool :=
  fitsTimestamptz sample.time && fitsBigint sample.seq &&
    nullable (fun rpm => fitsInteger rpm.1) sample.rpm &&
    nullable (fun n : ℕ => fitsInteger n) sample.lapNumber &&
    nullable (fun n : ℕ => fitsInteger n) sample.lapMs

section Columns

variable (acceptsReal : ℚ → Bool) (acceptsJsonb : List (String × Json) → Bool)

/-- The `REAL` and `JSONB` columns.  A latitude and a longitude always fit `DOUBLE PRECISION`. -/
def fitsChannels (sample : TelemetrySample) : Bool :=
  nullable acceptsReal sample.coolantC && nullable acceptsReal sample.oilC &&
    nullable (fun v => acceptsReal v.1) sample.speedKmh && nullable acceptsReal sample.gLat &&
    nullable acceptsReal sample.gLon && nullable acceptsReal sample.gVert &&
    nullable acceptsJsonb sample.ext

/-- The row fits every column. -/
def storable (sample : TelemetrySample) : Bool :=
  fitsColumns sample && fitsChannels acceptsReal acceptsJsonb sample

/-- Two samples the unique index `(session_id, seq, time)` does not tell apart. -/
def sameKey (a b : TelemetrySample) : Bool :=
  a.sessionId = b.sessionId && a.seq = b.seq && a.time = b.time

/-- One row of `INSERT … ON CONFLICT DO NOTHING`. -/
def insertIgnore (table : List TelemetrySample) (sample : TelemetrySample) :
    List TelemetrySample :=
  if table.any (sameKey sample) then table else table ++ [sample]

/-- `TelemetryWriterService.write`. -/
def write (table batch : List TelemetrySample) : List TelemetrySample :=
  if batch.all (storable acceptsReal acceptsJsonb) then batch.foldl insertIgnore table else table

/-- The table holds the sample, or the row it duplicates. -/
def Stored (table : List TelemetrySample) (sample : TelemetrySample) : Prop :=
  ∃ row ∈ table, sameKey sample row = true

end Columns

theorem sameKey_refl (sample : TelemetrySample) : sameKey sample sample = true := by
  simp [sameKey]

theorem stored_insertIgnore {table : List TelemetrySample} {sample : TelemetrySample}
    (added : TelemetrySample) (h : Stored table sample) :
    Stored (insertIgnore table added) sample := by
  obtain ⟨row, hrow, hkey⟩ := h
  refine ⟨row, ?_, hkey⟩
  unfold insertIgnore
  split
  · exact hrow
  · exact List.mem_append_left _ hrow

theorem insertIgnore_stored (table : List TelemetrySample) (sample : TelemetrySample) :
    Stored (insertIgnore table sample) sample := by
  unfold insertIgnore
  split
  · rename_i hany
    obtain ⟨row, hrow, hkey⟩ := List.any_eq_true.mp hany
    exact ⟨row, hrow, hkey⟩
  · exact ⟨sample, List.mem_append_right _ List.mem_cons_self, sameKey_refl sample⟩

/-- What is in the table, and every row of the statement, is in the table afterwards. -/
theorem stored_foldl_insertIgnore (batch table : List TelemetrySample) :
    (∀ sample, Stored table sample → Stored (batch.foldl insertIgnore table) sample) ∧
      ∀ sample ∈ batch, Stored (batch.foldl insertIgnore table) sample := by
  induction batch generalizing table with
  | nil => exact ⟨fun _ h => h, fun _ h => by cases h⟩
  | cons first rest ih =>
    obtain ⟨hkeep, hrest⟩ := ih (insertIgnore table first)
    refine ⟨fun sample h => hkeep sample (stored_insertIgnore first h), ?_⟩
    intro sample hsample
    rcases List.mem_cons.mp hsample with rfl | hsample
    · exact hkeep _ (insertIgnore_stored table _)
    · exact hrest sample hsample

section Write

variable {acceptsReal : ℚ → Bool} {acceptsJsonb : List (String × Json) → Bool}

/-- A batch whose rows all fit is stored. -/
theorem write_stores {batch : List TelemetrySample}
    (h : batch.all (storable acceptsReal acceptsJsonb) = true) (table : List TelemetrySample) :
    ∀ sample ∈ batch, Stored (write acceptsReal acceptsJsonb table batch) sample := by
  rw [write, if_pos h]
  exact (stored_foldl_insertIgnore batch table).2

/-- A batch with a row that does not fit is dropped. -/
theorem write_drops {batch : List TelemetrySample} {sample : TelemetrySample}
    (hmem : sample ∈ batch) (h : storable acceptsReal acceptsJsonb sample = false)
    (table : List TelemetrySample) : write acceptsReal acceptsJsonb table batch = table := by
  rw [write, if_neg]
  intro hall
  rw [List.all_eq_true.mp hall sample hmem] at h
  cases h

/-- One row leaves the unique index with nothing to tell apart. -/
theorem insertIgnore_keys {table : List TelemetrySample}
    (h : table.Pairwise fun a b => sameKey a b = false) (sample : TelemetrySample) :
    (insertIgnore table sample).Pairwise fun a b => sameKey a b = false := by
  unfold insertIgnore
  split
  · exact h
  · rename_i hany
    refine Lists.pairwise_concat_iff.mpr ⟨h, fun row hrow => ?_⟩
    by_contra hkey
    rw [Bool.not_eq_false] at hkey
    apply hany
    apply List.any_eq_true.mpr
    refine ⟨row, hrow, ?_⟩
    simp only [sameKey, Bool.and_eq_true, decide_eq_true_eq] at hkey ⊢
    exact ⟨⟨hkey.1.1.symm, hkey.1.2.symm⟩, hkey.2.symm⟩

theorem foldl_insertIgnore_keys (batch : List TelemetrySample) {table : List TelemetrySample}
    (h : table.Pairwise fun a b => sameKey a b = false) :
    (batch.foldl insertIgnore table).Pairwise fun a b => sameKey a b = false := by
  induction batch generalizing table with
  | nil => exact h
  | cons first rest ih => exact ih (insertIgnore_keys h first)

/-- A statement adds rows of its own only. -/
theorem mem_foldl_insertIgnore {batch table : List TelemetrySample} {row : TelemetrySample}
    (h : row ∈ batch.foldl insertIgnore table) : row ∈ table ∨ row ∈ batch := by
  induction batch generalizing table with
  | nil => exact .inl h
  | cons first rest ih =>
    rcases ih h with hrow | hrow
    · unfold insertIgnore at hrow
      split at hrow
      · exact .inl hrow
      · rcases List.mem_append.mp hrow with hrow | hrow
        · exact .inl hrow
        · rw [List.mem_singleton.mp hrow]
          exact .inr List.mem_cons_self
    · exact .inr (List.mem_cons_of_mem _ hrow)

variable (acceptsReal acceptsJsonb) in
/-- The table after one flush after the other, from an empty one. -/
def writeAll (batches : List (List TelemetrySample)) : List TelemetrySample :=
  batches.foldl (write acceptsReal acceptsJsonb) []

theorem writeAll_concat (batches : List (List TelemetrySample)) (batch : List TelemetrySample) :
    writeAll acceptsReal acceptsJsonb (batches ++ [batch]) =
      write acceptsReal acceptsJsonb (writeAll acceptsReal acceptsJsonb batches) batch := by
  rw [writeAll, writeAll, List.foldl_append]
  rfl

/-- **What the flushes store**: the samples of the batches all of whose rows fit, each key once. -/
theorem writeAll_spec (batches : List (List TelemetrySample)) :
    (writeAll acceptsReal acceptsJsonb batches).Pairwise (fun a b => sameKey a b = false) ∧
      (∀ row ∈ writeAll acceptsReal acceptsJsonb batches, ∃ batch ∈ batches,
        batch.all (storable acceptsReal acceptsJsonb) = true ∧ row ∈ batch) ∧
      ∀ batch ∈ batches, batch.all (storable acceptsReal acceptsJsonb) = true →
        ∀ sample ∈ batch, Stored (writeAll acceptsReal acceptsJsonb batches) sample := by
  induction batches using List.reverseRecOn with
  | nil =>
    refine ⟨.nil, ?_, ?_⟩
    · intro row hrow
      cases hrow
    · intro batch hbatch
      cases hbatch
  | append_singleton batches last ih =>
    obtain ⟨hkeys, hsound, hcomplete⟩ := ih
    rw [writeAll_concat, write]
    split
    · rename_i hfits
      refine ⟨foldl_insertIgnore_keys last hkeys, ?_, ?_⟩
      · intro row hrow
        rcases mem_foldl_insertIgnore hrow with hrow | hrow
        · obtain ⟨batch, hbatch, hall, hmem⟩ := hsound row hrow
          exact ⟨batch, List.mem_append_left _ hbatch, hall, hmem⟩
        · exact ⟨last, List.mem_append_right _ List.mem_cons_self, hfits, hrow⟩
      · intro batch hbatch hall sample hsample
        obtain ⟨hkeep, hadds⟩ := stored_foldl_insertIgnore last
          (writeAll acceptsReal acceptsJsonb batches)
        rcases List.mem_append.mp hbatch with hbatch | hbatch
        · exact hkeep sample (hcomplete batch hbatch hall sample hsample)
        · rw [List.mem_singleton.mp hbatch] at hsample
          exact hadds sample hsample
    · rename_i hfits
      refine ⟨hkeys, ?_, ?_⟩
      · intro row hrow
        obtain ⟨batch, hbatch, hall, hmem⟩ := hsound row hrow
        exact ⟨batch, List.mem_append_left _ hbatch, hall, hmem⟩
      · intro batch hbatch hall sample hsample
        rcases List.mem_append.mp hbatch with hbatch | hbatch
        · exact hcomplete batch hbatch hall sample hsample
        · rw [List.mem_singleton.mp hbatch] at hall
          exact absurd hall hfits

variable (acceptsReal acceptsJsonb) in
/-- Whatever storable samples it shares a batch with, they are stored. -/
def SparesOthers (sample : TelemetrySample) : Prop :=
  ∀ table before after : List TelemetrySample,
    (∀ other ∈ before ++ after, storable acceptsReal acceptsJsonb other = true) →
    ∀ other ∈ before ++ after,
      Stored (write acceptsReal acceptsJsonb table (before ++ sample :: after)) other

/-- A sample with nothing but its key. -/
def bareSample (sessionId carId : ℕ) (t : ℤ) : TelemetrySample where
  time := some t
  sessionId := sessionId
  carId := carId
  seq := 0
  rpm := none
  coolantC := none
  oilC := none
  speedKmh := none
  lat := none
  lon := none
  gLat := none
  gLon := none
  gVert := none
  lapNumber := none
  lapMs := none
  ext := none

/-- A sample spares the others of its batch exactly when it fits its columns. -/
theorem sparesOthers_iff (sample : TelemetrySample) :
    SparesOthers acceptsReal acceptsJsonb sample ↔
      storable acceptsReal acceptsJsonb sample = true := by
  constructor
  · intro h
    by_contra hfit
    rw [Bool.not_eq_true] at hfit
    -- a bare sample that shares a batch with it is lost
    have hbare : storable acceptsReal acceptsJsonb (bareSample 0 0 0) = true := by
      simp [storable, fitsColumns, fitsChannels, bareSample, fitsTimestamptz, fitsBigint, nullable,
        MIN_TIMESTAMP_MS]
    obtain ⟨row, hrow, -⟩ := h [] [bareSample 0 0 0] [] (by simpa using hbare)
      (bareSample 0 0 0) (by simp)
    rw [write_drops (List.mem_append_right _ List.mem_cons_self) hfit] at hrow
    cases hrow
  · intro hfit table before after hothers other hother
    refine write_stores ?_ table other ?_
    · rw [List.all_eq_true]
      intro row hrow
      rcases List.mem_append.mp hrow with hrow | hrow
      · exact hothers row (List.mem_append_left _ hrow)
      · rcases List.mem_cons.mp hrow with rfl | hrow
        · exact hfit
        · exact hothers row (List.mem_append_right _ hrow)
    · rcases List.mem_append.mp hother with hother | hother
      · exact List.mem_append_left _ hother
      · exact List.mem_append_right _ (List.mem_cons_of_mem _ hother)

end Write

/-! ### From the frame to the columns -/

/-- `rpm` is bounded by its decorators; the lap, the lap time and the sequence number only from
below, and the sample time only by where the anchor and the counter put it. -/
theorem fitsColumns_toSample_iff (context : SessionContext) (frame : TelemetryFrame) :
    fitsColumns (toSample context frame) = true ↔
      (∀ lap ∈ frame.lap, lap ≤ 2147483647) ∧ (∀ lapMs ∈ frame.lapMs, lapMs ≤ 2147483647) ∧
        frame.seq ≤ 9223372036854775807 ∧
        ∃ t ∈ context.instant frame.mono, MIN_TIMESTAMP_MS ≤ t ∧ t ≤ MAX_DATE_MS := by
  have hrpm : nullable (fun rpm => fitsInteger rpm.1) frame.rpm = true := by
    cases hr : frame.rpm with
    | none => rfl
    | some rpm =>
      obtain ⟨hlo, hhi⟩ := rpm.2
      simp only [nullable, fitsInteger, Bool.and_eq_true, decide_eq_true_eq]
      omega
  have hcount : ∀ count : Option ℕ, nullable (fun n : ℕ => fitsInteger n) count = true ↔
      ∀ n ∈ count, n ≤ 2147483647 := by
    intro count
    cases count with
    | none => simp [nullable]
    | some n =>
      simp only [nullable, fitsInteger, Bool.and_eq_true, decide_eq_true_eq, Option.mem_def,
        Option.some.injEq, forall_eq']
      omega
  have htime : fitsTimestamptz (sampleTime context frame.mono) = true ↔
      ∃ t ∈ context.instant frame.mono, MIN_TIMESTAMP_MS ≤ t ∧ t ≤ MAX_DATE_MS := by
    unfold sampleTime
    cases context.instant frame.mono with
    | none => simp [fitsTimestamptz]
    | some t =>
      simp only [Option.bind_some, Option.mem_some_iff, exists_eq_left', date]
      split
      · rename_i hdate
        simp only [fitsTimestamptz, Bool.and_eq_true, decide_eq_true_eq]
        simp only [MIN_TIMESTAMP_MS, MAX_DATE_MS] at hdate ⊢
        omega
      · rename_i hdate
        simp only [fitsTimestamptz, Bool.false_eq_true, false_iff]
        simp only [MIN_TIMESTAMP_MS, MAX_DATE_MS] at hdate ⊢
        omega
  have hseq : fitsBigint frame.seq = true ↔ frame.seq ≤ 9223372036854775807 := by
    simp only [fitsBigint, Bool.and_eq_true, decide_eq_true_eq]
    omega
  simp only [fitsColumns, toSample, Bool.and_eq_true, hrpm, hcount, htime, hseq]
  tauto

section Isolation

variable (acceptsReal : ℚ → Bool) (acceptsJsonb : List (String × Json) → Bool)

/-- PostgreSQL reads every channel of the frame that is bound for a `REAL` or `JSONB` column. -/
def acceptsFrame (frame : TelemetryFrame) : Bool :=
  nullable acceptsReal frame.coolant && nullable acceptsReal frame.oil &&
    nullable (fun v => acceptsReal v.1) frame.speed && nullable acceptsReal frame.gx &&
    nullable acceptsReal frame.gy && nullable acceptsReal frame.gz &&
    nullable acceptsJsonb frame.ext

theorem fitsChannels_toSample (context : SessionContext) (frame : TelemetryFrame) :
    fitsChannels acceptsReal acceptsJsonb (toSample context frame) =
      acceptsFrame acceptsReal acceptsJsonb frame := rfl

/-- **Which frames are storable and cost nobody else a sample**: those whose lap and lap time are
below `2 ^ 31` and whose sequence number is below `2 ^ 63`, that the session's anchor places at an
instant both `Date` and `TIMESTAMPTZ` hold, and whose channels PostgreSQL reads into their
columns. -/
theorem frame_storable_iff (context : SessionContext) (frame : TelemetryFrame) :
    (fitsColumns (toSample context frame) = true ∧
        SparesOthers acceptsReal acceptsJsonb (toSample context frame)) ↔
      ((∀ lap ∈ frame.lap, lap ≤ 2147483647) ∧ (∀ lapMs ∈ frame.lapMs, lapMs ≤ 2147483647) ∧
        frame.seq ≤ 9223372036854775807 ∧
        ∃ t ∈ context.instant frame.mono, MIN_TIMESTAMP_MS ≤ t ∧ t ≤ MAX_DATE_MS) ∧
      acceptsFrame acceptsReal acceptsJsonb frame = true := by
  rw [sparesOthers_iff, storable, Bool.and_eq_true, ← fitsColumns_toSample_iff,
    fitsChannels_toSample]
  constructor
  · rintro ⟨-, hcolumns, hchannels⟩
    exact ⟨hcolumns, hchannels⟩
  · rintro ⟨hcolumns, hchannels⟩
    exact ⟨hcolumns, hcolumns, hchannels⟩

end Isolation

section Example

/-- A frame that counts its laps from `2 ^ 31`. -/
def hugeLapFrame : Json :=
  .obj [("v", .num 1), ("sid", .str exampleSid), ("seq", .num 0), ("mono", .num 500),
    ("lap", .num 2147483648)]

/-- **A validated frame that no `INTEGER` column holds**, and with which the sample of another car
is lost. -/
theorem hugeLap_not_storable :
    ¬ ∀ (payload : Json) (frame : TelemetryFrame) (context : SessionContext),
      parse (decodeFrame (· == exampleSid)) payload = .ok frame →
      fitsColumns (toSample context frame) = true ∧
        SparesOthers (fun _ => true) (fun _ => true) (toSample context frame) := by
  intro h
  have hok : (parse (decodeFrame (· == exampleSid)) hugeLapFrame).isOk = true := by decide
  have hlap : (parse (decodeFrame (· == exampleSid)) hugeLapFrame).toOption.map
      (fun frame => fitsColumns (toSample ⟨1, 1, 1000, some 500⟩ frame)) = some false := by decide
  cases hp : parse (decodeFrame (· == exampleSid)) hugeLapFrame with
  | error reason =>
    rw [hp] at hok
    cases hok
  | ok frame =>
    rw [hp] at hlap
    have hfit := (h hugeLapFrame frame ⟨1, 1, 1000, some 500⟩ hp).1
    simp only [Except.toOption, Option.map_some, Option.some.injEq, hfit] at hlap
    cases hlap

end Example

end TelemetryCloud.IngestWriter
