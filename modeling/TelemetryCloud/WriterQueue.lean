import TelemetryCloud.EventLoop
import TelemetryCloud.IngestService
import TelemetryCloud.Runs
import Mathlib.Data.List.Induction

/-!
# The writer's buffer: no sample lost between `enqueue` and `INSERT`

`TelemetryWriterService` over any interleaving of its entry points.  `enqueue` and `enqueueAll` push
and schedule; a flush swaps the buffer for an empty one and chains the `write` of the batch behind
the writes before it; the timer and the shutdown flush.  What one `INSERT` stores is the subject of
`IngestWriter`: here a write succeeds or drops its batch, after any delay.

* `flush_spec` : what a flush does, and the promise it returns;
* `inv_step` : **conservation**, one lemma per operation;
* `writer_conserves` : the samples enqueued are the batches handed to `write` followed by the
  buffer; no two writes overlap; a buffer that is not empty has an armed timer; the promise of a
  flush settles, and a stop is announced, after everything enqueued before it was in a finished
  write.
-/

namespace TelemetryCloud.WriterQueue

open EventLoop IngestService Runs

def MAX_BUFFERED_ROWS : ℕ := 100

/-- How a `write` ends: it catches the error of a failed `INSERT` and counts the rows it dropped. -/
inductive Outcome
  | written
  | dropped
  deriving DecidableEq, Repr

/-- A `handleSessionEvent` that awaits its flush before it announces that `session` has stopped. -/
structure Stop where
  session : ℕ
  flushed : ℕ
  announced : Bool
  deriving DecidableEq, Repr

/-- The fields of the service, the timers of the process and the stops that await a flush.  The
promise `this.flushing` is the last one of the chain. -/
structure Writer where
  buffer : List TelemetrySample
  timer : Option ℕ
  timers : Timers
  flushing : Chain (List TelemetrySample) Outcome
  stops : List Stop

namespace Writer

def init : Writer := ⟨[], none, .init, [], []⟩

variable (w : Writer)

def cancelTimer : Writer :=
  match w.timer with
  | some handle => { w with timer := none, timers := w.timers.clear handle }
  | none => w

/-- `flush`, with the promise it returns. -/
def flush : Writer × ℕ :=
  let w := w.cancelTimer
  if w.buffer.isEmpty then (w, w.flushing.length)
  else
    let flushing := w.flushing.andThen w.buffer
    ({ w with buffer := [], flushing := flushing }, flushing.length)

def scheduleFlush : Writer :=
  if MAX_BUFFERED_ROWS ≤ w.buffer.length then w.flush.1
  else
    match w.timer with
    | some _ => w
    | none => { w with timer := some w.timers.next, timers := w.timers.set }

def enqueue (sample : TelemetrySample) : Writer :=
  scheduleFlush { w with buffer := w.buffer ++ [sample] }

def enqueueAll (samples : List TelemetrySample) : Writer :=
  scheduleFlush { w with buffer := w.buffer ++ samples }

/-- The callback of the timer `handle`, if it is armed. -/
def onTimer (handle : ℕ) : Option Writer :=
  if handle ∈ w.timers.armed then
    some (flush { w with timers := w.timers.clear handle }).1
  else none

def onApplicationShutdown : Writer := w.cancelTimer.flush.1

/-- `handleSessionEvent` for a stop, up to its `await this.writer.flush()`. -/
def stop (session : ℕ) : Writer :=
  { w.flush.1 with stops := w.stops ++ [⟨session, w.flush.2, false⟩] }

/-- The rest of it: the flush it awaited has settled. -/
def announce (i : ℕ) : Option Writer :=
  match w.stops[i]? with
  | some s =>
    if w.flushing.isSettled s.flushed && !s.announced then
      some { w with stops := w.stops.set i { s with announced := true } }
    else none
  | none => none

end Writer

/-- `call` is the loop calling the `run` of a batch, `finish` its `INSERT` succeeding or failing and
`settle` the promise of the chain following. -/
inductive Event
  | enqueue (sample : TelemetrySample)
  | enqueueAll (samples : List TelemetrySample)
  | flush
  | timer (handle : ℕ)
  | shutdown
  | stop (session : ℕ)
  | announce (i : ℕ)
  | call (k : ℕ)
  | finish (k : ℕ) (outcome : Outcome)
  | settle (k : ℕ)

/-- The samples an event enqueues. -/
def Event.samples : Event → List TelemetrySample
  | .enqueue sample => [sample]
  | .enqueueAll samples => samples
  | _ => []

def step (w : Writer) : Event → Option Writer
  | .enqueue sample => some (w.enqueue sample)
  | .enqueueAll samples => some (w.enqueueAll samples)
  | .flush => some w.flush.1
  | .timer handle => w.onTimer handle
  | .shutdown => some w.onApplicationShutdown
  | .stop session => some (w.stop session)
  | .announce i => w.announce i
  | .call k => (w.flushing.call k).map fun (_, c) => { w with flushing := c }
  | .finish k outcome => (w.flushing.finish k outcome).map fun c => { w with flushing := c }
  | .settle k => (w.flushing.settle k).map fun c => { w with flushing := c }

/-- The samples a run enqueues, in order. -/
def enqueued (es : List Event) : List TelemetrySample := es.flatMap Event.samples

/-- The writer as `flush` is called on it, by the events that call it. -/
def flushCall (w : Writer) : Event → Option Writer
  | .enqueue sample =>
    if MAX_BUFFERED_ROWS ≤ (w.buffer ++ [sample]).length then
      some { w with buffer := w.buffer ++ [sample] }
    else none
  | .enqueueAll samples =>
    if MAX_BUFFERED_ROWS ≤ (w.buffer ++ samples).length then
      some { w with buffer := w.buffer ++ samples }
    else none
  | .flush => some w
  | .timer handle => some { w with timers := w.timers.clear handle }
  | .shutdown => some w.cancelTimer
  | .stop _ => some w
  | _ => none

/-! ### What the operations do -/

namespace Writer

/-- The batches handed to `write`, in order. -/
def batches (w : Writer) : List (List TelemetrySample) := w.flushing.map Job.work

/-- What was handed to `write`, followed by the buffer. -/
def samples (w : Writer) : List TelemetrySample := w.batches.flatten ++ w.buffer

/-- The later state has the batches and the stops of the earlier one, and at least its promises
settled. -/
structure Extends (v w : Writer) : Prop where
  batches : v.batches <+: w.batches
  settled : ∀ n, v.flushing.isSettled n = true → w.flushing.isSettled n = true
  stops : ∀ (i : ℕ) (s : Stop), v.stops[i]? = some s →
    ∃ announced, w.stops[i]? = some ⟨s.session, s.flushed, announced⟩

theorem Extends.refl (w : Writer) : Extends w w :=
  ⟨List.prefix_rfl, fun _ h => h, fun _ s h => ⟨s.announced, h⟩⟩

theorem Extends.trans {u v w : Writer} (huv : Extends u v) (hvw : Extends v w) : Extends u w := by
  refine ⟨huv.batches.trans hvw.batches, fun n h => hvw.settled n (huv.settled n h), ?_⟩
  intro i s hs
  obtain ⟨a, ha⟩ := huv.stops i s hs
  exact hvw.stops i ⟨s.session, s.flushed, a⟩ ha

variable (w : Writer)

theorem cancelTimer_frame : w.cancelTimer.timer = none ∧ w.cancelTimer.buffer = w.buffer ∧
    w.cancelTimer.flushing = w.flushing ∧ w.cancelTimer.stops = w.stops := by
  unfold cancelTimer
  split
  · exact ⟨rfl, rfl, rfl, rfl⟩
  · rename_i h
    exact ⟨h, rfl, rfl, rfl⟩

/-- **What a flush does**: it leaves no timer and no buffer, the buffer is the last batch handed to
`write`, and the promise it returns is the last one of the chain. -/
theorem flush_spec : w.flush.1.timer = none ∧ w.flush.1.buffer = [] ∧
    w.flush.1.stops = w.stops ∧ w.flush.2 = w.flush.1.flushing.length ∧
    (w.flush.1.flushing = w.flushing ∧ w.buffer = [] ∨
      w.flush.1.flushing = w.flushing.andThen w.buffer) := by
  obtain ⟨htimer, hbuffer, hflushing, hstops⟩ := w.cancelTimer_frame
  simp only [flush, hbuffer, hflushing]
  split
  · rename_i hempty
    rw [List.isEmpty_iff] at hempty
    simp only
    rw [hbuffer, hflushing]
    exact ⟨htimer, hempty, hstops, rfl, .inl ⟨rfl, hempty⟩⟩
  · exact ⟨htimer, rfl, hstops, rfl, .inr rfl⟩

variable {w}

theorem flush_samples : w.flush.1.samples = w.samples := by
  obtain ⟨-, hbuffer, -, -, ⟨hsame, hempty⟩ | hchained⟩ := w.flush_spec
  · rw [samples, samples, batches, batches, hsame, hbuffer, hempty]
  · rw [samples, samples, batches, batches, hchained, hbuffer, Chain.andThen, List.map_append,
      List.flatten_append, List.append_nil]
    simp

theorem flush_extends : Extends w w.flush.1 := by
  obtain ⟨-, -, hstops, -, ⟨hsame, -⟩ | hchained⟩ := w.flush_spec
  · refine ⟨?_, ?_, ?_⟩
    · have hbatches : w.flush.1.batches = w.batches := by rw [batches, batches, hsame]
      exact hbatches ▸ List.prefix_rfl
    · intro n hn
      rwa [hsame]
    · intro i s hs
      exact ⟨s.announced, by rw [hstops]; exact hs⟩
  · refine ⟨?_, ?_, ?_⟩
    · rw [batches, batches, hchained, Chain.andThen, List.map_append]
      exact List.prefix_append _ _
    · intro n hn
      rw [hchained]
      exact Chain.isSettled_andThen hn
    · intro i s hs
      exact ⟨s.announced, by rw [hstops]; exact hs⟩

theorem flush_serial (h : w.flushing.Serial) : w.flush.1.flushing.Serial := by
  obtain ⟨-, -, -, -, ⟨hsame, -⟩ | hchained⟩ := w.flush_spec
  · rwa [hsame]
  · rw [hchained]
    exact h.andThen _

theorem scheduleFlush_cases (w : Writer) :
    (MAX_BUFFERED_ROWS ≤ w.buffer.length ∧ w.scheduleFlush = w.flush.1) ∨
      ¬ MAX_BUFFERED_ROWS ≤ w.buffer.length ∧ ∃ handle timers,
        w.scheduleFlush = { w with timer := some handle, timers := timers } ∧
        ((∀ t, w.timer = some t → t ∈ w.timers.armed) → handle ∈ timers.armed) := by
  unfold scheduleFlush
  split
  · rename_i hfull
    exact .inl ⟨hfull, rfl⟩
  · rename_i hroom
    refine .inr ⟨hroom, ?_⟩
    split
    · rename_i t ht
      exact ⟨t, w.timers, by rw [← ht], fun h => h t ht⟩
    · refine ⟨w.timers.next, w.timers.set, rfl, fun _ => ?_⟩
      rw [Timers.set_armed]
      exact List.mem_append_right _ List.mem_cons_self

theorem onTimer_eq_some {w' : Writer} {handle : ℕ} (h : w.onTimer handle = some w') :
    handle ∈ w.timers.armed ∧ w' = (flush { w with timers := w.timers.clear handle }).1 := by
  unfold onTimer at h
  split at h
  · rename_i hmem
    cases h
    exact ⟨hmem, rfl⟩
  · cases h

theorem announce_eq_some {w' : Writer} {i : ℕ} (h : w.announce i = some w') :
    ∃ s, w.stops[i]? = some s ∧ w.flushing.isSettled s.flushed = true ∧
      w' = { w with stops := w.stops.set i ⟨s.session, s.flushed, true⟩ } := by
  unfold announce at h
  split at h
  · rename_i s hs
    split at h
    · rename_i hready
      cases h
      rw [Bool.and_eq_true] at hready
      exact ⟨s, hs, hready.1, rfl⟩
    · cases h
  · cases h

end Writer

/-! ### What one step does -/

/-- The four things a step can be. -/
inductive Effect (w : Writer) (e : Event) : Writer → Prop
  /-- The event flushes the writer `x`, whose buffer ends in the samples of the event. -/
  | flushed (x : Writer) (stops : List Stop) (hcall : flushCall w e = some x)
      (hbuffer : x.buffer = w.buffer ++ e.samples) (hflushing : x.flushing = w.flushing)
      (hstops : stops = w.stops ∨
        ∃ session, e = .stop session ∧ stops = w.stops ++ [⟨session, x.flush.2, false⟩]) :
      Effect w e { x.flush.1 with stops := stops }
  /-- There is room for the samples, and a timer. -/
  | scheduled (handle : ℕ) (timers : Timers) (hcall : flushCall w e = none)
      (harmed : (∀ t, w.timer = some t → t ∈ w.timers.armed) → handle ∈ timers.armed) :
      Effect w e
        { w with buffer := w.buffer ++ e.samples, timer := some handle, timers := timers }
  /-- A write is called, ends or lets the next one go. -/
  | moved (c : Chain (List TelemetrySample) Outcome) (hcall : flushCall w e = none)
      (hsamples : e.samples = []) (hmoves : w.flushing.Moves c) :
      Effect w e { w with flushing := c }
  /-- A stop whose flush has settled is announced. -/
  | announced (i : ℕ) (s : Stop) (hcall : flushCall w e = none) (hsamples : e.samples = [])
      (hs : w.stops[i]? = some s) (hset : w.flushing.isSettled s.flushed = true) :
      Effect w e { w with stops := w.stops.set i ⟨s.session, s.flushed, true⟩ }

open Writer

/-- A flush that is not that of a stop. -/
theorem effect_flush {w x : Writer} {e : Event} (hcall : flushCall w e = some x)
    (hbuffer : x.buffer = w.buffer ++ e.samples) (hflushing : x.flushing = w.flushing)
    (hstops : x.stops = w.stops) : Effect w e x.flush.1 := by
  have heq : ({ x.flush.1 with stops := w.stops } : Writer) = x.flush.1 := by
    rw [← hstops, ← x.flush_spec.2.2.1]
  rw [← heq]
  exact .flushed x w.stops hcall hbuffer hflushing (.inl rfl)

/-- Pushing samples and scheduling a flush. -/
theorem effect_push {w : Writer} {e : Event}
    (hcall : flushCall w e = if MAX_BUFFERED_ROWS ≤ (w.buffer ++ e.samples).length then
      some { w with buffer := w.buffer ++ e.samples } else none) :
    Effect w e (scheduleFlush { w with buffer := w.buffer ++ e.samples }) := by
  rcases scheduleFlush_cases { w with buffer := w.buffer ++ e.samples } with
    ⟨hfull, heq⟩ | ⟨hroom, handle, timers, heq, harmed⟩
  · rw [heq]
    rw [if_pos hfull] at hcall
    exact effect_flush hcall rfl rfl rfl
  · rw [heq]
    rw [if_neg hroom] at hcall
    exact .scheduled handle timers hcall harmed

/-- **What one step does.** -/
theorem step_effect {w w' : Writer} {e : Event} (h : step w e = some w') : Effect w e w' := by
  cases e with
  | enqueue sample =>
    cases h
    exact effect_push rfl
  | enqueueAll samples =>
    cases h
    exact effect_push rfl
  | flush =>
    cases h
    exact effect_flush rfl (List.append_nil _).symm rfl rfl
  | timer handle =>
    obtain ⟨-, rfl⟩ := onTimer_eq_some h
    exact effect_flush rfl (List.append_nil _).symm rfl rfl
  | shutdown =>
    cases h
    obtain ⟨-, hbuffer, hflushing, hstops⟩ := w.cancelTimer_frame
    apply effect_flush rfl _ hflushing hstops
    rw [hbuffer]
    exact (List.append_nil _).symm
  | stop session =>
    cases h
    exact .flushed w _ rfl (List.append_nil _).symm rfl (.inr ⟨session, rfl, rfl⟩)
  | announce i =>
    obtain ⟨s, hs, hset, rfl⟩ := announce_eq_some h
    exact .announced i s rfl rfl hs hset
  | call k =>
    obtain ⟨⟨a, c⟩, hc, rfl⟩ := Option.map_eq_some_iff.mp h
    exact .moved c rfl rfl (.call hc)
  | finish k outcome =>
    obtain ⟨c, hc, rfl⟩ := Option.map_eq_some_iff.mp h
    exact .moved c rfl rfl (.finish hc)
  | settle k =>
    obtain ⟨c, hc, rfl⟩ := Option.map_eq_some_iff.mp h
    exact .moved c rfl rfl (.settle hc)

/-! ### Conservation -/

/-- Everything a state promises about the run that led to it. -/
structure Inv (w : Writer) : Prop where
  serial : w.flushing.Serial
  armed : ∀ t, w.timer = some t → t ∈ w.timers.armed
  held : w.buffer ≠ [] → ∃ t, w.timer = some t
  announced : ∀ s ∈ w.stops, s.announced = true → w.flushing.isSettled s.flushed = true

theorem inv_init : Inv init := by
  refine ⟨.nil, ?_, fun h => absurd rfl h, ?_⟩
  · intro _ h
    cases h
  · intro _ h
    cases h

theorem samples_step {w w' : Writer} {e : Event} (h : step w e = some w') :
    w'.samples = w.samples ++ e.samples := by
  cases step_effect h with
  | flushed x stops hcall hbuffer hflushing hstops =>
    show x.flush.1.samples = _
    rw [flush_samples, samples, samples, batches, batches, hflushing, hbuffer, List.append_assoc]
  | scheduled handle timers hcall harmed => exact (List.append_assoc _ _ _).symm
  | moved c hcall hsamples hmoves =>
    rw [hsamples, List.append_nil, samples, samples, batches, batches, hmoves.map_work]
  | announced i s hcall hsamples hs hset =>
    rw [hsamples, List.append_nil]
    rfl

theorem extends_step {w w' : Writer} {e : Event} (h : step w e = some w') : Extends w w' := by
  cases step_effect h with
  | flushed x stops hcall hbuffer hflushing hstops =>
    have hx := flush_extends (w := x)
    refine ⟨?_, ?_, ?_⟩
    · have := hx.batches
      rwa [batches, hflushing] at this
    · intro n hn
      apply hx.settled n
      rwa [hflushing]
    · intro i s hs
      refine ⟨s.announced, ?_⟩
      rcases hstops with rfl | ⟨session, -, rfl⟩
      · exact hs
      · rw [List.getElem?_append_left (List.getElem?_eq_some_iff.mp hs).1]
        exact hs
  | scheduled handle timers hcall harmed =>
    exact ⟨List.prefix_rfl, fun _ h => h, (Extends.refl w).stops⟩
  | moved c hcall hsamples hmoves =>
    refine ⟨?_, fun n hn => hmoves.isSettled hn, (Extends.refl w).stops⟩
    have hbatches : batches { w with flushing := c } = w.batches := hmoves.map_work
    exact hbatches ▸ List.prefix_rfl
  | announced i s hcall hsamples hs hset =>
    refine ⟨List.prefix_rfl, fun _ h => h, ?_⟩
    intro j t ht
    by_cases hij : i = j
    · subst hij
      rw [hs] at ht
      cases ht
      exact ⟨true, by rw [List.getElem?_set_self (List.getElem?_eq_some_iff.mp hs).1]⟩
    · refine ⟨t.announced, ?_⟩
      rw [List.getElem?_set_ne hij]
      exact ht

theorem inv_step {w w' : Writer} {e : Event} (hi : Inv w) (h : step w e = some w') : Inv w' := by
  have hsettled := (extends_step h).settled
  cases step_effect h with
  | flushed x stops hcall hbuffer hflushing hstops =>
    obtain ⟨htimer, hempty, -⟩ := x.flush_spec
    refine ⟨flush_serial (hflushing ▸ hi.serial), ?_, fun hne => absurd hempty hne, ?_⟩
    · intro t ht
      rw [htimer] at ht
      cases ht
    · intro s hs ha
      rcases hstops with rfl | ⟨session, -, rfl⟩
      · exact hsettled _ (hi.announced s hs ha)
      · rcases List.mem_append.mp hs with hs | hs
        · exact hsettled _ (hi.announced s hs ha)
        · rw [List.mem_singleton.mp hs] at ha
          cases ha
  | scheduled handle timers hcall harmed =>
    refine ⟨hi.serial, ?_, fun _ => ⟨handle, rfl⟩, hi.announced⟩
    intro t ht
    cases ht
    exact harmed hi.armed
  | moved c hcall hsamples hmoves =>
    exact ⟨hi.serial.moves hmoves, hi.armed, hi.held,
      fun s hs ha => hsettled _ (hi.announced s hs ha)⟩
  | announced i s hcall hsamples hs hset =>
    refine ⟨hi.serial, hi.armed, hi.held, ?_⟩
    intro t ht ha
    rcases List.mem_or_eq_of_mem_set ht with ht | rfl
    · exact hi.announced t ht ha
    · exact hset

theorem inv_run {es : List Event} {w : Writer} (h : run step init es = some w) : Inv w :=
  run_invariant_of_step step (fun _ _ _ hi hs => inv_step hi hs) es init w inv_init h

theorem extends_run {es : List Event} {v w : Writer} (h : run step v es = some w) : Extends v w :=
  run_invariant_of_step step (fun _ _ _ hv hs => hv.trans (extends_step hs)) es v w
    (Extends.refl v) h

theorem enqueued_snoc (es : List Event) (e : Event) :
    enqueued (es ++ [e]) = enqueued es ++ e.samples := by
  rw [enqueued, List.flatMap_append, List.flatMap_singleton]
  rfl

/-- **Nothing is lost and nothing is doubled.** -/
theorem samples_run {es : List Event} {w : Writer} (h : run step init es = some w) :
    w.samples = enqueued es := by
  induction es using List.reverseRecOn generalizing w with
  | nil =>
    cases h
    rfl
  | append_singleton es e ih =>
    obtain ⟨v, hv, hstep⟩ := (run_snoc_eq_some _).mp h
    rw [samples_step hstep, ih hv, enqueued_snoc]

/-! ### Flushes -/

/-- The writes have all ended, and their batches are the samples. -/
def Ended (writes : Chain (List TelemetrySample) Outcome) (samples : List TelemetrySample) : Prop :=
  (writes.map Job.work).flatten = samples ∧ ∀ job ∈ writes, job.phase.result.isSome = true

/-- The event leaves behind what its flush left. -/
theorem flushCall_step {u v x : Writer} {e : Event} (hcall : flushCall u e = some x)
    (h : step u e = some v) : v.flushing = x.flush.1.flushing ∧ v.buffer = [] := by
  cases step_effect h with
  | flushed y stops hy hbuffer hflushing hstops =>
    rw [hy] at hcall
    cases hcall
    exact ⟨rfl, x.flush_spec.2.1⟩
  | scheduled handle timers hnone harmed =>
    rw [hnone] at hcall
    cases hcall
  | moved c hnone hsamples hmoves =>
    rw [hnone] at hcall
    cases hcall
  | announced i s hnone hsamples hs hset =>
    rw [hnone] at hcall
    cases hcall

/-- **When the promise of a flush has settled**, everything enqueued until then was in writes that
have ended. -/
theorem ended_of_settled {pre post : List Event} {e : Event} {u w x : Writer}
    (hu : run step init pre = some u) (hcall : flushCall u e = some x)
    (hw : run step init (pre ++ e :: post) = some w)
    (hset : w.flushing.isSettled x.flush.2 = true) :
    Ended (w.flushing.take x.flush.2) (enqueued (pre ++ [e])) := by
  have hinv := inv_run hw
  rw [List.append_cons, run_append, Option.bind_eq_some_iff] at hw
  obtain ⟨v, hv, hpost⟩ := hw
  obtain ⟨u', hu', hstep⟩ := (run_snoc_eq_some _).mp hv
  obtain rfl : u = u' := Option.some.inj (hu.symm.trans hu')
  obtain ⟨hflushing, hbuffer⟩ := flushCall_step hcall hstep
  have hlen : x.flush.2 = v.batches.length := by
    rw [x.flush_spec.2.2.2.1, ← hflushing, batches, List.length_map]
  constructor
  · have hall := samples_run hv
    rw [samples, hbuffer, List.append_nil] at hall
    rw [List.map_take, ← hall, hlen]
    exact congrArg _ (List.prefix_iff_eq_take.mp (extends_run hpost).batches).symm
  · intro job hjob
    obtain ⟨i, hget⟩ := List.getElem?_of_mem hjob
    rw [List.getElem?_take] at hget
    split at hget
    · rename_i hlt
      apply Phase.result_isSome_of_isSettled
      exact hinv.serial.settled_before hset hlt hget
    · cases hget

/-- The stop that called a flush keeps the promise it was given. -/
theorem stop_awaits {pre post : List Event} {session : ℕ} {u w : Writer}
    (hu : run step init pre = some u)
    (hw : run step init (pre ++ .stop session :: post) = some w) :
    ∃ announced, w.stops[u.stops.length]? = some ⟨session, u.flush.2, announced⟩ := by
  rw [List.append_cons, run_append, Option.bind_eq_some_iff] at hw
  obtain ⟨v, hv, hpost⟩ := hw
  obtain ⟨u', hu', hstep⟩ := (run_snoc_eq_some _).mp hv
  obtain rfl : u = u' := Option.some.inj (hu.symm.trans hu')
  cases hstep
  apply (extends_run hpost).stops u.stops.length ⟨session, u.flush.2, false⟩
  exact List.getElem?_concat_length

/-- **The writer loses nothing.**  In every run the batches handed to `write`, in order, followed by
the buffer are the samples enqueued; a write that was called found the writes before it settled, and
no two run at once; a buffer that is not empty has an armed timer; the promise a flush returned
settles after everything enqueued before the flush was in writes that have ended, and the stop that
awaits a flush is announced after that. -/
theorem writer_conserves (es : List Event) (w : Writer) (h : run step init es = some w) :
    w.batches.flatten ++ w.buffer = enqueued es ∧
      (w.flushing.Serial ∧ ∀ (i j : ℕ) (a b : List TelemetrySample),
        w.flushing[i]? = some ⟨a, .running⟩ → w.flushing[j]? = some ⟨b, .running⟩ → i = j) ∧
      (w.buffer ≠ [] → ∃ t, w.timer = some t ∧ t ∈ w.timers.armed) ∧
      (∀ (pre post : List Event) (e : Event) (u x : Writer), es = pre ++ e :: post →
        run step init pre = some u → flushCall u e = some x →
        w.flushing.isSettled x.flush.2 = true →
        Ended (w.flushing.take x.flush.2) (enqueued (pre ++ [e]))) ∧
      ∀ (pre post : List Event) (session : ℕ) (u : Writer), es = pre ++ .stop session :: post →
        run step init pre = some u → ∃ announced,
          w.stops[u.stops.length]? = some ⟨session, u.flush.2, announced⟩ ∧
          (announced = true → Ended (w.flushing.take u.flush.2) (enqueued pre)) := by
  have hinv := inv_run h
  refine ⟨samples_run h, ⟨hinv.serial, fun i j a b => hinv.serial.running_unique⟩, ?_, ?_, ?_⟩
  · intro hne
    obtain ⟨t, ht⟩ := hinv.held hne
    exact ⟨t, ht, hinv.armed t ht⟩
  · intro pre post e u x hes hu hcall hset
    subst hes
    exact ended_of_settled hu hcall h hset
  · intro pre post session u hes hu
    subst hes
    obtain ⟨announced, hs⟩ := stop_awaits hu h
    refine ⟨announced, hs, fun ha => ?_⟩
    have hset := hinv.announced _ (List.mem_of_getElem? hs) ha
    have hended := ended_of_settled hu rfl h hset
    rw [enqueued_snoc] at hended
    rwa [show enqueued pre ++ (Event.stop session).samples = enqueued pre from
      List.append_nil _] at hended

section Example

/-- A sample without channels. -/
def bare (seq : ℕ) : TelemetrySample :=
  ⟨some 0, 1, 1, seq, none, none, none, none, none, none, none, none, none, none, none, none⟩

/-- The first batch is dropped while the stop of session 7 awaits the second. -/
def stopBehindDropped : List Event :=
  [.enqueue (bare 1), .timer 0, .enqueueAll [bare 2, bare 3], .call 0, .stop 7, .finish 0 .dropped,
    .settle 0, .call 1, .finish 1 .written, .settle 1, .announce 0, .enqueue (bare 4)]

theorem writer_conserves_stop : ∃ w, run step init stopBehindDropped = some w ∧
    w.batches.flatten ++ w.buffer = [bare 1, bare 2, bare 3, bare 4] := by
  have hrun : (run step init stopBehindDropped).isSome = true := by decide +kernel
  obtain ⟨w, hw⟩ := Option.isSome_iff_exists.mp hrun
  exact ⟨w, hw, (writer_conserves stopBehindDropped w hw).1⟩

end Example

end TelemetryCloud.WriterQueue
