import TelemetryCloud.IngestWire
import TelemetryCloud.Lists
import Mathlib.Data.List.Induction
import Mathlib.Tactic.Linarith
import Mathlib.Tactic.Ring

/-!
# Replaying a recorded drive

A log of frames is replayed tick by tick, on the clock of the log itself where it has one.

* `relativeTimes` : the clock of a log, `timesBy_spec` : what makes it one;
* `FrameLog.step` : the source, one call at a time; `Last` : the last frame not after an instant;
* `playing_step` : one call, `playing_after` : a run of them;
* `shown_on_time` : **a log is replayed on its own clock**, however often the source is asked;
* `shown_in_turn` : **without one, it is replayed frame by frame**.
-/

namespace TelemetryCloud.ReplaySources

open IngestWire

/-- What the publisher takes from a source, whichever it is. -/
structure Sample (V : Type) where
  lat : V
  lon : V
  speedKmh : V
  rpm : V
  gLat : V
  gLon : V
  gVert : V
  lap : V
  lapMs : V

/-! ### A log of frames -/

/-- The channels of a line of the log, whatever they hold; `none` is `undefined`. -/
def toSample (frame : Json) : Sample (Option Json) where
  lat := frame.get "lat"
  lon := frame.get "lon"
  speedKmh := frame.get "speed"
  rpm := frame.get "rpm"
  gLat := frame.get "gx"
  gLon := frame.get "gy"
  gVert := frame.get "gz"
  lap := frame.get "lap"
  lapMs := frame.get "lapMs"

/-- The offsets from the first frame by one field, if it is a clock. -/
def timesBy (frames : List Json) (field : String) : Option (List ℚ) :=
  (frames.mapM fun frame : Json => (frame.get field).bind isNumber).bind fun values =>
    let times := values.map (· - values.headD 0)
    if times.IsChain (· ≤ ·) ∧ 0 < times.getLastD 0 then some times else none

def relativeTimes (frames : List Json) : Option (List ℚ) := ["mono", "ts"].findSome? (timesBy frames)

structure FrameLog where
  frames : List Json
  loop : Bool
  nonempty : frames ≠ []

namespace FrameLog

structure State where
  index : ℕ
  exhausted : Bool
  elapsedMs : ℚ

def init : State := ⟨0, false, 0⟩

/-- The loop that skips the frames the clock has gone past, of those after `index`. -/
def skip (elapsedMs : ℚ) (index : ℕ) : List ℚ → ℕ
  | [] => index
  | time :: rest => if time ≤ elapsedMs then skip elapsedMs (index + 1) rest else index

variable (log : FrameLog)

def sampleAt (index : ℕ) : Sample (Option Json) := toSample (log.frames[index]?.getD .null)

/-- One frame per call: the log has no timestamps to pace it by. -/
def stepByIndex (s : State) : State × Option (Sample (Option Json)) :=
  if log.frames.length ≤ s.index ∧ ¬ log.loop then ({ s with exhausted := true }, none)
  else
    let index := if log.frames.length ≤ s.index then 0 else s.index
    ({ s with index := index + 1 }, some (log.sampleAt index))

def stepByClock (times : List ℚ) (dtMs : ℚ) (s : State) : State × Option (Sample (Option Json)) :=
  let spanMs := times.getLastD 0
  if spanMs < s.elapsedMs ∧ ¬ log.loop then ({ s with exhausted := true }, none)
  else
    let s := if spanMs < s.elapsedMs then { s with elapsedMs := s.elapsedMs - spanMs, index := 0 } else s
    let index := skip s.elapsedMs s.index (times.drop (s.index + 1))
    ({ s with index, elapsedMs := s.elapsedMs + dtMs }, some (log.sampleAt index))

def step (dtMs : ℚ) (s : State) : State × Option (Sample (Option Json)) :=
  if s.exhausted then (s, none)
  else
    match relativeTimes log.frames with
    | some times => log.stepByClock times dtMs s
    | none => log.stepByIndex s

/-- The source after some calls. -/
def after (dts : List ℚ) : State := dts.foldl (fun s dtMs => (log.step dtMs s).1) init

end FrameLog

/-! ### The clock of a log -/

theorem timesBy_spec {frames : List Json} {field : String} {times : List ℚ} (hne : frames ≠ [])
    (h : timesBy frames field = some times) : times.length = frames.length ∧ times.head? = some 0 ∧
      times.Pairwise (· ≤ ·) ∧ 0 < times.getLastD 0 := by
  obtain ⟨values, hvalues, h⟩ := Option.bind_eq_some_iff.mp h
  dsimp only at h
  split at h
  · next hclock =>
    cases h
    have hlength : values.length = frames.length := Lists.length_of_mapM_eq_some hvalues
    refine ⟨by rw [List.length_map, hlength], ?_, List.isChain_iff_pairwise.mp hclock.1, hclock.2⟩
    cases values with
    | nil => exact absurd (List.length_eq_zero_iff.mp hlength.symm) hne
    | cons value values => simp
  · cases h

namespace FrameLog

theorem skip_spec {times : List ℚ} {elapsedMs : ℚ} {rest : List ℚ} {index : ℕ}
    (hrest : times.drop (index + 1) = rest) (hindex : ∃ t, times[index]? = some t ∧ t ≤ elapsedMs) :
    (∃ t, times[skip elapsedMs index rest]? = some t ∧ t ≤ elapsedMs) ∧
      ∀ t, times[skip elapsedMs index rest + 1]? = some t → elapsedMs < t := by
  induction rest generalizing index with
  | nil =>
    refine ⟨hindex, fun t ht => ?_⟩
    have hlength := List.drop_eq_nil_iff.mp hrest
    rw [skip, List.getElem?_eq_none hlength] at ht
    cases ht
  | cons time rest ih =>
    have htime : times[index + 1]? = some time := by
      rw [← List.head?_drop, hrest, List.head?_cons]
    rw [skip]
    split
    · next hle =>
      refine ih ?_ ⟨time, htime, hle⟩
      rw [← List.tail_drop, hrest, List.tail_cons]
    · next hlt =>
      refine ⟨hindex, fun t ht => ?_⟩
      rw [htime, Option.some.injEq] at ht
      rw [← ht]
      exact not_le.mp hlt

variable {log : FrameLog} {times : List ℚ}

/-- The frame is the last one that is not after the instant. -/
def Last (times : List ℚ) (instant : ℚ) (index : ℕ) : Prop :=
  (∃ t, times[index]? = some t ∧ t ≤ instant) ∧ ∀ j t, index < j → times[j]? = some t → instant < t

theorem last_skip (hsorted : times.Pairwise (· ≤ ·)) {elapsedMs : ℚ} {index : ℕ}
    (hindex : ∃ t, times[index]? = some t ∧ t ≤ elapsedMs) :
    Last times elapsedMs (skip elapsedMs index (times.drop (index + 1))) := by
  obtain ⟨hat, hnext⟩ := skip_spec rfl hindex
  generalize skip elapsedMs index (times.drop (index + 1)) = i at *
  refine ⟨hat, fun j t hj ht => ?_⟩
  obtain ⟨hlt, rfl⟩ := List.getElem?_eq_some_iff.mp ht
  have hi : i + 1 < times.length := by omega
  have hfirst := hnext _ (List.getElem?_eq_getElem hi)
  rcases Nat.eq_or_lt_of_le (Nat.succ_le_of_lt hj) with heq | hlater
  · simpa [← heq] using hfirst
  · exact hfirst.trans_le (List.pairwise_iff_getElem.mp hsorted (i + 1) j hi hlt hlater)

/-- Where the source is when `totalMs` have passed since the first call: past the end of the log, or
after some turns of it, of which there are none without `loop`. -/
inductive Playing (log : FrameLog) (times : List ℚ) (totalMs : ℚ) (s : State) : Prop
  | ended (hloop : log.loop = false) (hover : times.getLastD 0 < totalMs) (hexhausted : s.exhausted = true)
  | going (hexhausted : s.exhausted = false) (turns : ℕ) (hturns : log.loop = false → turns = 0)
      (helapsed : s.elapsedMs = totalMs - turns * times.getLastD 0) (hnonneg : 0 ≤ s.elapsedMs)
      (hshort : log.loop = true → s.elapsedMs ≤ 2 * times.getLastD 0)
      (hindex : ∃ t, times[s.index]? = some t ∧ t ≤ s.elapsedMs)

/-- What a call shows when `totalMs` have passed. -/
def Shows (log : FrameLog) (times : List ℚ) (totalMs : ℚ) (shown : Option (Sample (Option Json))) :
    Prop :=
  (log.loop = false ∧ times.getLastD 0 < totalMs ∧ shown = none) ∨
    ∃ (turns index : ℕ), (log.loop = false → turns = 0) ∧ 0 ≤ totalMs - turns * times.getLastD 0 ∧
      totalMs - turns * times.getLastD 0 ≤ times.getLastD 0 ∧
      Last times (totalMs - turns * times.getLastD 0) index ∧ shown = some (log.sampleAt index)

/-- A call that comes past the end of the log starts it again. -/
theorem begun_spec (hfirst : times.head? = some 0) {totalMs : ℚ} {s : State} {turns : ℕ}
    (hturns : log.loop = false → turns = 0) (helapsed : s.elapsedMs = totalMs - turns * times.getLastD 0)
    (hnonneg : 0 ≤ s.elapsedMs) (hshort : log.loop = true → s.elapsedMs ≤ 2 * times.getLastD 0)
    (hindex : ∃ t, times[s.index]? = some t ∧ t ≤ s.elapsedMs)
    (hgoing : ¬ (times.getLastD 0 < s.elapsedMs ∧ ¬ log.loop)) {begun : State}
    (hbegun : begun = if times.getLastD 0 < s.elapsedMs then
      { s with elapsedMs := s.elapsedMs - times.getLastD 0, index := 0 } else s) :
    begun.exhausted = s.exhausted ∧ ∃ turns' : ℕ, (log.loop = false → turns' = 0) ∧
      begun.elapsedMs = totalMs - turns' * times.getLastD 0 ∧ 0 ≤ begun.elapsedMs ∧
      begun.elapsedMs ≤ times.getLastD 0 ∧
      ∃ t, times[begun.index]? = some t ∧ t ≤ begun.elapsedMs := by
  by_cases hend : times.getLastD 0 < s.elapsedMs
  · have hyes : log.loop = true := by simpa using fun hno => hgoing ⟨hend, hno⟩
    have hrest : 0 ≤ s.elapsedMs - times.getLastD 0 := sub_nonneg.mpr hend.le
    rw [if_pos hend] at hbegun
    subst hbegun
    refine ⟨rfl, turns + 1, fun hno => ?_, ?_, hrest, ?_, 0, ?_, hrest⟩
    · rw [hyes] at hno
      cases hno
    · show s.elapsedMs - times.getLastD 0 = totalMs - (turns + 1 : ℕ) * times.getLastD 0
      rw [helapsed]
      push_cast
      ring
    · show s.elapsedMs - times.getLastD 0 ≤ times.getLastD 0
      have := hshort hyes
      linarith
    · show times[0]? = some 0
      rw [← List.head?_eq_getElem?, hfirst]
  · rw [if_neg hend] at hbegun
    subst hbegun
    exact ⟨rfl, turns, hturns, helapsed, hnonneg, not_lt.mp hend, hindex⟩

/-- **One call.** -/
theorem playing_step (hclock : relativeTimes log.frames = some times) (hfirst : times.head? = some 0)
    (hsorted : times.Pairwise (· ≤ ·)) {totalMs dtMs : ℚ} {s : State} (h : Playing log times totalMs s)
    (hdt : 0 ≤ dtMs) (hloop : log.loop = true → dtMs ≤ times.getLastD 0) :
    Playing log times (totalMs + dtMs) (log.step dtMs s).1 ∧
      Shows log times totalMs (log.step dtMs s).2 := by
  cases h with
  | ended hno hover hexhausted =>
    rw [step, if_pos hexhausted]
    exact ⟨.ended hno (by linarith) hexhausted, .inl ⟨hno, hover, rfl⟩⟩
  | going hexhausted turns hturns helapsed hnonneg hshort hindex =>
    rw [step, if_neg (by simp [hexhausted]), hclock]
    dsimp only
    rw [stepByClock]
    split
    · next hend =>
      have hno : log.loop = false := by simpa using hend.2
      have hover : times.getLastD 0 < totalMs := by
        have := hend.1
        rw [helapsed, hturns hno] at this
        simpa using this
      exact ⟨.ended hno (by linarith) rfl, .inl ⟨hno, hover, rfl⟩⟩
    · next hgoing =>
      obtain ⟨begun, hbegun⟩ : ∃ begun : State, begun = if times.getLastD 0 < s.elapsedMs then
        { s with elapsedMs := s.elapsedMs - times.getLastD 0, index := 0 } else s := ⟨_, rfl⟩
      rw [← hbegun]
      obtain ⟨hplaying, turns', hturns', helapsed', hnonneg', hspan, hindex'⟩ :=
        begun_spec hfirst hturns helapsed hnonneg hshort hindex hgoing hbegun
      have hlast := last_skip hsorted hindex'
      dsimp only
      generalize skip begun.elapsedMs begun.index (times.drop (begun.index + 1)) = index at *
      rw [helapsed'] at hlast hnonneg' hspan
      refine ⟨.going (hplaying.trans hexhausted) turns' hturns' ?_ ?_ ?_ ?_,
        .inr ⟨turns', index, hturns', hnonneg', hspan, hlast, rfl⟩⟩
      all_goals dsimp only
      all_goals rw [helapsed']
      · ring
      · exact add_nonneg hnonneg' hdt
      · intro hyes
        have := hloop hyes
        linarith
      · obtain ⟨t, ht, hle⟩ := hlast.1
        exact ⟨t, ht, by linarith⟩

theorem relativeTimes_spec (hclock : relativeTimes log.frames = some times) :
    times.head? = some 0 ∧ times.Pairwise (· ≤ ·) ∧ 0 < times.getLastD 0 := by
  obtain ⟨field, -, hfield⟩ := List.exists_of_findSome?_eq_some hclock
  exact (timesBy_spec log.nonempty hfield).2

theorem playing_after (hclock : relativeTimes log.frames = some times) {dts : List ℚ}
    (hdts : ∀ dt ∈ dts, 0 ≤ dt ∧ (log.loop = true → dt ≤ times.getLastD 0)) :
    Playing log times dts.sum (log.after dts) := by
  obtain ⟨hfirst, hsorted, hspan⟩ := relativeTimes_spec hclock
  induction dts using List.reverseRecOn with
  | nil =>
    refine .going rfl 0 (fun _ => rfl) ?_ (le_refl 0) (fun _ => ?_) ⟨0, ?_, le_refl 0⟩
    · simp [after, init]
    · show (0 : ℚ) ≤ 2 * times.getLastD 0
      linarith
    · show times[0]? = some 0
      rw [← List.head?_eq_getElem?, hfirst]
  | append_singleton dts dt ih =>
    have hdt := hdts dt (by simp)
    have hplaying := ih fun dt hdt => hdts dt (by simp [hdt])
    rw [List.sum_append, List.sum_singleton, after, List.foldl_append]
    exact (playing_step hclock hfirst hsorted hplaying hdt.1 hdt.2).1

/-- **A log is replayed on its own clock**: whatever the ticks, each call shows the last frame of the log
that is not after the time since the first one, and none once that is past the end; with `loop`, the time
since the log last began, and always one. -/
theorem shown_on_time (hclock : relativeTimes log.frames = some times) {dts : List ℚ} {dtMs : ℚ}
    (hdts : ∀ dt ∈ dts ++ [dtMs], 0 ≤ dt ∧ (log.loop = true → dt ≤ times.getLastD 0)) :
    Shows log times dts.sum (log.step dtMs (log.after dts)).2 := by
  obtain ⟨hfirst, hsorted, -⟩ := relativeTimes_spec hclock
  have hdt := hdts dtMs (by simp)
  exact (playing_step hclock hfirst hsorted
    (playing_after hclock fun dt hmem => hdts dt (by simp [hmem])) hdt.1 hdt.2).2

/-- A log of 25 Hz. -/
def fastLog : FrameLog where
  frames := [5000, 5040, 5080, 5120].map fun mono => .obj [("mono", .num mono), ("rpm", .num (mono - 4000))]
  loop := true
  nonempty := List.cons_ne_nil _ _

theorem shown_on_time_fastLog :
    Shows fastLog [0, 40, 80, 120] 200 (fastLog.step 100 (fastLog.after [100, 100])).2 := by
  have hsum : (200 : ℚ) = [100, 100].sum := by norm_num
  rw [hsum]
  refine shown_on_time (by decide +kernel) fun dt hdt => ?_
  simp only [List.cons_append, List.nil_append, List.mem_cons, List.not_mem_nil, or_false, or_self] at hdt
  subst hdt
  norm_num

/-! ### A log without a clock -/

/-- What the call after `calls` calls shows, if each shows the frame after the last one. -/
def inTurn (log : FrameLog) (calls : ℕ) : Option (Sample (Option Json)) :=
  if log.loop then some (log.sampleAt (calls % log.frames.length))
  else if calls < log.frames.length then some (log.sampleAt calls) else none

/-- Where the source is after `calls` calls. -/
structure Turning (log : FrameLog) (calls : ℕ) (s : State) : Prop where
  once : log.loop = false →
    s.index = min calls log.frames.length ∧ (s.exhausted = true ↔ log.frames.length < calls)
  again : log.loop = true → s.exhausted = false ∧ s.index ≤ log.frames.length ∧
    s.index % log.frames.length = calls % log.frames.length

theorem Turning.of_once (hloop : log.loop = false) {calls : ℕ} {s : State}
    (hindex : s.index = min calls log.frames.length)
    (hexhausted : s.exhausted = true ↔ log.frames.length < calls) : Turning log calls s := by
  refine ⟨fun _ => ⟨hindex, hexhausted⟩, fun hyes => ?_⟩
  rw [hloop] at hyes
  cases hyes

theorem turning_step (hclock : relativeTimes log.frames = none) {calls : ℕ} {dtMs : ℚ} {s : State}
    (h : Turning log calls s) :
    Turning log (calls + 1) (log.step dtMs s).1 ∧ (log.step dtMs s).2 = log.inTurn calls := by
  have hlength : 0 < log.frames.length := List.length_pos_iff.mpr log.nonempty
  unfold step
  rw [hclock]
  dsimp only
  cases hloop : log.loop with
  | false =>
    obtain ⟨hindex, hexhausted⟩ := h.once hloop
    have hno : ¬ log.loop = true := by simp [hloop]
    rw [inTurn, if_neg hno]
    split
    · next hended =>
      have hover := hexhausted.mp hended
      rw [if_neg (by omega)]
      refine ⟨.of_once hloop ?_ (iff_of_true hended (by omega)), rfl⟩
      show s.index = min (calls + 1) log.frames.length
      omega
    · next hgoing =>
      have hbefore : calls ≤ log.frames.length := not_lt.mp fun hover => hgoing (hexhausted.mpr hover)
      unfold stepByIndex
      split
      · next hend =>
        rw [if_neg (by omega)]
        refine ⟨.of_once hloop ?_ (iff_of_true rfl (by omega)), rfl⟩
        show s.index = min (calls + 1) log.frames.length
        omega
      · next hmore =>
        have hwithin : ¬ log.frames.length ≤ s.index := fun hend => hmore ⟨hend, hno⟩
        have hcalls : s.index = calls := by omega
        rw [if_neg hwithin, hcalls, if_pos (by omega)]
        refine ⟨.of_once hloop ?_ (iff_of_false hgoing (by omega)), rfl⟩
        show calls + 1 = min (calls + 1) log.frames.length
        omega
  | true =>
    obtain ⟨hgoing, hindex, hturn⟩ := h.again hloop
    rw [inTurn, if_pos hloop, if_neg (by simp [hgoing]), stepByIndex, if_neg (by simp [hloop])]
    obtain ⟨index, hat⟩ : ∃ index, index = if log.frames.length ≤ s.index then 0 else s.index := ⟨_, rfl⟩
    -- at the end of the log, the next frame is the first one
    have hfrom : index = calls % log.frames.length := by
      rw [hat, ← hturn]
      split
      · next hend => rw [le_antisymm hindex hend, Nat.mod_self]
      · next hwithin => rw [Nat.mod_eq_of_lt (not_le.mp hwithin)]
    have hlt : calls % log.frames.length < log.frames.length := Nat.mod_lt _ hlength
    dsimp only
    rw [← hat, hfrom]
    refine ⟨⟨fun hno => by simp [hloop] at hno, fun _ => ⟨hgoing, hlt, ?_⟩⟩, rfl⟩
    exact Nat.mod_add_mod _ _ _

theorem turning_after (hclock : relativeTimes log.frames = none) (dts : List ℚ) :
    Turning log dts.length (log.after dts) := by
  induction dts using List.reverseRecOn with
  | nil =>
    refine ⟨fun _ => ⟨(Nat.zero_min _).symm, ?_⟩, fun _ => ⟨rfl, Nat.zero_le _, rfl⟩⟩
    simp [after, init]
  | append_singleton dts dt ih =>
    rw [List.length_append, List.length_singleton, after, List.foldl_append]
    exact (turning_step hclock ih).1

/-- **A log without a clock is replayed frame by frame**, whatever the ticks. -/
theorem shown_in_turn (hclock : relativeTimes log.frames = none) (dts : List ℚ) (dtMs : ℚ) :
    (log.step dtMs (log.after dts)).2 = log.inTurn dts.length :=
  (turning_step hclock (turning_after hclock dts)).2

end FrameLog

end TelemetryCloud.ReplaySources
