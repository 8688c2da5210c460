import TelemetryCloud.Decimation

/-!
# The stored axis and the drawn axis

`LapSegmenter` counts a lap's distance from the geometric crossing, over the fixes it was pushed;
`buildLapTrace` counts it from the crossing instant rounded to a millisecond, over the rows of the
lap's window.

* `shared_stretch` : two axes over paths with a stretch in common differ by a constant on it;
* `axes_agree` : **the two axes of a lap differ by one constant at the fixes strictly inside it**,
  and where its crossings are whole milliseconds they are one axis, from anchor to anchor.
-/

namespace TelemetryCloud.TraceAxis

open TelemetryCloud.Geometry Gates LapSegmenter LapTrace

/-! ### Axes over paths with a stretch in common -/

section Axis

variable {K : Type} [Field K] [LinearOrder K] (M : MathLib K)

/-- A point moved along its axis. -/
def shift (δ : K) (point : LapPoint K) : LapPoint K := { point with distM := point.distM + δ }

/-- The distance an axis gives the point at an instant. -/
def axisAt (points : List (LapPoint K)) (timeMs : K) : Option K :=
  (points.find? (·.timeMs = timeMs)).map (·.distM)

theorem axisFrom_shift (δ : K) (last : LapPoint K) (path : List (PathPoint K)) :
    axisFrom M (shift δ last) path = (axisFrom M last path).map (shift δ) := by
  induction path generalizing last with
  | nil => rfl
  | cons point rest ih =>
    have hnext : nextPoint M (shift δ last) point = shift δ (nextPoint M last point) := by
      rw [nextPoint, nextPoint, shift, shift, add_right_comm]
    rw [axisFrom, axisFrom, List.map_cons, hnext, ih]

/-- The point before only matters for the first step. -/
theorem axisFrom_of_step {a b : LapPoint K} {point : PathPoint K}
    (hstep : stepM M a.toPathPoint point = stepM M b.toPathPoint point)
    (hdist : a.distM = b.distM) (rest : List (PathPoint K)) :
    axisFrom M a (point :: rest) = axisFrom M b (point :: rest) := by
  rw [axisFrom, axisFrom, nextPoint, nextPoint, hstep, hdist]

/-- Wherever a path is cut, its axis goes on from there. -/
theorem withDistance_cut (before : List (PathPoint K)) (point : PathPoint K)
    (rest : List (PathPoint K)) :
    ∃ (passed : List (LapPoint K)) (d : K), passed.map LapPoint.toPathPoint = before ∧
      withDistance M (before ++ point :: rest) = passed ++ ⟨point, d⟩ :: axisFrom M ⟨point, d⟩ rest := by
  cases before with
  | nil => exact ⟨[], 0, rfl, rfl⟩
  | cons first before =>
    refine ⟨⟨first, 0⟩ :: axisFrom M ⟨first, 0⟩ before,
      (nextPoint M ((axisFrom M ⟨first, 0⟩ before).getLastD ⟨first, 0⟩) point).distM, ?_, ?_⟩
    · rw [List.map_cons, axisFrom_map]
    · rw [List.cons_append, withDistance, axisFrom_append_list]
      rfl

variable {M}

theorem axisAt_shift (δ : K) (points : List (LapPoint K)) (timeMs : K) :
    axisAt (points.map (shift δ)) timeMs = (axisAt points timeMs).map (· + δ) := by
  rw [axisAt, List.find?_map, axisAt, Option.map_map, Option.map_map]
  rfl

omit [Field K] in
theorem find?_time_eq_none {points : List (LapPoint K)} {timeMs : K}
    (h : timeMs ∉ points.map (·.timeMs)) : points.find? (·.timeMs = timeMs) = none := by
  rw [List.find?_eq_none]
  intro point hpoint heq
  exact h (List.mem_map.mpr ⟨point, hpoint, of_decide_eq_true heq⟩)

omit [Field K] in
/-- Points at other instants do not matter. -/
theorem axisAt_middle {before points after : List (LapPoint K)} {timeMs : K}
    (hbefore : timeMs ∉ before.map (·.timeMs)) (hafter : timeMs ∉ after.map (·.timeMs)) :
    axisAt (before ++ points ++ after) timeMs = axisAt points timeMs := by
  rw [axisAt, axisAt, List.find?_append, List.find?_append, find?_time_eq_none hbefore,
    find?_time_eq_none hafter, Option.none_or, Option.or_none]

omit [Field K] in
theorem exists_axisAt {points : List (LapPoint K)} {timeMs : K}
    (h : timeMs ∈ points.map (·.timeMs)) : ∃ d, axisAt points timeMs = some d := by
  obtain ⟨point, hpoint, heq⟩ := List.mem_map.mp h
  have hsome : (points.find? (·.timeMs = timeMs)).isSome :=
    List.find?_isSome.mpr ⟨point, hpoint, decide_eq_true heq⟩
  obtain ⟨found, hfound⟩ := Option.isSome_iff_exists.mp hsome
  exact ⟨found.distM, by rw [axisAt, hfound, Option.map_some]⟩

omit [Field K] [LinearOrder K] in
theorem times_eq {points : List (LapPoint K)} {path : List (PathPoint K)}
    (h : points.map LapPoint.toPathPoint = path) :
    points.map (·.timeMs) = path.map (·.timeMs) := by
  rw [← h, List.map_map]
  rfl

variable (M)

/-- **Two axes over paths with a stretch in common** differ by a constant on it. -/
theorem shared_stretch (before before' stretch after after' : List (PathPoint K)) :
    ∃ δ, ∀ timeMs, timeMs ∉ before.map (·.timeMs) → timeMs ∉ after.map (·.timeMs) →
      timeMs ∉ before'.map (·.timeMs) → timeMs ∉ after'.map (·.timeMs) →
      axisAt (withDistance M (before' ++ stretch ++ after')) timeMs =
        (axisAt (withDistance M (before ++ stretch ++ after)) timeMs).map (· + δ) := by
  cases stretch with
  | nil =>
    refine ⟨0, fun timeMs hbefore hafter hbefore' hafter' => ?_⟩
    have hnone : ∀ {a b : List (PathPoint K)}, timeMs ∉ a.map (·.timeMs) →
        timeMs ∉ b.map (·.timeMs) → axisAt (withDistance M (a ++ [] ++ b)) timeMs = none := by
      intro a b ha hb
      rw [axisAt, find?_time_eq_none, Option.map_none]
      rw [times_eq (withDistance_map M _), List.append_nil, List.map_append, List.mem_append]
      exact not_or.mpr ⟨ha, hb⟩
    rw [hnone hbefore hafter, hnone hbefore' hafter']
    rfl
  | cons point rest =>
    obtain ⟨passed, d, hpassed, haxis⟩ := withDistance_cut M before point (rest ++ after)
    obtain ⟨passed', d', hpassed', haxis'⟩ := withDistance_cut M before' point (rest ++ after')
    have hshift : ⟨point, d'⟩ = shift (d' - d) (⟨point, d⟩ : LapPoint K) := by
      rw [shift, add_sub_cancel]
    refine ⟨d' - d, fun timeMs hbefore hafter hbefore' hafter' => ?_⟩
    have hrest : ∀ (last : LapPoint K) {l : List (PathPoint K)}, timeMs ∉ l.map (·.timeMs) →
        timeMs ∉ (axisFrom M last l).map (·.timeMs) := by
      intro last l hl
      rwa [times_eq (axisFrom_map M last l)]
    rw [List.append_assoc, List.cons_append, haxis', List.append_assoc, List.cons_append, haxis,
      axisFrom_append_list, axisFrom_append_list, ← List.cons_append, ← List.cons_append,
      ← List.append_assoc, ← List.append_assoc,
      axisAt_middle (by rwa [times_eq hpassed']) (hrest _ hafter'),
      axisAt_middle (by rwa [times_eq hpassed]) (hrest _ hafter), hshift, axisFrom_shift,
      ← List.map_cons, axisAt_shift]

end Axis

/-! ### The drawn axis -/

section Trace

variable {K : Type} [Field K] [LinearOrder K] [FloorRing K] (M : MathLib K)

/-- The distance a trace gives the point so long after its start. -/
def traceAt (trace : List (LapTracePoint K)) (elapsedMs : ℤ) : Option K :=
  (trace.find? (·.elapsedMs = elapsedMs)).map (·.distM)

omit [LinearOrder K] [FloorRing K] in
/-- What is read off a trace is read off the axis it was drawn from. -/
theorem map_zipWith {α : Type} (originMs : ℤ) (f : LapTracePoint K → α) (g : LapPoint K → α)
    (h : ∀ sample point, point.toPathPoint = sample.toPoint →
      f (tracePoint originMs sample point) = g point)
    {samples : List (LocatedSample K)} {axis : List (LapPoint K)}
    (haxis : axis.map LapPoint.toPathPoint = samples.map LocatedSample.toPoint) :
    (List.zipWith (tracePoint originMs) samples axis).map f = axis.map g := by
  induction samples generalizing axis with
  | nil =>
    rw [List.map_nil, List.map_eq_nil_iff] at haxis
    rw [haxis]
    rfl
  | cons sample samples ih =>
    cases axis with
    | nil => cases haxis
    | cons point axis =>
      rw [List.map_cons, List.map_cons, List.cons.injEq] at haxis
      rw [List.zipWith_cons_cons, List.map_cons, List.map_cons, h sample point haxis.1, ih haxis.2]

omit [FloorRing K] in
theorem traceAt_zipWith [IsStrictOrderedRing K] (originMs timeMs : ℤ)
    {samples : List (LocatedSample K)} {axis : List (LapPoint K)}
    (haxis : axis.map LapPoint.toPathPoint = samples.map LocatedSample.toPoint) :
    traceAt (List.zipWith (tracePoint originMs) samples axis) (timeMs - originMs) =
      axisAt axis timeMs := by
  have hread := map_zipWith originMs
    (fun q => (decide (q.elapsedMs = timeMs - originMs), q.distM))
    (fun p => (decide (p.timeMs = (timeMs : K)), p.distM)) ?_ haxis
  · have hfind := congrArg (fun read => (read.find? Prod.fst).map Prod.snd) hread
    rw [List.find?_map, List.find?_map, Option.map_map, Option.map_map] at hfind
    exact hfind
  · intro sample point hpoint
    have htime : point.timeMs = (sample.time : K) := congrArg PathPoint.timeMs hpoint
    have hsame : (sample.time - originMs = timeMs - originMs) ↔ point.timeMs = (timeMs : K) := by
      rw [htime, Int.cast_inj, sub_left_inj]
    exact Prod.ext (decide_eq_decide.mpr hsame) rfl

/-- A trace within its budget is not thinned. -/
theorem buildLapTrace_eq {samples : List (StoredSample K)} {maxPoints : ℕ} {bounds : LapBounds}
    (hmax : (anchored samples bounds).length ≤ maxPoints) {originMs : ℤ}
    (horigin : (anchored samples bounds).head?.map (·.time) = some originMs) :
    buildLapTrace M samples maxPoints bounds =
      List.zipWith (tracePoint originMs) (anchored samples bounds)
        (withDistance M ((anchored samples bounds).map LocatedSample.toPoint)) := by
  cases hcons : anchored samples bounds with
  | nil =>
    rw [hcons] at horigin
    cases horigin
  | cons first rest =>
    rw [hcons] at horigin hmax
    cases horigin
    rw [buildLapTrace, hcons]
    refine Decimation.decimateByDistance_short _ ?_
    rw [List.length_zipWith]
    exact (min_le_left _ _).trans hmax

end Trace

/-! ### The samples of a window -/

section Window

variable {K : Type} {rows : List (StoredSample K)} {samples window : List (LocatedSample K)}
  {startMs endMs : ℤ}

/-- The samples with a position. -/
def located (rows : List (StoredSample K)) : List (LocatedSample K) :=
  rows.filterMap fun row => located? row.toAnalysisSample

/-- Samples in strict time order are decided by which they are. -/
theorem eq_of_mem_iff (hsamples : samples.Pairwise fun a b => a.time < b.time)
    (hwindow : window.Pairwise fun a b => a.time < b.time)
    (hmem : ∀ a, a ∈ samples ↔ a ∈ window) : samples = window := by
  have hirrefl : Std.Irrefl fun a b : LocatedSample K => a.time < b.time :=
    ⟨fun a => lt_irrefl a.time⟩
  have hantisymm : Std.Antisymm fun a b : LocatedSample K => a.time < b.time :=
    ⟨fun a b hab hba => absurd hab (lt_asymm hba)⟩
  exact hsamples.eq_of_mem_iff hwindow hmem

/-- The samples of a lap among a session's, with the nearest one on either side. -/
structure Around (samples window : List (LocatedSample K)) (startMs endMs : ℤ) : Prop where
  sorted : window.Pairwise fun a b => a.time < b.time
  subset : ∀ a ∈ window, a ∈ samples
  inside : insideLap window ⟨startMs, endMs⟩ = insideLap samples ⟨startMs, endMs⟩
  before : ∀ a ∈ samples, a.time < startMs →
    (∀ other ∈ samples, other.time < startMs → other.time ≤ a.time) → a ∈ window
  after : ∀ b ∈ samples, endMs < b.time →
    (∀ other ∈ samples, endMs < other.time → b.time ≤ other.time) → b ∈ window

theorem mem_located {a : LocatedSample K} :
    a ∈ located rows ↔ ∃ row ∈ rows, located? row.toAnalysisSample = some a :=
  List.mem_filterMap

/-- What holds of the instants of the samples with a position holds of all of them. -/
theorem forall_time {C : ℤ → Prop} (hpositioned : ∀ row ∈ rows, isPositioned row.toAnalysisSample)
    (h : ∀ a ∈ located rows, C a.time) : ∀ row ∈ rows, C row.time := by
  intro row hrow
  obtain ⟨a, ha⟩ := Option.isSome_iff_exists.mp (hpositioned row hrow)
  rw [← time_of_located? ha]
  exact h a (mem_located.mpr ⟨row, hrow, ha⟩)

/-- **The window of a lap**, when every row has a position. -/
theorem around_window (hrows : rows.Pairwise fun a b => a.time < b.time)
    (hpositioned : ∀ row ∈ rows, isPositioned row.toAnalysisSample) (hlap : startMs ≤ endMs) :
    Around (located rows) (located (findLapWindow rows startMs endMs)) startMs endMs := by
  have hwindow : (located (findLapWindow rows startMs endMs)).Pairwise fun a b => a.time < b.time :=
    located_sorted (SampleTable.window_sorted hrows hlap)
  have hsubset : ∀ a ∈ located (findLapWindow rows startMs endMs), a ∈ located rows := by
    intro a ha
    obtain ⟨row, hrow, hloc⟩ := mem_located.mp ha
    refine mem_located.mpr ⟨row, ?_, hloc⟩
    rcases SampleTable.mem_window.mp hrow with hbefore | ⟨hmem, -⟩ | hafter
    · exact (SampleTable.mem_lastBefore hbefore).1
    · exact hmem
    · exact (SampleTable.mem_firstAfter hafter).1
  refine ⟨hwindow, hsubset, ?_, ?_, ?_⟩
  · refine eq_of_mem_iff (hwindow.sublist List.filter_sublist)
      ((located_sorted hrows).sublist List.filter_sublist) ?_
    intro a
    rw [mem_insideLap, mem_insideLap]
    refine and_congr_left fun hinside => ⟨hsubset a, fun ha => ?_⟩
    obtain ⟨row, hrow, hloc⟩ := mem_located.mp ha
    rw [time_of_located? hloc] at hinside
    exact mem_located.mpr ⟨row, SampleTable.mem_window.mpr (.inr (.inl ⟨hrow, hinside⟩)), hloc⟩
  · intro a ha hlt hlast
    obtain ⟨row, hrow, hloc⟩ := mem_located.mp ha
    have hlast := forall_time (C := fun time => time < startMs → time ≤ a.time) hpositioned hlast
    rw [time_of_located? hloc] at hlt hlast
    exact mem_located.mpr ⟨row, SampleTable.mem_window.mpr
      (.inl (SampleTable.lastBefore_eq hrows hrow hlt hlast)), hloc⟩
  · intro b hb hlt hfirst
    obtain ⟨row, hrow, hloc⟩ := mem_located.mp hb
    have hfirst := forall_time (C := fun time => endMs < time → b.time ≤ time) hpositioned hfirst
    rw [time_of_located? hloc] at hlt hfirst
    exact mem_located.mpr ⟨row, SampleTable.mem_window.mpr
      (.inr (.inr (SampleTable.firstAfter_eq hrows hrow hlt hfirst))), hloc⟩

section Interpolate

variable [Field K] {a b : LocatedSample K} {atMs : ℤ}

/-- A sample on the instant leaves nothing to interpolate. -/
theorem interpolateAt_eq_none (hsorted : window.Pairwise fun a b => a.time < b.time)
    (ha : a ∈ window) (hon : a.time = atMs) : interpolateAt atMs window = none := by
  induction window with
  | nil => rfl
  | cons first rest ih =>
    cases rest with
    | nil => rfl
    | cons second rest =>
      rw [interpolateAt]
      split
      · rfl
      · rename_i hne
        have hlater : a ∈ rest := by
          rcases List.mem_cons.mp ha with rfl | ha
          · exact absurd (.inl hon) hne
          · rcases List.mem_cons.mp ha with rfl | ha
            · exact absurd (.inr hon) hne
            · exact ha
        rw [List.pairwise_cons] at hsorted
        have hsecond := (List.pairwise_cons.mp hsorted.2).1 a hlater
        rw [if_pos (by omega)]
        exact ih hsorted.2 (List.mem_cons_of_mem _ hlater)

/-- Between two neighbours the sample is interpolated from them. -/
theorem interpolateAt_eq_some (hsorted : window.Pairwise fun a b => a.time < b.time)
    (ha : a ∈ window) (hb : b ∈ window) (hat : a.time < atMs) (hbt : atMs < b.time)
    (hapart : ∀ other ∈ window, other.time ≤ a.time ∨ b.time ≤ other.time) :
    interpolateAt atMs window = some (between atMs a b) := by
  induction window with
  | nil => cases ha
  | cons first rest ih =>
    cases rest with
    | nil =>
      rw [List.mem_singleton] at ha hb
      rw [ha] at hat
      rw [hb] at hbt
      omega
    | cons second rest =>
      rw [List.pairwise_cons] at hsorted
      have hfirst := hsorted.1 second List.mem_cons_self
      have hbrest : b ∈ second :: rest := by
        rcases List.mem_cons.mp hb with rfl | hb
        · rcases List.mem_cons.mp ha with rfl | ha
          · omega
          · have := hsorted.1 a ha
            omega
        · exact hb
      have hsecond : second.time ≤ b.time := by
        rcases List.mem_cons.mp hbrest with rfl | hb
        · exact le_rfl
        · exact ((List.pairwise_cons.mp hsorted.2).1 b hb).le
      rcases List.mem_cons.mp ha with rfl | harest
      · -- the second sample is the neighbour
        have hsame : second = b := by
          rcases List.mem_cons.mp hbrest with rfl | hb
          · rfl
          · have := (List.pairwise_cons.mp hsorted.2).1 b hb
            have := hapart second (List.mem_cons_of_mem _ List.mem_cons_self)
            omega
        rw [interpolateAt, hsame, if_neg (by omega), if_neg (by omega)]
      · have hbefore : second.time ≤ a.time := by
          rcases List.mem_cons.mp harest with rfl | ha
          · exact le_rfl
          · exact ((List.pairwise_cons.mp hsorted.2).1 a ha).le
        rw [interpolateAt, if_neg (by omega), if_pos (by omega)]
        exact ih hsorted.2 harest hbrest fun other hother =>
          hapart other (List.mem_cons_of_mem _ hother)

end Interpolate

end Window

/-! ### The hop of a crossing -/

section Hop

variable {K : Type} [Field K] [LinearOrder K] {gate : ProjectedGate K}
  {samples : List (LocatedSample K)} {x y : Passage K} {a b a' b' : LocatedSample K}

/-- Two neighbouring samples and the crossing of the hop from the one to the other. -/
structure Straddles (samples : List (LocatedSample K)) (x : Passage K) (a b : LocatedSample K) :
    Prop where
  left : samples[x.index]? = some a
  right : samples[x.index + 1]? = some b
  gap : (b.time : K) - a.time ≤ (MAX_FIX_GAP_MS : K)
  nonneg : 0 ≤ x.crossing.t
  le_one : x.crossing.t ≤ 1
  anchor : x.anchor = {
    timeMs := a.time + x.crossing.t * (b.time - a.time)
    lat := a.lat + x.crossing.t * (b.lat - a.lat)
    lon := a.lon + x.crossing.t * (b.lon - a.lon)
    speedKmh := lerpChannel a.speedKmh b.speedKmh x.crossing.t
    gLon := lerpChannel a.gLon b.gLon x.crossing.t }

theorem exists_straddles [IsStrictOrderedRing K]
    (hx : x ∈ passages gate (samples.map LocatedSample.toPoint)) :
    ∃ a b, Straddles samples x a b := by
  obtain ⟨hprev, hcur, hcrossing⟩ := mem_passages.mp hx
  rw [List.getElem?_map] at hprev hcur
  obtain ⟨a, ha, hprev⟩ := Option.map_eq_some_iff.mp hprev
  obtain ⟨b, hb, hcur⟩ := Option.map_eq_some_iff.mp hcur
  obtain ⟨-, hgap, hnonneg, hle, hcrossMs⟩ := findGateCrossing_between hcrossing
  obtain ⟨hlat, hlon⟩ := findGateCrossing_position hcrossing
  rw [← hprev, ← hcur] at hgap
  refine ⟨a, b, ha, hb, hgap, hnonneg, hle, ?_⟩
  rw [Passage.anchor, anchorPoint, hcrossMs, hlat, hlon, ← hprev, ← hcur]
  rfl

omit [Field K] [LinearOrder K] in
/-- Earlier among the samples and earlier in time are the same. -/
theorem index_lt_iff (hsamples : samples.Pairwise fun a b => a.time < b.time) {i j : ℕ}
    (ha : samples[i]? = some a) (hb : samples[j]? = some b) : a.time < b.time ↔ i < j := by
  constructor
  · intro hlt
    by_contra hle
    rcases Nat.eq_or_lt_of_le (not_lt.mp hle) with rfl | hji
    · rw [Option.some.inj (ha.symm.trans hb)] at hlt
      exact lt_irrefl _ hlt
    · exact lt_asymm hlt (Lists.pairwise_getElem? hsamples hb ha hji)
  · exact Lists.pairwise_getElem? hsamples ha hb

theorem Straddles.lt (hsamples : samples.Pairwise fun a b => a.time < b.time)
    (h : Straddles samples x a b) : a.time < b.time :=
  (index_lt_iff hsamples h.left h.right).mpr (Nat.lt_succ_self _)

theorem Straddles.apart (hsamples : samples.Pairwise fun a b => a.time < b.time)
    (h : Straddles samples x a b) : ∀ other ∈ samples, other.time ≤ a.time ∨ b.time ≤ other.time := by
  intro other hother
  obtain ⟨k, hk⟩ := List.mem_iff_getElem?.mp hother
  rw [← not_lt, ← not_lt, index_lt_iff hsamples h.left hk, index_lt_iff hsamples hk h.right]
  omega

/-- **The fixes between two crossings**, by time. -/
theorem fixesBetween_eq (hsamples : samples.Pairwise fun a b => a.time < b.time)
    (hx : Straddles samples x a b) (hy : Straddles samples y a' b') :
    fixesBetween (samples.map LocatedSample.toPoint) x y =
      (insideLap samples ⟨b.time, a'.time⟩).map LocatedSample.toPoint := by
  rw [fixesBetween, ← List.map_drop, ← List.map_take]
  refine congrArg (List.map LocatedSample.toPoint) ?_
  refine eq_of_mem_iff (hsamples.sublist ((List.take_sublist _ _).trans (List.drop_sublist _ _)))
    (hsamples.sublist List.filter_sublist) fun other => ?_
  rw [Lists.mem_take_drop, mem_insideLap]
  constructor
  · rintro ⟨k, hxk, hky, hk⟩
    refine ⟨List.mem_of_getElem? hk, ?_, ?_⟩
    · rw [← not_lt, index_lt_iff hsamples hk hx.right]
      omega
    · rw [← not_lt, index_lt_iff hsamples hy.left hk]
      omega
  · rintro ⟨hother, hlo, hhi⟩
    obtain ⟨k, hk⟩ := List.mem_iff_getElem?.mp hother
    rw [← not_lt, index_lt_iff hsamples hk hx.right] at hlo
    rw [← not_lt, index_lt_iff hsamples hy.left hk] at hhi
    exact ⟨k, by omega, by omega, hk⟩

/-- A crossing at a whole millisecond: on the one sample, on the other, or between them, and then the
trace interpolates the segmenter's anchor. -/
theorem Straddles.whole [IsStrictOrderedRing K]
    (hsamples : samples.Pairwise fun a b => a.time < b.time) (h : Straddles samples x a b) {atMs : ℤ}
    (hat : x.anchor.timeMs = atMs) :
    (atMs = a.time ∧ x.crossing.t = 0) ∨ (atMs = b.time ∧ x.crossing.t = 1) ∨
      (a.time < atMs ∧ atMs < b.time ∧ (between atMs a b).toPoint = x.anchor) := by
  have hspan : (0 : K) < (b.time : K) - a.time := sub_pos.mpr (Int.cast_lt.mpr (h.lt hsamples))
  have htime : (atMs : K) = a.time + x.crossing.t * (b.time - a.time) := by
    rw [← hat, h.anchor]
  rcases h.nonneg.eq_or_lt with hzero | hpos
  · left
    rw [← hzero, zero_mul, add_zero, Int.cast_inj] at htime
    exact ⟨htime, hzero.symm⟩
  · rcases h.le_one.eq_or_lt with hone | hlt
    · right
      left
      rw [hone, one_mul, add_sub_cancel, Int.cast_inj] at htime
      exact ⟨htime, hone⟩
    · right
      right
      have hlo := mul_pos hpos hspan
      have hhi := mul_lt_mul_of_pos_right hlt hspan
      have hfraction : ((atMs - a.time : ℤ) : K) / (b.time - a.time : ℤ) = x.crossing.t := by
        rw [Int.cast_sub, Int.cast_sub, htime, add_sub_cancel_left, mul_div_cancel_right₀ _ hspan.ne']
      have hleft : (a.time : K) < atMs := by linarith
      have hright : (atMs : K) < b.time := by linarith
      refine ⟨Int.cast_lt.mp hleft, Int.cast_lt.mp hright, ?_⟩
      rw [h.anchor, between, LocatedSample.toPoint]
      dsimp only
      rw [hfraction, htime]

end Hop

/-! ### The ends of a lap on whole milliseconds -/

section Ends

variable {K : Type} [Field K] [LinearOrder K] (M : MathLib K)

/-- Two points at one instant and place. -/
structure Meet (p q : PathPoint K) : Prop where
  timeMs : p.timeMs = q.timeMs
  lat : p.lat = q.lat
  lon : p.lon = q.lon

/-- What may stand before `next` in a path for `anchor`. -/
def Opening (anchor next : PathPoint K) (opening : List (PathPoint K)) : Prop :=
  (∃ q, opening = [q] ∧ Meet q anchor ∧ stepM M q next = stepM M anchor next) ∨
    (opening = [] ∧ Meet next anchor ∧ stepM M anchor next = 0)

/-- What may stand after `last` in a path for `anchor`. -/
def Closing (last anchor : PathPoint K) (closing : List (PathPoint K)) : Prop :=
  (∃ q, closing = [q] ∧ Meet q anchor ∧ stepM M last q = stepM M last anchor) ∨
    (closing = [] ∧ Meet last anchor ∧ stepM M last anchor = 0)

variable {M}

/-- There is no way between two points at one instant and place. -/
theorem Meet.stepM_eq_zero (hzero : M.hypot 0 0 = 0) {p q : PathPoint K} (h : Meet p q) :
    stepM M p q = 0 := by
  have hgeometric : distanceM M p.lat p.lon q.lat q.lon = 0 := by
    rw [distanceM, h.lat, h.lon, sub_self, sub_self, zero_mul, zero_mul, hzero]
  have hdt : ¬ (0 : K) < (q.timeMs - p.timeMs) / 1000 := by
    rw [h.timeMs, sub_self, zero_div]
    exact lt_irrefl 0
  unfold stepM
  dsimp only
  rw [hgeometric]
  split
  · rw [if_neg hdt]
  · rfl

omit [Field K] [LinearOrder K] in
theorem Meet.symm {p q : PathPoint K} (h : Meet p q) : Meet q p :=
  ⟨h.timeMs.symm, h.lat.symm, h.lon.symm⟩

variable {samples window : List (LocatedSample K)} {x : Passage K} {a b : LocatedSample K}

theorem Straddles.meet_left (h : Straddles samples x a b) (ht : x.crossing.t = 0) :
    Meet a.toPoint x.anchor := by
  rw [h.anchor, ht, zero_mul, zero_mul, zero_mul, add_zero, add_zero, add_zero]
  exact ⟨rfl, rfl, rfl⟩

theorem Straddles.meet_right (h : Straddles samples x a b) (ht : x.crossing.t = 1) :
    Meet b.toPoint x.anchor := by
  rw [h.anchor, ht, one_mul, one_mul, one_mul, add_sub_cancel, add_sub_cancel, add_sub_cancel]
  exact ⟨rfl, rfl, rfl⟩

/-- The anchor on the first sample has that sample's speed, or none where the second has none. -/
theorem Straddles.step_left (h : Straddles samples x a b) (ht : x.crossing.t = 0) :
    stepM M a.toPoint b.toPoint = stepM M x.anchor b.toPoint := by
  have hmeet := h.meet_left ht
  have hspeed : x.anchor.speedKmh = lerpChannel a.speedKmh b.speedKmh 0 := by rw [h.anchor, ht]
  unfold stepM
  rw [hspeed, ← hmeet.timeMs, ← hmeet.lat, ← hmeet.lon, LocatedSample.toPoint, LocatedSample.toPoint]
  cases a.speedKmh <;> cases b.speedKmh <;> simp [lerpChannel]

theorem Straddles.step_right (h : Straddles samples x a b) (ht : x.crossing.t = 1) :
    stepM M a.toPoint b.toPoint = stepM M a.toPoint x.anchor := by
  have hmeet := h.meet_right ht
  have hspeed : x.anchor.speedKmh = lerpChannel a.speedKmh b.speedKmh 1 := by rw [h.anchor, ht]
  unfold stepM
  rw [hspeed, ← hmeet.timeMs, ← hmeet.lat, ← hmeet.lon, LocatedSample.toPoint, LocatedSample.toPoint]
  cases a.speedKmh <;> cases b.speedKmh <;> simp [lerpChannel]

variable {startMs endMs : ℤ}

omit [Field K] [LinearOrder K] in
theorem Around.mem (haround : Around samples window startMs endMs) {c : LocatedSample K}
    (hc : c ∈ samples) (hstart : startMs ≤ c.time) (hend : c.time ≤ endMs) : c ∈ window := by
  have hinside : c ∈ insideLap window ⟨startMs, endMs⟩ := by
    rw [haround.inside]
    exact mem_insideLap.mpr ⟨hc, hstart, hend⟩
  exact (mem_insideLap.mp hinside).1

omit [Field K] [LinearOrder K] in
theorem insideLap_sorted (hsamples : samples.Pairwise fun a b => a.time < b.time)
    (bounds : LapBounds) : (insideLap samples bounds).Pairwise fun a b => a.time < b.time :=
  hsamples.sublist List.filter_sublist

omit [Field K] [LinearOrder K] in
theorem insideLap_cons (hsamples : samples.Pairwise fun a b => a.time < b.time)
    (ha : a ∈ samples) {hi : ℤ} (hle : a.time ≤ hi) :
    insideLap samples ⟨a.time, hi⟩ = a :: insideLap samples ⟨a.time + 1, hi⟩ := by
  refine eq_of_mem_iff (insideLap_sorted hsamples _) ?_ fun other => ?_
  · rw [List.pairwise_cons]
    refine ⟨fun other hother => ?_, insideLap_sorted hsamples _⟩
    exact Int.lt_of_add_one_le (mem_insideLap.mp hother).2.1
  · rw [List.mem_cons, mem_insideLap, mem_insideLap]
    dsimp only
    constructor
    · rintro ⟨hother, hlo, hhi⟩
      rcases hlo.eq_or_lt with heq | hlt
      · exact .inl (Lists.eq_of_key_eq hsamples hother ha heq.symm)
      · exact .inr ⟨hother, hlt, hhi⟩
    · rintro (rfl | ⟨hother, hlo, hhi⟩)
      · exact ⟨ha, le_rfl, hle⟩
      · exact ⟨hother, by omega, hhi⟩

omit [Field K] [LinearOrder K] in
theorem insideLap_concat (hsamples : samples.Pairwise fun a b => a.time < b.time)
    (ha : a ∈ samples) {lo : ℤ} (hle : lo ≤ a.time) :
    insideLap samples ⟨lo, a.time⟩ = insideLap samples ⟨lo, a.time - 1⟩ ++ [a] := by
  refine eq_of_mem_iff (insideLap_sorted hsamples _) ?_ fun other => ?_
  · refine Lists.pairwise_concat_iff.mpr ⟨insideLap_sorted hsamples _, fun other hother => ?_⟩
    exact Int.lt_of_le_sub_one (mem_insideLap.mp hother).2.2
  · rw [List.mem_append, List.mem_singleton, mem_insideLap, mem_insideLap]
    dsimp only
    constructor
    · rintro ⟨hother, hlo, hhi⟩
      rcases hhi.eq_or_lt with heq | hlt
      · exact .inr (Lists.eq_of_key_eq hsamples hother ha heq)
      · exact .inl ⟨hother, hlo, by omega⟩
    · rintro (⟨hother, hlo, hhi⟩ | rfl)
      · exact ⟨hother, hlo, by omega⟩
      · exact ⟨ha, hle, le_rfl⟩

omit [Field K] [LinearOrder K] in
/-- Bounds with the same samples between them. -/
theorem insideLap_congr {bounds bounds' : LapBounds}
    (h : ∀ other ∈ samples, bounds.startMs ≤ other.time ∧ other.time ≤ bounds.endMs ↔
      bounds'.startMs ≤ other.time ∧ other.time ≤ bounds'.endMs) :
    insideLap samples bounds = insideLap samples bounds' :=
  List.filter_congr fun other hother => decide_eq_decide.mpr (h other hother)

variable [IsStrictOrderedRing K]

/-- **How a trace opens** on a crossing at a whole millisecond. -/
theorem Straddles.opens (hzero : M.hypot 0 0 = 0)
    (hsamples : samples.Pairwise fun a b => a.time < b.time)
    (haround : Around samples window startMs endMs) (h : Straddles samples x a b)
    (hat : x.anchor.timeMs = startMs) (hb : b.time ≤ endMs) :
    ∃ opening, Opening M x.anchor b.toPoint opening ∧
      ((interpolateAt startMs window).toList ++ insideLap samples ⟨startMs, endMs⟩).map
          LocatedSample.toPoint =
        opening ++ (insideLap samples ⟨b.time, endMs⟩).map LocatedSample.toPoint := by
  have hlt := h.lt hsamples
  have hapart := h.apart hsamples
  have ha : a ∈ samples := List.mem_of_getElem? h.left
  have hbmem : b ∈ samples := List.mem_of_getElem? h.right
  rcases h.whole hsamples hat with ⟨hon, ht⟩ | ⟨hon, ht⟩ | ⟨hleft, hright, hanchor⟩
  · refine ⟨[a.toPoint], .inl ⟨_, rfl, h.meet_left ht, h.step_left ht⟩, ?_⟩
    have hinside : insideLap samples ⟨startMs, endMs⟩ =
        a :: insideLap samples ⟨b.time, endMs⟩ := by
      rw [hon, insideLap_cons hsamples ha (by omega)]
      refine congrArg (a :: ·) (insideLap_congr fun other hother => ?_)
      have := hapart other hother
      dsimp only
      omega
    rw [interpolateAt_eq_none haround.sorted (haround.mem ha hon.le (by omega)) hon.symm, hinside]
    rfl
  · refine ⟨[], .inr ⟨rfl, h.meet_right ht, (h.meet_right ht).symm.stepM_eq_zero hzero⟩, ?_⟩
    rw [interpolateAt_eq_none haround.sorted (haround.mem hbmem hon.le hb) hon.symm, hon]
    rfl
  · refine ⟨[x.anchor], .inl ⟨_, rfl, ⟨rfl, rfl, rfl⟩, rfl⟩, ?_⟩
    have hinside : insideLap samples ⟨startMs, endMs⟩ = insideLap samples ⟨b.time, endMs⟩ := by
      refine insideLap_congr fun other hother => ?_
      have := hapart other hother
      dsimp only
      omega
    have hbefore : a ∈ window := haround.before a ha hleft fun other hother hother' => by
      have := hapart other hother
      omega
    rw [interpolateAt_eq_some haround.sorted hbefore (haround.mem hbmem hright.le hb) hleft hright
      fun other hother => hapart other (haround.subset other hother), hinside, List.map_append,
      Option.toList_some, List.map_singleton, hanchor]

/-- **How a trace closes**, in the same way. -/
theorem Straddles.closes (hzero : M.hypot 0 0 = 0)
    (hsamples : samples.Pairwise fun a b => a.time < b.time)
    (haround : Around samples window startMs endMs) (h : Straddles samples x a b)
    (hat : x.anchor.timeMs = endMs) (ha : startMs ≤ a.time) {lo : ℤ} (hlo : lo ≤ a.time) :
    ∃ closing, Closing M a.toPoint x.anchor closing ∧
      (insideLap samples ⟨lo, endMs⟩ ++ (interpolateAt endMs window).toList).map
          LocatedSample.toPoint =
        (insideLap samples ⟨lo, a.time⟩).map LocatedSample.toPoint ++ closing := by
  have hlt := h.lt hsamples
  have hapart := h.apart hsamples
  have hamem : a ∈ samples := List.mem_of_getElem? h.left
  have hb : b ∈ samples := List.mem_of_getElem? h.right
  rcases h.whole hsamples hat with ⟨hon, ht⟩ | ⟨hon, ht⟩ | ⟨hleft, hright, hanchor⟩
  · refine ⟨[], .inr ⟨rfl, h.meet_left ht, (h.meet_left ht).stepM_eq_zero hzero⟩, ?_⟩
    rw [interpolateAt_eq_none haround.sorted (haround.mem hamem ha hon.ge) hon.symm, hon,
      Option.toList_none, List.append_nil, List.append_nil]
  · refine ⟨[b.toPoint], .inl ⟨_, rfl, h.meet_right ht, h.step_right ht⟩, ?_⟩
    have hinside : insideLap samples ⟨lo, endMs⟩ = insideLap samples ⟨lo, a.time⟩ ++ [b] := by
      rw [hon, insideLap_concat hsamples hb (by omega)]
      refine congrArg (· ++ [b]) (insideLap_congr fun other hother => ?_)
      have := hapart other hother
      dsimp only
      omega
    rw [interpolateAt_eq_none haround.sorted (haround.mem hb (by omega) hon.ge) hon.symm, hinside,
      Option.toList_none, List.append_nil, List.map_append, List.map_singleton]
  · refine ⟨[x.anchor], .inl ⟨_, rfl, ⟨rfl, rfl, rfl⟩, rfl⟩, ?_⟩
    have hinside : insideLap samples ⟨lo, endMs⟩ = insideLap samples ⟨lo, a.time⟩ := by
      refine insideLap_congr fun other hother => ?_
      have := hapart other hother
      dsimp only
      omega
    have hafter : b ∈ window := haround.after b hb hright fun other hother hother' => by
      have := hapart other hother
      omega
    rw [interpolateAt_eq_some haround.sorted (haround.mem hamem ha hleft.le) hafter hleft hright
      fun other hother => hapart other (haround.subset other hother), hinside, List.map_append,
      Option.toList_some, List.map_singleton, hanchor]

end Ends

/-! ### From the ends to the axis -/

section Join

variable {K : Type} [Field K] [LinearOrder K] {M : MathLib K} {anchor next last : PathPoint K}
  {opening closing : List (PathPoint K)}

/-- Whatever opens a path for an anchor, the axis goes on as from the anchor. -/
theorem Opening.axis (h : Opening M anchor next opening) (rest : List (PathPoint K)) :
    ∃ passed : List (LapPoint K), passed.map LapPoint.toPathPoint = opening ∧
      withDistance M (opening ++ next :: rest) =
        passed ++ axisFrom M ⟨anchor, 0⟩ (next :: rest) := by
  rcases h with ⟨q, rfl, -, hstep⟩ | ⟨rfl, -, hstep⟩
  · refine ⟨[⟨q, 0⟩], rfl, ?_⟩
    have haxis := axisFrom_of_step M (a := ⟨q, 0⟩) (b := ⟨anchor, 0⟩) hstep rfl rest
    rw [List.singleton_append, List.singleton_append, withDistance, haxis]
  · refine ⟨[], rfl, ?_⟩
    rw [List.nil_append, List.nil_append, withDistance, axisFrom, nextPoint]
    dsimp only
    rw [hstep, add_zero]

theorem Opening.head (h : Opening M anchor next opening) (rest : List (PathPoint K)) :
    ∃ p, (withDistance M (opening ++ next :: rest)).head? = some p ∧ Meet p.toPathPoint anchor := by
  rcases h with ⟨q, rfl, hmeet, -⟩ | ⟨rfl, hmeet, -⟩
  · exact ⟨⟨q, 0⟩, rfl, hmeet⟩
  · exact ⟨⟨next, 0⟩, rfl, hmeet⟩

theorem Opening.timeMs (h : Opening M anchor next opening) {timeMs : K}
    (hne : anchor.timeMs ≠ timeMs) : timeMs ∉ opening.map (·.timeMs) := by
  rcases h with ⟨q, rfl, hmeet, -⟩ | ⟨rfl, -⟩
  · rw [List.map_singleton, List.mem_singleton, hmeet.timeMs]
    exact hne.symm
  · exact List.not_mem_nil

theorem Closing.timeMs (h : Closing M last anchor closing) {timeMs : K}
    (hne : anchor.timeMs ≠ timeMs) : timeMs ∉ closing.map (·.timeMs) := by
  rcases h with ⟨q, rfl, hmeet, -⟩ | ⟨rfl, -⟩
  · rw [List.map_singleton, List.mem_singleton, hmeet.timeMs]
    exact hne.symm
  · exact List.not_mem_nil

/-- Whatever closes a path for an anchor, the axis ends where it would at the anchor. -/
theorem Closing.getLast (h : Closing M last anchor closing) {points : List (LapPoint K)}
    {point : LapPoint K} (hpoints : points.getLast? = some point)
    (hlast : point.toPathPoint = last) :
    ∃ p, (points ++ axisFrom M point closing).getLast? = some p ∧ Meet p.toPathPoint anchor ∧
      p.distM = (nextPoint M point anchor).distM := by
  rcases h with ⟨q, rfl, hmeet, hstep⟩ | ⟨rfl, hmeet, hstep⟩
  · refine ⟨nextPoint M point q, List.getLast?_concat, hmeet, ?_⟩
    rw [nextPoint, nextPoint, hlast, hstep]
  · refine ⟨point, ?_, hlast ▸ hmeet, ?_⟩
    · rw [axisFrom, List.append_nil]
      exact hpoints
    · rw [nextPoint, hlast, hstep, add_zero]

end Join

/-! ### The lap between two crossings -/

section Lap

variable {K : Type} [Field K] [LinearOrder K] [FloorRing K] [IsStrictOrderedRing K] (M : MathLib K)
  (options : Options K) {samples window : List (LocatedSample K)} {x y : Passage K}
  {a b a' b' : LocatedSample K}

/-- The samples of a lap: those between its two crossings, in order. -/
structure Between (samples : List (LocatedSample K)) (x y : Passage K)
    (a b a' b' : LocatedSample K) : Prop where
  sorted : samples.Pairwise fun a b => a.time < b.time
  first : Straddles samples x a b
  last : Straddles samples y a' b'
  apart : b.time ≤ a'.time

omit [FloorRing K] in
theorem Straddles.timeMs_bounds (hsamples : samples.Pairwise fun a b => a.time < b.time)
    (h : Straddles samples x a b) : (a.time : K) ≤ x.anchor.timeMs ∧ x.anchor.timeMs ≤ b.time := by
  have hspan : (a.time : K) ≤ b.time := Int.cast_le.mpr (h.lt hsamples).le
  rw [h.anchor]
  exact ⟨le_add_of_nonneg_right (mul_nonneg h.nonneg (sub_nonneg.mpr hspan)), by
    have := mul_le_mul_of_nonneg_right h.le_one (sub_nonneg.mpr hspan)
    linarith⟩

/-- The rounded crossing is between the samples too. -/
theorem Straddles.round_bounds (hsamples : samples.Pairwise fun a b => a.time < b.time)
    (h : Straddles samples x a b) :
    a.time ≤ mathRound x.anchor.timeMs ∧ mathRound x.anchor.timeMs ≤ b.time := by
  obtain ⟨hlo, hhi⟩ := h.timeMs_bounds hsamples
  have hlo := mathRound_mono hlo
  have hhi := mathRound_mono hhi
  rw [mathRound_intCast] at hlo hhi
  exact ⟨hlo, hhi⟩

omit [FloorRing K] in
/-- Between two accepted crossings there is a sample: they are further apart than two gaps. -/
theorem between_of_straddles (hsamples : samples.Pairwise fun a b => a.time < b.time)
    (hx : Straddles samples x a b) (hy : Straddles samples y a' b')
    (hlong : (MIN_LAP_MS : K) ≤ y.crossing.crossMs - x.crossing.crossMs) :
    Between samples x y a b a' b' := by
  refine ⟨hsamples, hx, hy, ?_⟩
  obtain ⟨hx0, -⟩ := hx.timeMs_bounds hsamples
  obtain ⟨-, hy1⟩ := hy.timeMs_bounds hsamples
  have hxgap := hx.gap
  have hygap := hy.gap
  have hanchors : y.anchor.timeMs - x.anchor.timeMs = y.crossing.crossMs - x.crossing.crossMs := rfl
  rw [MAX_FIX_GAP_MS] at hxgap hygap
  rw [← hanchors, MIN_LAP_MS] at hlong
  have hle : (b.time : K) ≤ a'.time := by
    push_cast at hxgap hygap hlong
    linarith
  exact Int.cast_le.mp hle

/-- The segmenter's axis of the lap between two crossings. -/
def lapAxis (samples : List (LocatedSample K)) (x y : Passage K) (bounds : LapBounds) :
    List (LapPoint K) :=
  withDistance M (x.anchor :: (insideLap samples bounds).map LocatedSample.toPoint ++ [y.anchor])

/-- The axis of a trace. -/
def drawnAxis (window : List (LocatedSample K)) (bounds : LapBounds) : List (LapPoint K) :=
  withDistance M ((anchorToLap window bounds).map LocatedSample.toPoint)

omit [IsStrictOrderedRing K] in
theorem lapBetween_axis (h : Between samples x y a b a' b') (n : ℕ) :
    (lapBetween M options (samples.map LocatedSample.toPoint) n x y).points =
      lapAxis M samples x y ⟨b.time, a'.time⟩ := by
  rw [lapAxis, ← fixesBetween_eq h.sorted h.first h.last]
  rfl

omit [Field K] [LinearOrder K] [FloorRing K] [IsStrictOrderedRing K] in
/-- Samples in order, cut where `up` begins to hold and where `down` ends to. -/
theorem split_by (hsamples : samples.Pairwise fun a b => a.time < b.time) (up down : ℤ → Prop)
    [DecidablePred up] [DecidablePred down] (hup : ∀ s t, s ≤ t → up s → up t)
    (hdown : ∀ s t, s ≤ t → down t → down s) :
    samples = (samples.filter fun c => ¬ up c.time) ++
      (samples.filter fun c => up c.time ∧ down c.time) ++
      samples.filter fun c => up c.time ∧ ¬ down c.time := by
  have hle : samples.Pairwise fun a b => a.time ≤ b.time := hsamples.imp le_of_lt
  rw [Lists.filter_append_filter hle, Lists.filter_append_filter hle, eq_comm,
    List.filter_eq_self]
  · intro c _
    rw [decide_eq_true_eq]
    by_cases hc : up c.time
    · by_cases hc' : down c.time
      · exact .inl (.inr ⟨hc, hc'⟩)
      · exact .inr ⟨hc, hc'⟩
    · exact .inl (.inl hc)
  · rintro c d (hc | ⟨-, hc⟩) ⟨hd, hd'⟩
    · by_contra hle
      exact hc (hup _ _ (not_lt.mp hle) hd)
    · by_contra hle
      exact hd' (hdown _ _ (not_lt.mp hle) hc)
  · rintro c d hc ⟨hd, -⟩
    by_contra hle
    exact hc (hup _ _ (not_lt.mp hle) hd)

/-- Past the start of a lap, as it is stored and as it was crossed. -/
def Past (startMs : ℤ) (anchor : PathPoint K) (timeMs : ℤ) : Prop :=
  startMs < timeMs ∧ anchor.timeMs < timeMs

/-- Short of its end. -/
def Short (endMs : ℤ) (anchor : PathPoint K) (timeMs : ℤ) : Prop :=
  timeMs < endMs ∧ (timeMs : K) < anchor.timeMs

instance (startMs : ℤ) (anchor : PathPoint K) : DecidablePred (Past startMs anchor) :=
  fun _ => inferInstanceAs (Decidable (_ ∧ _))

instance (endMs : ℤ) (anchor : PathPoint K) : DecidablePred (Short endMs anchor) :=
  fun _ => inferInstanceAs (Decidable (_ ∧ _))

omit [FloorRing K] in
/-- What lies around the samples strictly inside a lap, in any part of the samples. -/
theorem split_strictly (hsamples : samples.Pairwise fun a b => a.time < b.time)
    (bounds bounds' : LapBounds)
    (hinside : ∀ c ∈ samples, Past bounds.startMs x.anchor c.time → Short bounds.endMs y.anchor c.time →
      bounds'.startMs ≤ c.time ∧ c.time ≤ bounds'.endMs) :
    ∃ before after : List (LocatedSample K),
      insideLap samples bounds' = before ++ (samples.filter fun c =>
        Past bounds.startMs x.anchor c.time ∧ Short bounds.endMs y.anchor c.time) ++ after ∧
      (∀ c ∈ before, ¬ Past bounds.startMs x.anchor c.time) ∧
      ∀ c ∈ after, ¬ Short bounds.endMs y.anchor c.time := by
  have hsplit := split_by (insideLap_sorted hsamples bounds') (Past bounds.startMs x.anchor)
    (Short bounds.endMs y.anchor)
    (fun s t hst hs => ⟨hs.1.trans_le hst, hs.2.trans_le (Int.cast_le.mpr hst)⟩)
    (fun s t hst ht => ⟨hst.trans_lt ht.1, (Int.cast_le.mpr hst).trans_lt ht.2⟩)
  have hmiddle : (insideLap samples bounds').filter (fun c =>
        Past bounds.startMs x.anchor c.time ∧ Short bounds.endMs y.anchor c.time) =
      samples.filter fun c =>
        Past bounds.startMs x.anchor c.time ∧ Short bounds.endMs y.anchor c.time := by
    rw [insideLap, List.filter_filter]
    refine List.filter_congr fun c hc => ?_
    rw [← Bool.decide_and, decide_eq_decide]
    exact and_iff_left_of_imp fun hin => hinside c hc hin.1 hin.2
  rw [hmiddle] at hsplit
  refine ⟨_, _, hsplit, fun c hc => ?_, fun c hc => ?_⟩
  · exact of_decide_eq_true (List.mem_filter.mp hc).2
  · exact (of_decide_eq_true (List.mem_filter.mp hc).2).2

omit [FloorRing K] in
theorem not_mem_times {l : List (LocatedSample K)} {timeMs : ℤ}
    (hl : ∀ c ∈ l, c.time ≠ timeMs) :
    (timeMs : K) ∉ (l.map LocatedSample.toPoint).map (·.timeMs) := by
  rw [List.map_map, List.mem_map]
  rintro ⟨c, hc, htime⟩
  exact hl c hc (Int.cast_inj.mp htime)

omit [FloorRing K] in
/-- A sample between the two crossings is one of the lap's. -/
theorem Between.inside (h : Between samples x y a b a' b') {c : LocatedSample K} (hc : c ∈ samples)
    (hafter : x.anchor.timeMs < c.time) (hbefore : (c.time : K) < y.anchor.timeMs) :
    b.time ≤ c.time ∧ c.time ≤ a'.time := by
  obtain ⟨hx0, -⟩ := h.first.timeMs_bounds h.sorted
  obtain ⟨-, hy1⟩ := h.last.timeMs_bounds h.sorted
  refine ⟨(h.first.apart h.sorted c hc).resolve_left fun hle => ?_,
    (h.last.apart h.sorted c hc).resolve_right fun hge => ?_⟩
  · exact absurd hafter (not_lt.mpr ((Int.cast_le.mpr hle).trans hx0))
  · exact absurd hbefore (not_lt.mpr (hy1.trans (Int.cast_le.mpr hge)))

omit [FloorRing K] in
/-- **One constant**: strictly inside the lap and its crossings the two axes go in step. -/
theorem Between.offset (h : Between samples x y a b a' b') {startMs endMs : ℤ}
    (haround : Around samples window startMs endMs) :
    ∃ δ, ∀ timeMs : ℤ, Past startMs x.anchor timeMs → Short endMs y.anchor timeMs →
      axisAt (drawnAxis M window ⟨startMs, endMs⟩) timeMs =
        (axisAt (lapAxis M samples x y ⟨b.time, a'.time⟩) timeMs).map (· + δ) := by
  obtain ⟨before, after, hstored, hbefore, hafter⟩ := split_strictly (x := x) (y := y) h.sorted
    ⟨startMs, endMs⟩ ⟨b.time, a'.time⟩ fun c hc hpast hshort => h.inside hc hpast.2 hshort.2
  obtain ⟨before', after', hdrawn, hbefore', hafter'⟩ := split_strictly (x := x) (y := y) h.sorted
    ⟨startMs, endMs⟩ ⟨startMs, endMs⟩ fun c _ hpast hshort => ⟨hpast.1.le, hshort.1.le⟩
  obtain ⟨δ, hδ⟩ := shared_stretch M (x.anchor :: before.map LocatedSample.toPoint)
    (((interpolateAt startMs window).toList ++ before').map LocatedSample.toPoint)
    ((samples.filter fun c => Past startMs x.anchor c.time ∧ Short endMs y.anchor c.time).map
      LocatedSample.toPoint)
    (after.map LocatedSample.toPoint ++ [y.anchor])
    ((after' ++ (interpolateAt endMs window).toList).map LocatedSample.toPoint)
  refine ⟨δ, fun timeMs hpast hshort => ?_⟩
  rw [drawnAxis, anchorToLap, haround.inside, hdrawn, lapAxis, hstored]
  simp only [List.map_append, List.cons_append, List.append_assoc] at hδ ⊢
  refine hδ timeMs ?_ ?_ ?_ ?_
  · rw [List.map_cons, List.mem_cons, not_or]
    refine ⟨hpast.2.ne', not_mem_times fun c hc heq => hbefore c hc ?_⟩
    rw [heq]
    exact hpast
  · rw [List.mem_append, not_or]
    refine ⟨not_mem_times fun c hc heq => hafter c hc ?_, ?_⟩
    · rw [heq]
      exact hshort
    · rw [List.map_singleton, List.mem_singleton]
      exact hshort.2.ne
  · rw [List.mem_append, not_or]
    refine ⟨not_mem_times fun c hc heq => ?_, not_mem_times fun c hc heq => hbefore' c hc ?_⟩
    · have hstart := (interpolateAt_time (Option.mem_toList.mp hc)).1
      exact absurd hpast.1 (by omega)
    · rw [heq]
      exact hpast
  · rw [List.mem_append, not_or]
    refine ⟨not_mem_times fun c hc heq => hafter' c hc ?_, not_mem_times fun c hc heq => ?_⟩
    · rw [heq]
      exact hshort
    · have hend := (interpolateAt_time (Option.mem_toList.mp hc)).1
      exact absurd hshort.1 (by omega)

omit [FloorRing K] in
/-- **Whole milliseconds**: between the two crossings the axes are one, and both end at the anchors. -/
theorem Between.whole (hzero : M.hypot 0 0 = 0) (h : Between samples x y a b a' b')
    {startMs endMs : ℤ} (haround : Around samples window startMs endMs)
    (hstart : x.anchor.timeMs = startMs) (hend : y.anchor.timeMs = endMs) :
    (∀ timeMs : K, x.anchor.timeMs ≠ timeMs → y.anchor.timeMs ≠ timeMs →
      axisAt (drawnAxis M window ⟨startMs, endMs⟩) timeMs =
        axisAt (lapAxis M samples x y ⟨b.time, a'.time⟩) timeMs) ∧
    ∃ head tail last, (drawnAxis M window ⟨startMs, endMs⟩).head? = some head ∧
      (drawnAxis M window ⟨startMs, endMs⟩).getLast? = some tail ∧
      (lapAxis M samples x y ⟨b.time, a'.time⟩).getLast? = some last ∧
      Meet head.toPathPoint x.anchor ∧ Meet tail.toPathPoint y.anchor ∧ tail.distM = last.distM := by
  have hx1 := (h.first.timeMs_bounds h.sorted).2
  have hy0 := (h.last.timeMs_bounds h.sorted).1
  rw [hstart, Int.cast_le] at hx1
  rw [hend, Int.cast_le] at hy0
  have hapart := h.apart
  have hb : b ∈ samples := List.mem_of_getElem? h.first.right
  have ha' : a' ∈ samples := List.mem_of_getElem? h.last.left
  obtain ⟨opening, hopening, hopens⟩ := h.first.opens hzero h.sorted haround hstart (by omega)
  obtain ⟨closing, hclosing, hcloses⟩ :=
    h.last.closes hzero h.sorted haround hend (by omega) h.apart
  -- the fixes of the lap, from the first of them to the last
  have hfirst := insideLap_cons h.sorted hb h.apart
  have hlast := insideLap_concat h.sorted ha' h.apart
  obtain ⟨fixes, hfixes⟩ : ∃ fixes, fixes =
      (insideLap samples ⟨b.time, a'.time⟩).map LocatedSample.toPoint := ⟨_, rfl⟩
  have hcons : fixes = b.toPoint :: (insideLap samples ⟨b.time + 1, a'.time⟩).map
      LocatedSample.toPoint := by
    rw [hfixes, hfirst, List.map_cons]
  have hconcat : fixes = (insideLap samples ⟨b.time, a'.time - 1⟩).map LocatedSample.toPoint ++
      [a'.toPoint] := by
    rw [hfixes, hlast, List.map_append, List.map_singleton]
  have hpath : (anchorToLap window ⟨startMs, endMs⟩).map LocatedSample.toPoint =
      opening ++ b.toPoint :: ((insideLap samples ⟨b.time + 1, a'.time⟩).map
        LocatedSample.toPoint ++ closing) := by
    rw [anchorToLap, haround.inside, List.map_append, hopens, List.append_assoc, ← List.map_append,
      hcloses, ← hfixes, hcons, List.cons_append]
  obtain ⟨passed, hpassed, haxis⟩ := hopening.axis
    ((insideLap samples ⟨b.time + 1, a'.time⟩).map LocatedSample.toPoint ++ closing)
  obtain ⟨head, hhead, hheadMeet⟩ := hopening.head
    ((insideLap samples ⟨b.time + 1, a'.time⟩).map LocatedSample.toPoint ++ closing)
  rw [← hpath] at haxis hhead
  rw [← List.cons_append, ← hcons, axisFrom_append_list, ← List.append_assoc] at haxis
  have hlap : lapAxis M samples x y ⟨b.time, a'.time⟩ = [⟨x.anchor, 0⟩] ++
      axisFrom M ⟨x.anchor, 0⟩ fixes ++
        axisFrom M ((axisFrom M ⟨x.anchor, 0⟩ fixes).getLastD ⟨x.anchor, 0⟩) [y.anchor] := by
    rw [lapAxis, ← hfixes, List.cons_append, withDistance, axisFrom_append_list]
    rfl
  obtain ⟨point, hpoint, hpointLast⟩ : ∃ point,
      (axisFrom M ⟨x.anchor, 0⟩ fixes).getLast? = some point ∧ point.toPathPoint = a'.toPoint := by
    rw [hconcat, axisFrom_append]
    exact ⟨_, List.getLast?_concat, rfl⟩
  have hlastD : (axisFrom M ⟨x.anchor, 0⟩ fixes).getLastD ⟨x.anchor, 0⟩ = point := by
    rw [List.getLastD_eq_getLast?, hpoint, Option.getD_some]
  rw [hlastD] at haxis hlap
  have htimes : ∀ {l : List (PathPoint K)} {timeMs : K}, timeMs ∉ l.map (·.timeMs) →
      timeMs ∉ (axisFrom M point l).map (·.timeMs) := by
    intro l timeMs hl
    rwa [times_eq (axisFrom_map M point l)]
  constructor
  · intro timeMs hx hy
    rw [drawnAxis, haxis, hlap, axisAt_middle _ (htimes (hclosing.timeMs hy)),
      axisAt_middle _ (htimes _)]
    · rw [List.map_singleton, List.mem_singleton]
      exact hx.symm
    · rw [List.map_singleton, List.mem_singleton]
      exact hy.symm
    · rw [times_eq hpassed]
      exact hopening.timeMs hx
  · have hpassedLast : (passed ++ axisFrom M ⟨x.anchor, 0⟩ fixes).getLast? = some point := by
      rw [List.getLast?_append, hpoint, Option.some_or]
    obtain ⟨tail, htail, htailMeet, hdist⟩ := hclosing.getLast hpassedLast hpointLast
    refine ⟨head, tail, nextPoint M point y.anchor, hhead, ?_, ?_, hheadMeet, htailMeet, hdist⟩
    · rw [drawnAxis, haxis]
      exact htail
    · rw [hlap]
      exact List.getLast?_concat

end Lap

/-! ### The two axes of a lap -/

section Main

variable {K : Type} [Field K] [LinearOrder K] [FloorRing K] {rows : List (StoredSample K)}

/-- A fix strictly inside a lap, by its stored bounds and by its crossings. -/
structure StrictlyInside (lap : DerivedLap K) (first last : LapPoint K) (timeMs : ℤ) : Prop where
  afterStart : lap.startedAt < timeMs
  beforeEnd : timeMs < lap.endedAt
  afterFirst : first.timeMs < timeMs
  beforeLast : (timeMs : K) < last.timeMs

/-- A lap whose two crossings are whole milliseconds. -/
def WholeCrossings (first last : LapPoint K) : Prop :=
  (∃ n : ℤ, first.timeMs = n) ∧ ∃ n : ℤ, last.timeMs = n

/-- The trace of a lap, drawn from its own window. -/
def lapTrace (M : MathLib K) (rows : List (StoredSample K)) (lap : DerivedLap K) (maxPoints : ℕ) :
    List (LapTracePoint K) :=
  buildLapTrace M (findLapWindow rows lap.startedAt lap.endedAt) maxPoints
    ⟨lap.startedAt, lap.endedAt⟩

omit [LinearOrder K] [FloorRing K] in
/-- The segmenter and the trace read the same positions. -/
theorem point?_eq (rows : List (StoredSample K)) :
    (rows.map (·.toAnalysisSample)).filterMap AnalysisSample.point? =
      (located rows).map LocatedSample.toPoint := by
  rw [located, List.filterMap_map, List.map_filterMap]
  refine List.filterMap_congr fun row _ => ?_
  rw [Function.comp_apply, AnalysisSample.point?, located?]
  cases row.lat <;> cases row.lon <;> rfl

variable [IsStrictOrderedRing K] {samples window : List (LocatedSample K)} {x y : Passage K}
  {a b a' b' : LocatedSample K}

/-- A trace opens at the rounded crossing. -/
theorem Between.origin (h : Between samples x y a b a' b')
    (haround : Around samples window (mathRound x.anchor.timeMs) (mathRound y.anchor.timeMs))
    (hlt : mathRound x.anchor.timeMs < mathRound y.anchor.timeMs) :
    (anchorToLap window ⟨mathRound x.anchor.timeMs, mathRound y.anchor.timeMs⟩).head?.map (·.time) =
      some (mathRound x.anchor.timeMs) := by
  obtain ⟨hx0, hx1⟩ := h.first.round_bounds h.sorted
  obtain ⟨hy0, -⟩ := h.last.round_bounds h.sorted
  have ha : a ∈ samples := List.mem_of_getElem? h.first.left
  have hb : b ∈ samples := List.mem_of_getElem? h.first.right
  have hapart := h.apart
  refine (anchorToLap_head? haround.sorted hlt ?_).mpr ⟨a, ?_, hx0⟩
  · rw [haround.inside]
    exact List.ne_nil_of_mem (mem_insideLap.mpr ⟨hb, hx1, hapart.trans hy0⟩)
  · rcases hx0.eq_or_lt with hon | hbefore
    · exact haround.mem ha hon.ge (by omega)
    · refine haround.before a ha hbefore fun other hother hother' => ?_
      have := h.first.apart h.sorted other hother
      omega

omit [FloorRing K] [IsStrictOrderedRing K] in
theorem lapAxis_ends (M : MathLib K) (samples : List (LocatedSample K)) (x y : Passage K)
    (bounds : LapBounds) :
    ∃ first last, (lapAxis M samples x y bounds).head? = some first ∧
      (lapAxis M samples x y bounds).getLast? = some last ∧
      first.toPathPoint = x.anchor ∧ last.toPathPoint = y.anchor := by
  have haxis : lapAxis M samples x y bounds =
      ⟨x.anchor, 0⟩ :: axisFrom M ⟨x.anchor, 0⟩
        ((insideLap samples bounds).map LocatedSample.toPoint) ++
        [nextPoint M ((axisFrom M ⟨x.anchor, 0⟩
          ((insideLap samples bounds).map LocatedSample.toPoint)).getLastD ⟨x.anchor, 0⟩)
          y.anchor] := by
    rw [lapAxis, List.cons_append, withDistance, axisFrom_append, List.cons_append]
  rw [haxis]
  exact ⟨_, _, rfl, List.getLast?_concat, rfl, rfl⟩

omit [FloorRing K] in
/-- A fix strictly inside is on the segmenter's axis. -/
theorem Between.exists_axisAt (M : MathLib K) (h : Between samples x y a b a' b')
    {c : LocatedSample K} (hc : c ∈ samples) (hafter : x.anchor.timeMs < c.time)
    (hbefore : (c.time : K) < y.anchor.timeMs) :
    ∃ d, axisAt (lapAxis M samples x y ⟨b.time, a'.time⟩) c.time = some d := by
  refine TraceAxis.exists_axisAt ?_
  have hinside : c ∈ insideLap samples ⟨b.time, a'.time⟩ :=
    mem_insideLap.mpr ⟨hc, h.inside hc hafter hbefore⟩
  rw [lapAxis, times_eq (withDistance_map M _), List.cons_append, List.map_cons, List.map_append]
  refine List.mem_cons_of_mem _ (List.mem_append_left _ ?_)
  exact List.mem_map.mpr ⟨c.toPoint, List.mem_map_of_mem hinside, rfl⟩

omit [LinearOrder K] [FloorRing K] [IsStrictOrderedRing K] in
/-- The ends of a trace are those of its axis. -/
theorem trace_ends (originMs : ℤ) {axis : List (LapPoint K)} {head tail : LapPoint K}
    (haxis : axis.map LapPoint.toPathPoint = samples.map LocatedSample.toPoint)
    (hhead : axis.head? = some head) (htail : axis.getLast? = some tail) :
    ∃ first last, (List.zipWith (tracePoint originMs) samples axis).head? = some first ∧
      (List.zipWith (tracePoint originMs) samples axis).getLast? = some last ∧
      first.lat = head.lat ∧ first.lon = head.lon ∧
      last.lat = tail.lat ∧ last.lon = tail.lon ∧ last.distM = tail.distM := by
  have hread := map_zipWith originMs (fun q => (q.lat, q.lon, q.distM))
    (fun p => (p.lat, p.lon, p.distM)) (fun sample point hpoint => by
      have hlat := congrArg PathPoint.lat hpoint
      have hlon := congrArg PathPoint.lon hpoint
      exact Prod.ext hlat.symm (Prod.ext hlon.symm rfl)) haxis
  have hfirst := congrArg List.head? hread
  have hlast := congrArg List.getLast? hread
  rw [List.head?_map, List.head?_map, hhead, Option.map_some] at hfirst
  rw [List.getLast?_map, List.getLast?_map, htail, Option.map_some] at hlast
  obtain ⟨first, hfirst, hfirstEq⟩ := Option.map_eq_some_iff.mp hfirst
  obtain ⟨last, hlast, hlastEq⟩ := Option.map_eq_some_iff.mp hlast
  rw [Prod.mk.injEq, Prod.mk.injEq] at hfirstEq hlastEq
  exact ⟨first, last, hfirst, hlast, hfirstEq.1, hfirstEq.2.1, hlastEq.1, hlastEq.2.1,
    hlastEq.2.2⟩

omit [FloorRing K] in
/-- **The trace at the fixes strictly inside a lap**, from its axis at their instants. -/
theorem Between.traceAt_inside {M : MathLib K} (h : Between (located rows) x y a b a' b')
    (hpositioned : ∀ row ∈ rows, isPositioned row.toAnalysisSample) {lap : DerivedLap K}
    {first last : LapPoint K} (hfirst : first.toPathPoint = x.anchor)
    (hlast : last.toPathPoint = y.anchor) {path : List (LocatedSample K)} {axis : List (LapPoint K)}
    (haxis : axis.map LapPoint.toPathPoint = path.map LocatedSample.toPoint)
    {trace : List (LapTracePoint K)}
    (htrace : trace = List.zipWith (tracePoint lap.startedAt) path axis) {δ : K}
    (hδ : ∀ timeMs : ℤ, Past lap.startedAt x.anchor timeMs → Short lap.endedAt y.anchor timeMs →
      axisAt axis timeMs =
        (axisAt (lapAxis M (located rows) x y ⟨b.time, a'.time⟩) timeMs).map (· + δ)) :
    ∀ row ∈ rows, StrictlyInside lap first last row.time →
      ∃ d, axisAt (lapAxis M (located rows) x y ⟨b.time, a'.time⟩) row.time = some d ∧
        traceAt trace (row.time - lap.startedAt) = some (d + δ) := by
  intro row hrow hinside
  have hpast := hinside.afterFirst
  have hshort := hinside.beforeLast
  rw [hfirst] at hpast
  rw [hlast] at hshort
  obtain ⟨c, hc⟩ := Option.isSome_iff_exists.mp (hpositioned row hrow)
  have htime := time_of_located? hc
  obtain ⟨d, hd⟩ := h.exists_axisAt M (mem_located.mpr ⟨row, hrow, hc⟩)
    (by rwa [htime]) (by rwa [htime])
  rw [htime] at hd
  refine ⟨d, hd, ?_⟩
  rw [htrace, traceAt_zipWith lap.startedAt row.time haxis]
  have hoffset := hδ row.time ⟨hinside.afterStart, hpast⟩ ⟨hinside.beforeEnd, hshort⟩
  rw [hd, Option.map_some] at hoffset
  exact hoffset

/-- **The stored axis and the drawn axis.**  At the fixes strictly inside a lap they differ by one
constant; where both crossings are whole milliseconds the constant is 0, the trace's ends are where
the segmenter's anchors are, and the two totals are one. -/
theorem axes_agree (M : MathLib K) (hzero : M.hypot 0 0 = 0) (options : Options K) (gate : Gate K)
    (hrows : rows.Pairwise fun a b => a.time < b.time)
    (hpositioned : ∀ row ∈ rows, isPositioned row.toAnalysisSample) {lap : DerivedLap K}
    (hlap : lap ∈ segmentLaps M options gate (rows.map (·.toAnalysisSample))) {maxPoints : ℕ}
    (hmax : (anchored (findLapWindow rows lap.startedAt lap.endedAt)
      ⟨lap.startedAt, lap.endedAt⟩).length ≤ maxPoints) :
    ∃ first last, lap.points.head? = some first ∧ lap.points.getLast? = some last ∧
      ∃ δ : K, (∀ row ∈ rows, StrictlyInside lap first last row.time →
          ∃ d, axisAt lap.points row.time = some d ∧
            traceAt (lapTrace M rows lap maxPoints) (row.time - lap.startedAt) = some (d + δ)) ∧
        (WholeCrossings first last → δ = 0 ∧ ∃ head tail,
          (lapTrace M rows lap maxPoints).head? = some head ∧
          (lapTrace M rows lap maxPoints).getLast? = some tail ∧
          head.lat = first.lat ∧ head.lon = first.lon ∧
          tail.lat = last.lat ∧ tail.lon = last.lon ∧ tail.distM = last.distM) := by
  obtain ⟨hlt, -, -⟩ := lap_bounds M options gate hlap
  rw [segmentLaps_eq, point?_eq] at hlap
  obtain ⟨k, x, hx, y, hy, hxy, rfl⟩ := mem_lapsOf M options _ (accepted_isChain _) hlap
  obtain ⟨a, b, hfirst⟩ := exists_straddles ((accepted_sublist _).subset hx)
  obtain ⟨a', b', hlast⟩ := exists_straddles ((accepted_sublist _).subset hy)
  have hsorted : (located rows).Pairwise fun a b => a.time < b.time := located_sorted hrows
  have hbetween := between_of_straddles hsorted hfirst hlast hxy
  have hinstants := lapBetween_instants M options ((located rows).map LocatedSample.toPoint) k x y
  rw [instants, Prod.mk.injEq, Prod.mk.injEq] at hinstants
  obtain ⟨hstartedAt, hendedAt, -⟩ := hinstants
  have hpoints := lapBetween_axis M options hbetween k
  obtain ⟨lap, hdef⟩ : ∃ lap, lap =
    lapBetween M options ((located rows).map LocatedSample.toPoint) k x y := ⟨_, rfl⟩
  rw [← hdef] at hlt hmax hstartedAt hendedAt hpoints ⊢
  have haround := around_window hrows hpositioned hlt.le
  have horigin : (anchored (findLapWindow rows lap.startedAt lap.endedAt)
      ⟨lap.startedAt, lap.endedAt⟩).head?.map (·.time) = some lap.startedAt := by
    rw [hstartedAt, hendedAt] at haround hlt ⊢
    exact hbetween.origin haround hlt
  -- the trace on its own axis
  have htrace : lapTrace M rows lap maxPoints = List.zipWith (tracePoint lap.startedAt)
      (anchored (findLapWindow rows lap.startedAt lap.endedAt) ⟨lap.startedAt, lap.endedAt⟩)
      (drawnAxis M (located (findLapWindow rows lap.startedAt lap.endedAt))
        ⟨lap.startedAt, lap.endedAt⟩) := buildLapTrace_eq M hmax horigin
  have haxis : (drawnAxis M (located (findLapWindow rows lap.startedAt lap.endedAt))
      ⟨lap.startedAt, lap.endedAt⟩).map LapPoint.toPathPoint =
      (anchored (findLapWindow rows lap.startedAt lap.endedAt)
        ⟨lap.startedAt, lap.endedAt⟩).map LocatedSample.toPoint := withDistance_map M _
  rw [hpoints]
  obtain ⟨first, last, hhead, hgetLast, hfirstAnchor, hlastAnchor⟩ :=
    lapAxis_ends M (located rows) x y ⟨b.time, a'.time⟩
  refine ⟨first, last, hhead, hgetLast, ?_⟩
  by_cases hwhole : WholeCrossings first last
  · obtain ⟨⟨n, hn⟩, m, hm⟩ := hwhole
    rw [hfirstAnchor] at hn
    rw [hlastAnchor] at hm
    have hstart : x.anchor.timeMs = lap.startedAt := by
      have hround : lap.startedAt = mathRound x.anchor.timeMs := hstartedAt
      rw [hround, hn, mathRound_intCast]
    have hend : y.anchor.timeMs = lap.endedAt := by
      have hround : lap.endedAt = mathRound y.anchor.timeMs := hendedAt
      rw [hround, hm, mathRound_intCast]
    obtain ⟨hsame, head, tail, final, hdrawnHead, hdrawnTail, hfinal, hheadMeet, htailMeet, hdist⟩ :=
      hbetween.whole M hzero haround hstart hend
    cases hgetLast.symm.trans hfinal
    obtain ⟨first', last', hfirst', hlast', hlat, hlon, hlat', hlon', hdist'⟩ :=
      trace_ends lap.startedAt haxis hdrawnHead hdrawnTail
    rw [← htrace] at hfirst' hlast'
    refine ⟨0, hbetween.traceAt_inside hpositioned hfirstAnchor hlastAnchor haxis htrace
      fun timeMs hpast hshort => ?_, fun _ => ⟨rfl, first', last', hfirst', hlast',
      ?_, ?_, ?_, ?_, ?_⟩⟩
    · rw [hsame _ hpast.2.ne hshort.2.ne']
      simp
    · rw [hlat, hheadMeet.lat, hfirstAnchor]
    · rw [hlon, hheadMeet.lon, hfirstAnchor]
    · rw [hlat', htailMeet.lat, hlastAnchor]
    · rw [hlon', htailMeet.lon, hlastAnchor]
    · rw [hdist', hdist]
  · obtain ⟨δ, hδ⟩ := hbetween.offset M haround
    exact ⟨δ, hbetween.traceAt_inside hpositioned hfirstAnchor hlastAnchor haxis htrace hδ,
      fun h => absurd h hwhole⟩

theorem axes_agree_twoPasses : ∃ lap ∈ segmentLaps flatMath {} meridianGate twoPasses,
    ∃ first last, lap.points.head? = some first ∧ lap.points.getLast? = some last ∧
      ∃ δ : ℚ, ∀ row ∈ twoPassesRows, StrictlyInside lap first last row.time →
        ∃ d, axisAt lap.points row.time = some d ∧
          traceAt (lapTrace flatMath twoPassesRows lap 100) (row.time - lap.startedAt) =
            some (d + δ) := by
  obtain ⟨lap, hlap, hstart, hend⟩ := twoPasses_lap
  have hmax : (anchored (findLapWindow twoPassesRows lap.startedAt lap.endedAt)
      ⟨lap.startedAt, lap.endedAt⟩).length ≤ 100 := by
    rw [hstart, hend]
    decide +kernel
  obtain ⟨first, last, hfirst, hlast, δ, hδ, -⟩ :=
    axes_agree flatMath (by decide +kernel) {} meridianGate (by decide) (by decide) hlap hmax
  exact ⟨lap, hlap, first, last, hfirst, hlast, δ, hδ⟩

end Main

end TelemetryCloud.TraceAxis
