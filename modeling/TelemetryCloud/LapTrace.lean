import TelemetryCloud.LapSegmenter
import TelemetryCloud.Rounding
import TelemetryCloud.SampleTable

/-!
# A lap redrawn from the stored samples

`lap-trace.ts` over the rows `findLapWindow` selects: the lap's own samples with the nearest row on
either side, clipped to the lap, with a synthesized fix at each crossing where two fixes bracket it.

* `buildLapTrace`, `findLapWindow` : the code;
* `decimateByDistance_head?`, `decimateByDistance_getLast?` : thinning a trace keeps its two ends;
* `lap_bounds` : a lap of `segmentLaps` has a located fix between its bounds;
* `opensAndCloses_iff` : **a lap's trace opens and closes on the line exactly when the row next to
  each crossing has a position**, or a fix sits on the crossing;
* `blankRow_off_line` : where one row without a position beside the line takes the trace off it.
-/

namespace TelemetryCloud.LapTrace

open TelemetryCloud.Geometry Gates LapSegmenter

/-! ### The code -/

/-- A row of `telemetry_samples`. -/
structure StoredSample (K : Type) extends AnalysisSample K where
  seq : ℕ

/-- A sample that `isPositioned`. -/
structure LocatedSample (K : Type) where
  time : ℤ
  lat : K
  lon : K
  speedKmh : Option K
  rpm : Option K
  coolantC : Option K
  oilC : Option K
  gLat : Option K
  gLon : Option K

structure LapBounds where
  startMs : ℤ
  endMs : ℤ

/-- A point of a trace.  Elapsed times are whole milliseconds in the trace of a lap; where points
are interpolated, `T` is the field. -/
structure LapTracePoint (K : Type) (T : Type := ℤ) where
  distM : K
  elapsedMs : T
  lat : K
  lon : K
  speedKmh : Option K
  rpm : Option K
  coolantC : Option K
  oilC : Option K
  gLat : Option K
  gLon : Option K

/-- `findLapWindow`: a lap's rows with the nearest row on either side. -/
def findLapWindow {K : Type} (rows : List (StoredSample K)) (startedAt endedAt : ℤ) :
    List (StoredSample K) :=
  SampleTable.window (·.time) StoredSample.seq rows startedAt endedAt

def located? {K : Type} (sample : AnalysisSample K) : Option (LocatedSample K) :=
  match sample.lat, sample.lon with
  | some lat, some lon =>
    some ⟨sample.time, lat, lon, sample.speedKmh, sample.rpm, sample.coolantC, sample.oilC,
      sample.gLat, sample.gLon⟩
  | _, _ => none

section Code

variable {K T : Type} [Field K] [LinearOrder K] [FloorRing K] (M : MathLib K)

def LocatedSample.toPoint (sample : LocatedSample K) : PathPoint K :=
  ⟨sample.time, sample.lat, sample.lon, sample.speedKmh, sample.gLon⟩

/-- The sample at `atMs` on the straight line between two others. -/
def between (atMs : ℤ) (a b : LocatedSample K) : LocatedSample K :=
  let t : K := (atMs - a.time : ℤ) / (b.time - a.time : ℤ)
  { time := atMs
    lat := a.lat + t * (b.lat - a.lat)
    lon := a.lon + t * (b.lon - a.lon)
    speedKmh := lerpChannel a.speedKmh b.speedKmh t
    rpm := lerpChannel a.rpm b.rpm t
    coolantC := lerpChannel a.coolantC b.coolantC t
    oilC := lerpChannel a.oilC b.oilC t
    gLat := lerpChannel a.gLat b.gLat t
    gLon := lerpChannel a.gLon b.gLon t }

/-- `interpolateAt`: nothing when nothing brackets the instant, or a sample sits on it. -/
def interpolateAt (atMs : ℤ) : List (LocatedSample K) → Option (LocatedSample K)
  | a :: b :: rest =>
    if a.time = atMs ∨ b.time = atMs then none
    else if atMs < a.time ∨ b.time < atMs then interpolateAt atMs (b :: rest)
    else some (between atMs a b)
  | _ => none

/-- `inside` in `anchorToLap`. -/
def insideLap (located : List (LocatedSample K)) (bounds : LapBounds) : List (LocatedSample K) :=
  located.filter fun sample => bounds.startMs ≤ sample.time ∧ sample.time ≤ bounds.endMs

/-- `anchorToLap`. -/
def anchorToLap (located : List (LocatedSample K)) (bounds : LapBounds) :
    List (LocatedSample K) :=
  (interpolateAt bounds.startMs located).toList ++ insideLap located bounds ++
    (interpolateAt bounds.endMs located).toList

def tracePoint (originMs : ℤ) (sample : LocatedSample K) (axis : LapPoint K) : LapTracePoint K where
  distM := axis.distM
  elapsedMs := sample.time - originMs
  lat := sample.lat
  lon := sample.lon
  speedKmh := sample.speedKmh
  rpm := sample.rpm
  coolantC := sample.coolantC
  oilC := sample.oilC
  gLat := sample.gLat
  gLon := sample.gLon

/-- The threshold after a point that is kept. -/
def nextThreshold (R : Rounding K) (spacing distM : K) : K :=
  R.mul (R.add ⌊R.div distM spacing⌋ 1) spacing

/-- The loop of `decimateByDistance`: the points at or past the next threshold.  Where the spacing
is `0` the next threshold is not a number, and no point is past it. -/
def keepSpaced (R : Rounding K) (spacing : K) :
    Option K → List (LapTracePoint K T) → List (LapTracePoint K T)
  | none, _ => []
  | some _, [] => []
  | some nextM, point :: rest =>
    if nextM ≤ point.distM then
      point :: keepSpaced R spacing
        (if spacing = 0 then none else some (nextThreshold R spacing point.distM)) rest
    else keepSpaced R spacing (some nextM) rest

/-- `decimateByDistance`, in an arithmetic that may round. -/
def decimateByDistance (R : Rounding K) (points : List (LapTracePoint K T)) (maxPoints : ℕ) :
    List (LapTracePoint K T) :=
  match points with
  | first :: second :: rest =>
    if points.length ≤ maxPoints ∨ maxPoints < 2 then points
    else
      let last := rest.getLastD second
      let spacing := R.div last.distM (maxPoints - 1 : ℕ)
      first :: keepSpaced R spacing (some spacing) (second :: rest).dropLast ++ [last]
  | _ => points

/-- The samples the trace is drawn from: `located` in `buildLapTrace`. -/
def anchored (samples : List (StoredSample K)) (bounds : LapBounds) : List (LocatedSample K) :=
  anchorToLap (samples.filterMap fun row => located? row.toAnalysisSample) bounds

/-- `buildLapTrace`, in exact arithmetic. -/
def buildLapTrace (samples : List (StoredSample K)) (maxPoints : ℕ) (bounds : LapBounds) :
    List (LapTracePoint K) :=
  match anchored samples bounds with
  | [] => []
  | first :: rest =>
    decimateByDistance (.exact K)
      (List.zipWith (tracePoint first.time) (first :: rest)
        (withDistance M ((first :: rest).map LocatedSample.toPoint)))
      maxPoints

end Code

/-! ### The ends of a trace -/

section Ends

variable {K T : Type} [Field K] [LinearOrder K] [FloorRing K]

theorem decimateByDistance_head? (R : Rounding K) (points : List (LapTracePoint K T))
    (maxPoints : ℕ) : (decimateByDistance R points maxPoints).head? = points.head? := by
  unfold decimateByDistance
  split
  · split <;> rfl
  · rfl

theorem decimateByDistance_getLast? (R : Rounding K) (points : List (LapTracePoint K T))
    (maxPoints : ℕ) : (decimateByDistance R points maxPoints).getLast? = points.getLast? := by
  unfold decimateByDistance
  split
  · rename_i first second rest
    split
    · rfl
    · rw [List.getLast?_concat, List.getLast?_cons_cons, List.getLast?_cons]
      simp [List.getLastD_eq_getLast?]
  · rfl

omit [LinearOrder K] [FloorRing K] in
theorem interpolateAt_time {atMs : ℤ} {located : List (LocatedSample K)} {sample : LocatedSample K}
    (h : interpolateAt atMs located = some sample) :
    sample.time = atMs ∧ (∃ a ∈ located, a.time < atMs) ∧ ∃ b ∈ located, atMs < b.time := by
  induction located with
  | nil => cases h
  | cons a located ih =>
    cases located with
    | nil => cases h
    | cons b rest =>
      rw [interpolateAt] at h
      split at h
      · cases h
      · rename_i hne
        split at h
        · obtain ⟨htime, ⟨c, hc, hlt⟩, d, hd, hgt⟩ := ih h
          exact ⟨htime, ⟨c, List.mem_cons_of_mem _ hc, hlt⟩, d, List.mem_cons_of_mem _ hd, hgt⟩
        · rename_i hbetween
          cases h
          refine ⟨rfl, ⟨a, List.mem_cons_self, ?_⟩, b,
            List.mem_cons_of_mem _ List.mem_cons_self, ?_⟩ <;> omega

omit [LinearOrder K] [FloorRing K] in
/-- Where samples lie on both sides of an instant, one sits on it or the search interpolates. -/
theorem interpolateAt_of_bracketed {atMs : ℤ} {located : List (LocatedSample K)}
    (hsorted : located.Pairwise fun a b => a.time < b.time)
    (hbefore : ∃ a ∈ located, a.time ≤ atMs) (hafter : ∃ b ∈ located, atMs ≤ b.time) :
    (∃ sample, interpolateAt atMs located = some sample) ∨ ∃ c ∈ located, c.time = atMs := by
  induction located with
  | nil =>
    obtain ⟨a, ha, -⟩ := hbefore
    cases ha
  | cons a located ih =>
    cases located with
    | nil =>
      obtain ⟨b, hb, hle⟩ := hbefore
      obtain ⟨c, hc, hge⟩ := hafter
      rw [List.mem_singleton] at hb hc
      subst hb hc
      exact .inr ⟨c, List.mem_cons_self, by omega⟩
    | cons b rest =>
      rw [interpolateAt]
      split
      · rename_i hon
        rcases hon with h | h
        · exact .inr ⟨a, List.mem_cons_self, h⟩
        · exact .inr ⟨b, List.mem_cons_of_mem _ List.mem_cons_self, h⟩
      · rename_i hne
        rw [List.pairwise_cons] at hsorted
        have hab := hsorted.1 b List.mem_cons_self
        split
        · rename_i hout
          -- the hop `a → b` does not span the instant, so the samples that do come after it
          have hbefore' : ∃ c ∈ b :: rest, c.time ≤ atMs := by
            rcases hout with h | h
            · obtain ⟨c, hc, hle⟩ := hbefore
              rcases List.mem_cons.mp hc with rfl | hc
              · omega
              · exact ⟨c, hc, hle⟩
            · exact ⟨b, List.mem_cons_self, by omega⟩
          have hafter' : ∃ c ∈ b :: rest, atMs ≤ c.time := by
            obtain ⟨c, hc, hge⟩ := hafter
            rcases List.mem_cons.mp hc with rfl | hc
            · exact ⟨b, List.mem_cons_self, by omega⟩
            · exact ⟨c, hc, hge⟩
          rcases ih hsorted.2 hbefore' hafter' with h | ⟨c, hc, hon⟩
          · exact .inl h
          · exact .inr ⟨c, List.mem_cons_of_mem _ hc, hon⟩
        · exact .inl ⟨_, rfl⟩

variable {located : List (LocatedSample K)} {bounds : LapBounds}

omit [Field K] [LinearOrder K] [FloorRing K] in
theorem mem_insideLap {sample : LocatedSample K} :
    sample ∈ insideLap located bounds ↔
      sample ∈ located ∧ bounds.startMs ≤ sample.time ∧ sample.time ≤ bounds.endMs := by
  rw [insideLap, List.mem_filter, decide_eq_true_eq]

omit [LinearOrder K] [FloorRing K] in
/-- **The start of a lap**: its samples begin on the line when one is there or before. -/
theorem anchorToLap_head? (hsorted : located.Pairwise fun a b => a.time < b.time)
    (hbounds : bounds.startMs < bounds.endMs) (hinside : insideLap located bounds ≠ []) :
    (anchorToLap located bounds).head?.map (·.time) = some bounds.startMs ↔
      ∃ a ∈ located, a.time ≤ bounds.startMs := by
  obtain ⟨b, rest, hcons⟩ := List.exists_cons_of_ne_nil hinside
  have hb : b ∈ insideLap located bounds := by
    rw [hcons]
    exact List.mem_cons_self
  rw [mem_insideLap] at hb
  rw [anchorToLap, hcons]
  cases hhead : interpolateAt bounds.startMs located with
  | some sample =>
    obtain ⟨htime, ⟨a, ha, hlt⟩, -⟩ := interpolateAt_time hhead
    exact iff_of_true (congrArg some htime) ⟨a, ha, hlt.le⟩
  | none =>
    show some b.time = some bounds.startMs ↔ _
    rw [Option.some.injEq]
    constructor
    · intro h
      exact ⟨b, hb.1, h.le⟩
    · intro hbefore
      obtain ⟨sample, hsample⟩ | ⟨c, hc, hon⟩ :=
        interpolateAt_of_bracketed hsorted hbefore ⟨b, hb.1, hb.2.1⟩
      · rw [hhead] at hsample
        cases hsample
      · -- the sample on the line is inside the lap, and `b` is the first one there
        have hc : c ∈ insideLap located bounds := mem_insideLap.mpr ⟨hc, by omega, by omega⟩
        have hfirst := hsorted.sublist (List.filter_sublist (l := located)
          (p := fun sample => bounds.startMs ≤ sample.time ∧ sample.time ≤ bounds.endMs))
        rw [← insideLap, hcons, List.pairwise_cons] at hfirst
        rw [hcons] at hc
        rcases List.mem_cons.mp hc with rfl | hc
        · exact hon
        · have := hfirst.1 c hc
          omega

omit [LinearOrder K] [FloorRing K] in
/-- **The end of a lap**, in the same way. -/
theorem anchorToLap_getLast? (hsorted : located.Pairwise fun a b => a.time < b.time)
    (hbounds : bounds.startMs < bounds.endMs) (hinside : insideLap located bounds ≠ []) :
    (anchorToLap located bounds).getLast?.map (·.time) = some bounds.endMs ↔
      ∃ d ∈ located, bounds.endMs ≤ d.time := by
  obtain ⟨rest, b, hconcat⟩ := (List.eq_nil_or_concat' (insideLap located bounds)).resolve_left
    hinside
  have hb : b ∈ insideLap located bounds := by
    rw [hconcat]
    exact List.mem_append_right _ List.mem_cons_self
  rw [mem_insideLap] at hb
  rw [anchorToLap, hconcat]
  cases htail : interpolateAt bounds.endMs located with
  | some sample =>
    obtain ⟨htime, -, d, hd, hgt⟩ := interpolateAt_time htail
    rw [Option.toList_some, List.getLast?_concat]
    exact iff_of_true (congrArg some htime) ⟨d, hd, hgt.le⟩
  | none =>
    rw [Option.toList_none, List.append_nil, ← List.append_assoc, List.getLast?_concat,
      Option.map_some, Option.some.injEq]
    constructor
    · intro h
      exact ⟨b, hb.1, h.ge⟩
    · intro hafter
      obtain ⟨sample, hsample⟩ | ⟨c, hc, hon⟩ :=
        interpolateAt_of_bracketed hsorted ⟨b, hb.1, hb.2.2⟩ hafter
      · rw [htail] at hsample
        cases hsample
      · have hc : c ∈ insideLap located bounds := mem_insideLap.mpr ⟨hc, by omega, by omega⟩
        have hlast := hsorted.sublist (List.filter_sublist (l := located)
          (p := fun sample => bounds.startMs ≤ sample.time ∧ sample.time ≤ bounds.endMs))
        rw [← insideLap, hconcat, List.pairwise_append] at hlast
        rw [hconcat] at hc
        rcases List.mem_append.mp hc with hc | hc
        · have := hlast.2.2 c hc b List.mem_cons_self
          omega
        · rw [List.mem_singleton.mp hc] at hon
          exact hon

/-- A trace counts its time from its first sample, and thinning keeps both its ends. -/
theorem buildLapTrace_ends (M : MathLib K) {samples : List (StoredSample K)} {maxPoints : ℕ}
    {first : LocatedSample K} {rest : List (LocatedSample K)}
    (h : anchored samples bounds = first :: rest) :
    (buildLapTrace M samples maxPoints bounds).head?.map (·.elapsedMs) = some 0 ∧
      (buildLapTrace M samples maxPoints bounds).getLast?.map (·.elapsedMs) =
        (anchored samples bounds).getLast?.map (·.time - first.time) := by
  have helapsed : (List.zipWith (tracePoint first.time) (first :: rest)
      (withDistance M ((first :: rest).map LocatedSample.toPoint))).map (·.elapsedMs) =
        (first :: rest).map (·.time - first.time) := by
    rw [← List.map_uncurry_zip_eq_zipWith, List.map_map]
    have hlength : (first :: rest).length ≤
        (withDistance M ((first :: rest).map LocatedSample.toPoint)).length := by
      have := congrArg List.length (withDistance_map M ((first :: rest).map LocatedSample.toPoint))
      rw [List.length_map, List.length_map] at this
      exact this.ge
    conv_rhs => rw [← List.map_fst_zip hlength, List.map_map]
    rfl
  have hhead := congrArg List.head? helapsed
  have hlast := congrArg List.getLast? helapsed
  rw [List.head?_map] at hhead
  rw [List.getLast?_map, List.getLast?_map] at hlast
  rw [buildLapTrace, h]
  dsimp only
  rw [decimateByDistance_head?, decimateByDistance_getLast?, hhead, hlast]
  simp

end Ends

/-! ### The window of a lap -/

section Window

variable {K : Type}

/-- `isPositioned`. -/
def isPositioned (sample : AnalysisSample K) : Bool := (located? sample).isSome

theorem time_of_located? {sample : AnalysisSample K} {a : LocatedSample K}
    (h : located? sample = some a) : a.time = sample.time := by
  unfold located? at h
  split at h
  · cases h
    rfl
  · cases h

/-- The samples with a position among some rows. -/
theorem exists_located {rows : List (StoredSample K)} {C : ℤ → Prop} :
    (∃ a ∈ rows.filterMap fun row => located? row.toAnalysisSample, C a.time) ↔
      ∃ row ∈ rows, isPositioned row.toAnalysisSample = true ∧ C row.time := by
  constructor
  · rintro ⟨a, ha, hC⟩
    obtain ⟨row, hrow, hloc⟩ := List.mem_filterMap.mp ha
    rw [time_of_located? hloc] at hC
    exact ⟨row, hrow, Option.isSome_iff_exists.mpr ⟨a, hloc⟩, hC⟩
  · rintro ⟨row, hrow, hpos, hC⟩
    obtain ⟨a, hloc⟩ := Option.isSome_iff_exists.mp hpos
    refine ⟨a, List.mem_filterMap.mpr ⟨row, hrow, hloc⟩, ?_⟩
    rw [time_of_located? hloc]
    exact hC

theorem located_sorted {rows : List (StoredSample K)}
    (hrows : rows.Pairwise fun a b => a.time < b.time) :
    (rows.filterMap fun row => located? row.toAnalysisSample).Pairwise
      fun a b => a.time < b.time := by
  rw [List.pairwise_filterMap]
  refine hrows.imp ?_
  intro a b hab p hp q hq
  rw [time_of_located? hp, time_of_located? hq]
  exact hab

/-- The row beside a crossing has a position, or a row on the crossing has one; `beside` is the
nearest row outside the lap. -/
def Bracketed (rows : List (StoredSample K)) (atMs : ℤ) (beside : Option (StoredSample K)) : Prop :=
  (∃ row ∈ rows, isPositioned row.toAnalysisSample = true ∧ row.time = atMs) ∨
    ∃ row, beside = some row ∧ isPositioned row.toAnalysisSample = true

variable {rows : List (StoredSample K)} {startedAt endedAt : ℤ}

theorem bracketed_start (h : startedAt < endedAt) :
    (∃ a ∈ (findLapWindow rows startedAt endedAt).filterMap fun row => located? row.toAnalysisSample,
      a.time ≤ startedAt) ↔
    Bracketed rows startedAt (SampleTable.lastBefore (·.time) StoredSample.seq rows startedAt) := by
  rw [exists_located (C := (· ≤ startedAt))]
  constructor
  · rintro ⟨row, hrow, hpos, hle⟩
    rcases SampleTable.mem_window.mp hrow with hbefore | ⟨hmem, hge, -⟩ | hafter
    · exact .inr ⟨row, hbefore, hpos⟩
    · exact .inl ⟨row, hmem, hpos, by omega⟩
    · have := (SampleTable.mem_firstAfter hafter).2
      omega
  · rintro (⟨row, hrow, hpos, hon⟩ | ⟨row, hbefore, hpos⟩)
    · exact ⟨row, SampleTable.mem_window.mpr (.inr (.inl ⟨hrow, by omega, by omega⟩)), hpos, hon.le⟩
    · exact ⟨row, SampleTable.mem_window.mpr (.inl hbefore), hpos,
        (SampleTable.mem_lastBefore hbefore).2.le⟩

theorem bracketed_end (h : startedAt < endedAt) :
    (∃ d ∈ (findLapWindow rows startedAt endedAt).filterMap fun row => located? row.toAnalysisSample,
      endedAt ≤ d.time) ↔
    Bracketed rows endedAt (SampleTable.firstAfter (·.time) StoredSample.seq rows endedAt) := by
  rw [exists_located (C := (endedAt ≤ ·))]
  constructor
  · rintro ⟨row, hrow, hpos, hge⟩
    rcases SampleTable.mem_window.mp hrow with hbefore | ⟨hmem, -, hle⟩ | hafter
    · have := (SampleTable.mem_lastBefore hbefore).2
      omega
    · exact .inl ⟨row, hmem, hpos, by omega⟩
    · exact .inr ⟨row, hafter, hpos⟩
  · rintro (⟨row, hrow, hpos, hon⟩ | ⟨row, hafter, hpos⟩)
    · exact ⟨row, SampleTable.mem_window.mpr (.inr (.inl ⟨hrow, by omega, by omega⟩)), hpos, hon.ge⟩
    · exact ⟨row, SampleTable.mem_window.mpr (.inr (.inr hafter)), hpos,
        (SampleTable.mem_firstAfter hafter).2.le⟩

end Window

/-! ### A lap and its trace -/

section Trace

variable {K : Type} [Field K] [LinearOrder K] [FloorRing K] [IsStrictOrderedRing K] (M : MathLib K)
  (options : Options K) (gate : Gate K)

omit [LinearOrder K] [FloorRing K] [IsStrictOrderedRing K] in
theorem isPositioned_of_point? {sample : AnalysisSample K} {p : PathPoint K}
    (h : sample.point? = some p) : isPositioned sample = true := by
  unfold AnalysisSample.point? at h
  split at h
  · rename_i lat lon hlat hlon
    rw [isPositioned, located?, hlat, hlon]
    rfl
  · cases h

/-- **The bounds of a lap**: one before the other, as far apart as the lap is long to within a
millisecond, and a fix between them. -/
theorem lap_bounds {samples : List (AnalysisSample K)} {lap : DerivedLap K}
    (hlap : lap ∈ segmentLaps M options gate samples) :
    lap.startedAt < lap.endedAt ∧ |lap.endedAt - lap.startedAt - lap.lapMs| ≤ 1 ∧
      ∃ sample ∈ samples, isPositioned sample = true ∧
        lap.startedAt ≤ sample.time ∧ sample.time ≤ lap.endedAt := by
  rw [segmentLaps_eq] at hlap
  obtain ⟨k, x, hx, y, hy, hxy, rfl⟩ := mem_lapsOf M options _ (accepted_isChain _) hlap
  have hinstants := lapBetween_instants M options
    (samples.filterMap AnalysisSample.point?) k x y
  rw [instants, Prod.mk.injEq, Prod.mk.injEq] at hinstants
  rw [hinstants.1, hinstants.2.1, hinstants.2.2]
  have habs := abs_mathRound_sub_le x.crossing.crossMs y.crossing.crossMs
  have hlong := mathRound_mono hxy
  rw [← Int.cast_natCast, mathRound_intCast, MIN_LAP_MS] at hlong
  have hpassage := mem_passages.mp ((accepted_sublist _).subset hx)
  have hmem := List.mem_of_getElem? hpassage.2.1
  obtain ⟨sample, hsample, hpoint⟩ := List.mem_filterMap.mp hmem
  have htime := timeMs_of_point? hpoint
  obtain ⟨hx0, hx1⟩ := crossMs_mem_hop ((accepted_sublist _).subset hx)
  have hgap := (findGateCrossing_between hpassage.2.2).2.1
  simp only [toFix, MAX_FIX_GAP_MS, MIN_LAP_MS, Nat.cast_ofNat] at hgap hxy
  have hstart := mathRound_mono hx1
  have hend : mathRound x.cur.timeMs ≤ mathRound y.crossing.crossMs :=
    mathRound_mono (by linarith)
  rw [htime, mathRound_intCast] at hstart hend
  rw [abs_le] at habs ⊢
  exact ⟨by omega, by omega, sample, hsample, isPositioned_of_point? hpoint, hstart, hend⟩

/-- A trace drawn from `located` opens on the line at `startedAt` and closes on it at `endedAt`, and
its last point tells the lap time. -/
def OpensAndCloses (lap : DerivedLap K) (located : List (LocatedSample K))
    (trace : List (LapTracePoint K)) : Prop :=
  ∃ origin first last, located.head? = some origin ∧ trace.head? = some first ∧
    trace.getLast? = some last ∧
    origin.time + first.elapsedMs = lap.startedAt ∧ origin.time + last.elapsedMs = lap.endedAt ∧
    last.elapsedMs = lap.endedAt - lap.startedAt ∧ |last.elapsedMs - lap.lapMs| ≤ 1

omit [IsStrictOrderedRing K] in
/-- The two ends of a trace are the two ends of the samples it is drawn from. -/
theorem opensAndCloses_iff {samples : List (StoredSample K)} {lap : DerivedLap K} {maxPoints : ℕ}
    (hms : |lap.endedAt - lap.startedAt - lap.lapMs| ≤ 1) :
    OpensAndCloses lap (anchored samples ⟨lap.startedAt, lap.endedAt⟩)
        (buildLapTrace M samples maxPoints ⟨lap.startedAt, lap.endedAt⟩) ↔
      (anchored samples ⟨lap.startedAt, lap.endedAt⟩).head?.map (·.time) = some lap.startedAt ∧
      (anchored samples ⟨lap.startedAt, lap.endedAt⟩).getLast?.map (·.time) =
        some lap.endedAt := by
  cases hcons : anchored samples ⟨lap.startedAt, lap.endedAt⟩ with
  | nil => simp [OpensAndCloses]
  | cons origin rest =>
    obtain ⟨hhead, hlast⟩ := @buildLapTrace_ends K _ _ _ _ M _ maxPoints _ _ hcons
    rw [hcons] at hlast
    obtain ⟨first, hfirst, hzero⟩ := Option.map_eq_some_iff.mp hhead
    obtain ⟨final, hfinal⟩ : ∃ final, (origin :: rest).getLast? = some final :=
      ⟨_, List.getLast?_cons⟩
    rw [hfinal, Option.map_some] at hlast
    obtain ⟨last, hlast, helapsed⟩ := Option.map_eq_some_iff.mp hlast
    rw [hfinal, List.head?_cons, Option.map_some, Option.map_some, Option.some.injEq,
      Option.some.injEq]
    constructor
    · rintro ⟨_, _, _, ho, hf, hl, hstart, hend, -, -⟩
      cases ho
      rw [hfirst] at hf
      cases hf
      rw [hlast] at hl
      cases hl
      omega
    · rintro ⟨hstart, hend⟩
      have hspan : last.elapsedMs = lap.endedAt - lap.startedAt := by omega
      refine ⟨origin, first, last, rfl, hfirst, hlast, by omega, by omega, hspan, ?_⟩
      rw [hspan]
      exact hms

/-- **A lap's trace opens and closes on the line exactly when the row beside each crossing has a
position**, or a fix sits on the crossing. -/
theorem trace_on_line_iff {rows : List (StoredSample K)}
    (hrows : rows.Pairwise fun a b => a.time < b.time) {lap : DerivedLap K}
    (hlap : lap ∈ segmentLaps M options gate (rows.map (·.toAnalysisSample))) (maxPoints : ℕ) :
    OpensAndCloses lap
        (anchored (findLapWindow rows lap.startedAt lap.endedAt) ⟨lap.startedAt, lap.endedAt⟩)
        (buildLapTrace M (findLapWindow rows lap.startedAt lap.endedAt) maxPoints
          ⟨lap.startedAt, lap.endedAt⟩) ↔
      Bracketed rows lap.startedAt
          (SampleTable.lastBefore (·.time) StoredSample.seq rows lap.startedAt) ∧
        Bracketed rows lap.endedAt
          (SampleTable.firstAfter (·.time) StoredSample.seq rows lap.endedAt) := by
  obtain ⟨hlt, hms, sample, hsample, hpos, hge, hle⟩ := lap_bounds M options gate hlap
  obtain ⟨row, hrow, rfl⟩ := List.mem_map.mp hsample
  have hsorted : ((findLapWindow rows lap.startedAt lap.endedAt).filterMap
      fun row => located? row.toAnalysisSample).Pairwise fun a b => a.time < b.time :=
    located_sorted (SampleTable.window_sorted hrows hlt.le)
  have hinside : insideLap ((findLapWindow rows lap.startedAt lap.endedAt).filterMap
      fun row => located? row.toAnalysisSample) ⟨lap.startedAt, lap.endedAt⟩ ≠ [] := by
    obtain ⟨a, ha⟩ := Option.isSome_iff_exists.mp hpos
    have htime := time_of_located? ha
    have hmem : a ∈ insideLap ((findLapWindow rows lap.startedAt lap.endedAt).filterMap
        fun row => located? row.toAnalysisSample) ⟨lap.startedAt, lap.endedAt⟩ :=
      mem_insideLap.mpr ⟨List.mem_filterMap.mpr ⟨row, SampleTable.mem_window.mpr
        (.inr (.inl ⟨hrow, hge, hle⟩)), ha⟩, by rw [htime]; exact hge, by rw [htime]; exact hle⟩
    exact List.ne_nil_of_mem hmem
  rw [opensAndCloses_iff M hms, ← bracketed_start hlt, ← bracketed_end hlt]
  exact and_congr (anchorToLap_head? hsorted hlt hinside) (anchorToLap_getLast? hsorted hlt hinside)

end Trace

/-! ### Two laps of the same two passes -/

/-- The two passes as stored rows. -/
def twoPassesRows : List (StoredSample ℚ) := twoPasses.map fun sample => ⟨sample, 0⟩

/-- A row without a position at an instant. -/
def blankAt (time : ℤ) : StoredSample ℚ :=
  ⟨⟨time, none, none, none, none, none, none, none, none⟩, 0⟩

/-- The two passes, with a row without a position just before the first crossing. -/
def blankRows : List (StoredSample ℚ) :=
  (twoPassesRows.take 1) ++ blankAt 40 :: twoPassesRows.drop 1

theorem twoPasses_lap :
    ∃ lap ∈ segmentLaps flatMath {} meridianGate twoPasses,
      lap.startedAt = 50 ∧ lap.endedAt = 5050 := by
  obtain ⟨x, y, hchosen, hx, hy⟩ := accepted_twoPasses
  have hinstants := lapBetween_instants flatMath {} (twoPasses.filterMap AnalysisSample.point?) 1 x y
  rw [instants, Prod.mk.injEq, Prod.mk.injEq, hx, hy] at hinstants
  rw [segmentLaps_eq, hchosen]
  refine ⟨_, List.mem_cons_self, hinstants.1.trans ?_, hinstants.2.1.trans ?_⟩
  · exact mathRound_intCast 50
  · exact mathRound_intCast 5050

theorem trace_on_line_iff_twoPasses :
    ∃ lap ∈ segmentLaps flatMath {} meridianGate twoPasses, ∀ maxPoints,
      OpensAndCloses lap
        (anchored (findLapWindow twoPassesRows lap.startedAt lap.endedAt)
          ⟨lap.startedAt, lap.endedAt⟩)
        (buildLapTrace flatMath (findLapWindow twoPassesRows lap.startedAt lap.endedAt) maxPoints
          ⟨lap.startedAt, lap.endedAt⟩) := by
  obtain ⟨lap, hlap, hstart, hend⟩ := twoPasses_lap
  refine ⟨lap, hlap, fun maxPoints => ?_⟩
  have hsorted : twoPassesRows.Pairwise fun a b => a.time < b.time := by decide
  refine (trace_on_line_iff flatMath {} meridianGate hsorted hlap maxPoints).mpr ?_
  rw [hstart, hend]
  exact ⟨.inr ⟨_, rfl, rfl⟩, .inr ⟨_, rfl, rfl⟩⟩

/-- **One row without a position beside the line takes the trace off it**: it opens 50 ms late, at
the first fix after the crossing. -/
theorem blankRow_off_line :
    blankRows.Pairwise (fun a b => a.time < b.time) ∧
      ∃ lap ∈ segmentLaps flatMath {} meridianGate (blankRows.map (·.toAnalysisSample)),
        ∀ maxPoints, ¬ OpensAndCloses lap
          (anchored (findLapWindow blankRows lap.startedAt lap.endedAt)
            ⟨lap.startedAt, lap.endedAt⟩)
          (buildLapTrace flatMath (findLapWindow blankRows lap.startedAt lap.endedAt) maxPoints
            ⟨lap.startedAt, lap.endedAt⟩) := by
  refine ⟨by decide, ?_⟩
  obtain ⟨lap, hlap, hstart, hend⟩ := twoPasses_lap
  have hblank : lap ∈ segmentLaps flatMath {} meridianGate (blankRows.map (·.toAnalysisSample)) := by
    rw [segmentLaps_eq] at hlap ⊢
    exact hlap
  refine ⟨lap, hblank, fun maxPoints h => ?_⟩
  rw [opensAndCloses_iff flatMath (lap_bounds flatMath {} meridianGate hblank).2.1, hstart, hend] at h
  have hfirst : (anchored (findLapWindow blankRows 50 5050) ⟨50, 5050⟩).head?.map (·.time) =
      some 100 := rfl
  rw [hfirst] at h
  exact absurd h.1 (by decide)

end TelemetryCloud.LapTrace
