import TelemetryCloud.Extents
import TelemetryCloud.RingWalk

/-!
# Where an outline comes from

The circuit a view shows goes through `buildTrackMap`, the upsert of a fetch, the table, the re-read of
any fetch of any instance and the answer of every call that joined it.  Nothing on the way makes it up
or mixes it with another.

* `Outline` : what an outline has to do with a response, `outline_of_built` : **what is built is one**;
* `From` : an outline was built from a response to a fetch for the track;
* `origin_step` : **no step brings in another**;
* `outline_from_response` : **every outline a call is answered with was stitched from the ways of one
  response that a fetch for that track received**.
-/

namespace TelemetryCloud.CircuitOutline

open TelemetryCloud.Geometry TelemetryCloud.Derivation Extents Runs
open SectorGates LapSegmenter TrackMapService TrackMapBuilder
open TelemetryCloud.Components (longest_spec groups_perm)
open OutlineListing (runPoints)
open RingWalk (IsTurned Walked walked_start)

/-! ### The outline of a response -/

section Outlines

variable {K : Type}

/-- An OSM id is that of one way. -/
def Distinct (response : OverpassResponse K) : Prop :=
  ((usableWays response.elements).map Way.id).Nodup

/-- The box holds the points, and touches them on every side. -/
structure Boxes [LinearOrder K] (bbox : TrackMapBbox K) (points : List (LatLon K)) : Prop where
  lat : Spans (points.map LatLon.lat) bbox.minLat bbox.maxLat
  lon : Spans (points.map LatLon.lon) bbox.minLon bbox.maxLon

variable [Field K] [LinearOrder K] [FloorRing K] (P : Platform K) (M : MathLib K) (R : Rounding K)

/-- Usable ways of the response, none of them twice, were walked one after the other through nodes
that they share; their points are those of the circuit, which closes, is neither too short nor too long
and runs by the middle of the gate; and the corners are those of the ways that have a name, if there is
more than one way. -/
structure Outline (response : OverpassResponse K) (gate : Gate K)
    (geojson : List (TrackMapFeature K)) (bbox : TrackMapBbox K) (lengthM : K)
    (walked run : List (Way K)) : Prop where
  usable : ∀ way ∈ walked, ∃ e ∈ response.elements, usableWay e = some way
  nodup : (walked.map Way.id).Nodup
  turned : List.Forall₂ IsTurned walked run
  chained : run.IsChain fun v w => v.finish = w.start
  circuit : ∃ corners, geojson =
    circuitFeature R (runPoints run) lengthM (widthOf P walked) :: corners ∧
      ∀ feature, feature ∈ corners ↔ 1 < walked.length ∧ ∃ way ∈ walked, ∃ name,
        way.name? = some name ∧ feature = .corner name (toCoords R way.points)
  long : 3 ≤ (runPoints run).length
  closed : closureGapM M R (runPoints run) ≤ MAX_CLOSURE_GAP_M
  length_eq : lengthM = polylineLengthM M R (runPoints run)
  credible : MIN_CIRCUIT_LENGTH_M ≤ lengthM ∧ lengthM ≤ MAX_CIRCUIT_LENGTH_M
  gated : ∃ distance, minDistanceToPolyline M R (gateMid R gate) (runPoints run) = some distance ∧
    distance ≤ MAX_GATE_DISTANCE_M
  boxed : Boxes bbox (runPoints run)

omit [FloorRing K] in
theorem boxes_bboxOf {points : List (LatLon K)} (hne : points ≠ []) :
    Boxes (bboxOf points) points := by
  have hspans : ∀ values : List K, values ≠ [] →
      Spans values (values.min?.getD 0) (values.max?.getD 0) := by
    intro values hvalues
    cases values with
    | nil => exact absurd rfl hvalues
    | cons a values =>
      rw [List.min?_cons', List.max?_cons']
      exact spans_foldl a values
  exact ⟨hspans _ fun h => hne (List.map_eq_nil_iff.mp h),
    hspans _ fun h => hne (List.map_eq_nil_iff.mp h)⟩

theorem mem_cornerFeatures {ways : List (Way K)} {feature : TrackMapFeature K} :
    feature ∈ cornerFeatures P R ways ↔ 1 < ways.length ∧ ∃ way ∈ ways, ∃ name,
      way.name? = some name ∧ feature = .corner name (toCoords R way.points) := by
  unfold cornerFeatures
  split
  · next hfew =>
    exact ⟨fun h => absurd h List.not_mem_nil, fun h => absurd h.1 (Nat.not_lt.mpr hfew)⟩
  · next hmany =>
    rw [List.mem_map]
    constructor
    · rintro ⟨⟨name, way⟩, hmem, rfl⟩
      rw [List.mem_mergeSort] at hmem
      obtain ⟨way', hway, hname⟩ := List.mem_filterMap.mp hmem
      obtain ⟨name', hname', hpair⟩ := Option.map_eq_some_iff.mp hname
      cases hpair
      exact ⟨Nat.not_le.mp hmany, way, hway, name, hname', rfl⟩
    · rintro ⟨-, way, hway, name, hname, rfl⟩
      refine ⟨(name, way), ?_, rfl⟩
      rw [List.mem_mergeSort]
      exact List.mem_filterMap.mpr ⟨way, hway, by rw [hname]; rfl⟩

omit [FloorRing K] in
/-- The component is one of the ways it is taken from, none of them twice. -/
theorem largestConnectedComponent_sub {ways : List (Way K)} (hids : (ways.map Way.id).Nodup) :
    largestConnectedComponent M R ways ⊆ ways ∧
      ((largestConnectedComponent M R ways).map Way.id).Nodup := by
  obtain ⟨hkept, -, -⟩ := longest_spec M R (groups ways) ([], -1)
  have hperm := groups_perm ways
  have hflat : (((groups ways).flatMap Prod.snd).map Way.id).Nodup :=
    (hperm.map Way.id).nodup_iff.mpr hids
  rcases hkept with hnone | ⟨entry, hentry, hkept⟩
  · have hcomponent : largestConnectedComponent M R ways = [] := congrArg Prod.fst hnone
    rw [hcomponent]
    exact ⟨List.nil_subset _, List.nodup_nil⟩
  · have hcomponent : largestConnectedComponent M R ways = entry.2 := congrArg Prod.fst hkept
    have hsub : entry.2.Sublist ((groups ways).flatMap Prod.snd) := by
      rw [List.flatMap_def]
      exact List.sublist_flatten_of_mem (List.mem_map_of_mem hentry)
    rw [hcomponent]
    exact ⟨fun way hway => hperm.subset (hsub.subset hway), (hsub.map Way.id).nodup hflat⟩

omit [Field K] [LinearOrder K] [FloorRing K] in
/-- What a walk has gone along. -/
theorem walk_stitched {ways : List (Way K)} (hids : (ways.map Way.id).Nodup) :
    (walk ways).2 ⊆ ways ∧ ((walk ways).2.map Way.id).Nodup ∧
      ∃ run, List.Forall₂ IsTurned (walk ways).2 run ∧ (run.IsChain fun v w => v.finish = w.start) ∧
        (walk ways).1 = runPoints run := by
  cases ways with
  | nil => exact ⟨List.nil_subset _, List.nodup_nil, [], .nil, List.isChain_nil, rfl⟩
  | cons first rest =>
    have hstart : Walked (first :: rest) (.start first) first.start [first] :=
      walked_start List.mem_cons_self
    obtain ⟨run, hwalked⟩ := hstart.walkOn hids (first :: rest).length
    exact ⟨hwalked.listed, hwalked.nodup, run, hwalked.turned, hwalked.trail.isChain, hwalked.points⟩

variable {P M R}

/-- **What is built is an outline of the response.** -/
theorem outline_of_built {response : OverpassResponse K} {gate : Gate K} (hdistinct : Distinct response)
    {geojson : List (TrackMapFeature K)} {bbox : TrackMapBbox K} {lengthM : K} {osmDataTimestamp : Option ℤ}
    (hbuilt : buildTrackMap P M R response gate = .built geojson bbox lengthM osmDataTimestamp) :
    ∃ walked run, Outline P M R response gate geojson bbox lengthM walked run := by
  have hne : usableWays response.elements ≠ [] := by
    intro hnil
    rw [buildTrackMap, hnil] at hbuilt
    cases hbuilt
  obtain ⟨hcomponent, hcomponentIds⟩ := largestConnectedComponent_sub M R hdistinct
  obtain ⟨hlisted, hnodup, run, hturned, hchained, hpoints⟩ := walk_stitched hcomponentIds
  rw [buildTrackMap_eq P M R gate hne] at hbuilt
  generalize walk (largestConnectedComponent M R (usableWays response.elements)) = chain at *
  dsimp only at hbuilt
  unfold rejection at hbuilt
  split_ifs at hbuilt with hfew hopen hlength hgate
  · cases hbuilt
    have hpointsNe : runPoints run ≠ [] := by
      intro hnil
      rw [hpoints, hnil] at hfew
      exact hfew (Nat.zero_lt_succ 2)
    rw [hpoints] at hfew hopen hlength hgate ⊢
    refine ⟨chain.2, run, fun way hway => List.mem_filterMap.mp (hcomponent (hlisted hway)), hnodup,
      hturned, hchained, ⟨_, rfl, fun feature => mem_cornerFeatures P R⟩, Nat.not_lt.mp hfew,
      not_lt.mp hopen, rfl, ?_, ?_, boxes_bboxOf hpointsNe⟩
    · obtain ⟨hshort, hfar⟩ := not_or.mp hlength
      exact ⟨not_lt.mp hshort, not_lt.mp hfar⟩
    · cases hdistance : minDistanceToPolyline M R (gateMid R gate) (runPoints run) with
      | none =>
        rw [hdistance] at hgate
        exact absurd rfl hgate
      | some distance =>
        rw [hdistance, Option.all_some, decide_eq_true_iff] at hgate
        exact ⟨distance, rfl, not_lt.mp hgate⟩

end Outlines

/-! ### The way to a caller -/

section Origins

variable {K Response : Type} {config : Config}
  {buildTrackMap : Response → Gate K → Except String (BuildOutcome K)}
  {copyright : Response → Option String}

/-- A fetch for the track received the response. -/
def Asked (config : Config) (buildTrackMap : Response → Gate K → Except String (BuildOutcome K))
    (copyright : Response → Option String) (es : List (Event K Response)) (track : Track K)
    (response : Response) : Prop :=
  ∃ pre f now mid fetch, pre ++ [.overpass f now (.ok response)] <+: es ∧
    run (step config buildTrackMap copyright) init pre = some mid ∧ mid.fetches f = some fetch ∧
    fetch.track = track

/-- The row shows what was built of the response. -/
structure Shows (buildTrackMap : Response → Gate K → Except String (BuildOutcome K))
    (copyright : Response → Option String) (response : Response) (gate : Gate K) (row : TrackMap K)
    (geojson : List (TrackMapFeature K)) (bbox : TrackMapBbox K) (lengthM : K) : Prop where
  built : ∃ osmDataTimestamp,
    buildTrackMap response gate = .ok (.built geojson bbox lengthM osmDataTimestamp)
  geojson : row.geojson = some geojson
  bbox : row.bbox = some bbox
  lengthM : row.centrelineLengthM = some lengthM
  source : row.source = some "overpass"
  attribution : row.attribution = some ((copyright response).getD DEFAULT_ATTRIBUTION)

/-- If the row is READY, it shows what was built of one response to a fetch for the track. -/
def From (config : Config) (buildTrackMap : Response → Gate K → Except String (BuildOutcome K))
    (copyright : Response → Option String) (es : List (Event K Response)) (trackId : ℕ)
    (row : TrackMap K) : Prop :=
  row.status = .ready → ∃ track response geojson bbox lengthM, track.id = trackId ∧
    Asked config buildTrackMap copyright es track response ∧
    Shows buildTrackMap copyright response (gateOf track) row geojson bbox lengthM

theorem From.mono {es es' : List (Event K Response)} (hpre : es <+: es') {trackId : ℕ}
    {row : TrackMap K} (h : From config buildTrackMap copyright es trackId row) :
    From config buildTrackMap copyright es' trackId row := by
  intro hready
  obtain ⟨track, response, geojson, bbox, lengthM, hid, hasked, hshows⟩ := h hready
  obtain ⟨pre, f, now, mid, fetch, hprefix, hrest⟩ := hasked
  exact ⟨track, response, geojson, bbox, lengthM, hid,
    ⟨pre, f, now, mid, fetch, hprefix.trans hpre, hrest⟩, hshows⟩

theorem from_unavailable {es : List (Event K Response)} {trackId : ℕ} {row : TrackMap K}
    (h : row.status = .unavailable) : From config buildTrackMap copyright es trackId row :=
  fun hready => by
    rw [h] at hready
    cases hready

/-- **The row a fetch is going to save** shows its response, or nothing. -/
theorem from_rowOf {es : List (Event K Response)} {track : Track K} {now : ℤ}
    {answer : Except String Response}
    (hasked : ∀ response, answer = .ok response →
      Asked config buildTrackMap copyright es track response) :
    From config buildTrackMap copyright es track.id
      (rowOf buildTrackMap copyright track now answer) := by
  unfold rowOf
  split
  · exact from_unavailable rfl
  · next response =>
    split
    · exact from_unavailable rfl
    · exact from_unavailable rfl
    · next geojson bbox lengthM osmDataTimestamp hbuilt =>
      exact fun _ => ⟨track, response, geojson, bbox, lengthM, rfl, hasked response rfl,
        ⟨osmDataTimestamp, hbuilt⟩, rfl, rfl, rfl, rfl, rfl⟩

/-- **An upsert mixes nothing**: a READY row sets every column that shows the outline. -/
theorem From.upsert {es : List (Event K Response)} {trackId : ℕ} {row : TrackMap K}
    (existing : Option (TrackMap K)) (h : From config buildTrackMap copyright es trackId row) :
    From config buildTrackMap copyright es trackId (upsert existing row) := by
  intro hready
  rw [upsert_status] at hready
  obtain ⟨track, response, geojson, bbox, lengthM, hid, hasked, hshows⟩ := h hready
  refine ⟨track, response, geojson, bbox, lengthM, hid, hasked, ?_⟩
  cases existing with
  | none => exact hshows
  | some old =>
    obtain ⟨hbuilt, hgeojson, hbbox, hlengthM, hsource, hattribution⟩ := hshows
    refine ⟨hbuilt, ?_, ?_, ?_, ?_, ?_⟩
    all_goals dsimp only [TrackMapService.upsert]
    · rw [hgeojson]
      rfl
    · rw [hbbox]
      rfl
    · rw [hlengthM]
      rfl
    · rw [hsource]
      rfl
    · rw [hattribution]
      rfl

/-- Every outline in the table, on its way there and in an answer comes from a response to a fetch for
its track; and a call waits for a fetch for its own. -/
structure Origin (config : Config) (buildTrackMap : Response → Gate K → Except String (BuildOutcome K))
    (copyright : Response → Option String) (es : List (Event K Response)) (s : State K) : Prop where
  rows : ∀ trackId row, s.rows trackId = some row →
    From config buildTrackMap copyright es trackId row
  upserting : ∀ f fetch row, s.fetches f = some fetch → fetch.pc = .upserting row →
    From config buildTrackMap copyright es fetch.track.id row
  awaited : ∀ g get f fetch, s.gets g = some get → get.pc = .waiting f → s.fetches f = some fetch →
    fetch.track.id = get.track.id
  answered : ∀ g get row, s.gets g = some get → get.pc = .answered (.ok (some row)) →
    From config buildTrackMap copyright es get.track.id row

variable {es : List (Event K Response)} {s t : State K}

theorem origin_init : Origin config buildTrackMap copyright [] (init : State K) where
  rows _ _ h := by cases h
  upserting _ _ _ h := by cases h
  awaited _ _ _ _ h := by cases h
  answered _ _ _ h := by cases h

theorem Origin.mono {es' : List (Event K Response)} (hpre : es <+: es')
    (h : Origin config buildTrackMap copyright es s) :
    Origin config buildTrackMap copyright es' s where
  rows trackId row hrow := (h.rows trackId row hrow).mono hpre
  upserting f fetch row hfetch hpc := (h.upserting f fetch row hfetch hpc).mono hpre
  awaited := h.awaited
  answered g get row hget hpc := (h.answered g get row hget hpc).mono hpre

/-- A call starts, waits or is answered. -/
theorem Origin.setGet (h : Origin config buildTrackMap copyright es s) (g : ℕ) (get : Get K)
    (hawaited : ∀ f fetch, get.pc = .waiting f → s.fetches f = some fetch →
      fetch.track.id = get.track.id)
    (hanswered : ∀ row, get.pc = .answered (.ok (some row)) →
      From config buildTrackMap copyright es get.track.id row) :
    Origin config buildTrackMap copyright es
      { s with gets := Function.update s.gets g (some get) } := by
  refine ⟨h.rows, h.upserting, fun g' get' f fetch hget hpc hfetch => ?_, fun g' get' row hget hpc => ?_⟩
  all_goals
    dsimp only at hget
    rcases eq_or_ne g' g with rfl | hne
  · rw [Function.update_self, Option.some.injEq] at hget
    subst hget
    exact hawaited f fetch hpc hfetch
  · rw [Function.update_of_ne hne] at hget
    exact h.awaited g' get' f fetch hget hpc hfetch
  · rw [Function.update_self, Option.some.injEq] at hget
    subst hget
    exact hanswered row hpc
  · rw [Function.update_of_ne hne] at hget
    exact h.answered g' get' row hget hpc

theorem Origin.answer (h : Origin config buildTrackMap copyright es s) (g : ℕ) (get : Get K)
    (result : Except Failure (Option (TrackMap K)))
    (hresult : ∀ row, result = .ok (some row) →
      From config buildTrackMap copyright es get.track.id row) :
    Origin config buildTrackMap copyright es (s.answer g get result) :=
  h.setGet g _ (fun _ _ hpc => by cases hpc) fun row hpc => hresult row (GetPc.answered.inj hpc)

/-- A fetch starts, while nobody waits for one of its name, or goes on. -/
theorem Origin.setFetch (h : Origin config buildTrackMap copyright es s) (f : ℕ) (fetch : Fetch K)
    (hawaited : ∀ g get, s.gets g = some get → get.pc = .waiting f →
      fetch.track.id = get.track.id)
    (hupserting : ∀ row, fetch.pc = .upserting row →
      From config buildTrackMap copyright es fetch.track.id row) :
    Origin config buildTrackMap copyright es
      { s with fetches := Function.update s.fetches f (some fetch) } := by
  refine ⟨h.rows, fun f' fetch' row hfetch hpc => ?_, fun g get f' fetch' hget hpc hfetch => ?_,
    h.answered⟩
  all_goals
    dsimp only at hfetch
    rcases eq_or_ne f' f with rfl | hne
  · rw [Function.update_self, Option.some.injEq] at hfetch
    subst hfetch
    exact hupserting row hpc
  · rw [Function.update_of_ne hne] at hfetch
    exact h.upserting f' fetch' row hfetch hpc
  · rw [Function.update_self, Option.some.injEq] at hfetch
    subst hfetch
    exact hawaited g get hget hpc
  · rw [Function.update_of_ne hne] at hfetch
    exact h.awaited g get f' fetch' hget hpc hfetch

theorem Origin.advance (h : Origin config buildTrackMap copyright es s) {f : ℕ} {fetch : Fetch K}
    (hfetch : s.fetches f = some fetch) (pc : FetchPc K)
    (hupserting : ∀ row, pc = .upserting row →
      From config buildTrackMap copyright es fetch.track.id row) :
    Origin config buildTrackMap copyright es (s.advance f fetch pc) :=
  h.setFetch f _ (fun g get hget hpc => h.awaited g get f fetch hget hpc hfetch) hupserting

/-- **Whoever joins a fetch joins one for the same track.** -/
theorem Origin.fetchOrJoin (h : Origin config buildTrackMap copyright es s) (hsound : Sound s) {g : ℕ}
    {get : Get K} (hget : s.gets g = some get) (hpc : get.pc = .finding) :
    Origin config buildTrackMap copyright es (s.fetchOrJoin g get) := by
  unfold State.fetchOrJoin
  split
  · next f hinflight =>
    obtain ⟨fetch, hfetch, -, hid⟩ := hsound.inflight _ _ f hinflight
    refine h.setGet g _ (fun f' fetch' hf' hfetch' => ?_) fun _ hpc => by cases hpc
    cases hf'
    cases hfetch.symm.trans hfetch'
    exact hid
  · have hfree := hsound.starting g get hget hpc
    have hstarted := h.setFetch g ⟨get.node, get.track, .fetching⟩ (fun g' get' hget' hwaiting => by
      have hsome := hsound.waiting g' get' g hget' hwaiting
      rw [hfree] at hsome
      cases hsome) fun _ hpc => by cases hpc
    have hwaits := hstarted.setGet g { get with pc := .waiting g } (fun f' fetch' hf' hfetch' => by
      cases hf'
      have hnew : Function.update s.fetches g (some ⟨get.node, get.track, .fetching⟩) g =
        some fetch' := hfetch'
      rw [Function.update_self, Option.some.injEq] at hnew
      subst hnew
      rfl) fun _ hpc => by cases hpc
    exact ⟨hwaits.rows, hwaits.upserting, hwaits.awaited, hwaits.answered⟩

theorem Origin.afterFind (h : Origin config buildTrackMap copyright es s) (hsound : Sound s) {g : ℕ}
    {get : Get K} (hget : s.gets g = some get) (hpc : get.pc = .finding) (now : ℤ) :
    Origin config buildTrackMap copyright es (afterFind config s g get now) := by
  unfold TrackMapService.afterFind
  split
  · next existing hexisting =>
    have hfound := h.answer g get (.ok (some existing)) fun row hrow => by
      cases hrow
      exact h.rows _ _ hexisting
    split
    · exact hfound
    · split
      · exact hfound
      · exact h.fetchOrJoin hsound hget hpc
  · split
    · refine h.answer g get _ fun row hrow => ?_
      cases hrow
      exact from_unavailable rfl
    · exact h.fetchOrJoin hsound hget hpc

theorem settled_track (f : ℕ) (result : Except Failure (Option (TrackMap K))) (get : Get K) :
    (State.settled f result get).track = get.track := by
  unfold State.settled
  split
  · split
    · rfl
    · rfl
  · rfl

/-- Whoever has an answer once a fetch settles had it, or waited for the fetch. -/
theorem settled_answered {f : ℕ} {result answer : Except Failure (Option (TrackMap K))} {get : Get K}
    (h : (State.settled f result get).pc = .answered answer) :
    get.pc = .answered answer ∨ get.pc = .waiting f ∧ result = answer := by
  unfold State.settled at h
  split at h
  · next f' hwaiting =>
    split at h
    · next heq => exact .inr ⟨by rw [hwaiting, heq], GetPc.answered.inj h⟩
    · exact .inl h
  · exact .inl h

/-- **Everyone who waits for a fetch is answered with a row of its track.** -/
theorem Origin.settle (h : Origin config buildTrackMap copyright es s) {f : ℕ} {fetch : Fetch K}
    (hfetch : s.fetches f = some fetch) (result : Except Failure (Option (TrackMap K)))
    (hresult : ∀ row, result = .ok (some row) →
      From config buildTrackMap copyright es fetch.track.id row) :
    Origin config buildTrackMap copyright es (s.settle f fetch result) := by
  have hfetches : ∀ {f' fetch'}, Function.update s.fetches f none f' = some fetch' →
      s.fetches f' = some fetch' := by
    intro f' fetch' hfetch'
    rcases eq_or_ne f' f with rfl | hne
    · rw [Function.update_self] at hfetch'
      cases hfetch'
    · rwa [Function.update_of_ne hne] at hfetch'
  refine ⟨h.rows, fun f' fetch' row hfetch' hpc => h.upserting f' fetch' row (hfetches hfetch') hpc,
    fun g get f' fetch' hget hpc hfetch' => ?_, fun g get row hget hpc => ?_⟩
  · obtain ⟨old, hold, rfl⟩ := Option.map_eq_some_iff.mp hget
    obtain ⟨hwaiting, -⟩ := settled_waiting hpc
    rw [settled_track]
    exact h.awaited g old f' fetch' hold hwaiting (hfetches hfetch')
  · obtain ⟨old, hold, rfl⟩ := Option.map_eq_some_iff.mp hget
    rw [settled_track]
    rcases settled_answered hpc with hbefore | ⟨hwaiting, hrow⟩
    · exact h.answered g old row hold hbefore
    · rw [← h.awaited g old f fetch hold hwaiting hfetch]
      exact hresult row hrow

/-- The upsert of a fetch takes effect. -/
theorem Origin.upsertRow (h : Origin config buildTrackMap copyright es s) {row : TrackMap K}
    (hrow : From config buildTrackMap copyright es row.trackId row) :
    Origin config buildTrackMap copyright es (s.upsertRow row) := by
  refine ⟨fun trackId stored hstored => ?_, h.upserting, h.awaited, h.answered⟩
  rcases eq_or_ne trackId row.trackId with rfl | hne
  · rw [s.upsertRow_self, Option.some.injEq] at hstored
    subst hstored
    exact hrow.upsert _
  · rw [s.upsertRow_of_ne row hne] at hstored
    exact h.rows trackId stored hstored

/-- **No step brings in another outline.** -/
theorem origin_step {e : Event K Response}
    (hrun : run (step config buildTrackMap copyright) init es = some s)
    (h : Origin config buildTrackMap copyright es s)
    (hs : step config buildTrackMap copyright s e = some t) :
    Origin config buildTrackMap copyright (es ++ [e]) t := by
  have hsound : Sound s := run_invariant_of_step (step config buildTrackMap copyright)
    (fun _ _ _ hi hs => sound_step hi hs) es init s sound_init hrun
  have hlater := h.mono (List.prefix_append es [e])
  cases e with
  | get g node track =>
    simp only [step] at hs
    split at hs
    · cases hs
      exact hlater.setGet g _ (fun _ _ hpc => by cases hpc) fun _ hpc => by cases hpc
    · cases hs
  | found g now ok =>
    obtain ⟨get, hget, hs⟩ := Option.bind_eq_some_iff.mp hs
    split at hs
    · next hpc =>
      split at hs
      · cases hs
        exact hlater.afterFind hsound hget hpc now
      · cases hs
        exact hlater.answer g get _ fun _ hrow => by cases hrow
    · cases hs
  | overpass f now answer =>
    obtain ⟨fetch, hfetch, hs⟩ := Option.bind_eq_some_iff.mp hs
    split at hs
    · cases hs
      refine hlater.advance hfetch _ fun row hrow => ?_
      obtain rfl := FetchPc.upserting.inj hrow
      refine from_rowOf fun response hanswer => ?_
      subst hanswer
      exact ⟨es, f, now, s, fetch, List.prefix_refl _, hrun, hfetch, rfl⟩
    · cases hs
  | upserted f ok =>
    obtain ⟨fetch, hfetch, hs⟩ := Option.bind_eq_some_iff.mp hs
    split at hs
    · next row hpc =>
      split at hs
      · cases hs
        have hrow := hlater.upserting f fetch row hfetch hpc
        rw [← hsound.upserting f fetch row hfetch hpc] at hrow
        exact (hlater.upsertRow hrow).advance hfetch _ fun _ hpc => by cases hpc
      · cases hs
        exact hlater.settle hfetch _ fun _ hrow => by cases hrow
    · cases hs
  | reread f ok =>
    obtain ⟨fetch, hfetch, hs⟩ := Option.bind_eq_some_iff.mp hs
    split at hs
    · split at hs
      · next row _ hstored _ =>
        cases hs
        refine hlater.settle hfetch _ fun row' hrow => ?_
        cases hrow
        exact hlater.rows _ _ hstored
      · cases hs
        exact hlater.settle hfetch _ fun _ hrow => by cases hrow
    · cases hs
  | deadline g =>
    obtain ⟨get, -, hs⟩ := Option.bind_eq_some_iff.mp hs
    split at hs
    · cases hs
      exact hlater.answer g get _ fun _ hrow => by cases hrow
    · cases hs

theorem origin_run : ∀ (es : List (Event K Response)) {s : State K},
    run (step config buildTrackMap copyright) init es = some s →
    Origin config buildTrackMap copyright es s := by
  intro es
  induction es using List.reverseRecOn with
  | nil =>
    intro s h
    cases h
    exact origin_init
  | append_singleton es e ih =>
    intro s h
    obtain ⟨mid, hmid, hs⟩ := (run_snoc_eq_some _).mp h
    exact origin_step hmid (ih hmid) hs

/-- **A response that can be built from is shown**: whoever still waits for its fetch when the row has
been saved and read back is answered with a READY row. -/
theorem fetched_ready {f g : ℕ} {fetch : Fetch K} {get : Get K} {response : Response} (now : ℤ)
    (hfetch : s.fetches f = some fetch) (hpc : fetch.pc = .fetching) (hget : s.gets g = some get)
    (hwaiting : get.pc = .waiting f) {geojson : List (TrackMapFeature K)} {bbox : TrackMapBbox K}
    {lengthM : K} {osmDataTimestamp : Option ℤ}
    (hbuilt : buildTrackMap response (gateOf fetch.track) =
      .ok (.built geojson bbox lengthM osmDataTimestamp)) :
    ∃ t row, run (step config buildTrackMap copyright) s
        [.overpass f now (.ok response), .upserted f true, .reread f true] = some t ∧
      t.gets g = some { get with pc := .answered (.ok (some row)) } ∧ row.status = .ready := by
  obtain ⟨row, hrow⟩ : ∃ row, row = rowOf buildTrackMap copyright fetch.track now (.ok response) :=
    ⟨_, rfl⟩
  have hbuiltRow : row.status = .ready ∧ row.trackId = fetch.track.id := by
    rw [hrow, rowOf]
    simp only [hbuilt, and_self]
  obtain ⟨hstatus, hid⟩ := hbuiltRow
  obtain ⟨saved, hsaved⟩ : ∃ saved, saved = s.advance f fetch (.upserting row) := ⟨_, rfl⟩
  obtain ⟨written, hwritten⟩ : ∃ written, written =
    (saved.upsertRow row).advance f { fetch with pc := .upserting row } .rereading := ⟨_, rfl⟩
  have hfirst : step config buildTrackMap copyright s (.overpass f now (.ok response)) =
      some saved := by
    simp only [step, hfetch, Option.bind_some, hpc, hsaved, hrow]
  have hsecond : step config buildTrackMap copyright saved (.upserted f true) = some written := by
    have hsavedFetch : saved.fetches f = some { fetch with pc := .upserting row } := by
      rw [hsaved]
      exact Function.update_self ..
    simp only [step, hsavedFetch, Option.bind_some, if_true, hwritten]
  obtain ⟨stored, hstored⟩ : ∃ stored, stored = upsert (saved.rows row.trackId) row := ⟨_, rfl⟩
  have hthird : step config buildTrackMap copyright written (.reread f true) =
      some (written.settle f { fetch with pc := .rereading } (.ok (some stored))) := by
    have hwrittenFetch : written.fetches f = some { fetch with pc := .rereading } := by
      rw [hwritten]
      exact Function.update_self ..
    have hwrittenRow : written.rows fetch.track.id = some stored := by
      rw [hwritten, ← hid, hstored]
      exact saved.upsertRow_self row
    simp only [step, hwrittenFetch, Option.bind_some, hwrittenRow]
  refine ⟨written.settle f { fetch with pc := .rereading } (.ok (some stored)), stored, ?_, ?_, ?_⟩
  · rw [run_cons, hfirst, Option.bind_some, run_cons, hsecond, Option.bind_some, run_cons, hthird,
      Option.bind_some]
    rfl
  · have hsame : written.gets g = some get := by
      rw [hwritten, hsaved]
      exact hget
    show (written.gets g).map _ = _
    rw [hsame, Option.map_some, State.settled, hwaiting]
    exact congrArg some (if_pos rfl)
  · rw [hstored, upsert_status, hstatus]

end Origins

section Answers

variable {K : Type} [Field K] [LinearOrder K] [FloorRing K] (P : Platform K) (M : MathLib K)
  (R : Rounding K) (config : Config) (copyright : OverpassResponse K → Option String)

/-- The service over the outlines that are built. -/
def tracked : State K → Event K (OverpassResponse K) → Option (State K) :=
  step config (fun response gate => .ok (buildTrackMap P M R response gate)) copyright

/-- **Every outline a call is answered with** was stitched from the ways of one response, which a fetch
for the track of the call received. -/
theorem outline_from_response (es : List (Event K (OverpassResponse K))) (s : State K)
    (h : run (tracked P M R config copyright) init es = some s)
    (hdistinct : ∀ f now response, .overpass f now (.ok response) ∈ es → Distinct response)
    {g : ℕ} {get : Get K} {row : TrackMap K} (hget : s.gets g = some get)
    (hpc : get.pc = .answered (.ok (some row))) (hready : row.status = .ready) :
    ∃ track response geojson bbox lengthM walked ring, track.id = get.track.id ∧
      Asked config (fun response gate => .ok (buildTrackMap P M R response gate)) copyright es track
        response ∧
      Shows (fun response gate => .ok (buildTrackMap P M R response gate)) copyright response
        (gateOf track) row geojson bbox lengthM ∧
      Outline P M R response (gateOf track) geojson bbox lengthM walked ring := by
  obtain ⟨track, response, geojson, bbox, lengthM, hid, hasked, hshows⟩ :=
    (origin_run es h).answered g get row hget hpc hready
  obtain ⟨osmDataTimestamp, hbuilt⟩ := hshows.built
  have hevent : ∃ f now, Event.overpass f now (.ok response) ∈ es := by
    obtain ⟨pre, f, now, -, -, hprefix, -⟩ := hasked
    exact ⟨f, now, hprefix.subset (List.mem_append_right pre (List.mem_singleton_self _))⟩
  obtain ⟨f, now, hmem⟩ := hevent
  obtain ⟨walked, ring, houtline⟩ :=
    outline_of_built (hdistinct f now response hmem) (Except.ok.inj hbuilt)
  exact ⟨track, response, geojson, bbox, lengthM, walked, ring, hid, hasked, hshows, houtline⟩

end Answers

section Example

open OutlineListing (element plain reason?)

/-- The track of the straight. -/
def straightTrack : Track ℚ :=
  ⟨1, "straight", [], 1 / 400, -1 / 10000, 1 / 400, 1 / 10000, none, none, 0⟩

/-- Two calls of one instance: the first fetches, the second joins it. -/
def joinedFetch : List (Event ℚ (OverpassResponse ℚ)) :=
  [.get 0 0 straightTrack, .get 1 0 straightTrack, .found 0 1000 true, .found 1 1000 true,
    .overpass 0 2000 (.ok ⟨[element 3 [1, 2, 3, 4, 5]], none⟩), .upserted 0 true, .reread 0 true]

/-- What both are answered with runs along the straight. -/
theorem outline_from_response_joinedFetch :
    ∃ s get row,
      run (tracked plain flatMath (.binary64 ℚ) exampleConfig fun _ => none) init joinedFetch = some s ∧
      s.gets 1 = some get ∧ get.pc = .answered (.ok (some row)) ∧
      ∃ track response geojson bbox lengthM walked ring, track.id = 1 ∧
        row.geojson = some geojson ∧
        Outline plain flatMath (.binary64 ℚ) response (gateOf track) geojson bbox lengthM walked
          ring := by
  have hbuilt : ∃ geojson bbox lengthM osmDataTimestamp, buildTrackMap plain flatMath (.binary64 ℚ)
      ⟨[element 3 [1, 2, 3, 4, 5]], none⟩ (gateOf straightTrack) =
        .built geojson bbox lengthM osmDataTimestamp := by
    have hreason : reason? (buildTrackMap plain flatMath (.binary64 ℚ)
      ⟨[element 3 [1, 2, 3, 4, 5]], none⟩ (gateOf straightTrack)) = none := by decide +kernel
    cases houtcome : buildTrackMap plain flatMath (.binary64 ℚ) ⟨[element 3 [1, 2, 3, 4, 5]], none⟩
        (gateOf straightTrack) with
    | rejected reason =>
      rw [houtcome] at hreason
      cases hreason
    | built geojson bbox lengthM osmDataTimestamp => exact ⟨_, _, _, _, rfl⟩
  obtain ⟨geojson, bbox, lengthM, osmDataTimestamp, hbuilt⟩ := hbuilt
  obtain ⟨waiting, hwaiting, hfetch, hget⟩ : ∃ waiting,
      run (tracked plain flatMath (.binary64 ℚ) exampleConfig fun _ => none) init
        (joinedFetch.take 4) = some waiting ∧
      waiting.fetches 0 = some ⟨0, straightTrack, .fetching⟩ ∧
      waiting.gets 1 = some ⟨0, straightTrack, .waiting 0⟩ := ⟨_, rfl, rfl, rfl⟩
  have hbuilt' :
      (fun response gate => Except.ok (buildTrackMap plain flatMath (.binary64 ℚ) response gate))
      ⟨[element 3 [1, 2, 3, 4, 5]], none⟩ (gateOf straightTrack) =
        (.ok (.built geojson bbox lengthM osmDataTimestamp) : Except String (BuildOutcome ℚ)) :=
    congrArg Except.ok hbuilt
  obtain ⟨s, row, hrest, hanswered, hready⟩ : ∃ s row,
      run (tracked plain flatMath (.binary64 ℚ) exampleConfig fun _ => none) waiting
        (joinedFetch.drop 4) = some s ∧
      s.gets 1 = some ⟨0, straightTrack, .answered (.ok (some row))⟩ ∧ row.status = .ready :=
    fetched_ready 2000 hfetch rfl hget rfl hbuilt'
  have hrun : run (tracked plain flatMath (.binary64 ℚ) exampleConfig fun _ => none) init
      joinedFetch = some s := by
    rw [← List.take_append_drop 4 joinedFetch, run_append, hwaiting]
    exact hrest
  have hdistinct : ∀ f now response, .overpass f now (.ok response) ∈ joinedFetch →
      Distinct response := by
    intro f now response hmem
    simp only [joinedFetch, List.mem_cons, reduceCtorEq, Event.overpass.injEq, Except.ok.injEq,
      List.not_mem_nil, false_or, or_false] at hmem
    obtain ⟨-, -, rfl⟩ := hmem
    exact List.nodup_singleton 3
  obtain ⟨track, response, geojson, bbox, lengthM, walked, ring, hid, -, hshows, houtline⟩ :=
    outline_from_response plain flatMath (.binary64 ℚ) exampleConfig (fun _ => none) joinedFetch s hrun
      hdistinct hanswered rfl hready
  exact ⟨s, _, row, hrun, hanswered, rfl, track, response, geojson, bbox, lengthM, walked, ring, hid,
    hshows.geojson, houtline⟩

end Example

end TelemetryCloud.CircuitOutline
