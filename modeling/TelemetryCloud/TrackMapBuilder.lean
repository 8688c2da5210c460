import TelemetryCloud.Lists
import TelemetryCloud.TrackMapService
import TelemetryCloud.UnionFind
import Mathlib.Algebra.Order.BigOperators.Group.List

/-!
# The outline of a circuit

`buildTrackMap` over any ordered field with a floor, in an arithmetic that may round: the usable ways of
a response, the connected component of greatest length, the walk through it, and the checks on the ring
the walk made.

* `endpointIndex`, `largestConnectedComponent`, `walk` : the stitching;
* `mem_endpointIndex` : which ways meet at a node;
* `root_joined_iff` : **two ways have one root** exactly when shared nodes lead from one to the other;
* `walk_complete` : a walk ends where no unused way goes on;
* `buildTrackMap_eq` : the outcome, from the points of the walk.

`Number`, `localeCompare` and `Date` are whatever functions the platform is given.
-/

namespace TelemetryCloud.TrackMapBuilder

open TelemetryCloud.Geometry TelemetryCloud.Lists TelemetryCloud.UnionFind
open SectorGates TrackMapService

/-- `Record<string, string>`. -/
abbrev Tags : Type := List (String × String)

structure OverpassWay (K : Type) where
  type : String
  id : ℕ
  nodes : List ℕ
  geometry : List (LatLon K)
  tags : Option Tags

structure OverpassResponse (K : Type) where
  elements : List (OverpassWay K)
  timestamp_osm_base : Option String

/-- A usable way, which has two nodes at least and a position for every one. -/
@[ext] structure Way (K : Type) where
  id : ℕ
  nodeIds : List ℕ
  points : List (LatLon K)
  tags : Tags
  two_nodes : 2 ≤ nodeIds.length
  paired : points.length = nodeIds.length

/-- What the code takes from the platform: `Number` of a text when it is finite, `localeCompare` with
`numeric` of two names as an order, and the time of a date that is one. -/
structure Platform (K : Type) where
  number : String → Option K
  compareNames : String → String → Bool
  dateMs : String → Option ℤ

namespace Way

variable {K : Type} (way : Way K)

theorem nodeIds_ne_nil : way.nodeIds ≠ [] :=
  List.ne_nil_of_length_pos (Nat.lt_of_lt_of_le Nat.zero_lt_two way.two_nodes)

/-- The first node. -/
def start : ℕ := way.nodeIds.head way.nodeIds_ne_nil

/-- The last node. -/
def finish : ℕ := way.nodeIds.getLast way.nodeIds_ne_nil

end Way

/-! ### Tunables -/

section Tunables

variable {K : Type} [Field K]

def MAX_CLOSURE_GAP_M : K := 25
def MIN_CIRCUIT_LENGTH_M : K := 500
def MAX_CIRCUIT_LENGTH_M : K := 25000
def MAX_GATE_DISTANCE_M : K := 50
def DEFAULT_WIDTH_M : K := 12
def COORD_DECIMALS : ℕ := 6

end Tunables

/-! ### Filtering -/

section Filtering

variable {K : Type}

def isExcluded (tags : Tags) : Bool :=
  tags.lookup "sport" = some "karting" ∨ tags.lookup "raceway" = some "pit_lane"

/-- The way an element stands for, if it is usable. -/
def usableWay (e : OverpassWay K) : Option (Way K) :=
  let tags := e.tags.getD []
  if e.type = "way" ∧ tags.lookup "highway" = some "raceway" ∧ ¬ isExcluded tags then
    if h : 2 ≤ e.nodes.length ∧ e.geometry.length = e.nodes.length then
      some ⟨e.id, e.nodes, e.geometry, tags, h.1, h.2⟩
    else none
  else none

theorem usableWay_eq_some_iff {e : OverpassWay K} {way : Way K} :
    usableWay e = some way ↔
      (e.type = "way" ∧ (e.tags.getD []).lookup "highway" = some "raceway"
        ∧ ¬ isExcluded (e.tags.getD [])) ∧
      way.id = e.id ∧ way.nodeIds = e.nodes ∧ way.points = e.geometry
        ∧ way.tags = e.tags.getD [] := by
  simp only [usableWay]
  constructor
  · intro h
    split at h
    · next htags =>
      split at h
      · cases h
        exact ⟨htags, rfl, rfl, rfl, rfl⟩
      · cases h
    · cases h
  · rintro ⟨htags, hid, hnodes, hpoints, hwayTags⟩
    have hlengths : 2 ≤ e.nodes.length ∧ e.geometry.length = e.nodes.length := by
      rw [← hnodes, ← hpoints]
      exact ⟨way.two_nodes, way.paired⟩
    rw [if_pos htags, dif_pos hlengths]
    exact congrArg some (Way.ext hid.symm hnodes.symm hpoints.symm hwayTags.symm)

def usableWays (elements : List (OverpassWay K)) : List (Way K) := elements.filterMap usableWay

end Filtering

/-! ### Stitching -/

section Stitching

variable {K : Type} [Field K] [LinearOrder K] (M : MathLib K) (R : Rounding K)

/-- `distanceM` between two points, its results rounded. -/
def hopM (a b : LatLon K) : K :=
  M.hypot (R.mul (R.sub b.lon a.lon) (metersPerDegLonBy M R (R.div (R.add a.lat b.lat) 2)))
    (R.mul (R.sub b.lat a.lat) METERS_PER_DEG_LAT)

example (a b : LatLon K) : hopM M (.exact K) a b = distanceM M a.lat a.lon b.lat b.lon := rfl

/-- The distances from each point to the next. -/
def hopsM : List (LatLon K) → List K
  | a :: b :: rest => hopM M R a b :: hopsM (b :: rest)
  | _ => []

def polylineLengthM (points : List (LatLon K)) : K := R.sum (hopsM M R points)

omit [Field K] [LinearOrder K] in
/-- The two ends of every way, in the order in which the index takes them. -/
def wayEnds (ways : List (Way K)) : List (ℕ × ℕ) :=
  ways.flatMap fun way => [(way.start, way.id), (way.finish, way.id)]

/-- The ids of the ways that meet at each endpoint node. -/
def endpointIndex (ways : List (Way K)) : List (ℕ × List ℕ) := grouped (wayEnds ways)

/-- The first way of a bucket with each of the others. -/
def bucketPairs : List ℕ → List (ℕ × ℕ)
  | [] => []
  | first :: rest => rest.map fun id => (first, id)

/-- The forest after the unions. -/
def joined (ways : List (Way K)) : Forest ℕ :=
  (endpointIndex ways).foldl (fun forest entry => forest.unions (bucketPairs entry.2)) Forest.single

/-- The ways of each root, while the finds go on shortening the paths. -/
def groups (ways : List (Way K)) : List (ℕ × List (Way K)) :=
  (ways.foldl (fun (state : Forest ℕ × List (ℕ × List (Way K))) way =>
    let found := state.1.find way.id
    (found.2, push found.1 way state.2)) (joined ways, [])).2

def groupLengthM (group : List (Way K)) : K :=
  R.sum (group.map fun way => polylineLengthM M R way.points)

def largestConnectedComponent (ways : List (Way K)) : List (Way K) :=
  ((groups ways).foldl (fun (best : List (Way K) × K) entry =>
    if best.2 < groupLengthM M R entry.2 then (entry.2, groupLengthM M R entry.2) else best)
    ([], -1)).1

/-- Where a walk is. -/
structure Walk (K : Type) where
  used : List ℕ
  points : List (LatLon K)
  ways : List (Way K)
  tailNode : ℕ

def candidates (index : List (ℕ × List ℕ)) (walk : Walk K) : List ℕ :=
  (bucket walk.tailNode index).filter (· ∉ walk.used)

/-- `byId.get`; of two ways with one id the map keeps the last. -/
def byId (ways : List (Way K)) (id : ℕ) : Option (Way K) := ways.reverse.find? (·.id = id)

/-- The walk goes on along `next`, whose first point it has already. -/
def Walk.extend (walk : Walk K) (next : Way K) : Walk K :=
  let forward := next.start = walk.tailNode
  { used := next.id :: walk.used
    points := walk.points ++ (if forward then next.points else next.points.reverse).tail
    ways := walk.ways ++ [next]
    tailNode := if forward then next.finish else next.start }

/-- The loop of `walk`; every id in the index is that of a way. -/
def walkOn (ways : List (Way K)) : ℕ → Walk K → Walk K
  | 0, walk => walk
  | fuel + 1, walk =>
    match candidates (endpointIndex ways) walk with
    | [] => walk
    | id :: _ =>
      match byId ways id with
      | none => walk
      | some next => walkOn ways fuel (walk.extend next)

/-- The walk before its loop. -/
def Walk.start (first : Way K) : Walk K := ⟨[first.id], first.points, [first], first.finish⟩

/-- `walk`: the points and the ways it went along. -/
def walk : List (Way K) → List (LatLon K) × List (Way K)
  | [] => ([], [])
  | first :: rest =>
    let done := walkOn (first :: rest) (first :: rest).length (.start first)
    (done.points, done.ways)

/-- Shortest distance from a point to the segment `a`–`b`, in the frame of `localFrame` at `a`. -/
def pointToSegmentM (p a b : LatLon K) : K :=
  let mLon := metersPerDegLonBy M R a.lat
  let px := R.mul (R.sub p.lon a.lon) mLon
  let py := R.mul (R.sub p.lat a.lat) METERS_PER_DEG_LAT
  let sx := R.mul (R.sub b.lon a.lon) mLon
  let sy := R.mul (R.sub b.lat a.lat) METERS_PER_DEG_LAT
  if sx = 0 ∧ sy = 0 then M.hypot px py
  else
    let t := max 0 (min 1
      (R.div (R.add (R.mul px sx) (R.mul py sy)) (R.add (R.mul sx sx) (R.mul sy sy))))
    M.hypot (R.sub px (R.mul t sx)) (R.sub py (R.mul t sy))

/-- `none` is `Infinity`. -/
def minDistanceToPolyline (point : LatLon K) : List (LatLon K) → Option K
  | a :: b :: rest =>
    match minDistanceToPolyline point (b :: rest) with
    | none => some (pointToSegmentM M R point a b)
    | some least => some (min (pointToSegmentM M R point a b) least)
  | _ => none

/-- From the first point to the last. -/
def closureGapM : List (LatLon K) → K
  | [] => 0
  | first :: rest => hopM M R first (rest.getLastD first)

end Stitching

/-! ### GeoJSON assembly -/

section Assembly

variable {K : Type} [Field K] [LinearOrder K] [FloorRing K] (P : Platform K) (M : MathLib K)
  (R : Rounding K)

/-- `round(value, COORD_DECIMALS)`. -/
def roundCoord (value : K) : K :=
  R.div (mathRound (R.mul value (10 ^ COORD_DECIMALS))) (10 ^ COORD_DECIMALS)

def toCoords (points : List (LatLon K)) : List (K × K) :=
  points.map fun p => (roundCoord R p.lon, roundCoord R p.lat)

def circuitFeature (points : List (LatLon K)) (lengthM widthM : K) : TrackMapFeature K :=
  .circuit (mathRound lengthM) widthM (toCoords R points)

/-- The name of a way that has one. -/
def Way.name? (way : Way K) : Option String := (way.tags.lookup "name").filter (· ≠ "")

def cornerFeatures (ways : List (Way K)) : List (TrackMapFeature K) :=
  if ways.length ≤ 1 then []
  else
    let named := ways.filterMap fun way => way.name?.map fun name => (name, way)
    (named.mergeSort fun a b => P.compareNames a.1 b.1).map fun entry =>
      .corner entry.1 (toCoords R entry.2.points)

def widthOf (ways : List (Way K)) : K :=
  let widths := (ways.filterMap fun way => (way.tags.lookup "width").bind P.number).filter (0 < ·)
  let sorted := widths.mergeSort fun a b => a ≤ b
  sorted[sorted.length / 2]?.getD DEFAULT_WIDTH_M

/-- The least and the greatest latitude and longitude, of which a ring has some. -/
def bboxOf (points : List (LatLon K)) : TrackMapBbox K :=
  { minLat := (points.map LatLon.lat).min?.getD 0
    minLon := (points.map LatLon.lon).min?.getD 0
    maxLat := (points.map LatLon.lat).max?.getD 0
    maxLon := (points.map LatLon.lon).max?.getD 0 }

def parseTimestamp (value : Option String) : Option ℤ :=
  match value with
  | none => none
  | some text => if text = "" then none else P.dateMs text

/-- `Math.round` in a text, of a distance that may be `Infinity`. -/
def roundedText : Option K → String
  | none => "Infinity"
  | some distance => toString (mathRound distance)

def buildTrackMap (response : OverpassResponse K) (gate : Gate K) : BuildOutcome K :=
  let ways := usableWays response.elements
  if ways.isEmpty then .rejected "no-raceway-ways"
  else
    let chain := walk (largestConnectedComponent M R ways)
    if chain.1.length < 3 then .rejected "could-not-stitch-a-ring"
    else
      let gap := closureGapM M R chain.1
      if MAX_CLOSURE_GAP_M < gap then
        .rejected ("ring-not-closed (" ++ roundedText (some gap) ++ "m gap)")
      else
        let lengthM := polylineLengthM M R chain.1
        if lengthM < MIN_CIRCUIT_LENGTH_M ∨ MAX_CIRCUIT_LENGTH_M < lengthM then
          .rejected ("implausible-length (" ++ roundedText (some lengthM) ++ "m)")
        else
          let gateMid : LatLon K :=
            ⟨R.div (R.add gate.lat1 gate.lat2) 2, R.div (R.add gate.lon1 gate.lon2) 2⟩
          let gateDistanceM := minDistanceToPolyline M R gateMid chain.1
          if gateDistanceM.all (MAX_GATE_DISTANCE_M < ·) then
            .rejected ("gate-not-on-ring (" ++ roundedText gateDistanceM ++ "m away)")
          else
            .built
              (circuitFeature R chain.1 lengthM (widthOf P chain.2) :: cornerFeatures P R chain.2)
              (bboxOf chain.1) lengthM (parseTimestamp P response.timestamp_osm_base)

end Assembly

/-! ### The index and the component -/

section Component

variable {K : Type}

theorem mem_wayEnds {ways : List (Way K)} {node id : ℕ} :
    (node, id) ∈ wayEnds ways ↔
      ∃ way ∈ ways, way.id = id ∧ (way.start = node ∨ way.finish = node) := by
  unfold wayEnds
  simp only [List.mem_flatMap, List.mem_cons, List.not_mem_nil, or_false, Prod.mk.injEq]
  constructor
  · rintro ⟨way, hmem, ⟨rfl, rfl⟩ | ⟨rfl, rfl⟩⟩
    · exact ⟨way, hmem, rfl, Or.inl rfl⟩
    · exact ⟨way, hmem, rfl, Or.inr rfl⟩
  · rintro ⟨way, hmem, rfl, rfl | rfl⟩
    · exact ⟨way, hmem, Or.inl ⟨rfl, rfl⟩⟩
    · exact ⟨way, hmem, Or.inr ⟨rfl, rfl⟩⟩

/-- **The bucket of a node** holds the ids of the ways with an end there. -/
theorem mem_endpointIndex {ways : List (Way K)} {node id : ℕ} :
    id ∈ bucket node (endpointIndex ways) ↔
      ∃ way ∈ ways, way.id = id ∧ (way.start = node ∨ way.finish = node) :=
  mem_bucket_grouped.trans mem_wayEnds

/-- Every pair that the unions join. -/
def joinedPairs (ways : List (Way K)) : List (ℕ × ℕ) :=
  (endpointIndex ways).flatMap fun entry => bucketPairs entry.2

theorem joined_eq (ways : List (Way K)) :
    joined ways = Forest.single.unions (joinedPairs ways) := by
  have hfold : ∀ (index : List (ℕ × List ℕ)) (forest : Forest ℕ),
      index.foldl (fun forest entry => forest.unions (bucketPairs entry.2)) forest
        = forest.unions (index.flatMap fun entry => bucketPairs entry.2) := by
    intro index
    induction index with
    | nil => exact fun forest => rfl
    | cons entry index ih =>
      intro forest
      rw [List.foldl_cons, ih, List.flatMap_cons]
      exact (List.foldl_append ..).symm
  exact hfold _ _

theorem mem_bucketPairs {ids : List ℕ} {a b : ℕ} (h : (a, b) ∈ bucketPairs ids) :
    a ∈ ids ∧ b ∈ ids := by
  cases ids with
  | nil => exact absurd h List.not_mem_nil
  | cons first rest =>
    obtain ⟨id, hid, hpair⟩ := List.mem_map.mp h
    cases hpair
    exact ⟨List.mem_cons_self, List.mem_cons_of_mem _ hid⟩

/-- Any two ways of one bucket are joined through its first. -/
theorem eqvGen_bucketPairs {ids : List ℕ} {a b : ℕ} (ha : a ∈ ids) (hb : b ∈ ids) :
    Relation.EqvGen (fun a b => (a, b) ∈ bucketPairs ids) a b := by
  cases ids with
  | nil => exact absurd ha List.not_mem_nil
  | cons first rest =>
    have hfirst : ∀ id ∈ first :: rest,
        Relation.EqvGen (fun a b => (a, b) ∈ bucketPairs (first :: rest)) first id := by
      intro id hid
      rcases List.mem_cons.mp hid with rfl | hid
      · exact .refl _
      · exact .rel _ _ (List.mem_map_of_mem hid)
    exact ((hfirst a ha).symm _ _).trans _ _ _ (hfirst b hb)

/-- **Two ways have one root** exactly when shared nodes lead from one to the other. -/
theorem root_joined_iff (ways : List (Way K)) (a b : ℕ) :
    (joined ways).root a = (joined ways).root b ↔
      Relation.EqvGen (fun a b => ∃ node, a ∈ bucket node (endpointIndex ways) ∧
        b ∈ bucket node (endpointIndex ways)) a b := by
  rw [joined_eq, Forest.root_unions_single_iff]
  constructor
  · refine fun h => Setoid.eqvGen_mono (fun a b hab => ?_) h
    obtain ⟨⟨node, ids⟩, hentry, hpair⟩ := List.mem_flatMap.mp hab
    obtain ⟨ha, hb⟩ := mem_bucketPairs hpair
    exact ⟨node, mem_bucket_grouped.mpr (mem_of_mem_grouped hentry ha),
      mem_bucket_grouped.mpr (mem_of_mem_grouped hentry hb)⟩
  · refine fun h => Setoid.eqvGen_le (s := Relation.EqvGen.setoid _) (fun a b hab => ?_) h
    obtain ⟨node, ha, hb⟩ := hab
    refine Setoid.eqvGen_mono (fun x y hxy => ?_) (eqvGen_bucketPairs ha hb)
    exact List.mem_flatMap.mpr ⟨_, bucket_mem (List.ne_nil_of_mem ha), hxy⟩

/-- The finds change no root, so the groups are those of the forest before them. -/
theorem groups_eq (ways : List (Way K)) :
    groups ways = grouped (ways.map fun way => ((joined ways).root way.id, way)) := by
  have hfold : ∀ (rest : List (Way K)) (forest : Forest ℕ) (index : List (ℕ × List (Way K))),
      (∀ a, forest.root a = (joined ways).root a) →
      (rest.foldl (fun (state : Forest ℕ × List (ℕ × List (Way K))) way =>
          let found := state.1.find way.id
          (found.2, push found.1 way state.2)) (forest, index)).2
        = (rest.map fun way => ((joined ways).root way.id, way)).foldl
          (fun index pair => push pair.1 pair.2 index) index := by
    intro rest
    induction rest with
    | nil => exact fun forest index _ => rfl
    | cons way rest ih =>
      intro forest index hroots
      rw [List.foldl_cons, List.map_cons, List.foldl_cons, ← hroots way.id]
      exact ih _ _ fun a => (Forest.root_find forest way.id a).trans (hroots a)
  exact hfold ways (joined ways) [] fun _ => rfl

end Component

/-! ### The walk -/

section Walking

variable {K : Type}

theorem mem_candidates {ways : List (Way K)} {walk : Walk K} {id : ℕ} :
    id ∈ candidates (endpointIndex ways) walk ↔
      (∃ way ∈ ways, way.id = id ∧ (way.start = walk.tailNode ∨ way.finish = walk.tailNode)) ∧
        id ∉ walk.used := by
  unfold candidates
  rw [List.mem_filter, mem_endpointIndex, decide_eq_true_iff]

/-- Every id in the index is that of a way. -/
theorem exists_byId {ways : List (Way K)} {walk : Walk K} {id : ℕ}
    (hid : id ∈ candidates (endpointIndex ways) walk) :
    ∃ next ∈ ways, byId ways id = some next ∧ next.id = id := by
  obtain ⟨⟨way, hway, hwayId, -⟩, -⟩ := mem_candidates.mp hid
  cases hfind : byId ways id with
  | none =>
    have hno := List.find?_eq_none.mp hfind way (List.mem_reverse.mpr hway)
    exact absurd (decide_eq_true hwayId) hno
  | some next =>
    obtain ⟨hnext, hnextId⟩ := of_find?_key hfind
    exact ⟨next, List.mem_reverse.mp hnext, rfl, hnextId⟩

/-- One way is used at each step and none twice, so the fuel of the walk is enough for its loop. -/
theorem candidates_walkOn {ways : List (Way K)} (fuel : ℕ) (walk : Walk K)
    (hnodup : walk.used.Nodup) (hused : walk.used ⊆ ways.map Way.id)
    (hfuel : ways.length ≤ walk.used.length + fuel) :
    candidates (endpointIndex ways) (walkOn ways fuel walk) = [] := by
  induction fuel generalizing walk with
  | zero =>
    -- every id is used
    refine List.eq_nil_iff_forall_not_mem.mpr fun id hid => ?_
    obtain ⟨⟨way, hway, rfl, -⟩, hunused⟩ := mem_candidates.mp hid
    have hlt : (way.id :: walk.used).length ≤ (ways.map Way.id).length :=
      (List.subperm_of_subset (List.nodup_cons.mpr ⟨hunused, hnodup⟩)
        (List.cons_subset.mpr ⟨List.mem_map_of_mem hway, hused⟩)).length_le
    rw [List.length_cons, List.length_map] at hlt
    omega
  | succ fuel ih =>
    unfold walkOn
    cases hcand : candidates (endpointIndex ways) walk with
    | nil => exact hcand
    | cons id rest =>
      have hid : id ∈ candidates (endpointIndex ways) walk := by
        rw [hcand]
        exact List.mem_cons_self
      obtain ⟨next, hnext, hbyId, rfl⟩ := exists_byId hid
      simp only [hbyId]
      refine ih (walk.extend next) ?_ ?_ ?_
      · exact List.nodup_cons.mpr ⟨(mem_candidates.mp hid).2, hnodup⟩
      · exact List.cons_subset.mpr ⟨List.mem_map_of_mem hnext, hused⟩
      · show ways.length ≤ (next.id :: walk.used).length + fuel
        rw [List.length_cons]
        omega

/-- **A walk is complete**: where its loop ends, no unused way goes on. -/
theorem walk_complete (first : Way K) (rest : List (Way K)) :
    candidates (endpointIndex (first :: rest))
      (walkOn (first :: rest) (first :: rest).length (.start first)) = [] := by
  refine candidates_walkOn _ _ (List.nodup_singleton _) ?_ (Nat.le_add_left _ _)
  intro id hid
  rw [List.mem_singleton.mp hid]
  exact List.mem_cons_self

end Walking

/-! ### Lengths -/

theorem minDistanceToPolyline_isSome {K : Type} [Field K] [LinearOrder K] (M : MathLib K)
    (R : Rounding K) (point a b : LatLon K) (rest : List (LatLon K)) :
    (minDistanceToPolyline M R point (a :: b :: rest)).isSome = true := by
  unfold minDistanceToPolyline
  split <;> rfl

section Polyline

variable {K : Type} [Field K] [LinearOrder K] (M : MathLib K) (R : Rounding K)

/-- Two parts of a polyline, which share a point. -/
theorem hopsM_append (left : List (LatLon K)) (p : LatLon K) (right : List (LatLon K)) :
    hopsM M R (left ++ p :: right) = hopsM M R (left ++ [p]) ++ hopsM M R (p :: right) := by
  induction left with
  | nil => rfl
  | cons a left ih =>
    cases left with
    | nil => rfl
    | cons b left =>
      show hopM M R a b :: hopsM M R (b :: left ++ p :: right) = _
      rw [ih]
      rfl

theorem hopsM_join {left right : List (LatLon K)} {p : LatLon K} (hleft : left.getLast? = some p)
    (hright : right.head? = some p) :
    hopsM M R (left ++ right.tail) = hopsM M R left ++ hopsM M R right := by
  obtain ⟨init, rfl⟩ := List.getLast?_eq_some_iff.mp hleft
  obtain ⟨rest, rfl⟩ := List.head?_eq_some_iff.mp hright
  rw [List.tail_cons, List.append_assoc, List.singleton_append]
  exact hopsM_append M R init p rest

theorem length_hopsM (points : List (LatLon K)) : (hopsM M R points).length = points.length - 1 := by
  induction points with
  | nil => rfl
  | cons a rest ih =>
    cases rest with
    | nil => rfl
    | cons b rest =>
      show (hopsM M R (b :: rest)).length + 1 = _
      rw [ih]
      rfl

/-- In exact arithmetic two parts of a polyline have the length of the whole. -/
theorem polylineLengthM_join {left right : List (LatLon K)} {p : LatLon K}
    (hleft : left.getLast? = some p) (hright : right.head? = some p) :
    polylineLengthM M (.exact K) (left ++ right.tail)
      = polylineLengthM M (.exact K) left + polylineLengthM M (.exact K) right := by
  unfold polylineLengthM
  rw [hopsM_join M _ hleft hright, Rounding.sum_exact, Rounding.sum_exact, Rounding.sum_exact,
    List.sum_append]

theorem closureGapM_eq {points : List (LatLon K)} {a b : LatLon K} (ha : points.head? = some a)
    (hb : points.getLast? = some b) : closureGapM M R points = hopM M R a b := by
  obtain ⟨rest, rfl⟩ := List.head?_eq_some_iff.mp ha
  rw [List.getLast?_cons, ← List.getLastD_eq_getLast?] at hb
  rw [closureGapM, Option.some.inj hb]

variable (hsymm : ∀ x y, M.hypot (-x) (-y) = M.hypot x y)

include hsymm

theorem hopM_comm (a b : LatLon K) : hopM M R a b = hopM M R b a := by
  unfold hopM
  rw [← hsymm, ← R.mul_neg_left, ← R.mul_neg_left, ← R.sub_swap, ← R.sub_swap, R.add_swap a.lat b.lat]

/-- The other way round, the same distances the other way round. -/
theorem hopsM_reverse (points : List (LatLon K)) :
    hopsM M R points.reverse = (hopsM M R points).reverse := by
  induction points with
  | nil => rfl
  | cons a rest ih =>
    cases rest with
    | nil => rfl
    | cons b rest =>
      rw [List.reverse_cons, List.reverse_cons, List.append_assoc, List.singleton_append,
        hopsM_append, ← List.reverse_cons, ih]
      show (hopsM M R (b :: rest)).reverse ++ [hopM M R b a] = _
      rw [hopM_comm M R hsymm b a, ← List.reverse_cons]
      rfl

/-- In exact arithmetic the length is that of the other way round. -/
theorem polylineLengthM_reverse (points : List (LatLon K)) :
    polylineLengthM M (.exact K) points.reverse = polylineLengthM M (.exact K) points := by
  unfold polylineLengthM
  rw [hopsM_reverse M _ hsymm, Rounding.sum_exact, Rounding.sum_exact, List.sum_reverse]

theorem closureGapM_reverse (points : List (LatLon K)) :
    closureGapM M R points.reverse = closureGapM M R points := by
  cases hhead : points.head? with
  | none =>
    rw [List.head?_eq_none_iff.mp hhead]
    rfl
  | some a =>
    cases hlast : points.getLast? with
    | none =>
      rw [List.getLast?_eq_none_iff.mp hlast]
      rfl
    | some b =>
      rw [closureGapM_eq M R hhead hlast, hopM_comm M R hsymm]
      exact closureGapM_eq M R (by rw [List.head?_reverse, hlast]) (by
        rw [List.getLast?_reverse, hhead])

end Polyline

section Length

variable {K : Type} [Field K] [LinearOrder K] [IsStrictOrderedRing K] (M : MathLib K) (R : Rounding K)

variable (hnonneg : ∀ x y, 0 ≤ M.hypot x y)

include hnonneg

omit [IsStrictOrderedRing K] in
theorem hopsM_nonneg (points : List (LatLon K)) : ∀ hop ∈ hopsM M R points, 0 ≤ hop := by
  induction points with
  | nil => exact List.forall_mem_nil _
  | cons a rest ih =>
    cases rest with
    | nil => exact List.forall_mem_nil _
    | cons b rest => exact List.forall_mem_cons.mpr ⟨hnonneg _ _, ih⟩

theorem polylineLengthM_nonneg (points : List (LatLon K)) : 0 ≤ polylineLengthM M R points :=
  R.sum_nonneg (hopsM_nonneg M R hnonneg points)

theorem groupLengthM_nonneg (group : List (Way K)) : 0 ≤ groupLengthM M R group := by
  refine R.sum_nonneg ?_
  intro length hmem
  obtain ⟨way, -, rfl⟩ := List.mem_map.mp hmem
  exact polylineLengthM_nonneg M R hnonneg way.points

/-- Ways that are all joined are the component. -/
theorem largestConnectedComponent_eq {ways : List (Way K)} (hne : ways ≠ [])
    (hjoined : ∀ v ∈ ways, ∀ w ∈ ways, (joined ways).root v.id = (joined ways).root w.id) :
    largestConnectedComponent M R ways = ways := by
  obtain ⟨first, hfirst⟩ := List.exists_mem_of_ne_nil ways hne
  have hgroups : groups ways = [((joined ways).root first.id, ways)] := by
    rw [groups_eq, grouped_of_forall_key (k := (joined ways).root first.id)]
    · rw [List.map_map]
      exact congrArg (fun l => [((joined ways).root first.id, l)]) (List.map_id ways)
    · exact fun h => hne (List.map_eq_nil_iff.mp h)
    · intro pair hpair
      obtain ⟨way, hway, rfl⟩ := List.mem_map.mp hpair
      exact hjoined way hway first hfirst
  have hlong : (-1 : K) < groupLengthM M R ways :=
    lt_of_lt_of_le (neg_lt_zero.mpr one_pos) (groupLengthM_nonneg M R hnonneg ways)
  unfold largestConnectedComponent
  rw [hgroups, List.foldl_cons, List.foldl_nil, if_pos hlong]

end Length

/-! ### The outcome -/

section Outcome

variable {K : Type} [Field K] [LinearOrder K] [FloorRing K] (P : Platform K) (M : MathLib K)
  (R : Rounding K)

/-- The middle of a gate. -/
def gateMid (gate : Gate K) : LatLon K :=
  ⟨R.div (R.add gate.lat1 gate.lat2) 2, R.div (R.add gate.lon1 gate.lon2) 2⟩

/-- Why the points of a walk are no ring, if they are none. -/
def rejection (points : List (LatLon K)) (gate : Gate K) : Option String :=
  if points.length < 3 then some "could-not-stitch-a-ring"
  else if MAX_CLOSURE_GAP_M < closureGapM M R points then
    some ("ring-not-closed (" ++ roundedText (some (closureGapM M R points)) ++ "m gap)")
  else if polylineLengthM M R points < MIN_CIRCUIT_LENGTH_M
      ∨ MAX_CIRCUIT_LENGTH_M < polylineLengthM M R points then
    some ("implausible-length (" ++ roundedText (some (polylineLengthM M R points)) ++ "m)")
  else if (minDistanceToPolyline M R (gateMid R gate) points).all (MAX_GATE_DISTANCE_M < ·) then
    some ("gate-not-on-ring (" ++ roundedText (minDistanceToPolyline M R (gateMid R gate) points)
      ++ "m away)")
  else none

/-- **The outcome** is decided by the points of the walk. -/
theorem buildTrackMap_eq {response : OverpassResponse K} (gate : Gate K)
    (hne : usableWays response.elements ≠ []) :
    buildTrackMap P M R response gate =
      let chain := walk (largestConnectedComponent M R (usableWays response.elements))
      match rejection M R chain.1 gate with
      | some reason => .rejected reason
      | none =>
        .built
          (circuitFeature R chain.1 (polylineLengthM M R chain.1) (widthOf P chain.2)
            :: cornerFeatures P R chain.2)
          (bboxOf chain.1) (polylineLengthM M R chain.1)
          (parseTimestamp P response.timestamp_osm_base) := by
  have hempty : (usableWays response.elements).isEmpty = false :=
    Bool.eq_false_iff.mpr fun h => hne (List.isEmpty_iff.mp h)
  unfold buildTrackMap rejection gateMid
  simp only [hempty, Bool.false_eq_true, if_false]
  split_ifs <;> rfl

end Outcome

end TelemetryCloud.TrackMapBuilder
