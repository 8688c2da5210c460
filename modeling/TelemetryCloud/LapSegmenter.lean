import TelemetryCloud.LapMarkers
import Mathlib.Data.List.Induction
import Mathlib.Data.Rat.Floor
import Mathlib.Tactic.NormNum

/-!
# The lap segmenter: one pass over the samples

`LapSegmenter.push` keeps the last located fix, the racing direction latched on the arming crossing,
the lap counter and the points of the lap in progress.  This file also says, without any of that
state, which laps a list of samples has: the crossings of the gate on consecutive located fixes, the
greedy choice among them, and one lap for each consecutive pair of chosen ones.

* `segmentLaps` : the segmenter, as the code runs it;
* `passages`, `accepted`, `lapsOf` : the specification;
* `state_eq` : after any samples, the segmenter's state is what the specification says of them;
* `LapTable` : numbered from 1, sharing their boundaries, each at least `MIN_LAP_MS` long;
* `segmentLaps_spec` : **the laps of the segmenter are the laps of the specification**, a `LapTable`,
  and more samples only add laps at the end.
-/

namespace TelemetryCloud.LapSegmenter

open TelemetryCloud.Geometry Gates LapMarkers

/-! ### The segmenter -/

structure DerivedLap (K : Type) where
  lapNumber : ℕ
  startedAt : ℤ
  endedAt : ℤ
  lapMs : ℤ
  distanceM : ℤ
  maxSpeedKmh : Option K
  minSpeedKmh : Option K
  sectorMs : List ℤ
  brakingPoints : List (BrakingPoint K)
  points : List (LapPoint K)

structure Options (K : Type) where
  sectorCount : ℕ := DEFAULT_SECTOR_COUNT
  sectorGates : Option (List (Gate K)) := none

/-- The points of a lap in progress: there is always the one it opened with. -/
structure OpenLap (K : Type) where
  first : LapPoint K
  rest : List (LapPoint K)

def OpenLap.points {K : Type} (lap : OpenLap K) : List (LapPoint K) := lap.first :: lap.rest

def OpenLap.last {K : Type} (lap : OpenLap K) : LapPoint K := lap.rest.getLastD lap.first

structure Segmenter (K : Type) where
  laps : List (DerivedLap K)
  prev : Option (PathPoint K)
  dirSign : Option Direction
  lapNumber : ℕ
  points : Option (OpenLap K)

section Code

variable {K : Type} [Field K] [LinearOrder K] [FloorRing K] (M : MathLib K) (options : Options K)

/-- The crossing of the line between two fixes, as a point of the path. -/
def anchorPoint (prev cur : PathPoint K) (crossing : GateCrossing K) : PathPoint K where
  timeMs := crossing.crossMs
  lat := crossing.lat
  lon := crossing.lon
  speedKmh := lerpChannel prev.speedKmh cur.speedKmh crossing.t
  gLon := lerpChannel prev.gLon cur.gLon crossing.t

/-- One more point on the lap in progress. -/
def OpenLap.append (lap : OpenLap K) (point : PathPoint K) : OpenLap K :=
  { lap with rest := lap.rest ++ [nextPoint M lap.last point] }

/-- The extreme speed of a lap, among the points that have one. -/
def foldSpeed (extreme : K → K → K) (points : List (LapPoint K)) : Option K :=
  points.foldl (fun best point =>
    match point.speedKmh, best with
    | none, _ => best
    | some v, none => some v
    | some v, some b => some (extreme b v)) none

/-- The lap `closeLap` reports for the points it has. -/
def toLap (lapNumber : ℕ) (lap : OpenLap K) : DerivedLap K where
  lapNumber := lapNumber
  startedAt := mathRound lap.first.timeMs
  endedAt := mathRound lap.last.timeMs
  lapMs := mathRound (lap.last.timeMs - lap.first.timeMs)
  distanceM := mathRound lap.last.distM
  maxSpeedKmh := foldSpeed max lap.points
  minSpeedKmh := foldSpeed min lap.points
  sectorMs := match options.sectorGates with
    | some gates => sectorTimesFromGates M lap.points gates
    | none => sectorTimes lap.points options.sectorCount
  brakingPoints := detectBrakingPoints lap.points
  points := lap.points

namespace Segmenter

def init : Segmenter K := ⟨[], none, none, 0, none⟩

/-- `acceptCrossing`: the debounce, once a lap is running. -/
def acceptCrossing (st : Segmenter K) (crossMs : K) : Bool :=
  match st.points with
  | none => true
  | some lap => (MIN_LAP_MS : K) ≤ crossMs - lap.first.timeMs

/-- `append`: nothing before the arming crossing. -/
def append (st : Segmenter K) (point : PathPoint K) : Segmenter K :=
  { st with points := st.points.map (·.append M point) }

/-- `closeLap`. -/
def closeLap (st : Segmenter K) (anchor : PathPoint K) : Segmenter K :=
  match st.points with
  | none => st
  | some lap =>
    { st with
      laps := st.laps ++ [toLap M options st.lapNumber (lap.append M anchor)]
      points := none }

/-- A crossing that was accepted: the outgoing lap closes and the incoming one opens at the same
anchor. -/
def cross (st : Segmenter K) (anchor : PathPoint K) (dirSign : Direction) : Segmenter K :=
  let closed := st.closeLap M options anchor
  { closed with
    dirSign := st.dirSign <|> some dirSign
    lapNumber := closed.lapNumber + 1
    points := some ⟨⟨anchor, 0⟩, []⟩ }

/-- The first half of `push`: the hop from the last located fix, when it crosses the gate. -/
def meet (gate : ProjectedGate K) (st : Segmenter K) (cur : PathPoint K) : Segmenter K :=
  match st.prev with
  | none => st
  | some prev =>
    match (findGateCrossing (toFix prev) (toFix cur) gate st.dirSign).filter
        (fun crossing : GateCrossing K => st.acceptCrossing crossing.crossMs) with
    | none => st
    | some crossing => st.cross M options (anchorPoint prev cur crossing) crossing.dirSign

/-- `push` for a sample with a position. -/
def pushPoint (gate : ProjectedGate K) (st : Segmenter K) (cur : PathPoint K) : Segmenter K :=
  { (st.meet M options gate cur).append M cur with prev := some cur }

/-- `push`: a sample without a position changes nothing. -/
def push (gate : ProjectedGate K) (st : Segmenter K) (sample : AnalysisSample K) : Segmenter K :=
  match sample.point? with
  | none => st
  | some point => st.pushPoint M options gate point

end Segmenter

/-- `segmentLaps`. -/
def segmentLaps (gate : Gate K) (samples : List (AnalysisSample K)) : List (DerivedLap K) :=
  (samples.foldl (Segmenter.push M options (projectGate M gate)) Segmenter.init).laps

end Code

/-! ### The specification -/

/-- A crossing of the gate on the hop from the `index`-th located fix to the next. -/
structure Passage (K : Type) where
  index : ℕ
  prev : PathPoint K
  cur : PathPoint K
  crossing : GateCrossing K

section Spec

variable {K : Type} [Field K] [LinearOrder K] [FloorRing K] (M : MathLib K) (options : Options K)

/-- The instant of a passage, as a point of the path. -/
def Passage.anchor (x : Passage K) : PathPoint K := anchorPoint x.prev x.cur x.crossing

/-- The crossing of one hop, in no particular direction. -/
def passage? (gate : ProjectedGate K) (i : ℕ) (a b : PathPoint K) : Option (Passage K) :=
  (findGateCrossing (toFix a) (toFix b) gate none).map (⟨i, a, b, ·⟩)

/-- The crossings on consecutive fixes, counting the fixes from `i`. -/
def passagesFrom (gate : ProjectedGate K) : ℕ → List (PathPoint K) → List (Passage K)
  | i, a :: b :: rest => (passage? gate i a b).toList ++ passagesFrom gate (i + 1) (b :: rest)
  | _, _ => []

/-- **The crossings of a run of located fixes.** -/
def passages (gate : ProjectedGate K) (path : List (PathPoint K)) : List (Passage K) :=
  passagesFrom gate 0 path

/-- The crossings accepted after the one at `last`: in the racing direction, and at least
`MIN_LAP_MS` after the last one accepted. -/
def acceptFrom (d : Direction) (last : K) : List (Passage K) → List (Passage K)
  | [] => []
  | x :: rest =>
    if x.crossing.dirSign = d ∧ (MIN_LAP_MS : K) ≤ x.crossing.crossMs - last then
      x :: acceptFrom d x.crossing.crossMs rest
    else acceptFrom d last rest

/-- **The accepted crossings**: the first one arms the run and fixes the direction. -/
def accepted : List (Passage K) → List (Passage K)
  | [] => []
  | x :: rest => x :: acceptFrom x.crossing.dirSign x.crossing.crossMs rest

/-- The lap in progress after passage `x`: the crossing at distance 0 and every fix after it. -/
def lapAfter (x : Passage K) (fixes : List (PathPoint K)) : OpenLap K :=
  ⟨⟨x.anchor, 0⟩, axisFrom M ⟨x.anchor, 0⟩ fixes⟩

/-- The located fixes between two passages. -/
def fixesBetween (path : List (PathPoint K)) (x y : Passage K) : List (PathPoint K) :=
  (path.drop (x.index + 1)).take (y.index - x.index)

/-- The lap between two passages: the opening crossing at distance 0, the fixes between them, and
the closing crossing. -/
def lapBetween (path : List (PathPoint K)) (n : ℕ) (x y : Passage K) : DerivedLap K :=
  toLap M options n (lapAfter M x (fixesBetween path x y ++ [y.anchor]))

/-- **One lap for each consecutive pair of accepted crossings**, numbered from `n`. -/
def lapsOf (path : List (PathPoint K)) : ℕ → List (Passage K) → List (DerivedLap K)
  | n, x :: y :: rest => lapBetween M options path n x y :: lapsOf path (n + 1) (y :: rest)
  | _, _ => []

/-- The state the segmenter has to be in after a run of located fixes. -/
def stateOf (gate : ProjectedGate K) (path : List (PathPoint K)) : Segmenter K where
  laps := lapsOf M options path 1 (accepted (passages gate path))
  prev := path.getLast?
  dirSign := (accepted (passages gate path)).head?.map (·.crossing.dirSign)
  lapNumber := (accepted (passages gate path)).length
  points := (accepted (passages gate path)).getLast?.map fun x =>
    lapAfter M x (path.drop (x.index + 1))

end Spec

/-! ### The crossings, one fix at a time -/

section Crossings

variable {K : Type} [Field K] [LinearOrder K] {gate : ProjectedGate K}

theorem passagesFrom_snoc (i : ℕ) (path : List (PathPoint K)) (a b : PathPoint K) :
    passagesFrom gate i (path ++ [a, b]) =
      passagesFrom gate i (path ++ [a]) ++ (passage? gate (i + path.length) a b).toList := by
  induction path generalizing i with
  | nil => simp [passagesFrom]
  | cons c path ih =>
    have hlen : i + (c :: path).length = i + 1 + path.length := by
      rw [List.length_cons]
      omega
    cases path with
    | nil => simp [passagesFrom]
    | cons d path =>
      show (passage? gate i c d).toList ++ passagesFrom gate (i + 1) (d :: path ++ [a, b]) =
        (passage? gate i c d).toList ++ passagesFrom gate (i + 1) (d :: path ++ [a]) ++ _
      rw [ih, hlen, List.append_assoc]

theorem passages_snoc (path : List (PathPoint K)) (a b : PathPoint K) :
    passages gate (path ++ [a] ++ [b]) =
      passages gate (path ++ [a]) ++ (passage? gate path.length a b).toList := by
  rw [passages, passages, List.append_assoc, List.singleton_append, passagesFrom_snoc, zero_add]

theorem mem_passage? {i : ℕ} {a b : PathPoint K} {x : Passage K} :
    x ∈ (passage? gate i a b).toList ↔
      x.index = i ∧ x.prev = a ∧ x.cur = b ∧
        findGateCrossing (toFix a) (toFix b) gate none = some x.crossing := by
  rw [Option.mem_toList, passage?, Option.map_eq_some_iff]
  constructor
  · rintro ⟨c, hc, rfl⟩
    exact ⟨rfl, rfl, rfl, hc⟩
  · rintro ⟨rfl, rfl, rfl, hc⟩
    exact ⟨x.crossing, hc, rfl⟩

theorem mem_passagesFrom {i : ℕ} {path : List (PathPoint K)} {x : Passage K} :
    x ∈ passagesFrom gate i path ↔
      i ≤ x.index ∧ path[x.index - i]? = some x.prev ∧ path[x.index - i + 1]? = some x.cur ∧
        findGateCrossing (toFix x.prev) (toFix x.cur) gate none = some x.crossing := by
  induction path generalizing i with
  | nil => simp [passagesFrom]
  | cons a path ih =>
    cases path with
    | nil => simp [passagesFrom]
    | cons b path =>
      rw [passagesFrom, List.mem_append, mem_passage?, ih]
      constructor
      · rintro (⟨rfl, rfl, rfl, hc⟩ | ⟨hi, hp, hq, hc⟩)
        · simpa using hc
        · obtain ⟨k, hk⟩ := Nat.exists_eq_add_of_le hi
          have h1 : x.index - i = k + 1 := by omega
          have h2 : x.index - (i + 1) = k := by omega
          rw [h2] at hp hq
          rw [h1]
          exact ⟨by omega, hp, hq, hc⟩
      · rintro ⟨hi, hp, hq, hc⟩
        rcases Nat.eq_or_lt_of_le hi with rfl | hi
        · rw [Nat.sub_self] at hp hq
          cases hp
          cases hq
          exact .inl ⟨rfl, rfl, rfl, hc⟩
        · obtain ⟨k, hk⟩ := Nat.exists_eq_add_of_le hi
          have h1 : x.index - i = k + 1 := by omega
          have h2 : x.index - (i + 1) = k := by omega
          rw [h1] at hp hq
          rw [h2]
          exact .inr ⟨hi, hp, hq, hc⟩

/-- **What a crossing of the path is**: two consecutive located fixes whose hop crosses the gate. -/
theorem mem_passages {path : List (PathPoint K)} {x : Passage K} :
    x ∈ passages gate path ↔
      path[x.index]? = some x.prev ∧ path[x.index + 1]? = some x.cur ∧
        findGateCrossing (toFix x.prev) (toFix x.cur) gate none = some x.crossing := by
  rw [passages, mem_passagesFrom]
  simp

theorem index_lt_of_mem_passages {path : List (PathPoint K)} {x : Passage K}
    (h : x ∈ passages gate path) : x.index + 1 < path.length :=
  (List.getElem?_eq_some_iff.mp (mem_passages.mp h).2.1).1

/-! ### The accepted crossings, one crossing at a time -/

/-- Whether a crossing is accepted after the ones chosen so far. -/
def admits (chosen : List (Passage K)) (x : Passage K) : Bool :=
  match chosen.head?, chosen.getLast? with
  | some first, some last =>
    x.crossing.dirSign = first.crossing.dirSign ∧
      (MIN_LAP_MS : K) ≤ x.crossing.crossMs - last.crossing.crossMs
  | _, _ => true

theorem acceptFrom_snoc (first last : Passage K) (xs : List (Passage K)) (x : Passage K) :
    acceptFrom first.crossing.dirSign last.crossing.crossMs (xs ++ [x]) =
      acceptFrom first.crossing.dirSign last.crossing.crossMs xs ++
        if x.crossing.dirSign = first.crossing.dirSign ∧
            (MIN_LAP_MS : K) ≤ x.crossing.crossMs -
              ((acceptFrom first.crossing.dirSign last.crossing.crossMs xs).getLastD
                last).crossing.crossMs
        then [x] else [] := by
  induction xs generalizing last with
  | nil => rfl
  | cons y xs ih =>
    rw [List.cons_append, acceptFrom, acceptFrom]
    split
    · rw [ih y, List.getLastD_cons, List.cons_append]
    · exact ih last

theorem accepted_snoc (xs : List (Passage K)) (x : Passage K) :
    accepted (xs ++ [x]) = accepted xs ++ if admits (accepted xs) x then [x] else [] := by
  cases xs with
  | nil => rfl
  | cons first xs =>
    rw [List.cons_append, accepted, accepted, acceptFrom_snoc, List.cons_append, admits]
    simp only [List.head?_cons, List.getLast?_cons, ← List.getLastD_eq_getLast?, decide_eq_true_eq]

theorem acceptFrom_sublist (d : Direction) (last : K) (xs : List (Passage K)) :
    (acceptFrom d last xs).Sublist xs := by
  induction xs generalizing last with
  | nil => exact .slnil
  | cons x xs ih =>
    rw [acceptFrom]
    split
    · exact (ih _).cons_cons x
    · exact (ih _).cons x

theorem accepted_sublist (xs : List (Passage K)) : (accepted xs).Sublist xs := by
  cases xs with
  | nil => exact .slnil
  | cons x xs => exact (acceptFrom_sublist _ _ xs).cons_cons x

theorem acceptFrom_isChain (d : Direction) (last : Passage K) (xs : List (Passage K)) :
    (last :: acceptFrom d last.crossing.crossMs xs).IsChain fun x y =>
      (MIN_LAP_MS : K) ≤ y.crossing.crossMs - x.crossing.crossMs := by
  induction xs generalizing last with
  | nil => exact .singleton last
  | cons x xs ih =>
    rw [acceptFrom]
    split
    · rename_i h
      exact .cons_cons h.2 (ih x)
    · exact ih last

/-- Accepted crossings are at least `MIN_LAP_MS` apart. -/
theorem accepted_isChain (xs : List (Passage K)) :
    (accepted xs).IsChain fun x y =>
      (MIN_LAP_MS : K) ≤ y.crossing.crossMs - x.crossing.crossMs := by
  cases xs with
  | nil => exact .nil
  | cons x xs => exact acceptFrom_isChain _ x xs

end Crossings

/-! ### The state is what the specification says -/

section State

variable {K : Type} [Field K] [LinearOrder K] [FloorRing K] (M : MathLib K) (options : Options K)
  (gate : ProjectedGate K)

omit [FloorRing K] in
theorem lapAfter_append (x : Passage K) (fixes : List (PathPoint K)) (point : PathPoint K) :
    (lapAfter M x fixes).append M point = lapAfter M x (fixes ++ [point]) := by
  rw [lapAfter, lapAfter, OpenLap.append, axisFrom_append]
  rfl

theorem lapsOf_snoc (path : List (PathPoint K)) (n : ℕ) (xs : List (Passage K))
    (x y : Passage K) :
    lapsOf M options path n (xs ++ [x] ++ [y]) =
      lapsOf M options path n (xs ++ [x]) ++
        [lapBetween M options path (n + xs.length) x y] := by
  induction xs generalizing n with
  | nil => rfl
  | cons z xs ih =>
    have hlen : n + (z :: xs).length = n + 1 + xs.length := by
      rw [List.length_cons]
      omega
    cases xs with
    | nil => rfl
    | cons w xs =>
      show lapBetween M options path n z w :: lapsOf M options path (n + 1) (w :: xs ++ [x] ++ [y])
        = lapBetween M options path n z w :: lapsOf M options path (n + 1) (w :: xs ++ [x]) ++ _
      rw [ih, hlen, List.cons_append]
      rfl

/-- A lap between two crossings of the path does not see the fixes that come after. -/
theorem lapBetween_append (path more : List (PathPoint K)) (n : ℕ) {x y : Passage K}
    (hy : y.index < path.length) :
    lapBetween M options (path ++ more) n x y = lapBetween M options path n x y := by
  have hfixes : fixesBetween (path ++ more) x y = fixesBetween path x y := by
    rcases Nat.lt_or_ge x.index y.index with h | h
    · rw [fixesBetween, fixesBetween, List.drop_append_of_le_length (by omega),
        List.take_append_of_le_length (by rw [List.length_drop]; omega)]
    · rw [fixesBetween, fixesBetween, Nat.sub_eq_zero_of_le (by omega), List.take_zero,
        List.take_zero]
  rw [lapBetween, lapBetween, hfixes]

theorem lapsOf_append (path more : List (PathPoint K)) (n : ℕ) {xs : List (Passage K)}
    (hxs : ∀ x ∈ xs, x.index < path.length) :
    lapsOf M options (path ++ more) n xs = lapsOf M options path n xs := by
  induction xs generalizing n with
  | nil => rfl
  | cons x xs ih =>
    cases xs with
    | nil => rfl
    | cons y xs =>
      have hy : y.index < path.length := hxs y (List.mem_cons_of_mem _ List.mem_cons_self)
      rw [lapsOf, lapsOf, lapBetween_append M options path more n hy,
        ih (n + 1) fun z hz => hxs z (List.mem_cons_of_mem _ hz)]

omit [FloorRing K] in
theorem index_lt_of_mem_accepted {path : List (PathPoint K)} {x : Passage K}
    (h : x ∈ accepted (passages gate path)) : x.index + 1 < path.length :=
  index_lt_of_mem_passages ((accepted_sublist _).subset h)

/-- The segmenter's two tests on a crossing, the direction it asks for and the debounce, are the one
the specification makes. -/
theorem filter_acceptCrossing (path : List (PathPoint K)) (a b : PathPoint K) :
    (findGateCrossing (toFix a) (toFix b) gate (stateOf M options gate path).dirSign).filter
        (fun crossing => (stateOf M options gate path).acceptCrossing crossing.crossMs) =
      (findGateCrossing (toFix a) (toFix b) gate none).filter
        fun crossing => admits (accepted (passages gate path)) ⟨path.length - 1, a, b, crossing⟩ := by
  cases haccepted : accepted (passages gate path) with
  | nil =>
    simp only [stateOf, haccepted, Segmenter.acceptCrossing, admits, List.head?_nil,
      List.getLast?_nil, Option.map_none]
  | cons first xs =>
    simp only [stateOf, haccepted, Segmenter.acceptCrossing, admits, List.head?_cons,
      List.getLast?_cons, Option.map_some, findGateCrossing_required, Option.filter_filter,
      Bool.decide_and, lapAfter, Passage.anchor, anchorPoint]

/-- A fix that brings no accepted crossing is one more point of the lap in progress. -/
theorem stateOf_append (path : List (PathPoint K)) (cur : PathPoint K)
    (h : accepted (passages gate (path ++ [cur])) = accepted (passages gate path)) :
    stateOf M options gate (path ++ [cur]) =
      { (stateOf M options gate path).append M cur with prev := some cur } := by
  have hlaps : lapsOf M options (path ++ [cur]) 1 (accepted (passages gate path)) =
      lapsOf M options path 1 (accepted (passages gate path)) :=
    lapsOf_append M options path [cur] 1 fun x hx => by
      have := index_lt_of_mem_accepted gate hx
      omega
  have hpoints : ((accepted (passages gate path)).getLast?.map fun x =>
        lapAfter M x ((path ++ [cur]).drop (x.index + 1))) =
      ((accepted (passages gate path)).getLast?.map fun x =>
        lapAfter M x (path.drop (x.index + 1))).map (·.append M cur) := by
    rw [Option.map_map]
    refine Option.map_congr fun x hx => ?_
    have hlt := index_lt_of_mem_accepted gate (List.mem_of_getLast? hx)
    rw [Function.comp_apply, lapAfter_append, List.drop_append_of_le_length (by omega)]
  rw [stateOf, h, hlaps, hpoints, List.getLast?_concat]
  rfl

/-- A fix that brings an accepted crossing closes the lap in progress there and opens the next. -/
theorem stateOf_cross (path : List (PathPoint K)) (x : Passage K) (cur : PathPoint K)
    (hindex : x.index + 1 = path.length)
    (h : accepted (passages gate (path ++ [cur])) = accepted (passages gate path) ++ [x]) :
    stateOf M options gate (path ++ [cur]) =
      { ((stateOf M options gate path).cross M options x.anchor x.crossing.dirSign).append M cur
        with prev := some cur } := by
  have hdrop : (path ++ [cur]).drop (x.index + 1) = [cur] := by
    rw [hindex, List.drop_left]
  have hlast : ∀ y ∈ accepted (passages gate path),
      fixesBetween (path ++ [cur]) y x = path.drop (y.index + 1) := by
    intro y hy
    have hlt := index_lt_of_mem_accepted gate hy
    rw [fixesBetween, List.drop_append_of_le_length (by omega),
      List.take_append_of_le_length (by rw [List.length_drop]; omega), List.take_of_length_le]
    rw [List.length_drop]
    omega
  have hlaps : lapsOf M options (path ++ [cur]) 1 (accepted (passages gate path)) =
      lapsOf M options path 1 (accepted (passages gate path)) :=
    lapsOf_append M options path [cur] 1 fun y hy => by
      have := index_lt_of_mem_accepted gate hy
      omega
  rcases List.eq_nil_or_concat' (accepted (passages gate path)) with hnil | ⟨ys, y, hys⟩
  · rw [stateOf, h, stateOf, hnil, List.nil_append, List.getLast?_singleton, Option.map_some,
      hdrop, List.getLast?_concat]
    rfl
  · have hy : y ∈ accepted (passages gate path) := by
      rw [hys]
      exact List.mem_append_right _ List.mem_cons_self
    have hbetween := hlast y hy
    rw [hys] at hlaps h
    rw [stateOf, h, stateOf, hys, lapsOf_snoc, hlaps, List.getLast?_concat, List.getLast?_concat,
      List.getLast?_concat, Option.map_some, Option.map_some, hdrop, lapBetween, hbetween]
    simp only [Segmenter.cross, Segmenter.closeLap, Segmenter.append, lapAfter_append,
      List.length_append, List.length_singleton, Option.map_some, Nat.add_comm 1]
    cases ys with
    | nil => rfl
    | cons z zs => rfl

/-- **One fix.** -/
theorem pushPoint_stateOf (path : List (PathPoint K)) (cur : PathPoint K) :
    (stateOf M options gate path).pushPoint M options gate cur =
      stateOf M options gate (path ++ [cur]) := by
  rcases List.eq_nil_or_concat' path with rfl | ⟨before, prev, rfl⟩
  · rfl
  · have hprev : (stateOf M options gate (before ++ [prev])).prev = some prev :=
      List.getLast?_concat
    rw [Segmenter.pushPoint, Segmenter.meet, hprev]
    dsimp only
    rw [filter_acceptCrossing]
    have hpassages := @passages_snoc K _ _ gate before prev cur
    rw [passage?] at hpassages
    have hlen : (before ++ [prev]).length - 1 = before.length := by
      rw [List.length_append, List.length_singleton, Nat.add_sub_cancel]
    rw [hlen]
    cases hcrossing : findGateCrossing (toFix prev) (toFix cur) gate none with
    | none =>
      rw [hcrossing, Option.map_none, Option.toList_none, List.append_nil] at hpassages
      rw [Option.filter_none]
      exact (stateOf_append M options gate _ cur (congrArg accepted hpassages)).symm
    | some crossing =>
      rw [hcrossing, Option.map_some, Option.toList_some] at hpassages
      have haccepted := accepted_snoc (passages gate (before ++ [prev]))
        ⟨before.length, prev, cur, crossing⟩
      rw [← hpassages] at haccepted
      rw [Option.filter_some]
      split at haccepted
      · rename_i hadmits
        rw [if_pos hadmits]
        exact (stateOf_cross M options gate _ _ cur (by simp) haccepted).symm
      · rename_i hadmits
        rw [List.append_nil] at haccepted
        rw [if_neg hadmits]
        exact (stateOf_append M options gate _ cur haccepted).symm

/-- **The segmenter's state is what the specification says of the located fixes so far.** -/
theorem foldl_pushPoint (path : List (PathPoint K)) :
    path.foldl (Segmenter.pushPoint M options gate) Segmenter.init =
      stateOf M options gate path := by
  induction path using List.reverseRecOn with
  | nil => rfl
  | append_singleton path cur ih =>
    rw [List.foldl_append, ih]
    exact pushPoint_stateOf M options gate path cur

/-- Samples without a position leave no trace in the segmenter. -/
theorem state_eq (samples : List (AnalysisSample K)) :
    samples.foldl (Segmenter.push M options gate) Segmenter.init =
      stateOf M options gate (samples.filterMap AnalysisSample.point?) := by
  rw [← foldl_pushPoint, List.foldl_filterMap]
  congr 1
  funext st sample
  rw [Segmenter.push]
  cases sample.point? <;> rfl

end State

/-! ### What the laps of the specification are -/

section Laps

variable {K : Type} [Field K] [LinearOrder K] [FloorRing K] (M : MathLib K) (options : Options K)
  (path : List (PathPoint K))

omit [FloorRing K] in
theorem lapAfter_last (x : Passage K) (fixes : List (PathPoint K)) (point : PathPoint K) :
    (lapAfter M x (fixes ++ [point])).last.toPathPoint = point := by
  rw [lapAfter, OpenLap.last, axisFrom_append]
  simp [nextPoint]

theorem lapBetween_points (n : ℕ) (x y : Passage K) :
    (lapBetween M options path n x y).points.map LapPoint.toPathPoint =
      x.anchor :: fixesBetween path x y ++ [y.anchor] := by
  show LapPoint.toPathPoint ⟨x.anchor, 0⟩ ::
    (axisFrom M ⟨x.anchor, 0⟩ (fixesBetween path x y ++ [y.anchor])).map _ = _
  rw [axisFrom_map, List.cons_append]

/-- The rounded instants of two crossings, and the rounded time between them. -/
def instants (x y : Passage K) : ℤ × ℤ × ℤ :=
  (mathRound x.crossing.crossMs, mathRound y.crossing.crossMs,
    mathRound (y.crossing.crossMs - x.crossing.crossMs))

theorem lapBetween_instants (n : ℕ) (x y : Passage K) :
    ((lapBetween M options path n x y).startedAt, (lapBetween M options path n x y).endedAt,
      (lapBetween M options path n x y).lapMs) = instants x y := by
  have hlast := congrArg PathPoint.timeMs (lapAfter_last M x (fixesBetween path x y) y.anchor)
  rw [lapBetween]
  simp only [toLap, hlast]
  rfl

/-- What is read off each lap, read off each consecutive pair of crossings. -/
theorem map_lapsOf {α : Type} (f : DerivedLap K → α) (g : Passage K → Passage K → α)
    (h : ∀ n x y, f (lapBetween M options path n x y) = g x y) (n : ℕ) (xs : List (Passage K)) :
    (lapsOf M options path n xs).map f = List.zipWith g xs xs.tail := by
  induction xs generalizing n with
  | nil => rfl
  | cons x xs ih =>
    cases xs with
    | nil => rfl
    | cons y xs =>
      rw [lapsOf, List.map_cons, h, ih]
      rfl

theorem lapsOf_numbers (n : ℕ) (xs : List (Passage K)) :
    (lapsOf M options path n xs).map DerivedLap.lapNumber = List.range' n (xs.length - 1) := by
  induction xs generalizing n with
  | nil => rfl
  | cons x xs ih =>
    cases xs with
    | nil => rfl
    | cons y xs =>
      rw [lapsOf, List.map_cons, ih]
      rfl

theorem lapsOf_isChain (n : ℕ) (xs : List (Passage K)) :
    (lapsOf M options path n xs).IsChain fun a b => a.endedAt = b.startedAt := by
  induction xs generalizing n with
  | nil => exact .nil
  | cons x xs ih =>
    cases xs with
    | nil => exact .nil
    | cons y xs =>
      cases xs with
      | nil => exact .singleton _
      | cons z xs =>
        have hxy := lapBetween_instants M options path n x y
        have hyz := lapBetween_instants M options path (n + 1) y z
        rw [instants, Prod.mk.injEq, Prod.mk.injEq] at hxy hyz
        exact .cons_cons (hxy.2.1.trans hyz.1.symm) (ih (n + 1))

/-- Every lap lies between two consecutive crossings. -/
theorem mem_lapsOf {R : Passage K → Passage K → Prop} {n : ℕ} {xs : List (Passage K)}
    (hxs : xs.IsChain R) {lap : DerivedLap K} (h : lap ∈ lapsOf M options path n xs) :
    ∃ k, ∃ x ∈ xs, ∃ y ∈ xs, R x y ∧ lap = lapBetween M options path k x y := by
  induction xs generalizing n with
  | nil => cases h
  | cons x xs ih =>
    cases xs with
    | nil => cases h
    | cons y xs =>
      rw [List.isChain_cons_cons] at hxs
      rw [lapsOf] at h
      rcases List.mem_cons.mp h with rfl | h
      · exact ⟨n, x, List.mem_cons_self, y, List.mem_cons_of_mem _ List.mem_cons_self, hxs.1, rfl⟩
      · obtain ⟨k, u, hu, v, hv, huv, rfl⟩ := ih hxs.2 h
        exact ⟨k, u, List.mem_cons_of_mem _ hu, v, List.mem_cons_of_mem _ hv, huv, rfl⟩

end Laps

/-! ### Time order -/

section Order

variable {K : Type} [Field K] [LinearOrder K] [IsStrictOrderedRing K]
  {gate : ProjectedGate K} {path : List (PathPoint K)}

omit [Field K] [IsStrictOrderedRing K] in
/-- Later on the path is no earlier in time. -/
theorem timeMs_le_of_getElem? (hpath : path.Pairwise (·.timeMs ≤ ·.timeMs)) {i j : ℕ}
    {a b : PathPoint K} (ha : path[i]? = some a) (hb : path[j]? = some b) (hij : i ≤ j) :
    a.timeMs ≤ b.timeMs := by
  rcases Nat.eq_or_lt_of_le hij with rfl | hlt
  · rw [ha, Option.some.injEq] at hb
    rw [hb]
  · obtain ⟨hi, rfl⟩ := List.getElem?_eq_some_iff.mp ha
    obtain ⟨hj, rfl⟩ := List.getElem?_eq_some_iff.mp hb
    exact List.pairwise_iff_getElem.mp hpath i j hi hj hlt

omit [Field K] [LinearOrder K] [IsStrictOrderedRing K] in
theorem mem_fixesBetween {x y : Passage K} {p : PathPoint K} :
    p ∈ fixesBetween path x y ↔ ∃ k, x.index < k ∧ k ≤ y.index ∧ path[k]? = some p :=
  Lists.mem_take_drop

/-- A crossing happens within its hop. -/
theorem crossMs_mem_hop {x : Passage K} (hx : x ∈ passages gate path) :
    x.prev.timeMs ≤ x.crossing.crossMs ∧ x.crossing.crossMs ≤ x.cur.timeMs := by
  obtain ⟨hlt, -, ht0, ht1, hcross⟩ := findGateCrossing_between (mem_passages.mp hx).2.2
  rw [toFix, toFix] at hlt hcross
  dsimp only at hlt hcross
  have hspan : 0 ≤ x.cur.timeMs - x.prev.timeMs := sub_nonneg.mpr hlt.le
  have hlo := mul_nonneg ht0 hspan
  have hhi := mul_le_mul_of_nonneg_right ht1 hspan
  rw [hcross]
  constructor <;> linarith

/-- **The fixes between two crossings, by time**: they are no earlier than the one and no later than
the other, and every fix strictly between the two instants is one of them. -/
theorem fixesBetween_times (hpath : path.Pairwise (·.timeMs ≤ ·.timeMs)) {x y : Passage K}
    (hx : x ∈ passages gate path) (hy : y ∈ passages gate path) :
    (∀ p ∈ fixesBetween path x y,
      x.crossing.crossMs ≤ p.timeMs ∧ p.timeMs ≤ y.crossing.crossMs) ∧
    ∀ p ∈ path, x.crossing.crossMs < p.timeMs → p.timeMs < y.crossing.crossMs →
      p ∈ fixesBetween path x y := by
  obtain ⟨hxprev, hxcur, -⟩ := mem_passages.mp hx
  obtain ⟨hyprev, hycur, -⟩ := mem_passages.mp hy
  obtain ⟨hx0, hx1⟩ := crossMs_mem_hop hx
  obtain ⟨hy0, hy1⟩ := crossMs_mem_hop hy
  constructor
  · intro p hp
    obtain ⟨k, hxk, hky, hk⟩ := mem_fixesBetween.mp hp
    exact ⟨hx1.trans (timeMs_le_of_getElem? hpath hxcur hk hxk),
      (timeMs_le_of_getElem? hpath hk hyprev hky).trans hy0⟩
  · intro p hp hxp hpy
    obtain ⟨k, hk⟩ := List.mem_iff_getElem?.mp hp
    refine mem_fixesBetween.mpr ⟨k, ?_, ?_, hk⟩
    · by_contra hle
      have := timeMs_le_of_getElem? hpath hk hxprev (not_lt.mp hle)
      linarith
    · by_contra hle
      have := timeMs_le_of_getElem? hpath hycur hk (not_le.mp hle)
      linarith

omit [Field K] [IsStrictOrderedRing K] in
theorem fixesBetween_pairwise (hpath : path.Pairwise (·.timeMs ≤ ·.timeMs)) (x y : Passage K) :
    (fixesBetween path x y).Pairwise (·.timeMs ≤ ·.timeMs) :=
  (hpath.sublist (List.drop_sublist _ _)).sublist (List.take_sublist _ _)

/-- The points between two crossings are in time order. -/
theorem anchors_pairwise (hpath : path.Pairwise (·.timeMs ≤ ·.timeMs)) {x y : Passage K}
    (hx : x ∈ passages gate path) (hy : y ∈ passages gate path)
    (hxy : x.crossing.crossMs ≤ y.crossing.crossMs) :
    (x.anchor :: fixesBetween path x y ++ [y.anchor]).Pairwise (·.timeMs ≤ ·.timeMs) := by
  have htimes := (fixesBetween_times hpath hx hy).1
  rw [List.cons_append, List.pairwise_cons]
  constructor
  · intro p hp
    rcases List.mem_append.mp hp with hp | hp
    · exact (htimes p hp).1
    · rw [List.mem_singleton.mp hp]
      exact hxy
  · refine Lists.pairwise_concat_iff.mpr ⟨fixesBetween_pairwise hpath x y, fun p hp => ?_⟩
    exact (htimes p hp).2

theorem point?_pairwise {samples : List (AnalysisSample K)}
    (hsamples : samples.Pairwise (·.time ≤ ·.time)) :
    (samples.filterMap AnalysisSample.point?).Pairwise (·.timeMs ≤ ·.timeMs) := by
  rw [List.pairwise_filterMap]
  refine hsamples.imp ?_
  intro a b hab p hp q hq
  rw [timeMs_of_point? hp, timeMs_of_point? hq]
  exact_mod_cast hab

end Order

/-! ### The laps of a session -/

section Result

variable {K : Type} [Field K] [LinearOrder K] [FloorRing K] (M : MathLib K) (options : Options K)

/-- **What the laps of a path have to be**, for the crossings accepted on it. -/
structure LapTable (path : List (PathPoint K)) (chosen : List (Passage K))
    (laps : List (DerivedLap K)) : Prop where
  numbered : laps.map DerivedLap.lapNumber = List.range' 1 (chosen.length - 1)
  timed : laps.map (fun lap => (lap.startedAt, lap.endedAt, lap.lapMs)) =
    List.zipWith instants chosen chosen.tail
  pointed : laps.map (fun lap => lap.points.map LapPoint.toPathPoint) =
    List.zipWith (fun x y => x.anchor :: fixesBetween path x y ++ [y.anchor]) chosen chosen.tail
  fromZero : ∀ lap ∈ laps, lap.points.head?.map (·.distM) = some 0
  shared : laps.IsChain fun a b => a.endedAt = b.startedAt
  lasting : ∀ lap ∈ laps,
    (MIN_LAP_MS : ℤ) ≤ lap.lapMs ∧ |lap.lapMs - (lap.endedAt - lap.startedAt)| ≤ 1
  ordered : ∀ lap ∈ laps, lap.points.Pairwise (·.timeMs ≤ ·.timeMs)

theorem segmentLaps_eq (gate : Gate K) (samples : List (AnalysisSample K)) :
    segmentLaps M options gate samples =
      lapsOf M options (samples.filterMap AnalysisSample.point?) 1
        (accepted (passages (projectGate M gate) (samples.filterMap AnalysisSample.point?))) := by
  rw [segmentLaps, state_eq]
  rfl

theorem lapTable [IsStrictOrderedRing K] (gate : ProjectedGate K) {path : List (PathPoint K)}
    (hpath : path.Pairwise (·.timeMs ≤ ·.timeMs)) :
    LapTable path (accepted (passages gate path))
      (lapsOf M options path 1 (accepted (passages gate path))) where
  numbered := lapsOf_numbers M options path 1 _
  timed := map_lapsOf M options path _ _ (lapBetween_instants M options path) 1 _
  pointed := map_lapsOf M options path _ _ (lapBetween_points M options path) 1 _
  fromZero lap hlap := by
    obtain ⟨k, x, -, y, -, -, rfl⟩ := mem_lapsOf M options path (accepted_isChain _) hlap
    rfl
  shared := lapsOf_isChain M options path 1 _
  lasting lap hlap := by
    obtain ⟨k, x, -, y, -, hxy, rfl⟩ := mem_lapsOf M options path (accepted_isChain _) hlap
    have hinstants := lapBetween_instants M options path k x y
    rw [instants, Prod.mk.injEq, Prod.mk.injEq] at hinstants
    rw [hinstants.1, hinstants.2.1, hinstants.2.2]
    refine ⟨?_, abs_mathRound_sub_le _ _⟩
    have hround := mathRound_mono hxy
    rw [← Int.cast_natCast, mathRound_intCast] at hround
    exact hround
  ordered lap hlap := by
    obtain ⟨k, x, hx, y, hy, hxy, rfl⟩ := mem_lapsOf M options path (accepted_isChain _) hlap
    have hle : x.crossing.crossMs ≤ y.crossing.crossMs := by
      have : (0 : K) ≤ (MIN_LAP_MS : K) := Nat.cast_nonneg _
      linarith
    have hpoints := anchors_pairwise hpath ((accepted_sublist _).subset hx)
      ((accepted_sublist _).subset hy) hle
    rw [← lapBetween_points M options path k x y, List.pairwise_map] at hpoints
    exact hpoints

/-- One more sample never takes a lap away. -/
theorem laps_push (gate : ProjectedGate K) (st : Segmenter K) (sample : AnalysisSample K) :
    st.laps <+: (st.push M options gate sample).laps := by
  rw [Segmenter.push]
  cases sample.point? with
  | none => exact List.prefix_refl _
  | some cur =>
    show st.laps <+: (st.meet M options gate cur).laps
    rw [Segmenter.meet]
    split
    · exact List.prefix_refl _
    · split
      · exact List.prefix_refl _
      · rw [Segmenter.cross, Segmenter.closeLap]
        cases st.points with
        | none => exact List.prefix_refl _
        | some lap => exact List.prefix_append _ _

theorem laps_foldl_push (gate : ProjectedGate K) (st : Segmenter K)
    (samples : List (AnalysisSample K)) :
    st.laps <+: (samples.foldl (Segmenter.push M options gate) st).laps := by
  induction samples generalizing st with
  | nil => exact List.prefix_refl _
  | cons sample samples ih =>
    exact (laps_push M options gate st sample).trans (ih _)

/-- **The laps of the segmenter are the laps of the specification**, and the laps of every prefix of
the samples are a prefix of the laps. -/
theorem segmentLaps_spec [IsStrictOrderedRing K] (gate : Gate K)
    (samples : List (AnalysisSample K)) (hsamples : samples.Pairwise (·.time ≤ ·.time)) :
    segmentLaps M options gate samples =
        lapsOf M options (samples.filterMap AnalysisSample.point?) 1
          (accepted (passages (projectGate M gate) (samples.filterMap AnalysisSample.point?))) ∧
      LapTable (samples.filterMap AnalysisSample.point?)
        (accepted (passages (projectGate M gate) (samples.filterMap AnalysisSample.point?)))
        (segmentLaps M options gate samples) ∧
      (∀ x ∈ passages (projectGate M gate) (samples.filterMap AnalysisSample.point?),
        ∀ y ∈ passages (projectGate M gate) (samples.filterMap AnalysisSample.point?),
          ∀ p ∈ samples.filterMap AnalysisSample.point?,
            x.crossing.crossMs < p.timeMs → p.timeMs < y.crossing.crossMs →
              p ∈ fixesBetween (samples.filterMap AnalysisSample.point?) x y) ∧
      ∀ n, segmentLaps M options gate (samples.take n) <+: segmentLaps M options gate samples := by
  have hpath := point?_pairwise hsamples
  refine ⟨segmentLaps_eq M options gate samples, ?_, ?_, ?_⟩
  · rw [segmentLaps_eq]
    exact lapTable M options _ hpath
  · intro x hx y hy
    exact (fixesBetween_times hpath hx hy).2
  · intro n
    conv_rhs => rw [← List.take_append_drop n samples]
    rw [segmentLaps, segmentLaps, List.foldl_append]
    exact laps_foldl_push M options _ _ _

end Result

/-- The plane with the taxicab distance. -/
def flatMath : MathLib ℚ := ⟨3, fun _ => 1, fun x y => |x| + |y|⟩

/-- A fix `lon` degrees past the line at an instant. -/
def fixAt (time : ℤ) (lon : ℚ) : AnalysisSample ℚ :=
  ⟨time, some 0, some lon, none, none, none, none, none, none⟩

/-- The line on the meridian of Greenwich. -/
def meridianGate : Gate ℚ := ⟨-1 / 10000, 0, 1 / 10000, 0⟩

/-- Two passes over the line, five seconds apart. -/
def twoPasses : List (AnalysisSample ℚ) :=
  [fixAt 0 (-1 / 10000), fixAt 100 (1 / 10000), fixAt 5000 (-1 / 10000), fixAt 5100 (1 / 10000)]

/-- Both passes are accepted, at the middle of their hops. -/
theorem accepted_twoPasses :
    ∃ x y, accepted (passages (projectGate flatMath meridianGate)
        (twoPasses.filterMap AnalysisSample.point?)) = [x, y] ∧
      x.crossing.crossMs = 50 ∧ y.crossing.crossMs = 5050 := by
  have hpath : twoPasses.filterMap AnalysisSample.point? =
      [⟨(0 : ℤ), 0, -1 / 10000, none, none⟩, ⟨(100 : ℤ), 0, 1 / 10000, none, none⟩,
        ⟨(5000 : ℤ), 0, -1 / 10000, none, none⟩, ⟨(5100 : ℤ), 0, 1 / 10000, none, none⟩] := rfl
  rw [hpath]
  simp only [passages, passagesFrom, passage?, findGateCrossing, intersectGate, projectGate,
    flatMath, meridianGate, toFix, isStationary, metersPerDegLon, METERS_PER_DEG_LAT, MAX_FIX_GAP_MS]
  norm_num [abs_of_pos, accepted, acceptFrom, MIN_LAP_MS]
  exact ⟨_, _, ⟨rfl, rfl⟩, rfl, rfl⟩

theorem segmentLaps_spec_twoPasses :
    (segmentLaps flatMath {} meridianGate twoPasses).map DerivedLap.lapNumber = [1] := by
  have h := segmentLaps_spec flatMath {} meridianGate twoPasses (by simp [twoPasses, fixAt])
  obtain ⟨x, y, hchosen, -, -⟩ := accepted_twoPasses
  rw [h.2.1.numbered, hchosen]
  rfl

end TelemetryCloud.LapSegmenter
