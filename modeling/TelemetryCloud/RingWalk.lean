import TelemetryCloud.Components
import TelemetryCloud.OutlineListing
import TelemetryCloud.Trails

/-!
# The walk round a ring

Ways that form one simple ring: they are connected through the nodes at which they end, and at each of
these nodes there are two ends of ways.  A closed way is such a ring by itself, and so are two ways
between the same two nodes.  Its ways may be listed in any order, each in either direction.

* `Walked` : what a walk has done so far, the ways it went along turned to the direction in which it
  did;
* `Walked.extend`, `Walked.walkOn` : one step keeps it, and so does the loop;
* `walk_ring` : **a simple ring is stitched whole**.
-/

namespace TelemetryCloud.RingWalk

open TelemetryCloud.Geometry TelemetryCloud.Lists TelemetryCloud.Trails
open TelemetryCloud.TrackMapBuilder TelemetryCloud.OutlineListing
open TelemetryCloud.Components (EndsAt Shares)
open SectorGates

/-! ### Rings -/

section Rings

variable {K : Type}

/-- Ways that form one simple ring, each node having one position. -/
structure IsSimpleRing (position : ℕ → LatLon K) (ways : List (Way K)) : Prop where
  ids : (ways.map Way.id).Nodup
  placed : ∀ way ∈ ways, way.points = way.nodeIds.map position
  connected : ∀ v ∈ ways, ∀ w ∈ ways, Relation.ReflTransGen (Shares ways) v w
  twoEnds : ∀ way ∈ ways, ∀ node, EndsAt way node → ((wayEnds ways).map Prod.fst).count node = 2

/-- The ends of a way as those of an edge between nodes. -/
def endNodes (way : Way K) : ℕ × ℕ := (way.start, way.finish)

/-- The second is the first in one of its directions. -/
def IsTurned (way turned : Way K) : Prop := turned = way ∨ turned = reversed way

theorem IsTurned.alike {way turned : Way K} (h : IsTurned way turned) :
    Alike endNodes way turned := by
  rcases h with rfl | rfl
  · exact Or.inl rfl
  · refine Or.inr ?_
    unfold endNodes
    rw [reversed_start, reversed_finish]
    rfl

/-- The degree of a node is the number of way-ends there. -/
theorem degree_eq_count (ways : List (Way K)) (node : ℕ) :
    degree endNodes ways node = ((wayEnds ways).map Prod.fst).count node := by
  unfold degree wayEnds
  rw [List.map_flatMap]
  rfl

end Rings

/-! ### The loop -/

section Loop

variable {K : Type} {ways : List (Way K)} {walk : Walk K} {node : ℕ} {run : List (Way K)}

/-- What a walk from a node has done: no way was used twice, each was walked from the node where the
one before it ends, and the node they share stands in the points once. -/
structure Walked (ways : List (Way K)) (walk : Walk K) (node : ℕ) (run : List (Way K)) : Prop where
  used : ∀ id, id ∈ walk.used ↔ id ∈ walk.ways.map Way.id
  nodup : (walk.ways.map Way.id).Nodup
  listed : walk.ways ⊆ ways
  turned : List.Forall₂ IsTurned walk.ways run
  trail : Trail endNodes node run walk.tailNode
  points : walk.points = runPoints run

theorem runPoints_concat (hne : run ≠ []) (way : Way K) :
    runPoints (run ++ [way]) = runPoints run ++ way.points.tail := by
  cases run with
  | nil => exact absurd rfl hne
  | cons first rest =>
    rw [List.cons_append, runPoints, runPoints, List.flatMap_append, List.flatMap_singleton,
      List.append_assoc]

theorem walked_start {first : Way K} (hfirst : first ∈ ways) :
    Walked ways (.start first) first.start [first] where
  used := fun _ => Iff.rfl
  nodup := List.nodup_singleton _
  listed := List.cons_subset.mpr ⟨hfirst, List.nil_subset _⟩
  turned := .cons (Or.inl rfl) .nil
  trail := .single first
  points := (runPoints_single first).symm

/-- The next way, turned to the direction in which it is walked. -/
theorem exists_turned {next : Way K} (hends : EndsAt next walk.tailNode) :
    ∃ turned, IsTurned next turned ∧ turned.start = walk.tailNode ∧
      (walk.extend next).points = walk.points ++ turned.points.tail ∧
      (walk.extend next).tailNode = turned.finish := by
  have hextend : (walk.extend next).points = walk.points ++
      (if next.start = walk.tailNode then next.points else next.points.reverse).tail := rfl
  by_cases hforward : next.start = walk.tailNode
  · rw [if_pos hforward] at hextend
    exact ⟨next, Or.inl rfl, hforward, hextend, if_pos hforward⟩
  · rw [if_neg hforward] at hextend
    refine ⟨reversed next, Or.inr rfl, ?_, hextend, ?_⟩
    · rw [reversed_start]
      exact hends.resolve_left hforward
    · rw [reversed_finish]
      exact if_neg hforward

/-- **One step**: the next way goes on from where the walk has come. -/
theorem Walked.extend (h : Walked ways walk node run) {next : Way K} (hnext : next ∈ ways)
    (hfree : next.id ∉ walk.used) (hends : EndsAt next walk.tailNode) :
    ∃ run', Walked ways (walk.extend next) node run' := by
  obtain ⟨turned, hturned, hstart, hpoints, htail⟩ := exists_turned hends
  obtain ⟨first, rest, hrun, -⟩ := h.trail.exists_cons
  have hids : (walk.extend next).ways.map Way.id = walk.ways.map Way.id ++ [next.id] :=
    List.map_append
  refine ⟨run ++ [turned], ?_, ?_, ?_, ?_, ?_, ?_⟩
  · intro id
    rw [hids, List.mem_append, List.mem_singleton, ← h.used id, or_comm]
    exact List.mem_cons
  · rw [hids]
    refine Lists.pairwise_concat_iff.mpr ⟨h.nodup, fun id hid hsame => ?_⟩
    exact hfree ((h.used _).mpr (hsame ▸ hid))
  · exact List.append_subset.mpr ⟨h.listed, List.cons_subset.mpr ⟨hnext, List.nil_subset _⟩⟩
  · exact List.rel_append h.turned (.cons hturned .nil)
  · rw [htail]
    have htrail := h.trail
    rw [← hstart] at htrail
    exact .snoc htrail
  · rw [hpoints, h.points, runPoints_concat (hrun ▸ List.cons_ne_nil _ _)]

/-- **The loop** keeps what every step keeps. -/
theorem Walked.walkOn (hids : (ways.map Way.id).Nodup) (fuel : ℕ)
    (h : Walked ways walk node run) :
    ∃ run', Walked ways (walkOn ways fuel walk) node run' := by
  induction fuel generalizing walk run with
  | zero => exact ⟨run, h⟩
  | succ fuel ih =>
    unfold TrackMapBuilder.walkOn
    cases hcand : candidates (endpointIndex ways) walk with
    | nil => exact ⟨run, h⟩
    | cons id others =>
      have hid : id ∈ candidates (endpointIndex ways) walk := by
        rw [hcand]
        exact List.mem_cons_self
      obtain ⟨next, hnext, hbyId, hnextId⟩ := exists_byId hid
      obtain ⟨⟨way, hway, hwayId, hends⟩, hfree⟩ := mem_candidates.mp hid
      obtain rfl : way = next :=
        List.inj_on_of_nodup_map hids hway hnext (hwayId.trans hnextId.symm)
      obtain ⟨run', h'⟩ := h.extend hway (hwayId ▸ hfree) hends
      simp only [hbyId]
      exact ih h'

end Loop

/-! ### The points of a walk -/

section Points

variable {K : Type} {position : ℕ → LatLon K} {run : List (Way K)} {a b : ℕ}

theorem head?_trail (h : Trail endNodes a run b)
    (hplaced : ∀ way ∈ run, way.points = way.nodeIds.map position) :
    (runPoints run).head? = some (position a) := by
  obtain ⟨first, rest, rfl, rfl⟩ := h.exists_cons
  rw [head?_runPoints, head?_points (hplaced first List.mem_cons_self)]
  rfl

theorem getLast?_trail (h : Trail endNodes a run b)
    (hplaced : ∀ way ∈ run, way.points = way.nodeIds.map position) :
    (runPoints run).getLast? = some (position b) := by
  obtain ⟨init, last, rfl, rfl⟩ := h.exists_concat
  rw [getLast?_runPoints,
    getLast?_points (hplaced last (List.mem_append_right init List.mem_cons_self))]
  rfl

/-- Every way but the first leaves out the point at which it begins. -/
theorem length_runPoints (run : List (Way K)) :
    (runPoints run).length + (run.length - 1) = (run.map fun way => way.points.length).sum := by
  have hrest : ∀ rest : List (Way K), (rest.flatMap fun way => way.points.tail).length + rest.length
      = (rest.map fun way => way.points.length).sum := by
    intro rest
    induction rest with
    | nil => rfl
    | cons way rest ih =>
      obtain ⟨p, q, points, hpoints⟩ := exists_points way
      rw [List.flatMap_cons, List.map_cons, List.sum_cons, ← ih, List.length_append, hpoints]
      simp only [List.tail_cons, List.length_cons]
      omega
  cases run with
  | nil => rfl
  | cons first rest =>
    rw [runPoints, List.length_append, List.map_cons, List.sum_cons, ← hrest rest, List.length_cons,
      Nat.add_sub_cancel, Nat.add_assoc]

theorem lengths_turned {walked : List (Way K)} (h : List.Forall₂ IsTurned walked run) :
    (walked.map fun way => way.points.length) = run.map fun way => way.points.length := by
  induction h with
  | nil => rfl
  | @cons way turned walked run hturned _ ih =>
    rw [List.map_cons, List.map_cons, ih]
    rcases hturned with rfl | rfl
    · rfl
    · rw [reversed_points, List.length_reverse]

variable [Field K] [LinearOrder K] (M : MathLib K)

/-- **The length of a trail** is that of its ways, in exact arithmetic. -/
theorem polylineLengthM_trail (h : Trail endNodes a run b)
    (hplaced : ∀ way ∈ run, way.points = way.nodeIds.map position) :
    polylineLengthM M (.exact K) (runPoints run) = groupLengthM M (.exact K) run := by
  induction h with
  | single way =>
    rw [runPoints_single]
    exact (zero_add _).symm
  | @snoc a run way h ih =>
    have hrun : ∀ v ∈ run, v.points = v.nodeIds.map position := fun v hv =>
      hplaced v (List.mem_append_left [way] hv)
    have hway := hplaced way (List.mem_append_right run List.mem_cons_self)
    obtain ⟨first, rest, hcons, -⟩ := h.exists_cons
    rw [runPoints_concat (hcons ▸ List.cons_ne_nil _ _),
      polylineLengthM_join M (getLast?_trail h hrun) (head?_points hway), ih hrun]
    unfold groupLengthM
    rw [List.map_append, List.map_singleton, Rounding.sum_concat, Rounding.exact_add]

/-- Turned ways have the lengths of the others. -/
theorem groupLengthM_turned (hsymm : ∀ x y, M.hypot (-x) (-y) = M.hypot x y) {walked : List (Way K)}
    (h : List.Forall₂ IsTurned walked run) :
    groupLengthM M (.exact K) walked = groupLengthM M (.exact K) run := by
  unfold groupLengthM
  rw [Rounding.sum_exact, Rounding.sum_exact]
  induction h with
  | nil => rfl
  | @cons way turned walked run hturned _ ih =>
    rw [List.map_cons, List.map_cons, List.sum_cons, List.sum_cons, ih]
    rcases hturned with rfl | rfl
    · rfl
    · rw [reversed_points, polylineLengthM_reverse M hsymm]

/-- The length of ways does not depend on their order, in exact arithmetic. -/
theorem groupLengthM_perm {ways ways' : List (Way K)} (h : ways.Perm ways') :
    groupLengthM M (.exact K) ways = groupLengthM M (.exact K) ways' := by
  unfold groupLengthM
  rw [Rounding.sum_exact, Rounding.sum_exact]
  exact (h.map _).sum_eq

end Points

/-! ### The ring -/

section Ring

variable {K : Type} {position : ℕ → LatLon K} {ways : List (Way K)}

theorem placed_turned {walked run : List (Way K)} (h : List.Forall₂ IsTurned walked run)
    (hplaced : ∀ way ∈ walked, way.points = way.nodeIds.map position) :
    ∀ way ∈ run, way.points = way.nodeIds.map position := by
  induction h with
  | nil => exact fun way hway => absurd hway List.not_mem_nil
  | @cons way turned walked run hturned _ ih =>
    refine List.forall_mem_cons.mpr ⟨?_, ih fun v hv => hplaced v (List.mem_cons_of_mem _ hv)⟩
    have hway := hplaced way List.mem_cons_self
    rcases hturned with rfl | rfl
    · exact hway
    · exact (congrArg List.reverse hway).trans List.map_reverse.symm

/-- Where no unused way goes on from, no way that is left over ends. -/
theorem Walked.stuck {walk : Walk K} {node : ℕ} {run rest : List (Way K)}
    (h : Walked ways walk node run) (hids : (ways.map Way.id).Nodup)
    (hdone : candidates (endpointIndex ways) walk = [])
    (hperm : (walk.ways ++ rest).Perm ways) : ∀ way ∈ rest, ¬ EndsAt way walk.tailNode := by
  intro way hway hends
  have hfree : way.id ∉ walk.used := by
    intro hused
    have hnodup : ((walk.ways ++ rest).map Way.id).Nodup := (hperm.map Way.id).nodup_iff.mpr hids
    rw [List.map_append] at hnodup
    exact (List.nodup_append.mp hnodup).2.2 _ ((h.used _).mp hused) _ (List.mem_map_of_mem hway) rfl
  have hcand : way.id ∈ candidates (endpointIndex ways) walk :=
    mem_candidates.mpr ⟨⟨way, hperm.subset (List.mem_append_right _ hway), rfl, hends⟩, hfree⟩
  rw [hdone] at hcand
  cases hcand

/-- **A walk that has ended on a ring** went along every way and is back at the node of its start. -/
theorem IsSimpleRing.walked {walk : Walk K} {node : ℕ} {run : List (Way K)}
    (h : IsSimpleRing position ways) (hwalked : Walked ways walk node run)
    (hdone : candidates (endpointIndex ways) walk = []) :
    node = walk.tailNode ∧ walk.ways.Perm ways := by
  obtain ⟨rest, hrest⟩ : ∃ rest, (walk.ways ++ rest).Perm ways := by
    obtain ⟨sub, hsub, hsublist⟩ :=
      List.subperm_of_subset (List.Nodup.of_map Way.id hwalked.nodup) hwalked.listed
    obtain ⟨rest, hperm⟩ := hsublist.exists_perm_append
    exact ⟨rest, (hsub.symm.append_right rest).trans hperm.symm⟩
  have halike : List.Forall₂ (Alike endNodes) walk.ways run :=
    hwalked.turned.imp fun _ _ => IsTurned.alike
  obtain ⟨hclosed, rfl⟩ := hwalked.trail.whole hrest halike
    (fun way hway v hv => (degree_eq_count ways v).trans (h.twoEnds way hway v hv))
    h.connected (hwalked.stuck h.ids hdone hrest)
  rw [List.append_nil] at hrest
  exact ⟨hclosed, hrest⟩

variable [Field K] [LinearOrder K] (M : MathLib K)

/-- **A simple ring is stitched whole.** The walk goes along every way once, from each to one with
which it shares an endpoint node; turned to the direction in which they are walked, the ways lead back
to the node of the start, and the points are theirs, with none doubled where two of them join; the
first point is the last; and the length is that of the ways, in exact arithmetic. -/
theorem walk_ring (hsymm : ∀ x y, M.hypot (-x) (-y) = M.hypot x y) (h : IsSimpleRing position ways) :
    (walk ways).2.Perm ways ∧
    ((walk ways).2.IsChain fun v w => ∃ node, EndsAt v node ∧ EndsAt w node) ∧
    (∃ run, List.Forall₂ IsTurned (walk ways).2 run ∧
      (run.IsChain fun v w => v.finish = w.start) ∧
      (∀ first ∈ run.head?, ∀ last ∈ run.getLast?, last.finish = first.start) ∧
      (walk ways).1 = runPoints run) ∧
    (walk ways).1.head? = (walk ways).1.getLast? ∧
    (walk ways).1.length + (ways.length - 1) = (ways.map fun way => way.points.length).sum ∧
    polylineLengthM M (.exact K) (walk ways).1 = groupLengthM M (.exact K) ways := by
  cases ways with
  | nil =>
    exact ⟨.refl _, List.isChain_nil, ⟨[], .nil, List.isChain_nil, nofun, rfl⟩, rfl, rfl, rfl⟩
  | cons first rest =>
    have hstart : Walked (first :: rest) (.start first) first.start [first] :=
      walked_start List.mem_cons_self
    obtain ⟨run, hwalked⟩ := hstart.walkOn h.ids (first :: rest).length
    obtain ⟨hclosed, hperm⟩ := h.walked hwalked (walk_complete first rest)
    have hpoints : (walk (first :: rest)).1 = runPoints run := hwalked.points
    have hways : (walk (first :: rest)).2.Perm (first :: rest) := hperm
    have hturned : List.Forall₂ IsTurned (walk (first :: rest)).2 run := hwalked.turned
    have htrail := hwalked.trail
    rw [← hclosed] at htrail
    have hplaced := placed_turned hturned fun way hway => h.placed way (hways.subset hway)
    refine ⟨hways, ?_, ⟨run, hturned, htrail.isChain, ?_, hpoints⟩, ?_, ?_, ?_⟩
    · exact isChain_alike (hturned.imp fun _ _ => IsTurned.alike) htrail.isChain
    · intro v hv w hw
      obtain ⟨v', tail, hcons, hstart⟩ := htrail.exists_cons
      obtain ⟨init, w', hconcat, hfinish⟩ := htrail.exists_concat
      rw [hcons] at hv
      rw [hconcat, List.getLast?_concat] at hw
      cases hv
      cases hw
      exact hfinish.trans hstart.symm
    · rw [hpoints, head?_trail htrail hplaced, getLast?_trail htrail hplaced]
    · have hcount : run.length = (first :: rest).length :=
        hturned.length_eq.symm.trans hways.length_eq
      rw [hpoints, ← hcount, length_runPoints, ← lengths_turned hturned]
      exact (hways.map _).sum_eq
    · rw [hpoints, polylineLengthM_trail M htrail hplaced, ← groupLengthM_turned M hsymm hturned]
      exact groupLengthM_perm M hways

end Ring

section Example

def corner (node : ℕ) : LatLon ℚ := ⟨node / 1000, node * node / 10000⟩

def side (id : ℕ) (nodeIds : List ℕ) (two_nodes : 2 ≤ nodeIds.length) : Way ℚ where
  id := id
  nodeIds := nodeIds
  points := nodeIds.map corner
  tags := []
  two_nodes := two_nodes
  paired := List.length_map corner

/-- Two ways between the same two nodes, and both from the one to the other. -/
def lens : List (Way ℚ) := [side 1 [10, 11] (by decide), side 2 [10, 12, 11] (by decide)]

theorem isSimpleRing_lens : IsSimpleRing corner lens where
  ids := by decide +kernel
  placed := List.forall_mem_cons.mpr ⟨rfl, List.forall_mem_singleton.mpr rfl⟩
  connected := by
    have hstart : ∀ way ∈ lens, EndsAt way 10 :=
      List.forall_mem_cons.mpr ⟨Or.inl rfl, List.forall_mem_singleton.mpr (Or.inl rfl)⟩
    exact fun v hv w hw => .single ⟨hv, hw, 10, hstart v hv, hstart w hw⟩
  twoEnds := by
    have hends : ∀ node, (10 = node ∨ 11 = node) →
        ((wayEnds lens).map Prod.fst).count node = 2 := by
      rintro _ (rfl | rfl) <;> decide +kernel
    exact List.forall_mem_cons.mpr ⟨hends, List.forall_mem_singleton.mpr hends⟩

/-- The second way is walked backwards. -/
theorem walk_ring_lens :
    (walk lens).1 = [10, 11, 12, 10].map corner ∧
      polylineLengthM LapSegmenter.flatMath (.exact ℚ) (walk lens).1
        = groupLengthM LapSegmenter.flatMath (.exact ℚ) lens := by
  obtain ⟨-, -, -, -, -, hlength⟩ :=
    walk_ring LapSegmenter.flatMath flatMath_neg isSimpleRing_lens
  exact ⟨rfl, hlength⟩

end Example

end TelemetryCloud.RingWalk
