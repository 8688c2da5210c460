import TelemetryCloud.TrackMapBuilder

/-!
# The outline of a nearly closed circuit

The usable ways of a response may form one chain, from a loose end to a loose end at most
`MAX_CLOSURE_GAP_M` away.  A *listing* of the chain has its ways in any order and each in either
direction.  The walk starts with the way that is listed first, in the direction in which it is listed,
and goes on to a loose end: a *run* of the chain.

* `NearlyClosed`, `ListedAs`, `IsRun` : such a chain, its listings, and the ways from some way on;
* `walk_listed` : the points of the walk are those of a run, and every run is that of some listing;
* `sameOutline_iff` : **for which chains the outline is the same for every listing**.  None of two ways
  or more is among them that is ever built: a run of its first way alone and one of its last way alone
  would both have the length of the whole.

A length is a running sum of doubles, which need not be the same from the other end.
-/

namespace TelemetryCloud.OutlineListing

open TelemetryCloud.Geometry TelemetryCloud.Lists TelemetryCloud.UnionFind
open TelemetryCloud.TrackMapBuilder
open SectorGates TrackMapService
open LapSegmenter (flatMath)

/-! ### Directions -/

section Directions

variable {K : Type}

/-- The way in the other direction. -/
def reversed (way : Way K) : Way K where
  id := way.id
  nodeIds := way.nodeIds.reverse
  points := way.points.reverse
  tags := way.tags
  two_nodes := by
    rw [List.length_reverse]
    exact way.two_nodes
  paired := by
    rw [List.length_reverse, List.length_reverse]
    exact way.paired

def turn (way : Way K) (turned : Bool) : Way K := if turned then reversed way else way

@[simp] theorem reversed_id (way : Way K) : (reversed way).id = way.id := rfl

@[simp] theorem reversed_points (way : Way K) : (reversed way).points = way.points.reverse := rfl

@[simp] theorem reversed_start (way : Way K) : (reversed way).start = way.finish :=
  List.head_reverse _

@[simp] theorem reversed_finish (way : Way K) : (reversed way).finish = way.start :=
  List.getLast_reverse _

@[simp] theorem reversed_reversed (way : Way K) : reversed (reversed way) = way :=
  Way.ext rfl (List.reverse_reverse _) (List.reverse_reverse _) rfl

@[simp] theorem turn_id (way : Way K) (turned : Bool) : (turn way turned).id = way.id := by
  cases turned <;> rfl

theorem turn_reversed (way : Way K) (turned : Bool) :
    turn (reversed way) turned = turn way (!turned) := by
  cases turned
  · rfl
  · exact reversed_reversed way

/-- A way has its ends where it has them in either direction. -/
theorem turn_touches (way : Way K) (turned : Bool) (node : ℕ) :
    ((turn way turned).start = node ∨ (turn way turned).finish = node) ↔
      (way.start = node ∨ way.finish = node) := by
  cases turned
  · exact Iff.rfl
  · show (reversed way).start = node ∨ (reversed way).finish = node ↔ _
    rw [reversed_start, reversed_finish]
    exact or_comm

theorem usableWay_reversed {e : OverpassWay K} {way : Way K} (h : usableWay e = some way) :
    usableWay { e with nodes := e.nodes.reverse, geometry := e.geometry.reverse }
      = some (reversed way) := by
  obtain ⟨htags, hid, hnodes, hpoints, hwayTags⟩ := usableWay_eq_some_iff.mp h
  exact usableWay_eq_some_iff.mpr ⟨htags, hid, congrArg List.reverse hnodes,
    congrArg List.reverse hpoints, hwayTags⟩

end Directions

/-! ### Chains and their listings -/

section Chains

variable {K : Type}

/-- The nodes at which the ways of a chain end. -/
def stops : List (Way K) → List ℕ
  | [] => []
  | first :: rest => first.start :: (first :: rest).map Way.finish

/-- Usable ways that form one simple chain, each node having one position: every way ends where the
next begins, and there is no other node at which two ends meet. -/
structure IsSimpleChain (position : ℕ → LatLon K) (chain : List (Way K)) : Prop where
  ne_nil : chain ≠ []
  usable : ∀ way ∈ chain, ∃ e, usableWay e = some way
  placed : ∀ way ∈ chain, way.points = way.nodeIds.map position
  ids : (chain.map Way.id).Nodup
  linked : chain.IsChain fun v w => v.finish = w.start
  stops : (stops chain).Nodup

/-- The ways of the chain in some order, each in some direction. -/
def ListedAs (chain ways : List (Way K)) : Prop :=
  ∃ turned : ℕ → Bool, ways.Perm (chain.map fun way => turn way (turned way.id))

/-- The chain from its other end. -/
def flipped (chain : List (Way K)) : List (Way K) := chain.reverse.map reversed

/-- The ways from some way on to a loose end. -/
def IsRun (chain run : List (Way K)) : Prop := run ≠ [] ∧ (run <:+ chain ∨ run <:+ flipped chain)

theorem flipped_flipped (chain : List (Way K)) : flipped (flipped chain) = chain := by
  unfold flipped
  rw [← List.map_reverse, List.reverse_reverse, List.map_map]
  exact (List.map_congr_left fun way _ => reversed_reversed way).trans (List.map_id chain)

theorem mem_flipped {chain : List (Way K)} {way : Way K} :
    way ∈ flipped chain ↔ ∃ w ∈ chain, reversed w = way := by
  unfold flipped
  rw [List.mem_map]
  exact exists_congr fun w => and_congr_left' List.mem_reverse

theorem listedAs_flipped {chain ways : List (Way K)} (h : ListedAs chain ways) :
    ListedAs (flipped chain) ways := by
  obtain ⟨turned, hperm⟩ := h
  refine ⟨fun id => !turned id, hperm.trans ?_⟩
  unfold flipped
  rw [List.map_map, List.map_reverse]
  refine ((List.reverse_perm _).trans (List.Perm.of_eq ?_)).symm
  refine List.map_congr_left fun way _ => ?_
  show turn (reversed way) (!turned way.id) = _
  rw [turn_reversed, Bool.not_not]

theorem flipped_concat (init : List (Way K)) (last : Way K) :
    flipped (init ++ [last]) = reversed last :: flipped init := by
  unfold flipped
  rw [List.reverse_append, List.reverse_singleton, List.singleton_append, List.map_cons]

/-- The stops are also where the ways begin, and where the last one ends. -/
theorem stops_concat {init : List (Way K)} {last : Way K}
    (h : (init ++ [last]).IsChain fun v w => v.finish = w.start) :
    stops (init ++ [last]) = (init ++ [last]).map Way.start ++ [last.finish] := by
  induction init with
  | nil => rfl
  | cons v init ih =>
    cases init with
    | nil =>
      have hv : v.finish = last.start := (List.isChain_cons_cons.mp h).1
      show [v.start, v.finish, last.finish] = [v.start, last.start, last.finish]
      rw [hv]
    | cons w init =>
      obtain ⟨hv, htail⟩ := List.isChain_cons_cons.mp h
      calc stops (v :: w :: init ++ [last])
          = v.start :: v.finish :: (w :: init ++ [last]).map Way.finish := rfl
        _ = v.start :: stops (w :: init ++ [last]) := by
          rw [hv]
          rfl
        _ = _ := by
          rw [ih htail]
          rfl

/-- The stops of a chain from its other end. -/
theorem stops_flipped {chain : List (Way K)}
    (h : chain.IsChain fun v w => v.finish = w.start) :
    stops (flipped chain) = (stops chain).reverse := by
  rcases List.eq_nil_or_concat chain with rfl | ⟨init, last, rfl⟩
  · rfl
  · rw [List.concat_eq_append] at h ⊢
    have hfinish : (flipped (init ++ [last])).map Way.finish
        = ((init ++ [last]).map Way.start).reverse := by
      unfold flipped
      rw [List.map_map, ← List.map_reverse]
      exact List.map_congr_left fun way _ => reversed_finish way
    rw [stops_concat h, List.reverse_append, ← hfinish, flipped_concat]
    show (reversed last).start :: _ = _
    rw [reversed_start]
    rfl

namespace IsSimpleChain

variable {position : ℕ → LatLon K} {chain : List (Way K)}

/-- Read from its other end, a simple chain is one again. -/
theorem flipped (h : IsSimpleChain position chain) : IsSimpleChain position (flipped chain) where
  ne_nil := by
    intro hnil
    exact h.ne_nil (List.reverse_eq_nil_iff.mp (List.map_eq_nil_iff.mp hnil))
  usable := by
    intro way hway
    obtain ⟨w, hw, rfl⟩ := mem_flipped.mp hway
    obtain ⟨e, he⟩ := h.usable w hw
    exact ⟨_, usableWay_reversed he⟩
  placed := by
    intro way hway
    obtain ⟨w, hw, rfl⟩ := mem_flipped.mp hway
    exact (congrArg List.reverse (h.placed w hw)).trans List.map_reverse.symm
  ids := by
    have hids : (OutlineListing.flipped chain).map Way.id = (chain.map Way.id).reverse := by
      unfold OutlineListing.flipped
      rw [List.map_map, ← List.map_reverse]
      rfl
    rw [hids]
    exact List.nodup_reverse.mpr h.ids
  linked := by
    refine (List.isChain_map reversed).mpr (List.isChain_reverse.mpr ?_)
    refine h.linked.imp fun v w hvw => ?_
    show (reversed w).finish = (reversed v).start
    rw [reversed_finish, reversed_start, hvw]
  stops := by
    rw [stops_flipped h.linked]
    exact List.nodup_reverse.mpr h.stops

theorem eq_of_finish_eq (h : IsSimpleChain position chain) {v w : Way K} (hv : v ∈ chain)
    (hw : w ∈ chain) (hfinish : v.finish = w.finish) : v = w := by
  have hnodup : (chain.map Way.finish).Nodup := by
    cases chain with
    | nil => exact List.nodup_nil
    | cons first rest => exact (List.nodup_cons.mp h.stops).2
  exact List.inj_on_of_nodup_map hnodup hv hw hfinish

/-- Where a way ends only the way after it begins. -/
theorem head?_eq_of_start_eq (h : IsSimpleChain position chain) {pre post : List (Way K)}
    {v w : Way K} (hchain : chain = pre ++ v :: post) (hw : w ∈ chain)
    (hstart : w.start = v.finish) : post.head? = some w := by
  obtain ⟨init, last, hconcat⟩ := (List.eq_nil_or_concat chain).resolve_left h.ne_nil
  rw [List.concat_eq_append] at hconcat
  have hlinked := h.linked
  have hstops := h.stops
  rw [hconcat] at hlinked hstops
  rw [stops_concat hlinked, ← hconcat] at hstops
  cases post with
  | nil =>
    -- the last way ends at a loose end
    have hlast : v = last := by
      have := hchain.symm.trans hconcat
      exact (List.append_inj' this rfl).2 |> List.singleton_inj.mp
    subst hlast
    have hnot := (List.nodup_append.mp hstops).2.2
    exact absurd hstart (hnot w.start (List.mem_map_of_mem hw) v.finish List.mem_cons_self)
  | cons u rest =>
    have hu : v.finish = u.start := by
      have hlinked := h.linked
      rw [hchain] at hlinked
      exact (List.isChain_cons_cons.mp hlinked.right_of_append).1
    have humem : u ∈ chain := by
      rw [hchain]
      exact List.mem_append_right _ (List.mem_cons_of_mem _ List.mem_cons_self)
    have hwu : w = u := List.inj_on_of_nodup_map (List.nodup_append.mp hstops).1 hw humem
      (hstart.trans hu)
    rw [hwu]
    rfl

/-- **The ways with an end where a way ends** are that way and the one after it. -/
theorem touches_finish (h : IsSimpleChain position chain) {pre post : List (Way K)} {v w : Way K}
    (hchain : chain = pre ++ v :: post) (hw : w ∈ chain)
    (htouch : w.start = v.finish ∨ w.finish = v.finish) : w = v ∨ post.head? = some w := by
  rcases htouch with hstart | hfinish
  · exact Or.inr (h.head?_eq_of_start_eq hchain hw hstart)
  · refine Or.inl (h.eq_of_finish_eq hw ?_ hfinish)
    rw [hchain]
    exact List.mem_append_right _ List.mem_cons_self

end IsSimpleChain

theorem isRun_whole {position : ℕ → LatLon K} {chain : List (Way K)}
    (h : IsSimpleChain position chain) : IsRun chain chain :=
  ⟨h.ne_nil, Or.inl (List.suffix_refl chain)⟩

theorem isRun_single {way : Way K} {run : List (Way K)} (hrun : IsRun [way] run) :
    ∃ turned, run = [turn way turned] := by
  obtain ⟨hne, hsuffix | hsuffix⟩ := hrun
  · refine ⟨false, ?_⟩
    exact (List.suffix_cons_iff.mp hsuffix).resolve_right fun h => hne (List.suffix_nil.mp h)
  · refine ⟨true, ?_⟩
    exact (List.suffix_cons_iff.mp hsuffix).resolve_right fun h => hne (List.suffix_nil.mp h)

theorem isRun_turn (way : Way K) (turned : Bool) : IsRun [way] [turn way turned] := by
  refine ⟨List.cons_ne_nil _ _, ?_⟩
  cases turned
  · exact Or.inl (List.suffix_refl _)
  · exact Or.inr (List.suffix_refl _)

end Chains

/-! ### The walk along a listing -/

section Walking

variable {K : Type} {position : ℕ → LatLon K} {chain ways : List (Way K)}

theorem mem_listing {turned : ℕ → Bool}
    (hperm : ways.Perm (chain.map fun way => turn way (turned way.id))) {way : Way K} :
    way ∈ ways ↔ ∃ w ∈ chain, turn w (turned w.id) = way :=
  hperm.mem_iff.trans List.mem_map

/-- The ids of the ways of a listing that meet at a node. -/
theorem mem_index_listing {turned : ℕ → Bool}
    (hperm : ways.Perm (chain.map fun way => turn way (turned way.id))) {node id : ℕ} :
    (∃ way ∈ ways, way.id = id ∧ (way.start = node ∨ way.finish = node)) ↔
      ∃ w ∈ chain, w.id = id ∧ (w.start = node ∨ w.finish = node) := by
  constructor
  · rintro ⟨way, hway, hid, htouch⟩
    obtain ⟨w, hw, rfl⟩ := (mem_listing hperm).mp hway
    exact ⟨w, hw, (turn_id w _).symm.trans hid, (turn_touches w _ node).mp htouch⟩
  · rintro ⟨w, hw, hid, htouch⟩
    exact ⟨_, (mem_listing hperm).mpr ⟨w, hw, rfl⟩, (turn_id w _).trans hid,
      (turn_touches w _ node).mpr htouch⟩

/-- The ways of a listing are all joined. -/
theorem joined_listing (h : IsSimpleChain position chain) (hlisted : ListedAs chain ways) :
    ∀ v ∈ ways, ∀ w ∈ ways, (joined ways).root v.id = (joined ways).root w.id := by
  obtain ⟨turned, hperm⟩ := hlisted
  have hnext : ∀ v w, v ∈ chain → w ∈ chain → v.finish = w.start →
      (joined ways).root v.id = (joined ways).root w.id := by
    intro v w hv hw hlink
    refine (root_joined_iff ways v.id w.id).mpr (.rel _ _ ⟨v.finish, ?_, ?_⟩)
    · exact mem_endpointIndex.mpr ((mem_index_listing hperm).mpr ⟨v, hv, rfl, Or.inr rfl⟩)
    · exact mem_endpointIndex.mpr ((mem_index_listing hperm).mpr ⟨w, hw, rfl, Or.inl hlink.symm⟩)
  have hroots : (chain.map fun way => (joined ways).root way.id).Pairwise (· = ·) := by
    rw [← List.isChain_iff_pairwise, List.isChain_map]
    exact h.linked.imp_of_mem_imp hnext
  intro v hv w hw
  obtain ⟨v', hv', rfl⟩ := (mem_listing hperm).mp hv
  obtain ⟨w', hw', rfl⟩ := (mem_listing hperm).mp hw
  rw [turn_id, turn_id]
  exact hroots.forall_of_forall (fun _ _ => rfl) (List.mem_map_of_mem hv')
    (List.mem_map_of_mem hw')

/-- The points of consecutive ways, the node they share once. -/
def runPoints : List (Way K) → List (LatLon K)
  | [] => []
  | first :: rest => first.points ++ rest.flatMap fun way => way.points.tail

/-- The walk goes on along the next way of the chain, whichever way it is listed. -/
theorem extend_turn {walk : Walk K} {u : Way K} (hstart : u.start = walk.tailNode)
    (hfinish : u.finish ≠ walk.tailNode) (turned : Bool) :
    walk.extend (turn u turned) =
      { used := u.id :: walk.used
        points := walk.points ++ u.points.tail
        ways := walk.ways ++ [turn u turned]
        tailNode := u.finish } := by
  cases turned
  · show walk.extend u = _
    unfold Walk.extend
    simp only [hstart, if_true]
    rfl
  · show walk.extend (reversed u) = _
    unfold Walk.extend
    simp only [reversed_start, reversed_points, hfinish, if_false, List.reverse_reverse]
    rfl

/-- At the end of a way that is used, nothing but the way after it goes on. -/
theorem head?_of_candidate (h : IsSimpleChain position chain) {turned : ℕ → Bool}
    (hperm : ways.Perm (chain.map fun way => turn way (turned way.id)))
    {pre post : List (Way K)} {v : Way K} (hchain : chain = pre ++ v :: post)
    {walk : Walk K} (htail : walk.tailNode = v.finish) (hused : v.id ∈ walk.used) {id : ℕ}
    (hid : id ∈ candidates (endpointIndex ways) walk) :
    ∃ w, post.head? = some w ∧ w.id = id := by
  obtain ⟨htouches, hfree⟩ := mem_candidates.mp hid
  obtain ⟨w, hw, rfl, htouch⟩ := (mem_index_listing hperm).mp htouches
  rw [htail] at htouch
  rcases h.touches_finish hchain hw htouch with rfl | hhead
  · exact absurd hused hfree
  · exact ⟨w, hhead, rfl⟩

/-- One turn of the loop: on along the next way of the chain. -/
theorem walkOn_succ (h : IsSimpleChain position chain) {turned : ℕ → Bool}
    (hperm : ways.Perm (chain.map fun way => turn way (turned way.id)))
    {pre rest : List (Way K)} {v u : Way K} (hchain : chain = pre ++ v :: u :: rest)
    {walk : Walk K} (htail : walk.tailNode = v.finish) (hused : v.id ∈ walk.used)
    (hfree : u.id ∉ walk.used) (fuel : ℕ) :
    walkOn ways (fuel + 1) walk = walkOn ways fuel
      { used := u.id :: walk.used
        points := walk.points ++ u.points.tail
        ways := walk.ways ++ [turn u (turned u.id)]
        tailNode := u.finish } := by
  have hvmem : v ∈ chain := by
    rw [hchain]
    exact List.mem_append_right _ List.mem_cons_self
  have humem : u ∈ chain := by
    rw [hchain]
    exact List.mem_append_right _ (List.mem_cons_of_mem _ List.mem_cons_self)
  have hstart : u.start = walk.tailNode := by
    have hlinked := h.linked
    rw [hchain] at hlinked
    rw [htail]
    exact (List.isChain_cons_cons.mp hlinked.right_of_append).1.symm
  have hfinish : u.finish ≠ walk.tailNode := by
    intro hsame
    rw [htail] at hsame
    rw [h.eq_of_finish_eq humem hvmem hsame] at hfree
    exact hfree hused
  have hcand : u.id ∈ candidates (endpointIndex ways) walk :=
    mem_candidates.mpr ⟨(mem_index_listing hperm).mpr ⟨u, humem, rfl, Or.inl hstart⟩, hfree⟩
  -- the first candidate is its id
  obtain ⟨others, hothers⟩ :
      ∃ others, candidates (endpointIndex ways) walk = u.id :: others := by
    cases hids : candidates (endpointIndex ways) walk with
    | nil =>
      rw [hids] at hcand
      cases hcand
    | cons id others =>
      have hid : id ∈ candidates (endpointIndex ways) walk := by
        rw [hids]
        exact List.mem_cons_self
      obtain ⟨w, hhead, rfl⟩ := head?_of_candidate h hperm hchain htail hused hid
      cases hhead
      exact ⟨others, rfl⟩
  -- and the way with that id is it, in the direction in which it is listed
  obtain ⟨next, hnextMem, hbyId, hnextId⟩ := exists_byId hcand
  obtain ⟨w, hw, rfl⟩ := (mem_listing hperm).mp hnextMem
  obtain rfl : w = u := List.inj_on_of_nodup_map h.ids hw humem ((turn_id w _).symm.trans hnextId)
  rw [walkOn, hothers]
  simp only [hbyId]
  rw [extend_turn hstart hfinish]

/-- **The loop of a walk** that has come to the end of one way adds every way after it. -/
theorem walkOn_points (h : IsSimpleChain position chain) {turned : ℕ → Bool}
    (hperm : ways.Perm (chain.map fun way => turn way (turned way.id)))
    {pre post : List (Way K)} {v : Way K} (hchain : chain = pre ++ v :: post)
    {walk : Walk K} (htail : walk.tailNode = v.finish) (hused : v.id ∈ walk.used)
    (hfree : ∀ w ∈ post, w.id ∉ walk.used) {fuel : ℕ} (hfuel : post.length ≤ fuel) :
    (walkOn ways fuel walk).points = walk.points ++ post.flatMap fun way => way.points.tail := by
  induction post generalizing pre v walk fuel with
  | nil =>
    have hnone : candidates (endpointIndex ways) walk = [] := by
      refine List.eq_nil_iff_forall_not_mem.mpr fun id hid => ?_
      obtain ⟨w, hhead, -⟩ := head?_of_candidate h hperm hchain htail hused hid
      cases hhead
    have hdone : walkOn ways fuel walk = walk := by
      cases fuel with
      | zero => rfl
      | succ fuel =>
        unfold walkOn
        rw [hnone]
    rw [hdone]
    exact (List.append_nil _).symm
  | cons u rest ih =>
    obtain ⟨fuel, rfl⟩ := Nat.exists_eq_add_of_le' hfuel
    have hids : ∀ w ∈ rest, w.id ≠ u.id := by
      have hnodup := h.ids
      rw [hchain, List.map_append, List.map_cons, List.map_cons] at hnodup
      have htailNodup := (List.nodup_cons.mp (List.nodup_append.mp hnodup).2.1).2
      intro w hw hid
      exact (List.nodup_cons.mp htailNodup).1 (hid ▸ List.mem_map_of_mem hw)
    have hnext : chain = (pre ++ [v]) ++ u :: rest := by
      rw [hchain, List.append_assoc]
      rfl
    show (walkOn ways (fuel + rest.length + 1) walk).points = _
    rw [walkOn_succ h hperm hchain htail hused (hfree u List.mem_cons_self),
      ih hnext rfl List.mem_cons_self ?_ (Nat.le_add_left _ _), List.flatMap_cons,
      List.append_assoc]
    intro w hw hmem
    rcases List.mem_cons.mp hmem with hid | hmem
    · exact hids w hw hid
    · exact hfree w (List.mem_cons_of_mem _ hw) hmem

/-- **A walk that starts along the chain** goes on to its end. -/
theorem walk_points (h : IsSimpleChain position chain) {pre post : List (Way K)} {first : Way K}
    (hchain : chain = pre ++ first :: post) {rest : List (Way K)}
    (hlisted : ListedAs chain (first :: rest)) :
    (walk (first :: rest)).1 = runPoints (first :: post) := by
  obtain ⟨turned, hperm⟩ := hlisted
  refine walkOn_points h hperm hchain rfl List.mem_cons_self ?_ ?_
  · intro w hw hmem
    have hnodup := h.ids
    rw [hchain, List.map_append, List.map_cons] at hnodup
    exact (List.nodup_cons.mp (List.nodup_append.mp hnodup).2.1).1
      (List.mem_singleton.mp hmem ▸ List.mem_map_of_mem hw)
  · rw [hperm.length_eq, List.length_map, hchain, List.length_append, List.length_cons]
    omega

theorem ListedAs.ne_nil (h : IsSimpleChain position chain) (hlisted : ListedAs chain ways) :
    ways ≠ [] := by
  obtain ⟨turned, hperm⟩ := hlisted
  intro hnil
  rw [hnil] at hperm
  exact h.ne_nil (List.map_eq_nil_iff.mp hperm.nil_eq.symm)

/-- **The points of a walk** through a listing are those of a run. -/
theorem walk_listed (h : IsSimpleChain position chain) (hlisted : ListedAs chain ways) :
    ∃ run, IsRun chain run ∧ (walk ways).1 = runPoints run := by
  cases ways with
  | nil => exact absurd rfl (hlisted.ne_nil h)
  | cons first rest =>
    obtain ⟨turned, hperm⟩ := id hlisted
    obtain ⟨w, hw, hfirst⟩ := (mem_listing hperm).mp List.mem_cons_self
    cases hturn : turned w.id with
    | false =>
      -- listed in the direction of the chain
      obtain rfl : w = first := by
        rw [← hfirst, hturn]
        rfl
      obtain ⟨pre, post, hchain⟩ := List.append_of_mem hw
      exact ⟨w :: post, ⟨List.cons_ne_nil _ _, Or.inl ⟨pre, hchain.symm⟩⟩,
        walk_points h hchain hlisted⟩
    | true =>
      obtain rfl : reversed w = first := by
        rw [← hfirst, hturn]
        rfl
      obtain ⟨pre, post, hchain⟩ := List.append_of_mem (mem_flipped.mpr ⟨w, hw, rfl⟩)
      exact ⟨reversed w :: post, ⟨List.cons_ne_nil _ _, Or.inr ⟨pre, hchain.symm⟩⟩,
        walk_points h.flipped hchain (listedAs_flipped hlisted)⟩

/-- Any run along the chain is that of the listing which begins with its first way. -/
theorem exists_listing_of_suffix (h : IsSimpleChain position chain) {run : List (Way K)}
    (hne : run ≠ []) (hsuffix : run <:+ chain) :
    ∃ ways, ListedAs chain ways ∧ (walk ways).1 = runPoints run := by
  obtain ⟨pre, hchain⟩ := hsuffix
  cases run with
  | nil => exact absurd rfl hne
  | cons first post =>
    have hlisted : ListedAs chain (first :: (pre ++ post)) := by
      refine ⟨fun _ => false, ?_⟩
      show List.Perm _ (chain.map fun way => way)
      rw [List.map_id', ← hchain]
      exact List.perm_middle.symm
    exact ⟨_, hlisted, walk_points h hchain.symm hlisted⟩

/-- **Every run is the walk** through some listing. -/
theorem exists_listing (h : IsSimpleChain position chain) {run : List (Way K)}
    (hrun : IsRun chain run) : ∃ ways, ListedAs chain ways ∧ (walk ways).1 = runPoints run := by
  rcases hrun with ⟨hne, hsuffix | hsuffix⟩
  · exact exists_listing_of_suffix h hne hsuffix
  · obtain ⟨ways, hlisted, hpoints⟩ := exists_listing_of_suffix h.flipped hne hsuffix
    refine ⟨ways, ?_, hpoints⟩
    have hback := listedAs_flipped hlisted
    rwa [flipped_flipped] at hback

end Walking

/-! ### What a run is rejected for -/

section Rejection

variable {K : Type} [Field K] [LinearOrder K] (M : MathLib K) (R : Rounding K)

/-- The points make a ring: there are three of them, and the last lies near the first. -/
def Closes (points : List (LatLon K)) : Prop :=
  3 ≤ points.length ∧ closureGapM M R points ≤ MAX_CLOSURE_GAP_M

/-- The length is that of a circuit. -/
def HasLength (points : List (LatLon K)) : Prop :=
  MIN_CIRCUIT_LENGTH_M ≤ polylineLengthM M R points ∧
    polylineLengthM M R points ≤ MAX_CIRCUIT_LENGTH_M

def gateDistanceM (points : List (LatLon K)) (gate : Gate K) : Option K :=
  minDistanceToPolyline M R (gateMid R gate) points

/-- The gate lies on the ring. -/
def NearGate (points : List (LatLon K)) (gate : Gate K) : Prop :=
  ∃ d, gateDistanceM M R points gate = some d ∧ d ≤ MAX_GATE_DISTANCE_M

theorem not_hasLength_iff {points : List (LatLon K)} :
    ¬ HasLength M R points ↔ polylineLengthM M R points < MIN_CIRCUIT_LENGTH_M ∨
      MAX_CIRCUIT_LENGTH_M < polylineLengthM M R points := by
  rw [HasLength, not_and_or, not_le, not_le]

theorem exists_gateDistanceM {points : List (LatLon K)} (h : Closes M R points) (gate : Gate K) :
    ∃ d, gateDistanceM M R points gate = some d := by
  obtain ⟨hlength, -⟩ := h
  match points, hlength with
  | a :: b :: rest, _ =>
    exact Option.isSome_iff_exists.mp (minDistanceToPolyline_isSome M R (gateMid R gate) a b rest)

variable [FloorRing K] {points : List (LatLon K)} {gate : Gate K}

theorem rejection_of_few (h : points.length < 3) :
    rejection M R points gate = some "could-not-stitch-a-ring" :=
  if_pos h

theorem rejection_of_length (hcloses : Closes M R points) (h : ¬ HasLength M R points) :
    rejection M R points gate
      = some ("implausible-length (" ++ toString (mathRound (polylineLengthM M R points)) ++ "m)") := by
  unfold rejection
  rw [if_neg (not_lt.mpr hcloses.1), if_neg (not_lt.mpr hcloses.2),
    if_pos ((not_hasLength_iff M R).mp h)]
  rfl

theorem rejection_of_far (hcloses : Closes M R points) (hlength : HasLength M R points) {d : K}
    (hd : gateDistanceM M R points gate = some d) (hfar : MAX_GATE_DISTANCE_M < d) :
    rejection M R points gate = some ("gate-not-on-ring (" ++ toString (mathRound d) ++ "m away)") := by
  unfold rejection
  rw [if_neg (not_lt.mpr hcloses.1), if_neg (not_lt.mpr hcloses.2),
    if_neg (mt (not_hasLength_iff M R).mpr (not_not.mpr hlength))]
  show (if Option.all _ (gateDistanceM M R points gate) = true then some ("gate-not-on-ring (" ++
    roundedText (gateDistanceM M R points gate) ++ "m away)") else none) = _
  rw [hd]
  exact if_pos (decide_eq_true hfar)

theorem rejection_of_near (hcloses : Closes M R points) (hlength : HasLength M R points)
    (hnear : NearGate M R points gate) : rejection M R points gate = none := by
  obtain ⟨d, hd, hle⟩ := hnear
  unfold rejection
  rw [if_neg (not_lt.mpr hcloses.1), if_neg (not_lt.mpr hcloses.2),
    if_neg (mt (not_hasLength_iff M R).mpr (not_not.mpr hlength))]
  show (if Option.all _ (gateDistanceM M R points gate) = true then some _ else none) = none
  rw [hd]
  exact if_neg (by simpa using hle)

/-- What each rejection says of the points. -/
theorem rejection_cases (points : List (LatLon K)) (gate : Gate K) :
    (points.length < 3 ∧ rejection M R points gate = some "could-not-stitch-a-ring") ∨
    (MAX_CLOSURE_GAP_M < closureGapM M R points ∧ ∃ text,
      rejection M R points gate = some ("ring-not-closed (" ++ text ++ "m gap)")) ∨
    (Closes M R points ∧ ¬ HasLength M R points ∧ rejection M R points gate
      = some ("implausible-length (" ++ toString (mathRound (polylineLengthM M R points)) ++ "m)")) ∨
    (Closes M R points ∧ HasLength M R points ∧ ∃ d, gateDistanceM M R points gate = some d ∧
      MAX_GATE_DISTANCE_M < d ∧ rejection M R points gate
        = some ("gate-not-on-ring (" ++ toString (mathRound d) ++ "m away)")) ∨
    (Closes M R points ∧ HasLength M R points ∧ NearGate M R points gate ∧
      rejection M R points gate = none) := by
  by_cases hfew : points.length < 3
  · exact Or.inl ⟨hfew, rejection_of_few M R hfew⟩
  by_cases hgap : MAX_CLOSURE_GAP_M < closureGapM M R points
  · refine Or.inr (Or.inl ⟨hgap, roundedText (some (closureGapM M R points)), ?_⟩)
    unfold rejection
    rw [if_neg hfew, if_pos hgap]
  have hcloses : Closes M R points := ⟨not_lt.mp hfew, not_lt.mp hgap⟩
  by_cases hlength : HasLength M R points
  · obtain ⟨d, hd⟩ := exists_gateDistanceM M R hcloses gate
    by_cases hfar : MAX_GATE_DISTANCE_M < d
    · exact Or.inr (Or.inr (Or.inr (Or.inl ⟨hcloses, hlength, d, hd, hfar,
        rejection_of_far M R hcloses hlength hd hfar⟩)))
    · have hnear : NearGate M R points gate := ⟨d, hd, not_lt.mp hfar⟩
      exact Or.inr (Or.inr (Or.inr (Or.inr ⟨hcloses, hlength, hnear,
        rejection_of_near M R hcloses hlength hnear⟩)))
  · exact Or.inr (Or.inr (Or.inl ⟨hcloses, hlength,
      rejection_of_length M R hcloses hlength⟩))

/-- Two reasons with other first letters are two reasons. -/
theorem reason_ne {a b : String} (h : a.toList.head? ≠ b.toList.head?) : some a ≠ some b :=
  fun hab => h (congrArg (fun text : String => text.toList.head?) (Option.some.inj hab))

theorem natRepr_inj {m n : ℕ} (h : m.repr = n.repr) : m = n := by
  have hdigits := congrArg String.toList h
  rw [Nat.toList_repr, Nat.toList_repr] at hdigits
  rw [← Nat.ofDigitChars_ten_toDigits (n := m), hdigits, Nat.ofDigitChars_ten_toDigits]

/-- The text of a natural number begins with no sign. -/
theorem natRepr_ne_neg (m : ℕ) (text : String) : m.repr ≠ "-" ++ text := by
  intro h
  have hmem : '-' ∈ m.repr.toList := by
    rw [h, String.toList_append]
    exact List.mem_append_left _ List.mem_cons_self
  rw [Nat.toList_repr] at hmem
  exact absurd (Nat.isDigit_of_mem_toDigits (by decide) (by decide) hmem) (by decide)

theorem intRepr_inj {m n : ℤ} (h : m.repr = n.repr) : m = n := by
  rw [Int.repr_eq_if, Int.repr_eq_if] at h
  split at h <;> split at h
  · have := natRepr_inj h
    omega
  · exact absurd h (natRepr_ne_neg _ _)
  · exact absurd h.symm (natRepr_ne_neg _ _)
  · have := natRepr_inj ((String.append_right_inj _).mp h)
    omega

theorem toString_inj {before after : String} {m n : ℤ}
    (h : before ++ toString m ++ after = before ++ toString n ++ after) : m = n :=
  intRepr_inj ((String.append_right_inj _).mp ((String.append_left_inj _).mp h))

/-- **Only an implausible length is rejected for one.** -/
theorem length_of_rejection {n : ℤ} (h : rejection M R points gate
    = some ("implausible-length (" ++ toString n ++ "m)")) :
    Closes M R points ∧ ¬ HasLength M R points ∧ mathRound (polylineLengthM M R points) = n := by
  rcases rejection_cases M R points gate with
    ⟨-, hr⟩ | ⟨-, text, hr⟩ | ⟨hcloses, hlength, hr⟩ | ⟨-, -, d, -, -, hr⟩ | ⟨-, -, -, hr⟩
  · exact absurd (hr.symm.trans h) (reason_ne (by simp [String.toList_append]))
  · exact absurd (hr.symm.trans h) (reason_ne (by simp [String.toList_append]))
  · exact ⟨hcloses, hlength, toString_inj (Option.some.inj (hr.symm.trans h))⟩
  · exact absurd (hr.symm.trans h) (reason_ne (by simp [String.toList_append]))
  · exact absurd (hr.symm.trans h) (Option.some_ne_none _).symm

/-- **Only a gate off the ring is rejected for it.** -/
theorem far_of_rejection {n : ℤ} (h : rejection M R points gate
    = some ("gate-not-on-ring (" ++ toString n ++ "m away)")) :
    Closes M R points ∧ HasLength M R points ∧ ∃ d, gateDistanceM M R points gate = some d ∧
      MAX_GATE_DISTANCE_M < d ∧ mathRound d = n := by
  rcases rejection_cases M R points gate with
    ⟨-, hr⟩ | ⟨-, text, hr⟩ | ⟨-, -, hr⟩ | ⟨hcloses, hlength, d, hd, hfar, hr⟩ | ⟨-, -, -, hr⟩
  · exact absurd (hr.symm.trans h) (reason_ne (by simp [String.toList_append]))
  · exact absurd (hr.symm.trans h) (reason_ne (by simp [String.toList_append]))
  · exact absurd (hr.symm.trans h) (reason_ne (by simp [String.toList_append]))
  · exact ⟨hcloses, hlength, d, hd, hfar, toString_inj (Option.some.inj (hr.symm.trans h))⟩
  · exact absurd (hr.symm.trans h) (Option.some_ne_none _).symm

/-- What is not rejected passes every check. -/
theorem of_rejection_eq_none (h : rejection M R points gate = none) :
    Closes M R points ∧ HasLength M R points ∧ NearGate M R points gate := by
  rcases rejection_cases M R points gate with
    ⟨-, hr⟩ | ⟨-, text, hr⟩ | ⟨-, -, hr⟩ | ⟨-, -, d, -, -, hr⟩ | ⟨hcloses, hlength, hnear, -⟩
  · exact absurd (hr.symm.trans h) (Option.some_ne_none _)
  · exact absurd (hr.symm.trans h) (Option.some_ne_none _)
  · exact absurd (hr.symm.trans h) (Option.some_ne_none _)
  · exact absurd (hr.symm.trans h) (Option.some_ne_none _)
  · exact ⟨hcloses, hlength, hnear⟩

end Rejection

/-! ### Lengths of runs -/

section Lengths

variable {K : Type} {position : ℕ → LatLon K} {chain : List (Way K)}

theorem head?_points {way : Way K} (hplaced : way.points = way.nodeIds.map position) :
    way.points.head? = some (position way.start) := by
  rw [hplaced, List.head?_map, List.head?_eq_some_head way.nodeIds_ne_nil]
  rfl

theorem getLast?_points {way : Way K} (hplaced : way.points = way.nodeIds.map position) :
    way.points.getLast? = some (position way.finish) := by
  rw [hplaced, List.getLast?_map, List.getLast?_eq_some_getLast way.nodeIds_ne_nil]
  rfl

theorem IsSimpleChain.head?_points (h : IsSimpleChain position chain) {way : Way K}
    (hway : way ∈ chain) : way.points.head? = some (position way.start) :=
  OutlineListing.head?_points (h.placed way hway)

theorem IsSimpleChain.getLast?_points (h : IsSimpleChain position chain) {way : Way K}
    (hway : way ∈ chain) : way.points.getLast? = some (position way.finish) :=
  OutlineListing.getLast?_points (h.placed way hway)

theorem exists_points (way : Way K) : ∃ a b rest, way.points = a :: b :: rest := by
  have htwo : 2 ≤ way.points.length := by
    rw [way.paired]
    exact way.two_nodes
  match hpoints : way.points, htwo with
  | a :: b :: rest, _ => exact ⟨a, b, rest, rfl⟩

theorem head?_runPoints (first : Way K) (rest : List (Way K)) :
    (runPoints (first :: rest)).head? = first.points.head? := by
  obtain ⟨a, b, points, hpoints⟩ := exists_points first
  rw [runPoints, hpoints]
  rfl

/-- The first way, and then the others, the node they share once. -/
theorem runPoints_cons_cons (v w : Way K) (rest : List (Way K)) :
    runPoints (v :: w :: rest) = v.points ++ (runPoints (w :: rest)).tail := by
  obtain ⟨a, b, points, hpoints⟩ := exists_points w
  rw [runPoints, runPoints, List.flatMap_cons, hpoints]
  rfl

/-- Two ways or more have three points at least. -/
theorem three_points (v w : Way K) (rest : List (Way K)) :
    3 ≤ (runPoints (v :: w :: rest)).length := by
  obtain ⟨a, b, points, hv⟩ := exists_points v
  obtain ⟨c, d, points', hw⟩ := exists_points w
  rw [runPoints, List.flatMap_cons, hv, hw]
  simp only [List.tail_cons, List.length_append, List.length_cons]
  omega

theorem getLast?_runPoints (init : List (Way K)) (last : Way K) :
    (runPoints (init ++ [last])).getLast? = last.points.getLast? := by
  obtain ⟨a, b, points, hlast⟩ := exists_points last
  cases init with
  | nil =>
    show (last.points ++ []).getLast? = _
    rw [List.append_nil]
  | cons first init =>
    rw [List.cons_append, runPoints, List.flatMap_append, List.flatMap_singleton, hlast,
      List.tail_cons, ← List.append_assoc, List.getLast?_append_of_ne_nil _ (List.cons_ne_nil _ _),
      List.getLast?_cons_cons]

theorem runPoints_single (way : Way K) : runPoints [way] = way.points := by
  rw [runPoints, List.flatMap_nil, List.append_nil]

theorem length_turn_points (way : Way K) (turned : Bool) :
    (turn way turned).points.length = way.points.length := by
  cases turned
  · rfl
  · exact List.length_reverse

theorem single_of_few {run : List (Way K)} (hne : run ≠ []) (hfew : (runPoints run).length < 3) :
    ∃ way, run = [way] := by
  match run, hne with
  | [way], _ => exact ⟨way, rfl⟩
  | v :: w :: rest, _ => exact absurd (three_points v w rest) (Nat.not_le_of_lt hfew)

variable [Field K] [LinearOrder K] (M : MathLib K) (R : Rounding K)

/-- The hops of a run are those of its ways. -/
theorem hopsM_runPoints (h : IsSimpleChain position chain) {run : List (Way K)}
    (hsuffix : run <:+ chain) :
    hopsM M R (runPoints run) = run.flatMap fun way => hopsM M R way.points := by
  induction run with
  | nil => rfl
  | cons v rest ih =>
    have hrest := ih ((List.suffix_cons v rest).trans hsuffix)
    have hv : v ∈ chain := hsuffix.subset List.mem_cons_self
    cases rest with
    | nil => rw [runPoints_single, List.flatMap_singleton]
    | cons w rest =>
      have hw : w ∈ chain := hsuffix.subset (List.mem_cons_of_mem _ List.mem_cons_self)
      have hlink : v.finish = w.start :=
        (List.isChain_cons_cons.mp (h.linked.suffix hsuffix)).1
      have hhead : (runPoints (w :: rest)).head? = some (position v.finish) := by
        rw [head?_runPoints, h.head?_points hw, hlink]
      rw [runPoints_cons_cons, hopsM_join M R (h.getLast?_points hv) hhead, hrest]
      rfl

/-- A simple chain whose loose ends are at most `MAX_CLOSURE_GAP_M` apart. -/
structure NearlyClosed (position : ℕ → LatLon K) (chain : List (Way K)) : Prop
    extends IsSimpleChain position chain where
  near : ∀ first ∈ chain.head?, ∀ last ∈ chain.getLast?,
    hopM M R (position first.start) (position last.finish) ≤ MAX_CLOSURE_GAP_M

theorem NearlyClosed.closureGapM_le (h : NearlyClosed M R position chain) :
    closureGapM M R (runPoints chain) ≤ MAX_CLOSURE_GAP_M := by
  obtain ⟨init, last, hlast⟩ := (List.eq_nil_or_concat chain).resolve_left h.ne_nil
  rw [List.concat_eq_append] at hlast
  cases hchain : chain with
  | nil => exact absurd hchain h.ne_nil
  | cons first rest =>
    have hfirstMem : first ∈ chain := hchain ▸ List.mem_cons_self
    have hlastMem : last ∈ chain := by
      rw [hlast]
      exact List.mem_append_right _ List.mem_cons_self
    have hgap : closureGapM M R (runPoints chain)
        = hopM M R (position first.start) (position last.finish) := by
      refine closureGapM_eq M R ?_ ?_
      · rw [hchain, head?_runPoints, h.head?_points hfirstMem]
      · rw [hlast, getLast?_runPoints, h.getLast?_points hlastMem]
    rw [← hchain, hgap]
    refine h.near first ?_ last ?_
    · rw [hchain]
      rfl
    · rw [hlast, List.getLast?_append_of_ne_nil _ (List.cons_ne_nil _ _)]
      rfl

variable [IsStrictOrderedRing K]

/-- **Runs of one length** are those of a single way: of two ways or more, the first alone and the
last alone are runs, and no more than the whole together, up to what the running sums are off. -/
theorem single_of_length_eq (hnonneg : ∀ x y, 0 ≤ M.hypot x y)
    (hsymm : ∀ x y, M.hypot (-x) (-y) = M.hypot x y) (hround : R.Within (1 / 2 ^ 53))
    (h : IsSimpleChain position chain) (hsize : (runPoints chain).length < 2 ^ 32) {length : K}
    (hpos : 0 < length)
    (hall : ∀ run, IsRun chain run → polylineLengthM M R (runPoints run) = length) :
    ∃ way, chain = [way] := by
  cases chain with
  | nil => exact absurd rfl h.ne_nil
  | cons first rest =>
    rcases List.eq_nil_or_concat rest with rfl | ⟨init, last, hrest⟩
    · exact ⟨first, rfl⟩
    rw [List.concat_eq_append] at hrest
    have hlastRun : IsRun (first :: rest) [last] := by
      refine ⟨List.cons_ne_nil _ _, Or.inl ⟨first :: init, ?_⟩⟩
      rw [hrest]
      rfl
    have hfirstRun : IsRun (first :: rest) [reversed first] := by
      refine ⟨List.cons_ne_nil _ _, Or.inr ⟨flipped rest, ?_⟩⟩
      unfold flipped
      rw [List.reverse_cons, List.map_append]
      rfl
    have hhops : hopsM M R (runPoints (first :: rest)) = hopsM M R first.points ++
        (init.flatMap (fun way => hopsM M R way.points) ++ hopsM M R last.points) := by
      rw [hopsM_runPoints M R h (List.suffix_refl _), hrest, List.flatMap_cons, List.flatMap_append,
        List.flatMap_singleton]
    have hwhole := hall _ (isRun_whole h)
    have hlast := hall _ hlastRun
    have hfirst := hall _ hfirstRun
    rw [runPoints_single] at hlast hfirst
    rw [reversed_points] at hfirst
    unfold polylineLengthM at hwhole hlast hfirst
    rw [hopsM_reverse M R hsymm] at hfirst
    have hlength := length_hopsM M R (runPoints (first :: rest))
    rw [hhops] at hwhole hlength
    rw [List.length_append, List.length_append] at hlength
    -- the additions of one sum are too few for their errors to come to a quarter
    have hquarter : ((2 ^ 32 : ℕ) : K) * (1 / 2 ^ 53) ≤ 1 / 4 := by norm_num
    have hsum : ∀ hops : List K, hops.length ≤ 2 ^ 32 → (∀ hop ∈ hops, 0 ≤ hop) →
        3 / 4 * hops.sum ≤ R.sum hops ∧ 3 / 4 * R.sum hops ≤ hops.sum := fun hops hfew =>
      Rounding.sum_quarters hround (by positivity) (by norm_num) hquarter hfew
    have hfirstHops := hopsM_nonneg M R hnonneg first.points
    have hlastHops := hopsM_nonneg M R hnonneg last.points
    have hinitHops : ∀ hop ∈ init.flatMap fun way => hopsM M R way.points, 0 ≤ hop := by
      intro hop hmem
      obtain ⟨way, -, hhop⟩ := List.mem_flatMap.mp hmem
      exact hopsM_nonneg M R hnonneg way.points hop hhop
    have hinit := List.sum_nonneg hinitHops
    have hsumWhole := (hsum _ (by rw [List.length_append, List.length_append]; omega)
      (List.forall_mem_append.mpr ⟨hfirstHops, List.forall_mem_append.mpr ⟨hinitHops, hlastHops⟩⟩)).1
    have hsumLast := (hsum _ (by omega) hlastHops).2
    have hsumFirst := (hsum _ (by rw [List.length_reverse]; omega)
      fun hop hmem => hfirstHops hop (List.mem_reverse.mp hmem)).2
    rw [hwhole, List.sum_append, List.sum_append] at hsumWhole
    rw [hlast] at hsumLast
    rw [hfirst, List.sum_reverse] at hsumFirst
    linarith

end Lengths

/-! ### Outlines -/

section Outlines

variable {K : Type}

/-- The ring of a map. -/
def ringOf (geojson : List (TrackMapFeature K)) : List (LatLon K) :=
  (geojson.findSome? TrackMapFeature.ring?).getD []

/-- The same decision and, of two maps, the same points of the ring and the same length. -/
def SameOutline : BuildOutcome K → BuildOutcome K → Prop
  | .rejected reason, .rejected reason' => reason = reason'
  | .built geojson _ lengthM _, .built geojson' _ lengthM' _ =>
    lengthM = lengthM' ∧ ∀ point, point ∈ ringOf geojson ↔ point ∈ ringOf geojson'
  | _, _ => False

/-- Ways that stand for elements are the usable ways of some response. -/
theorem exists_elements {ways : List (Way K)} (h : ∀ way ∈ ways, ∃ e, usableWay e = some way) :
    ∃ elements, usableWays elements = ways := by
  induction ways with
  | nil => exact ⟨[], rfl⟩
  | cons way ways ih =>
    obtain ⟨e, he⟩ := h way List.mem_cons_self
    obtain ⟨elements, helements⟩ := ih fun w hw => h w (List.mem_cons_of_mem _ hw)
    refine ⟨e :: elements, ?_⟩
    rw [usableWays, List.filterMap_cons_some he]
    exact congrArg (way :: ·) helements

theorem IsSimpleChain.usable_listing {position : ℕ → LatLon K} {chain ways : List (Way K)}
    (h : IsSimpleChain position chain) (hlisted : ListedAs chain ways) :
    ∀ way ∈ ways, ∃ e, usableWay e = some way := by
  obtain ⟨turned, hperm⟩ := hlisted
  intro way hway
  obtain ⟨w, hw, rfl⟩ := (mem_listing hperm).mp hway
  obtain ⟨e, he⟩ := h.usable w hw
  cases turned w.id
  · exact ⟨e, he⟩
  · exact ⟨_, usableWay_reversed he⟩

variable [Field K] [LinearOrder K] [FloorRing K] (P : Platform K) (M : MathLib K) (R : Rounding K)

/-- The points as the map has them. -/
def ringPoints (points : List (LatLon K)) : List (LatLon K) :=
  (toCoords R points).map fun point => ⟨point.2, point.1⟩

/-- The points of two walks make the same outline. -/
def SameRing (gate : Gate K) (left right : List (LatLon K)) : Prop :=
  rejection M R left gate = rejection M R right gate ∧
    (rejection M R left gate = none →
      polylineLengthM M R left = polylineLengthM M R right ∧
        ∀ point, point ∈ ringPoints R left ↔ point ∈ ringPoints R right)

theorem sameOutline_iff_sameRing {left right : OverpassResponse K} (gate : Gate K)
    (hleft : usableWays left.elements ≠ []) (hright : usableWays right.elements ≠ []) :
    SameOutline (buildTrackMap P M R left gate) (buildTrackMap P M R right gate) ↔
      SameRing M R gate (walk (largestConnectedComponent M R (usableWays left.elements))).1
        (walk (largestConnectedComponent M R (usableWays right.elements))).1 := by
  rw [buildTrackMap_eq P M R gate hleft, buildTrackMap_eq P M R gate hright]
  unfold SameRing
  dsimp only
  split
  · next reason hreason =>
    rw [hreason]
    split
    · next reason' hreason' =>
      rw [hreason']
      exact ⟨fun h => ⟨congrArg some h, fun hnone => nomatch hnone⟩, fun h => Option.some.inj h.1⟩
    · next hnone =>
      rw [hnone]
      exact ⟨fun h => h.elim, fun h => nomatch h.1⟩
  · next hnone =>
    rw [hnone]
    split
    · next reason' hreason' =>
      rw [hreason']
      exact ⟨fun h => h.elim, fun h => nomatch h.1⟩
    · next hnone' =>
      rw [hnone']
      exact ⟨fun h => ⟨rfl, fun _ => h⟩, fun h => h.2 rfl⟩

variable {position : ℕ → LatLon K}

/-- A single way makes one outline in either direction, if it has one length. -/
theorem sameRing_single (hsymm : ∀ x y, M.hypot (-x) (-y) = M.hypot x y) {way : Way K}
    (h : NearlyClosed M R position [way]) {gate : Gate K}
    (hway : way.points.length < 3 ∨
      polylineLengthM M R way.points.reverse = polylineLengthM M R way.points ∧ ∀ turned,
        HasLength M R (turn way turned).points ∧ NearGate M R (turn way turned).points gate)
    (turned turned' : Bool) :
    SameRing M R gate (turn way turned).points (turn way turned').points := by
  by_cases hfew : way.points.length < 3
  · have hreason : ∀ turned, rejection M R (turn way turned).points gate
        = some "could-not-stitch-a-ring" := by
      intro turned
      refine rejection_of_few M R ?_
      rwa [length_turn_points]
    refine ⟨(hreason turned).trans (hreason turned').symm, fun hnone => ?_⟩
    exact nomatch (hreason turned).symm.trans hnone
  · obtain ⟨hsum, hturns⟩ := hway.resolve_left hfew
    have hnone : ∀ turned, rejection M R (turn way turned).points gate = none := by
      intro turned
      refine rejection_of_near M R ⟨?_, ?_⟩ (hturns turned).1 (hturns turned).2
      · rw [length_turn_points]
        exact not_lt.mp hfew
      · have hgap := h.closureGapM_le
        rw [runPoints_single] at hgap
        cases turned
        · exact hgap
        · exact (closureGapM_reverse M R hsymm way.points).trans_le hgap
    have hlength : ∀ turned,
        polylineLengthM M R (turn way turned).points = polylineLengthM M R way.points := by
      intro turned
      cases turned
      · rfl
      · exact hsum
    have hring : ∀ turned point,
        point ∈ ringPoints R (turn way turned).points ↔ point ∈ ringPoints R way.points := by
      intro turned point
      cases turned
      · exact Iff.rfl
      · show point ∈ ringPoints R way.points.reverse ↔ _
        unfold ringPoints toCoords
        rw [List.map_reverse, List.map_reverse, List.mem_reverse]
    exact ⟨(hnone turned).trans (hnone turned').symm, fun _ =>
      ⟨(hlength turned).trans (hlength turned').symm,
        fun point => (hring turned point).trans (hring turned' point).symm⟩⟩

/-- The chain is one way, too short for a ring, or a ring in either direction whose hops have one
running sum in both; or every run closes, with an implausible length that rounds to one number; or every
run closes, with a plausible length and away from the gate, at a distance that rounds to one number. -/
def OutlineFixed (chain : List (Way K)) (gate : Gate K) : Prop :=
  (∃ way, chain = [way] ∧ (way.points.length < 3 ∨
    polylineLengthM M R way.points.reverse = polylineLengthM M R way.points ∧ ∀ turned,
      HasLength M R (turn way turned).points ∧ NearGate M R (turn way turned).points gate)) ∨
  (∃ n : ℤ, ∀ run, IsRun chain run → Closes M R (runPoints run) ∧ ¬ HasLength M R (runPoints run) ∧
    mathRound (polylineLengthM M R (runPoints run)) = n) ∨
  ∃ n : ℤ, ∀ run, IsRun chain run → Closes M R (runPoints run) ∧ HasLength M R (runPoints run) ∧
    ∃ d, gateDistanceM M R (runPoints run) gate = some d ∧ MAX_GATE_DISTANCE_M < d ∧ mathRound d = n

end Outlines

/-! ### When the outline is the same for every listing -/

section Runs

variable {K : Type} [Field K] [LinearOrder K] [IsStrictOrderedRing K] [FloorRing K]
  (P : Platform K) (M : MathLib K) (R : Rounding K)
variable {position : ℕ → LatLon K} {chain : List (Way K)}

/-- **The outlines of the listings** of a chain are those of its runs. -/
theorem sameOutline_iff_runs (hnonneg : ∀ x y, 0 ≤ M.hypot x y)
    (h : IsSimpleChain position chain) (gate : Gate K) :
    (∀ left right : OverpassResponse K, ListedAs chain (usableWays left.elements) →
        ListedAs chain (usableWays right.elements) →
        SameOutline (buildTrackMap P M R left gate) (buildTrackMap P M R right gate)) ↔
      ∀ run run', IsRun chain run → IsRun chain run' →
        SameRing M R gate (runPoints run) (runPoints run') := by
  have hcomponent : ∀ {ways}, ListedAs chain ways → largestConnectedComponent M R ways = ways :=
    fun hlisted => largestConnectedComponent_eq M R hnonneg (hlisted.ne_nil h)
      (joined_listing h hlisted)
  constructor
  · intro hsame run run' hrun hrun'
    obtain ⟨ways, hlisted, hpoints⟩ := exists_listing h hrun
    obtain ⟨ways', hlisted', hpoints'⟩ := exists_listing h hrun'
    obtain ⟨elements, rfl⟩ := exists_elements (h.usable_listing hlisted)
    obtain ⟨elements', rfl⟩ := exists_elements (h.usable_listing hlisted')
    have houtline := (sameOutline_iff_sameRing P M R gate (hlisted.ne_nil h)
      (hlisted'.ne_nil h)).mp (hsame ⟨elements, none⟩ ⟨elements', none⟩ hlisted hlisted')
    rwa [hcomponent hlisted, hcomponent hlisted', hpoints, hpoints'] at houtline
  · intro hsame left right hleft hright
    rw [sameOutline_iff_sameRing P M R gate (hleft.ne_nil h) (hright.ne_nil h), hcomponent hleft,
      hcomponent hright]
    obtain ⟨run, hrun, hpoints⟩ := walk_listed h hleft
    obtain ⟨run', hrun', hpoints'⟩ := walk_listed h hright
    rw [hpoints, hpoints']
    exact hsame run run' hrun hrun'

/-- **For which chains the outline is the same for every listing**, in double precision, an array
having fewer than `2 ^ 32` elements. -/
theorem sameOutline_iff (hnonneg : ∀ x y, 0 ≤ M.hypot x y)
    (hsymm : ∀ x y, M.hypot (-x) (-y) = M.hypot x y) (hround : R.Within (1 / 2 ^ 53))
    (h : NearlyClosed M R position chain) (hsize : (runPoints chain).length < 2 ^ 32)
    (gate : Gate K) :
    (∀ left right : OverpassResponse K, ListedAs chain (usableWays left.elements) →
        ListedAs chain (usableWays right.elements) →
        SameOutline (buildTrackMap P M R left gate) (buildTrackMap P M R right gate)) ↔
      OutlineFixed M R chain gate := by
  rw [sameOutline_iff_runs P M R hnonneg h.toIsSimpleChain gate]
  have hwhole := isRun_whole h.toIsSimpleChain
  constructor
  · intro hsame
    rcases rejection_cases M R (runPoints chain) gate with
      ⟨hfew, -⟩ | ⟨hgap, -⟩ | ⟨-, -, hr⟩ | ⟨-, -, d, -, -, hr⟩ | ⟨-, hlength, -, hr⟩
    · obtain ⟨way, rfl⟩ := single_of_few h.ne_nil hfew
      refine Or.inl ⟨way, rfl, Or.inl ?_⟩
      rwa [runPoints_single] at hfew
    · exact absurd h.closureGapM_le (not_le.mpr hgap)
    · refine Or.inr (Or.inl ⟨mathRound (polylineLengthM M R (runPoints chain)), fun run hrun => ?_⟩)
      exact length_of_rejection M R ((hsame chain run hwhole hrun).1.symm.trans hr)
    · refine Or.inr (Or.inr ⟨mathRound d, fun run hrun => ?_⟩)
      exact far_of_rejection M R ((hsame chain run hwhole hrun).1.symm.trans hr)
    · -- a chain that is built is a single way
      have hlengths : ∀ run, IsRun chain run →
          polylineLengthM M R (runPoints run) = polylineLengthM M R (runPoints chain) :=
        fun run hrun => ((hsame chain run hwhole hrun).2 hr).1.symm
      have hpos : 0 < polylineLengthM M R (runPoints chain) :=
        lt_of_lt_of_le (by norm_num [MIN_CIRCUIT_LENGTH_M]) hlength.1
      obtain ⟨way, rfl⟩ :=
        single_of_length_eq M R hnonneg hsymm hround h.toIsSimpleChain hsize hpos hlengths
      have hback := hlengths [turn way true] (isRun_turn way true)
      rw [runPoints_single, runPoints_single] at hback
      refine Or.inl ⟨way, rfl, Or.inr ⟨hback, fun turned => ?_⟩⟩
      have hnone := (hsame [way] [turn way turned] hwhole (isRun_turn way turned)).1.symm.trans hr
      rw [runPoints_single] at hnone
      exact (of_rejection_eq_none M R hnone).2
  · rintro (⟨way, rfl, hway⟩ | ⟨n, hn⟩ | ⟨n, hn⟩) run run' hrun hrun'
    · obtain ⟨turned, rfl⟩ := isRun_single hrun
      obtain ⟨turned', rfl⟩ := isRun_single hrun'
      rw [runPoints_single, runPoints_single]
      exact sameRing_single M R hsymm h hway turned turned'
    · obtain ⟨hcloses, hlength, hround⟩ := hn run hrun
      obtain ⟨hcloses', hlength', hround'⟩ := hn run' hrun'
      have hr : rejection M R (runPoints run) gate = _ := rejection_of_length M R hcloses hlength
      refine ⟨?_, fun hnone => nomatch hr.symm.trans hnone⟩
      rw [hr, rejection_of_length M R hcloses' hlength', hround, hround']
    · obtain ⟨hcloses, hlength, d, hd, hfar, hround⟩ := hn run hrun
      obtain ⟨hcloses', hlength', d', hd', hfar', hround'⟩ := hn run' hrun'
      have hr := rejection_of_far M R hcloses hlength hd hfar
      refine ⟨?_, fun hnone => nomatch hr.symm.trans hnone⟩
      rw [hr, rejection_of_far M R hcloses' hlength' hd' hfar', hround, hround']

end Runs

/-! ### Out along a meridian and back -/

section Example

/-- Five nodes, from the line to a hairpin 868 m north of it and back to 14 m from the line. -/
def position (node : ℕ) : LatLon ℚ :=
  ⟨[0, 1 / 256, 1 / 128, 3 / 512, 1 / 8192].getD (node - 1) 0, 0⟩

def element (id : ℕ) (nodes : List ℕ) : OverpassWay ℚ :=
  ⟨"way", id, nodes, nodes.map position, some [("highway", "raceway")]⟩

/-- The whole circuit as one way. -/
def outAndBack : Way ℚ where
  id := 3
  nodeIds := [1, 2, 3, 4, 5]
  points := [1, 2, 3, 4, 5].map position
  tags := [("highway", "raceway")]
  two_nodes := by decide
  paired := rfl

/-- The two halves of it. -/
def outward : Way ℚ where
  id := 1
  nodeIds := [1, 2, 3]
  points := [1, 2, 3].map position
  tags := [("highway", "raceway")]
  two_nodes := by decide
  paired := rfl

def back : Way ℚ where
  id := 2
  nodeIds := [3, 4, 5]
  points := [3, 4, 5].map position
  tags := [("highway", "raceway")]
  two_nodes := by decide
  paired := rfl

/-- A gate across the first straight. -/
def straightGate : Gate ℚ := ⟨1 / 512, -1 / 8192, 1 / 512, 1 / 8192⟩

/-- A platform for ways without a name or a width, and a response without a time. -/
def plain : Platform ℚ := ⟨fun _ => none, fun a b => decide (a ≤ b), fun _ => none⟩

theorem flatMath_nonneg (x y : ℚ) : 0 ≤ flatMath.hypot x y :=
  add_nonneg (abs_nonneg x) (abs_nonneg y)

theorem flatMath_neg (x y : ℚ) : flatMath.hypot (-x) (-y) = flatMath.hypot x y := by
  show |(-x)| + |(-y)| = |x| + |y|
  rw [abs_neg, abs_neg]

theorem nearlyClosed_outAndBack : NearlyClosed flatMath (.binary64 ℚ) position [outAndBack] where
  ne_nil := List.cons_ne_nil _ _
  usable := by
    intro way hway
    rw [List.mem_singleton.mp hway]
    exact ⟨element 3 [1, 2, 3, 4, 5], rfl⟩
  placed := by
    intro way hway
    rw [List.mem_singleton.mp hway]
    rfl
  ids := by decide
  linked := List.isChain_singleton _
  stops := by decide
  near := by
    rintro first ⟨⟩ last ⟨⟩
    decide +kernel

theorem nearlyClosed_halves : NearlyClosed flatMath (.binary64 ℚ) position [outward, back] where
  ne_nil := List.cons_ne_nil _ _
  usable := by
    intro way hway
    rcases List.mem_pair.mp hway with rfl | rfl
    · exact ⟨element 1 [1, 2, 3], rfl⟩
    · exact ⟨element 2 [3, 4, 5], rfl⟩
  placed := by
    intro way hway
    rcases List.mem_pair.mp hway with rfl | rfl <;> rfl
  ids := by decide
  linked := List.isChain_cons_cons.mpr ⟨rfl, List.isChain_singleton _⟩
  stops := by decide
  near := by
    rintro first ⟨⟩ last ⟨⟩
    decide +kernel

/-- One way, listed in either direction: the gate lies on both rings. -/
theorem sameOutline_iff_outAndBack :
    OutlineFixed flatMath (.binary64 ℚ) [outAndBack] straightGate ∧
      ∀ left right : OverpassResponse ℚ, ListedAs [outAndBack] (usableWays left.elements) →
        ListedAs [outAndBack] (usableWays right.elements) →
        SameOutline (buildTrackMap plain flatMath (.binary64 ℚ) left straightGate)
          (buildTrackMap plain flatMath (.binary64 ℚ) right straightGate) := by
  have hfixed : OutlineFixed flatMath (.binary64 ℚ) [outAndBack] straightGate := by
    refine Or.inl ⟨outAndBack, rfl, Or.inr ⟨by decide +kernel, fun turned => ?_⟩⟩
    cases turned
    · exact ⟨⟨by decide +kernel, by decide +kernel⟩, 0, by decide +kernel, by decide +kernel⟩
    · exact ⟨⟨by decide +kernel, by decide +kernel⟩, 0, by decide +kernel, by decide +kernel⟩
  exact ⟨hfixed, (sameOutline_iff plain flatMath (.binary64 ℚ) flatMath_nonneg flatMath_neg
    Rounding.binary64_within nearlyClosed_outAndBack (by decide) straightGate).mpr hfixed⟩

/-- The reason of a rejection. -/
def reason? : BuildOutcome ℚ → Option String
  | .built .. => none
  | .rejected reason => some reason

theorem SameOutline.reason?_eq {left right : BuildOutcome ℚ} (h : SameOutline left right) :
    reason? left = reason? right := by
  cases left with
  | rejected reason =>
    cases right with
    | rejected reason' => exact congrArg some h
    | built => exact h.elim
  | built =>
    cases right with
    | rejected reason' => exact h.elim
    | built => rfl

/-- From the line to a hairpin 389 m north of it and back to 11 m from the line, at the doubles next to
these latitudes. -/
def hairpin : List (LatLon ℚ) :=
  [0, 23 / 10000, 35 / 10000, 1 / 10000].map fun lat => ⟨(Rounding.binary64 ℚ).round lat, 0⟩

/-- From the other end, it has another length. -/
example : polylineLengthM flatMath (.binary64 ℚ) hairpin.reverse
    ≠ polylineLengthM flatMath (.binary64 ℚ) hairpin := by decide +kernel

/-- **The halves in the other order**: listed first, the way back is walked alone, and the circuit that
is built from the one listing is not closed in the other. -/
theorem not_sameOutline_halves :
    NearlyClosed flatMath (.binary64 ℚ) position [outward, back] ∧
      reason? (buildTrackMap plain flatMath (.binary64 ℚ)
        ⟨[element 1 [1, 2, 3], element 2 [3, 4, 5]], none⟩ straightGate) = none ∧
      reason? (buildTrackMap plain flatMath (.binary64 ℚ)
        ⟨[element 2 [3, 4, 5], element 1 [1, 2, 3]], none⟩ straightGate)
          = some "ring-not-closed (855m gap)" ∧
      ¬ ∀ left right : OverpassResponse ℚ, ListedAs [outward, back] (usableWays left.elements) →
        ListedAs [outward, back] (usableWays right.elements) →
        SameOutline (buildTrackMap plain flatMath (.binary64 ℚ) left straightGate)
          (buildTrackMap plain flatMath (.binary64 ℚ) right straightGate) := by
  have hbuilt : reason? (buildTrackMap plain flatMath (.binary64 ℚ)
      ⟨[element 1 [1, 2, 3], element 2 [3, 4, 5]], none⟩ straightGate) = none := by decide +kernel
  have hopen : reason? (buildTrackMap plain flatMath (.binary64 ℚ)
      ⟨[element 2 [3, 4, 5], element 1 [1, 2, 3]], none⟩ straightGate)
        = some "ring-not-closed (855m gap)" := by decide +kernel
  refine ⟨nearlyClosed_halves, hbuilt, hopen, fun hsame => ?_⟩
  have hreasons := (hsame ⟨[element 1 [1, 2, 3], element 2 [3, 4, 5]], none⟩
    ⟨[element 2 [3, 4, 5], element 1 [1, 2, 3]], none⟩ ⟨fun _ => false, .refl _⟩
    ⟨fun _ => false, .swap _ _ _⟩).reason?_eq
  rw [hbuilt, hopen] at hreasons
  cases hreasons

end Example

end TelemetryCloud.OutlineListing
