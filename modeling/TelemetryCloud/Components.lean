import TelemetryCloud.TrackMapBuilder
import Mathlib.Logic.Relation

/-!
# The connected components of the ways

`largestConnectedComponent` on the map it writes to. The map has a parent for some ids only, its loop
need not end, and every `find` writes; so its calls are relations here.

* `Climbs`, `Finds`, `Unites`, `Step` : the loop of `find` and the calls;
* `Represents.climbs_iff` : **the loop ends at the root**, in a map that stands for a forest;
* `exists_represents` : **so does every map the calls can reach**;
* `RunsTo`, `runsTo_iff` : the groups a run makes are `groups`;
* `sameGroup_iff` : **the groups are the classes of ways that shared nodes lead between**;
* `components_exact` : **connected components are computed exactly**.
-/

namespace TelemetryCloud.Components

open TelemetryCloud.Geometry TelemetryCloud.Lists TelemetryCloud.UnionFind TrackMapBuilder

/-! ### The map `parent` -/

section ParentMap

variable {α : Type} [DecidableEq α]

/-- `Map<number, number>`. -/
abbrev ParentMap (α : Type) : Type := α → Option α

/-- The loop of `find`, from an id to the one it ends at. -/
inductive Climbs (parent : ParentMap α) : α → α → Prop
  | ends {a : α} (h : parent a = none ∨ parent a = some a) : Climbs parent a a
  | goes {a b root : α} (h : parent a = some b) (hne : b ≠ a) (hrest : Climbs parent b root) :
    Climbs parent a root

/-- `find`: the root, and the map it leaves. -/
structure Finds (parent : ParentMap α) (a root : α) (parent' : ParentMap α) : Prop where
  climbs : Climbs parent a root
  set : parent' = Function.update parent a (some root)

/-- `union`. -/
inductive Unites (parent : ParentMap α) (a b : α) : ParentMap α → Prop
  | one {root : α} {first second : ParentMap α} (ha : Finds parent a root first)
    (hb : Finds first b root second) : Unites parent a b second
  | two {ra rb : α} {first second : ParentMap α} (ha : Finds parent a ra first)
    (hb : Finds first b rb second) (hne : ra ≠ rb) :
    Unites parent a b (Function.update second ra (some rb))

/-- A call. -/
inductive Step : ParentMap α → ParentMap α → Prop
  | find {parent parent' : ParentMap α} {a root : α} (h : Finds parent a root parent') :
    Step parent parent'
  | union {parent parent' : ParentMap α} {a b : α} (h : Unites parent a b parent') :
    Step parent parent'

/-- The map before the unions: every id is its own parent. -/
def initial (ids : List α) : ParentMap α := fun a => if a ∈ ids then some a else none

/-- Every climb from an id of the map ends in one that is its own parent. -/
def IsForest (parent : ParentMap α) : Prop :=
  ∀ a, (parent a).isSome → ∃ root, Climbs parent a root ∧ parent root = some root

/-- The map stands for a forest, and a parent is an id of the map. -/
structure Represents (parent : ParentMap α) (forest : Forest α) : Prop where
  parent_eq : ∀ a, forest.parent a = (parent a).getD a
  closed : ∀ a b, parent a = some b → (parent b).isSome

variable {parent parent' : ParentMap α} {forest : Forest α} {a b root : α}

omit [DecidableEq α] in
theorem Represents.parent_eq_self_iff (h : Represents parent forest) :
    forest.parent a = a ↔ parent a = none ∨ parent a = some a := by
  rw [h.parent_eq]
  cases parent a <;> simp

/-- **The loop ends at the root.** -/
theorem Represents.climbs_iff (h : Represents parent forest) :
    Climbs parent a root ↔ root = forest.root a := by
  constructor
  · intro hclimbs
    induction hclimbs with
    | ends hends => exact (Forest.root_eq_self (h.parent_eq_self_iff.mpr hends)).symm
    | @goes a b root hparent _ _ ih =>
      have hb : forest.parent a = b := by rw [h.parent_eq, hparent, Option.getD_some]
      rw [ih, ← hb, Forest.root_parent]
  · rintro rfl
    obtain ⟨k, hk, hroot⟩ := forest.root_eq_iterate a
    rw [hk]
    clear hk
    induction k generalizing a with
    | zero => exact .ends (h.parent_eq_self_iff.mp hroot)
    | succ k ih =>
      by_cases hself : forest.parent a = a
      · rw [Function.iterate_fixed hself]
        exact .ends (h.parent_eq_self_iff.mp hself)
      · cases hparent : parent a with
        | none => exact absurd (h.parent_eq_self_iff.mpr (Or.inl hparent)) hself
        | some b =>
          have hb : forest.parent a = b := by rw [h.parent_eq, hparent, Option.getD_some]
          rw [Function.iterate_succ_apply, hb] at hroot ⊢
          exact .goes hparent (hb ▸ hself) (ih hroot)

omit [DecidableEq α] in
/-- A climb that went anywhere ended at an id of the map. -/
theorem Climbs.isSome (hclosed : ∀ a b, parent a = some b → (parent b).isSome)
    (h : Climbs parent a root) : root = a ∨ (parent root).isSome := by
  induction h with
  | ends _ => exact Or.inl rfl
  | @goes a b root hparent _ _ ih =>
    rcases ih with rfl | hsome
    · exact Or.inr (hclosed a root hparent)
    · exact Or.inr hsome

theorem represents_initial (ids : List α) : Represents (initial ids) Forest.single := by
  unfold initial
  refine ⟨fun a => ?_, fun a b hab => ?_⟩
  · show a = _
    split <;> rfl
  · split at hab
    · next ha =>
      cases hab
      rw [if_pos ha]
      rfl
    · cases hab

/-- **A find** finds the root and leaves a map for the shortened forest. -/
theorem Represents.find (h : Represents parent forest) (hfinds : Finds parent a root parent') :
    root = forest.root a ∧ Represents parent' (forest.find a).2 := by
  have hroot := h.climbs_iff.mp hfinds.climbs
  refine ⟨hroot, ?_, ?_⟩
  · intro c
    rw [hfinds.set, hroot, Function.update_apply]
    show (if c = a then forest.root a else forest.parent c) = _
    split
    · rfl
    · exact h.parent_eq c
  · intro c d hcd
    rw [hfinds.set, Function.update_apply] at hcd ⊢
    split
    · rfl
    · next hda =>
      split at hcd
      · cases hcd
        exact (hfinds.climbs.isSome h.closed).resolve_left hda
      · exact h.closed c d hcd

theorem Represents.exists_finds (h : Represents parent forest) (a : α) :
    ∃ parent', Finds parent a (forest.root a) parent' :=
  ⟨_, h.climbs_iff.mpr rfl, rfl⟩

/-- **A union** leaves a map for the forest with the two classes united. -/
theorem Represents.union (h : Represents parent forest) (hunites : Unites parent a b parent') :
    Represents parent' (forest.union a b) := by
  cases hunites with
  | one ha hb =>
    obtain ⟨hra, hfirst⟩ := h.find ha
    obtain ⟨hrb, hsecond⟩ := hfirst.find hb
    have hunion : forest.union a b = ((forest.find a).2.find b).2 :=
      if_pos (by rw [Forest.root_find, Forest.root_find, ← hra, ← hrb])
    rw [hunion]
    exact hsecond
  | @two ra rb first second ha hb hne =>
    obtain ⟨hra, hfirst⟩ := h.find ha
    obtain ⟨hrb, hsecond⟩ := hfirst.find hb
    have hra' : ra = (forest.find a).2.root a := by rw [Forest.root_find, hra]
    have hrb' : rb = ((forest.find a).2.find b).2.root b := by rw [Forest.root_find, hrb]
    have hunion : forest.union a b = ((forest.find a).2.find b).2.point _ _
        (Forest.parent_root _ b) := if_neg (by rw [← hra', ← hrb']; exact hne)
    rw [hunion]
    refine ⟨fun c => ?_, fun c d hcd => ?_⟩
    · rw [Forest.point_parent, ← hra', ← hrb', Function.update_apply]
      split
      · rfl
      · exact hsecond.parent_eq c
    · -- `rb` is an id of the map, since `find` set it as a parent
      have hset : second b = some rb := by rw [hb.set, Function.update_self]
      rw [Function.update_apply] at hcd ⊢
      split
      · rfl
      · split at hcd
        · cases hcd
          exact hsecond.closed b rb hset
        · exact hsecond.closed c d hcd

theorem Represents.exists_unites (h : Represents parent forest) (a b : α) :
    ∃ parent', Unites parent a b parent' := by
  obtain ⟨first, ha⟩ := h.exists_finds a
  obtain ⟨second, hb⟩ := (h.find ha).2.exists_finds b
  by_cases hne : forest.root a = (forest.find a).2.root b
  · exact ⟨second, .one ha (hne ▸ hb)⟩
  · exact ⟨_, .two ha hb hne⟩

/-- **Every map the calls can reach stands for a forest.** -/
theorem exists_represents {ids : List α} (h : Relation.ReflTransGen Step (initial ids) parent) :
    ∃ forest, Represents parent forest := by
  induction h with
  | refl => exact ⟨_, represents_initial ids⟩
  | tail _ hstep ih =>
    obtain ⟨forest, hforest⟩ := ih
    cases hstep with
    | find hfinds => exact ⟨_, (hforest.find hfinds).2⟩
    | union hunites => exact ⟨_, hforest.union hunites⟩

theorem Represents.isForest (h : Represents parent forest) : IsForest parent := by
  intro a ha
  refine ⟨forest.root a, h.climbs_iff.mpr rfl, ?_⟩
  have hclimbs : Climbs parent a (forest.root a) := h.climbs_iff.mpr rfl
  have hsome : (parent (forest.root a)).isSome := by
    rcases hclimbs.isSome h.closed with hself | hsome
    · rw [hself]
      exact ha
    · exact hsome
  rcases h.parent_eq_self_iff.mp (Forest.parent_root forest a) with hnone | hroot
  · rw [hnone] at hsome
    cases hsome
  · exact hroot

/-- A run of unions. -/
inductive UnitesAll : ParentMap α → List (α × α) → ParentMap α → Prop
  | nil {parent : ParentMap α} : UnitesAll parent [] parent
  | cons {parent parent' parent'' : ParentMap α} {pair : α × α} {pairs : List (α × α)}
    (h : Unites parent pair.1 pair.2 parent') (hrest : UnitesAll parent' pairs parent'') :
    UnitesAll parent (pair :: pairs) parent''

theorem Represents.unitesAll {pairs : List (α × α)} (h : Represents parent forest)
    (hunites : UnitesAll parent pairs parent') : Represents parent' (forest.unions pairs) := by
  induction hunites generalizing forest with
  | nil => exact h
  | cons hpair _ ih => exact ih (h.union hpair)

theorem Represents.exists_unitesAll (pairs : List (α × α)) (h : Represents parent forest) :
    ∃ parent', UnitesAll parent pairs parent' := by
  induction pairs generalizing parent forest with
  | nil => exact ⟨parent, .nil⟩
  | cons pair pairs ih =>
    obtain ⟨next, hnext⟩ := h.exists_unites pair.1 pair.2
    obtain ⟨parent', hrest⟩ := ih (h.union hnext)
    exact ⟨parent', .cons hnext hrest⟩

end ParentMap

/-! ### The groups -/

section Groups

variable {K : Type}

/-- The loop over the ways, each to the group of its root. -/
inductive Collects : ParentMap ℕ → List (Way K) → List (ℕ × List (Way K)) →
    List (ℕ × List (Way K)) → Prop
  | nil {parent : ParentMap ℕ} {index : List (ℕ × List (Way K))} : Collects parent [] index index
  | cons {parent parent' : ParentMap ℕ} {way : Way K} {ways : List (Way K)} {root : ℕ}
    {index result : List (ℕ × List (Way K))} (h : Finds parent way.id root parent')
    (hrest : Collects parent' ways (push root way index) result) :
    Collects parent (way :: ways) index result

/-- A run of `largestConnectedComponent` up to its groups. -/
def RunsTo (ways : List (Way K)) (result : List (ℕ × List (Way K))) : Prop :=
  ∃ parent, UnitesAll (initial (ways.map Way.id)) (joinedPairs ways) parent ∧
    Collects parent ways [] result

theorem collects_iff {parent : ParentMap ℕ} {forest : Forest ℕ} (h : Represents parent forest)
    (ways : List (Way K)) (index result : List (ℕ × List (Way K))) :
    Collects parent ways index result ↔
      result = (ways.foldl (fun (state : Forest ℕ × List (ℕ × List (Way K))) way =>
        let found := state.1.find way.id
        (found.2, push found.1 way state.2)) (forest, index)).2 := by
  induction ways generalizing parent forest index with
  | nil =>
    constructor
    · intro hcollects
      cases hcollects
      rfl
    · rintro rfl
      exact .nil
  | cons way ways ih =>
    rw [List.foldl_cons]
    constructor
    · intro hcollects
      cases hcollects with
      | cons hfinds hrest =>
        obtain ⟨rfl, hnext⟩ := h.find hfinds
        exact (ih hnext _).mp hrest
    · intro hresult
      obtain ⟨next, hfinds⟩ := h.exists_finds way.id
      exact .cons hfinds ((ih (h.find hfinds).2 _).mpr hresult)

/-- **A run ends, and its groups are `groups`.** -/
theorem runsTo_iff (ways : List (Way K)) (result : List (ℕ × List (Way K))) :
    RunsTo ways result ↔ result = groups ways := by
  have hinitial := represents_initial (ways.map Way.id)
  have hjoined : ∀ {parent}, UnitesAll (initial (ways.map Way.id)) (joinedPairs ways) parent →
      Represents parent (joined ways) := fun hunites => joined_eq ways ▸ hinitial.unitesAll hunites
  constructor
  · rintro ⟨parent, hunites, hcollects⟩
    exact (collects_iff (hjoined hunites) ways [] result).mp hcollects
  · intro hresult
    obtain ⟨parent, hunites⟩ := hinitial.exists_unitesAll (joinedPairs ways)
    exact ⟨parent, hunites, (collects_iff (hjoined hunites) ways [] result).mpr hresult⟩

/-- A way has an end at the node. -/
def EndsAt (way : Way K) (node : ℕ) : Prop := way.start = node ∨ way.finish = node

/-- Two ways of the list share an endpoint node. -/
def Shares (ways : List (Way K)) (v w : Way K) : Prop :=
  v ∈ ways ∧ w ∈ ways ∧ ∃ node, EndsAt v node ∧ EndsAt w node

theorem Shares.symm {ways : List (Way K)} {v w : Way K} (h : Shares ways v w) : Shares ways w v :=
  ⟨h.2.1, h.1, h.2.2.imp fun _ hnode => hnode.symm⟩

variable {ways : List (Way K)}

/-- Two ids of ways that meet at a node. -/
def Meets (ways : List (Way K)) (a b : ℕ) : Prop :=
  ∃ node, a ∈ bucket node (endpointIndex ways) ∧ b ∈ bucket node (endpointIndex ways)

theorem Meets.symm {a b : ℕ} (h : Meets ways a b) : Meets ways b a := h.imp fun _ => And.symm

theorem Meets.exists_shares (hids : (ways.map Way.id).Nodup) {a b : ℕ} (h : Meets ways a b)
    {v : Way K} (hv : v ∈ ways) (hva : v.id = a) : ∃ w ∈ ways, w.id = b ∧ Shares ways v w := by
  obtain ⟨node, ha, hb⟩ := h
  obtain ⟨v', hv', hva', hend⟩ := mem_endpointIndex.mp ha
  obtain ⟨w, hw, hwb, hend'⟩ := mem_endpointIndex.mp hb
  obtain rfl := List.inj_on_of_nodup_map hids hv hv' (hva.trans hva'.symm)
  exact ⟨w, hw, hwb, hv, hw, node, hend, hend'⟩

/-- What joins two ids leads from the way of the one to a way of the other, in either direction. -/
theorem exists_reflTransGen (hids : (ways.map Way.id).Nodup) {a b : ℕ}
    (h : Relation.EqvGen (Meets ways) a b) :
    (∀ v ∈ ways, v.id = a → ∃ w ∈ ways, w.id = b ∧ Relation.ReflTransGen (Shares ways) v w) ∧
      ∀ w ∈ ways, w.id = b → ∃ v ∈ ways, v.id = a ∧ Relation.ReflTransGen (Shares ways) w v := by
  induction h with
  | rel a b hmeets =>
    constructor
    · intro v hv hva
      obtain ⟨w, hw, hwb, hshares⟩ := hmeets.exists_shares hids hv hva
      exact ⟨w, hw, hwb, .single hshares⟩
    · intro w hw hwb
      obtain ⟨v, hv, hva, hshares⟩ := hmeets.symm.exists_shares hids hw hwb
      exact ⟨v, hv, hva, .single hshares⟩
  | refl a => exact ⟨fun v hv hva => ⟨v, hv, hva, .refl⟩, fun v hv hva => ⟨v, hv, hva, .refl⟩⟩
  | symm a b _ ih => exact ih.symm
  | trans a b c _ _ ih ih' =>
    constructor
    · intro u hu hua
      obtain ⟨v, hv, hvb, huv⟩ := ih.1 u hu hua
      obtain ⟨w, hw, hwc, hvw⟩ := ih'.1 v hv hvb
      exact ⟨w, hw, hwc, huv.trans hvw⟩
    · intro w hw hwc
      obtain ⟨v, hv, hvb, hwv⟩ := ih'.2 w hw hwc
      obtain ⟨u, hu, hua, hvu⟩ := ih.2 v hv hvb
      exact ⟨u, hu, hua, hwv.trans hvu⟩

/-- **Two ways have one root** exactly when shared nodes lead from the one to the other. -/
theorem root_eq_iff (hids : (ways.map Way.id).Nodup) {v w : Way K} (hv : v ∈ ways) (hw : w ∈ ways) :
    (joined ways).root v.id = (joined ways).root w.id ↔
      Relation.ReflTransGen (Shares ways) v w := by
  refine (root_joined_iff ways v.id w.id).trans ⟨fun h => ?_, fun h => ?_⟩
  · obtain ⟨w', hw', hid, hreach⟩ := (exists_reflTransGen hids h).1 v hv rfl
    obtain rfl := List.inj_on_of_nodup_map hids hw' hw hid
    exact hreach
  · clear hw
    induction h with
    | refl => exact .refl _
    | tail _ hshares ih =>
      obtain ⟨hv', hw', node, hend, hend'⟩ := hshares
      exact ih.trans _ _ _ (.rel _ _ ⟨node, mem_endpointIndex.mpr ⟨_, hv', rfl, hend⟩,
        mem_endpointIndex.mpr ⟨_, hw', rfl, hend'⟩⟩)

theorem mem_group {entry : ℕ × List (Way K)} (hentry : entry ∈ groups ways) {way : Way K}
    (hway : way ∈ entry.2) : way ∈ ways ∧ (joined ways).root way.id = entry.1 := by
  rw [groups_eq] at hentry
  obtain ⟨v, hv, hpair⟩ := List.mem_map.mp (mem_of_mem_grouped hentry hway)
  obtain ⟨hroot, rfl⟩ := Prod.mk.inj hpair
  exact ⟨hv, hroot⟩

theorem exists_group {way : Way K} (hway : way ∈ ways) : ∃ group,
    ((joined ways).root way.id, group) ∈ groups ways ∧ way ∈ group := by
  rw [groups_eq]
  have hmem : way ∈ bucket ((joined ways).root way.id)
      (grouped (ways.map fun way => ((joined ways).root way.id, way))) :=
    mem_bucket_grouped.mpr (List.mem_map_of_mem hway)
  exact ⟨_, bucket_mem (List.ne_nil_of_mem hmem), hmem⟩

/-- Two groups with one root are one. -/
theorem group_eq {entry entry' : ℕ × List (Way K)} (hentry : entry ∈ groups ways)
    (hentry' : entry' ∈ groups ways) (hroot : entry.1 = entry'.1) : entry = entry' := by
  rw [groups_eq] at hentry hentry'
  exact List.inj_on_of_nodup_map (nodup_keys_grouped _) hentry hentry' hroot

/-- **The groups are the classes** of ways that shared nodes lead between. -/
theorem sameGroup_iff (hids : (ways.map Way.id).Nodup) {v w : Way K} (hv : v ∈ ways)
    (hw : w ∈ ways) :
    (∃ entry ∈ groups ways, v ∈ entry.2 ∧ w ∈ entry.2) ↔
      Relation.ReflTransGen (Shares ways) v w := by
  rw [← root_eq_iff hids hv hw]
  constructor
  · rintro ⟨entry, hentry, hv', hw'⟩
    exact (mem_group hentry hv').2.trans (mem_group hentry hw').2.symm
  · intro hroot
    obtain ⟨group, hgroup, hv'⟩ := exists_group hv
    obtain ⟨group', hgroup', hw'⟩ := exists_group hw
    have hsame : group = group' := congrArg Prod.snd (group_eq hgroup hgroup' hroot)
    exact ⟨_, hgroup, hv', hsame ▸ hw'⟩

theorem existsUnique_group {way : Way K} (hway : way ∈ ways) :
    ∃! entry, entry ∈ groups ways ∧ way ∈ entry.2 := by
  obtain ⟨group, hgroup, hmem⟩ := exists_group hway
  refine ⟨_, ⟨hgroup, hmem⟩, fun entry hentry => group_eq hentry.1 hgroup ?_⟩
  exact (mem_group hentry.1 hentry.2).2.symm

theorem groups_perm (ways : List (Way K)) : ((groups ways).flatMap Prod.snd).Perm ways := by
  rw [groups_eq]
  refine (flatMap_grouped_perm _).trans ?_
  rw [List.map_map]
  exact List.Perm.of_eq (List.map_id ways)

end Groups

/-! ### The longest group -/

section Longest

variable {K : Type} [Field K] [LinearOrder K] [IsStrictOrderedRing K] (M : MathLib K) (R : Rounding K)

omit [IsStrictOrderedRing K] in
/-- The loop over the groups keeps a longest one, or what it began with. -/
theorem longest_spec (index : List (ℕ × List (Way K))) (best : List (Way K) × K) :
    let kept := index.foldl (fun (best : List (Way K) × K) entry =>
      if best.2 < groupLengthM M R entry.2 then (entry.2, groupLengthM M R entry.2) else best) best
    (kept = best ∨ ∃ entry ∈ index, kept = (entry.2, groupLengthM M R entry.2)) ∧
      best.2 ≤ kept.2 ∧ ∀ entry ∈ index, groupLengthM M R entry.2 ≤ kept.2 := by
  induction index generalizing best with
  | nil => exact ⟨Or.inl rfl, le_rfl, fun entry h => absurd h List.not_mem_nil⟩
  | cons first index ih =>
    rw [List.foldl_cons]
    obtain ⟨hkept, hbest, hall⟩ := ih (if best.2 < groupLengthM M R first.2 then
      (first.2, groupLengthM M R first.2) else best)
    refine ⟨?_, ?_, ?_⟩
    · rcases hkept with hkept | ⟨entry, hentry, hkept⟩
      · rw [hkept]
        split
        · exact Or.inr ⟨first, List.mem_cons_self, rfl⟩
        · exact Or.inl rfl
      · exact Or.inr ⟨entry, List.mem_cons_of_mem _ hentry, hkept⟩
    · refine le_trans ?_ hbest
      split
      · next hlonger => exact hlonger.le
      · exact le_rfl
    · intro entry hentry
      rcases List.mem_cons.mp hentry with rfl | hentry
      · refine le_trans ?_ hbest
        split
        · exact le_rfl
        · next hlonger => exact not_lt.mp hlonger
      · exact hall entry hentry

/-- **Connected components are computed exactly.** Every map the calls can reach is a forest in which
every `find` ends; a run makes the groups; these are the classes of ways that shared nodes lead
between, with every way in one of them; and the longest is returned. -/
theorem components_exact (hnonneg : ∀ x y, 0 ≤ M.hypot x y) (ways : List (Way K))
    (hids : (ways.map Way.id).Nodup) :
    (∀ parent, Relation.ReflTransGen Step (initial (ways.map Way.id)) parent →
      IsForest parent ∧ ∀ id, ∃ root, Climbs parent id root) ∧
    (∀ result, RunsTo ways result ↔ result = groups ways) ∧
    (∀ v ∈ ways, ∀ w ∈ ways, (∃ entry ∈ groups ways, v ∈ entry.2 ∧ w ∈ entry.2) ↔
      Relation.ReflTransGen (Shares ways) v w) ∧
    (∀ way ∈ ways, ∃! entry, entry ∈ groups ways ∧ way ∈ entry.2) ∧
    ((groups ways).flatMap Prod.snd).Perm ways ∧
    (ways ≠ [] → ∃ entry ∈ groups ways, largestConnectedComponent M R ways = entry.2 ∧
      ∀ other ∈ groups ways, groupLengthM M R other.2 ≤ groupLengthM M R entry.2) := by
  refine ⟨?_, runsTo_iff ways, fun v hv w hw => sameGroup_iff hids hv hw,
    fun way hway => existsUnique_group hway, groups_perm ways, fun hne => ?_⟩
  · intro parent hreach
    obtain ⟨forest, hforest⟩ := exists_represents hreach
    exact ⟨hforest.isForest, fun id => ⟨forest.root id, hforest.climbs_iff.mpr rfl⟩⟩
  · obtain ⟨way, hway⟩ := List.exists_mem_of_ne_nil ways hne
    obtain ⟨group, hgroup, -⟩ := exists_group hway
    obtain ⟨hkept, -, hall⟩ := longest_spec M R (groups ways) ([], -1)
    rcases hkept with hkept | ⟨entry, hentry, hkept⟩
    · -- some group is longer than -1
      have hlong := hall _ hgroup
      rw [hkept] at hlong
      have hpos := groupLengthM_nonneg M R hnonneg group
      exact absurd (hpos.trans hlong) (not_le.mpr (neg_lt_zero.mpr one_pos))
    · rw [hkept] at hall
      exact ⟨entry, hentry, congrArg Prod.fst hkept, hall⟩

end Longest

section Example

/-- A straight way between two nodes, each at its own latitude. -/
def straight (id a b : ℕ) : Way ℚ where
  id := id
  nodeIds := [a, b]
  points := [⟨a / 1000, 0⟩, ⟨b / 1000, 0⟩]
  tags := []
  two_nodes := Nat.le_refl 2
  paired := rfl

/-- Two ways that meet at a node, and a closed one between them in the list. -/
def twoPieces : List (Way ℚ) := [straight 1 10 11, straight 2 20 20, straight 3 12 11]

theorem components_exact_twoPieces :
    (largestConnectedComponent LapSegmenter.flatMath (.binary64 ℚ) twoPieces).map Way.id = [1, 3] ∧
      Relation.ReflTransGen (Shares twoPieces) (straight 1 10 11) (straight 3 12 11) := by
  obtain ⟨-, -, hclasses, -⟩ := components_exact LapSegmenter.flatMath (.binary64 ℚ)
    (fun x y => add_nonneg (abs_nonneg x) (abs_nonneg y)) twoPieces (by decide +kernel)
  have hgroups : groups twoPieces =
      [(3, [straight 1 10 11, straight 3 12 11]), (2, [straight 2 20 20])] := rfl
  refine ⟨by decide +kernel, ?_⟩
  refine (hclasses _ List.mem_cons_self _
    (List.mem_cons_of_mem _ (List.mem_cons_of_mem _ List.mem_cons_self))).mp ?_
  exact ⟨_, hgroups ▸ List.mem_cons_self, List.mem_cons_self,
    List.mem_cons_of_mem _ List.mem_cons_self⟩

end Example

end TelemetryCloud.Components
