import Mathlib.Data.List.Forall2
import Mathlib.Data.List.Chain
import Mathlib.Data.List.Count
import Mathlib.Logic.Relation

/-!
# Trails in an undirected multigraph

A list of edges, each with two ends: several edges may have the same ends, and the two ends of one
edge may be one vertex.  A trail goes along edges, each in one of its directions.

* `degree` : how many ends of edges lie at a vertex;
* `Trail.degree_mod_two` : a trail leaves every vertex as often as it comes there, its own two ends
  apart;
* `Trail.closed` : where every vertex has an even degree, **a trail that cannot go on is back at its
  start**;
* `Trail.whole` : in a connected graph in which every end of an edge has degree two, **it has gone
  along every edge**.
-/

namespace TelemetryCloud.Trails

variable {E V : Type} {ends : E → V × V}

def Touches (ends : E → V × V) (e : E) (v : V) : Prop := (ends e).1 = v ∨ (ends e).2 = v

/-- The two edges have the same ends, perhaps in the other order. -/
def Alike (ends : E → V × V) (e f : E) : Prop := ends e = ends f ∨ ends e = (ends f).swap

/-- Two edges of the list meet at a vertex. -/
def Meet (ends : E → V × V) (edges : List E) (e f : E) : Prop :=
  e ∈ edges ∧ f ∈ edges ∧ ∃ v, Touches ends e v ∧ Touches ends f v

/-- The edges, in order and each from its first end to its second, go from `a` to `b`. -/
inductive Trail (ends : E → V × V) : V → List E → V → Prop
  | single (e : E) : Trail ends (ends e).1 [e] (ends e).2
  | snoc {a : V} {run : List E} {e : E} (h : Trail ends a run (ends e).1) :
    Trail ends a (run ++ [e]) (ends e).2

theorem Alike.touches_iff {e f : E} (h : Alike ends e f) (v : V) :
    Touches ends e v ↔ Touches ends f v := by
  unfold Touches
  rcases h with h | h
  · rw [h]
  · rw [h]
    exact or_comm

/-! ### Degrees -/

section Degree

variable [DecidableEq V]

/-- The number of ends of edges that lie at a vertex. -/
def degree (ends : E → V × V) (edges : List E) (v : V) : ℕ :=
  (edges.flatMap fun e => [(ends e).1, (ends e).2]).count v

@[simp] theorem degree_nil (v : V) : degree ends [] v = 0 := rfl

theorem degree_single (e : E) (v : V) : degree ends [e] v
    = (if (ends e).1 = v then 1 else 0) + (if (ends e).2 = v then 1 else 0) := by
  show List.count v [(ends e).1, (ends e).2] = _
  rw [List.count_cons, List.count_cons, List.count_nil]
  simp only [beq_iff_eq]
  omega

theorem degree_append (left right : List E) (v : V) :
    degree ends (left ++ right) v = degree ends left v + degree ends right v := by
  unfold degree
  rw [List.flatMap_append, List.count_append]

theorem degree_cons (e : E) (edges : List E) (v : V) :
    degree ends (e :: edges) v = degree ends [e] v + degree ends edges v :=
  degree_append [e] edges v

theorem degree_perm {edges edges' : List E} (h : edges.Perm edges') (v : V) :
    degree ends edges v = degree ends edges' v :=
  (h.flatMap_right _).count_eq v

theorem Alike.degree_single {e f : E} (h : Alike ends e f) (v : V) :
    degree ends [e] v = degree ends [f] v := by
  rw [Trails.degree_single, Trails.degree_single]
  rcases h with h | h
  · rw [h]
  · rw [h]
    exact Nat.add_comm _ _

/-- Degrees do not depend on the directions. -/
theorem degree_alike {edges edges' : List E} (h : List.Forall₂ (Alike ends) edges edges') (v : V) :
    degree ends edges v = degree ends edges' v := by
  induction h with
  | nil => rfl
  | @cons e f edges edges' halike _ ih =>
    rw [degree_cons e, degree_cons f, halike.degree_single, ih]

theorem degree_pos_of_mem {edges : List E} {e : E} (he : e ∈ edges) {v : V}
    (h : Touches ends e v) : 0 < degree ends edges v := by
  refine List.count_pos_iff.mpr (List.mem_flatMap.mpr ⟨e, he, ?_⟩)
  rcases h with rfl | rfl
  · exact List.mem_cons_self
  · exact List.mem_cons_of_mem _ List.mem_cons_self

theorem exists_touches {edges : List E} {v : V} (h : 0 < degree ends edges v) :
    ∃ e ∈ edges, Touches ends e v := by
  obtain ⟨e, he, hv⟩ := List.mem_flatMap.mp (List.count_pos_iff.mp h)
  refine ⟨e, he, ?_⟩
  simp only [List.mem_cons, List.not_mem_nil, or_false] at hv
  exact hv.imp Eq.symm Eq.symm

end Degree

/-! ### Trails -/

namespace Trail

variable {a b : V} {run : List E}

theorem exists_cons (h : Trail ends a run b) :
    ∃ first rest, run = first :: rest ∧ (ends first).1 = a := by
  induction h with
  | single e => exact ⟨e, [], rfl, rfl⟩
  | snoc _ ih =>
    obtain ⟨first, rest, rfl, hfirst⟩ := ih
    exact ⟨first, _, List.cons_append, hfirst⟩

theorem exists_concat (h : Trail ends a run b) :
    ∃ init last, run = init ++ [last] ∧ (ends last).2 = b := by
  cases h with
  | single e => exact ⟨[], e, rfl, rfl⟩
  | snoc _ => exact ⟨_, _, rfl, rfl⟩

/-- Every edge of a trail ends where the next one begins. -/
theorem isChain (h : Trail ends a run b) : run.IsChain fun e f => (ends e).2 = (ends f).1 := by
  induction h with
  | single e => exact List.isChain_singleton e
  | snoc h ih =>
    obtain ⟨init, last, rfl, hlast⟩ := h.exists_concat
    refine List.isChain_append.mpr ⟨ih, List.isChain_singleton _, ?_⟩
    intro e he f hf
    rw [List.getLast?_concat] at he
    cases he
    cases hf
    exact hlast

variable [DecidableEq V]

/-- **A trail leaves a vertex as often as it comes there**, its start and its end apart. -/
theorem degree_mod_two (h : Trail ends a run b) (v : V) :
    (degree ends run v + (if a = v then 1 else 0) + (if b = v then 1 else 0)) % 2 = 0 := by
  induction h with
  | single e =>
    rw [degree_single]
    omega
  | snoc _ ih =>
    rw [degree_append, degree_single]
    omega

/-- **A trail that cannot go on is closed**, where the degree of its end is even. -/
theorem closed {rest : List E} (h : Trail ends a run b)
    (heven : degree ends (run ++ rest) b % 2 = 0) (hstuck : ∀ e ∈ rest, ¬ Touches ends e b) :
    a = b := by
  by_contra hne
  have hrest : degree ends rest b = 0 := by
    refine Nat.eq_zero_of_not_pos fun hpos => ?_
    obtain ⟨e, he, htouch⟩ := exists_touches hpos
    exact hstuck e he htouch
  have hodd := h.degree_mod_two b
  rw [if_neg hne, if_pos rfl] at hodd
  rw [degree_append, hrest] at heven
  omega

/-- A closed trail takes up both ends of edges at each of its vertices, where there are two. -/
theorem not_touches_rest {rest : List E} (h : Trail ends a run a) {v : V}
    (hrun : 0 < degree ends run v) (htwo : degree ends (run ++ rest) v = 2) :
    ∀ f ∈ rest, ¬ Touches ends f v := by
  intro f hf hfv
  have hrest := degree_pos_of_mem hf hfv
  have heven := h.degree_mod_two v
  rw [degree_append] at htwo
  omega

end Trail

/-- Edges alike in pairs meet where the others do. -/
theorem isChain_alike {walked run : List E} (h : List.Forall₂ (Alike ends) walked run)
    (hrun : run.IsChain fun e f => (ends e).2 = (ends f).1) :
    walked.IsChain fun e f => ∃ v, Touches ends e v ∧ Touches ends f v := by
  induction h with
  | nil => exact List.isChain_nil
  | cons he hrest ih =>
    cases hrest with
    | nil => exact List.isChain_singleton _
    | cons hf hrest =>
      obtain ⟨hlink, htail⟩ := List.isChain_cons_cons.mp hrun
      refine List.isChain_cons_cons.mpr ⟨?_, ih htail⟩
      exact ⟨_, (he.touches_iff _).mpr (Or.inr rfl), (hf.touches_iff _).mpr (Or.inl hlink.symm)⟩

/-- **A trail that cannot go on is whole** in a connected graph in which every end of an edge has
degree two: it is back at its start and has gone along every edge. -/
theorem Trail.whole [DecidableEq V] {edges walked run rest : List E} {a b : V}
    (h : Trail ends a run b) (hperm : (walked ++ rest).Perm edges)
    (halike : List.Forall₂ (Alike ends) walked run)
    (htwo : ∀ e ∈ edges, ∀ v, Touches ends e v → degree ends edges v = 2)
    (hconnected : ∀ e ∈ edges, ∀ f ∈ edges, Relation.ReflTransGen (Meet ends edges) e f)
    (hstuck : ∀ e ∈ rest, ¬ Touches ends e b) : a = b ∧ rest = [] := by
  have hdegree : ∀ v, degree ends (run ++ rest) v = degree ends edges v := by
    intro v
    rw [degree_append, ← degree_alike halike, ← degree_append, degree_perm hperm]
  have hedges : ∀ e ∈ walked, e ∈ edges := fun e he =>
    hperm.subset (List.mem_append_left rest he)
  -- the last edge of the trail is one of those walked, in one of its directions
  obtain ⟨last, hlast, hlastTouches⟩ : ∃ e ∈ walked, Touches ends e b := by
    obtain ⟨init, e, rfl, he⟩ := h.exists_concat
    refine exists_touches ?_
    rw [degree_alike halike]
    exact degree_pos_of_mem (List.mem_append_right init List.mem_cons_self) (Or.inr he)
  have hclosed : a = b := by
    refine h.closed ?_ hstuck
    rw [hdegree, htwo last (hedges last hlast) b hlastTouches]
  subst hclosed
  -- what meets an edge that was walked was walked as well
  have hstep : ∀ e ∈ walked, ∀ f, Meet ends edges e f → f ∈ walked := by
    rintro e he f ⟨-, hf, v, hev, hfv⟩
    refine (List.mem_append.mp (hperm.mem_iff.mpr hf)).resolve_right fun hfrest => ?_
    have hrun : 0 < degree ends run v := by
      rw [← degree_alike halike]
      exact degree_pos_of_mem he hev
    exact h.not_touches_rest hrun ((hdegree v).trans (htwo e (hedges e he) v hev)) f hfrest hfv
  have hall : ∀ e ∈ edges, e ∈ walked := by
    intro e he
    induction hconnected last (hedges last hlast) e he with
    | refl => exact hlast
    | tail _ hmeet ih => exact hstep _ (ih hmeet.1) _ hmeet
  refine ⟨rfl, List.eq_nil_iff_forall_not_mem.mpr fun f hf => ?_⟩
  -- an edge that is left over would be touched at its ends by the trail
  have hfwalked := hall f (hperm.subset (List.mem_append_right walked hf))
  have hrun : 0 < degree ends run (ends f).1 := by
    rw [← degree_alike halike]
    exact degree_pos_of_mem hfwalked (Or.inl rfl)
  exact h.not_touches_rest hrun
    ((hdegree _).trans (htwo f (hedges f hfwalked) _ (Or.inl rfl))) f hf (Or.inl rfl)

end TelemetryCloud.Trails
