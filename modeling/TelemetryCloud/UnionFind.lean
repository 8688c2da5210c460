import Mathlib.Logic.Function.Iterate
import Mathlib.Data.Setoid.Basic

/-!
# Union-find

A forest over any type, as a map to parents in which a root is its own, with a bound on how far the
root of anything is; so a climb that the bound limits always ends in a root.

* `climb`, `Forest.root`, `Forest.find`, `Forest.union` : the loop to the root, with the shortening
  of the path, and the union of two classes;
* `Forest.root_eq_of` : a map that stays at the roots and is the same along the parents is the map
  to the roots;
* `Forest.root_union` : what a union does to every root;
* `Forest.root_unions_iff`, `Forest.root_unions_single_iff` : **a run of unions computes the
  equivalence the pairs generate**.
-/

namespace TelemetryCloud.UnionFind

variable {α : Type*} [DecidableEq α]

/-- On to the parent, until one is its own. -/
def climb (parent : α → α) : ℕ → α → α
  | 0, a => a
  | fuel + 1, a => if parent a = a then a else climb parent fuel (parent a)

theorem climb_eq {parent : α → α} {a : α} {k : ℕ}
    (hroot : parent (parent^[k] a) = parent^[k] a) {fuel : ℕ} (hk : k ≤ fuel) :
    climb parent fuel a = parent^[k] a := by
  induction fuel generalizing a k with
  | zero =>
    obtain rfl := Nat.le_zero.mp hk
    rfl
  | succ fuel ih =>
    rw [climb]
    by_cases ha : parent a = a
    · rw [if_pos ha, Function.iterate_fixed ha]
    · rw [if_neg ha]
      cases k with
      | zero => exact absurd hroot ha
      | succ k => exact ih hroot (Nat.le_of_succ_le_succ hk)

/-- A map to parents from which every climb of at most `height` steps reaches a root. -/
structure Forest (α : Type*) where
  parent : α → α
  height : ℕ
  rooted : ∀ a, ∃ k ≤ height, parent (parent^[k] a) = parent^[k] a

namespace Forest

/-- Everything on its own. -/
def single : Forest α := ⟨id, 0, fun _ => ⟨0, Nat.le_refl 0, rfl⟩⟩

def root (forest : Forest α) (a : α) : α := climb forest.parent forest.height a

variable {forest : Forest α}

theorem root_eq_iterate (forest : Forest α) (a : α) :
    ∃ k, forest.root a = forest.parent^[k] a ∧
      forest.parent (forest.parent^[k] a) = forest.parent^[k] a := by
  obtain ⟨k, hk, hroot⟩ := forest.rooted a
  exact ⟨k, climb_eq hroot hk, hroot⟩

@[simp] theorem parent_root (forest : Forest α) (a : α) :
    forest.parent (forest.root a) = forest.root a := by
  obtain ⟨k, hk, hroot⟩ := forest.root_eq_iterate a
  rw [hk]
  exact hroot

/-- **The map to the roots** is the one that stays at them and is the same along the parents. -/
theorem root_eq_of {r : α → α} (hstay : ∀ a, forest.parent a = a → r a = a)
    (hstep : ∀ a, r (forest.parent a) = r a) (a : α) : forest.root a = r a := by
  obtain ⟨k, hk, hroot⟩ := forest.root_eq_iterate a
  have halong : r (forest.parent^[k] a) = r a := by
    clear hk hroot
    induction k generalizing a with
    | zero => rfl
    | succ k ih => exact (ih (forest.parent a)).trans (hstep a)
  calc forest.root a = forest.parent^[k] a := hk
    _ = r (forest.parent^[k] a) := (hstay _ hroot).symm
    _ = r a := halong

theorem root_eq_self {a : α} (h : forest.parent a = a) : forest.root a = a := by
  obtain ⟨k, hk, -⟩ := forest.root_eq_iterate a
  rw [hk, Function.iterate_fixed h]

@[simp] theorem root_root (forest : Forest α) (a : α) :
    forest.root (forest.root a) = forest.root a :=
  root_eq_self (parent_root forest a)

/-- Wherever a climb stays, it stays at the root. -/
theorem root_eq_of_fixed {a : α} {k : ℕ}
    (hk : forest.parent (forest.parent^[k] a) = forest.parent^[k] a) :
    forest.root a = forest.parent^[k] a := by
  obtain ⟨j, hj, hroot⟩ := forest.root_eq_iterate a
  rw [hj]
  rcases Nat.le_total j k with hjk | hkj
  · obtain ⟨d, rfl⟩ := Nat.exists_eq_add_of_le' hjk
    rw [Function.iterate_add_apply, Function.iterate_fixed hroot]
  · obtain ⟨d, rfl⟩ := Nat.exists_eq_add_of_le' hkj
    rw [Function.iterate_add_apply, Function.iterate_fixed hk]

@[simp] theorem root_parent (forest : Forest α) (a : α) :
    forest.root (forest.parent a) = forest.root a := by
  obtain ⟨k, hk, hroot⟩ := forest.root_eq_iterate (forest.parent a)
  rw [hk]
  exact (root_eq_of_fixed (k := k + 1) hroot).symm

/-! ### Pointing one element at a root -/

/-- `a` now points at the root `b`. -/
def point (forest : Forest α) (a b : α) (hb : forest.parent b = b) : Forest α where
  parent := fun c => if c = a then b else forest.parent c
  height := forest.height + 1
  rooted := by
    intro c
    obtain ⟨k, hk, hroot⟩ := forest.rooted c
    have hb' : (if b = a then b else forest.parent b) = b := by
      rw [hb, ite_self]
    suffices h : ∃ j ≤ k + 1, (fun c => if c = a then b else forest.parent c)
        ((fun c => if c = a then b else forest.parent c)^[j] c)
        = (fun c => if c = a then b else forest.parent c)^[j] c by
      obtain ⟨j, hj, hfixed⟩ := h
      exact ⟨j, Nat.le_trans hj (Nat.succ_le_succ hk), hfixed⟩
    clear hk
    -- along the old climb, which ends early where it meets `a`
    induction k generalizing c with
    | zero =>
      by_cases hc : c = a
      · exact ⟨1, Nat.le_refl 1, by simp [hc, hb']⟩
      · exact ⟨0, Nat.zero_le 1, by simpa [hc] using hroot⟩
    | succ k ih =>
      by_cases hc : c = a
      · exact ⟨1, Nat.le_add_left 1 _, by simp [hc, hb']⟩
      · obtain ⟨j, hj, hfixed⟩ := ih (forest.parent c) hroot
        refine ⟨j + 1, Nat.succ_le_succ hj, ?_⟩
        rw [Function.iterate_succ_apply, if_neg hc]
        exact hfixed

theorem point_parent (forest : Forest α) (a b c : α) (hb : forest.parent b = b) :
    (forest.point a b hb).parent c = if c = a then b else forest.parent c :=
  rfl

/-- To point at the own root changes no root. -/
@[simp] theorem root_point_root (forest : Forest α) (a c : α) :
    (forest.point a (forest.root a) (forest.parent_root a)).root c = forest.root c := by
  refine root_eq_of (r := forest.root) ?_ ?_ c
  · intro c hc
    rw [point_parent] at hc
    split at hc
    · next h =>
      subst h
      exact hc
    · exact root_eq_self hc
  · intro c
    rw [point_parent]
    split
    · next h =>
      subst h
      exact root_root forest c
    · exact root_parent forest c

/-- To point a root at another moves everything under it there. -/
theorem root_point {a b : α} (ha : forest.parent a = a) (hb : forest.parent b = b) (c : α) :
    (forest.point a b hb).root c = if forest.root c = a then b else forest.root c := by
  have hra : forest.root a = a := root_eq_self ha
  have hrb : forest.root b = b := root_eq_self hb
  refine root_eq_of (r := fun c => if forest.root c = a then b else forest.root c) ?_ ?_ c
  · intro c hc
    rw [point_parent] at hc
    split at hc
    · next h =>
      subst h hc
      exact if_pos hra
    · next h =>
      show (if forest.root c = a then b else forest.root c) = c
      rw [root_eq_self hc, if_neg h]
  · intro c
    show (if forest.root _ = a then b else forest.root _) = if forest.root c = a then b else _
    rw [point_parent]
    split
    · next h =>
      subst h
      rw [hrb, hra, if_pos rfl, ite_self]
    · rw [root_parent]

/-! ### Finding and uniting -/

/-- The root of `a`, at which `a` points from now on. -/
def find (forest : Forest α) (a : α) : α × Forest α :=
  (forest.root a, forest.point a (forest.root a) (forest.parent_root a))

@[simp] theorem find_fst (forest : Forest α) (a : α) : (forest.find a).1 = forest.root a := rfl

@[simp] theorem root_find (forest : Forest α) (a c : α) :
    (forest.find a).2.root c = forest.root c :=
  root_point_root forest a c

/-- The roots of `a` and of `b`, and the first points at the second unless they are one. -/
def union (forest : Forest α) (a b : α) : Forest α :=
  let first := (forest.find a).2
  let second := (first.find b).2
  if first.root a = second.root b then second
  else second.point (first.root a) (second.root b) (second.parent_root b)

theorem root_union (forest : Forest α) (a b c : α) :
    (forest.union a b).root c = if forest.root c = forest.root a then forest.root b
      else forest.root c := by
  have hroots : ∀ c, ((forest.find a).2.find b).2.root c = forest.root c := by
    intro c
    rw [root_find, root_find]
  by_cases h : forest.root a = forest.root b
  · have hunion : forest.union a b = ((forest.find a).2.find b).2 :=
      if_pos (by rw [root_find, hroots, h])
    rw [hunion, hroots]
    split
    · next hc => exact hc.trans h
    · rfl
  · have hra : ((forest.find a).2.find b).2.parent ((forest.find a).2.root a)
        = (forest.find a).2.root a := by
      rw [root_find, ← hroots]
      exact parent_root _ a
    have hunion : forest.union a b = ((forest.find a).2.find b).2.point _ _
        (parent_root _ b) := if_neg (by rw [root_find, hroots]; exact h)
    rw [hunion, root_point hra, hroots, hroots, root_find]

/-- A run of unions. -/
def unions (forest : Forest α) (pairs : List (α × α)) : Forest α :=
  pairs.foldl (fun forest pair => forest.union pair.1 pair.2) forest

theorem root_union_iff (forest : Forest α) (a b x y : α) :
    (forest.union a b).root x = (forest.union a b).root y ↔
      forest.root x = forest.root y ∨
      (forest.root x = forest.root a ∧ forest.root y = forest.root b) ∨
      (forest.root x = forest.root b ∧ forest.root y = forest.root a) := by
  rw [root_union, root_union]
  split <;> split <;> grind

/-- What a run of unions joins is joined by the forest before it or by the pairs. -/
theorem root_unions_iff (forest : Forest α) (pairs : List (α × α)) (x y : α) :
    (forest.unions pairs).root x = (forest.unions pairs).root y ↔
      Relation.EqvGen (fun x y => forest.root x = forest.root y ∨ (x, y) ∈ pairs) x y := by
  induction pairs generalizing forest with
  | nil =>
    refine ⟨fun h => .rel _ _ (Or.inl h), fun h => ?_⟩
    induction h with
    | rel x y h => exact h.resolve_right List.not_mem_nil
    | refl x => rfl
    | symm x y _ ih => exact ih.symm
    | trans x y z _ _ ih₁ ih₂ => exact ih₁.trans ih₂
  | cons pair pairs ih =>
    have hsame : ∀ {x y}, forest.root x = forest.root y → Relation.EqvGen
        (fun x y => forest.root x = forest.root y ∨ (x, y) ∈ pair :: pairs) x y :=
      fun h => .rel _ _ (Or.inl h)
    have hpair : Relation.EqvGen
        (fun x y => forest.root x = forest.root y ∨ (x, y) ∈ pair :: pairs) pair.1 pair.2 :=
      .rel _ _ (Or.inr List.mem_cons_self)
    refine (ih (forest.union pair.1 pair.2)).trans ⟨fun h => ?_, fun h => ?_⟩
    · refine Setoid.eqvGen_le (s := Relation.EqvGen.setoid _) (fun x y hxy => ?_) h
      rcases hxy with hroot | hmem
      · rcases (root_union_iff forest _ _ x y).mp hroot with h | ⟨hx, hy⟩ | ⟨hx, hy⟩
        · exact hsame h
        · exact ((hsame hx).trans _ _ _ hpair).trans _ _ _ (hsame hy.symm)
        · exact ((hsame hx).trans _ _ _ (hpair.symm _ _)).trans _ _ _ (hsame hy.symm)
      · exact .rel _ _ (Or.inr (List.mem_cons_of_mem _ hmem))
    · refine Setoid.eqvGen_mono (fun x y hxy => ?_) h
      rcases hxy with hroot | hmem
      · exact Or.inl ((root_union_iff forest _ _ x y).mpr (Or.inl hroot))
      · rcases List.mem_cons.mp hmem with rfl | hmem
        · exact Or.inl ((root_union_iff forest x y x y).mpr (Or.inr (Or.inl ⟨rfl, rfl⟩)))
        · exact Or.inr hmem

/-- **A run of unions computes the equivalence its pairs generate.** -/
theorem root_unions_single_iff (pairs : List (α × α)) (x y : α) :
    ((single : Forest α).unions pairs).root x = ((single : Forest α).unions pairs).root y ↔
      Relation.EqvGen (fun x y => (x, y) ∈ pairs) x y := by
  refine (root_unions_iff single pairs x y).trans ⟨fun h => ?_, fun h => ?_⟩
  · refine Setoid.eqvGen_le (s := Relation.EqvGen.setoid _) (fun x y hxy => ?_) h
    rcases hxy with rfl | hmem
    · exact Relation.EqvGen.refl _
    · exact .rel _ _ hmem
  · exact Setoid.eqvGen_mono (fun x y hxy => Or.inr hxy) h

end Forest

end TelemetryCloud.UnionFind
