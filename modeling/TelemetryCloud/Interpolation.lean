import Mathlib.Algebra.Order.Field.Basic
import Mathlib.Tactic.Linarith

/-!
# Reading an ordered list between its points

A list of points with a key that does not fall is an axis; a value on it is read by the first hop
that reaches the place asked for, and linearly in between.  Over any type of points and any ordered
field.

* `fraction` : how far along a hop a place is, `0` on a hop of no length;
* `reach` : the first hop whose end is not before a place, with `reach_bounds` ;
* `reading_mono` : **a value that does not fall along the list does not fall between its points**;
* `reading_le`, `le_reading` : the same against a point of the list.
-/

namespace TelemetryCloud.Interpolation

variable {α K : Type*}

section Defs

variable [Field K] [LinearOrder K]

/-- How far `x` is from `a` to `b`. -/
def fraction (x a b : K) : K := if 0 < b - a then (x - a) / (b - a) else 0

/-- The first hop of a list whose end is not before `x`. -/
def reach (key : α → K) (x : K) : List α → Option (α × α)
  | a :: b :: rest => if key b < x then reach key x (b :: rest) else some (a, b)
  | _ => none

/-- A value read on a hop. -/
def reading (key value : α → K) (x : K) (hop : α × α) : K :=
  value hop.1 + fraction x (key hop.1) (key hop.2) * (value hop.2 - value hop.1)

end Defs

section Fraction

variable [Field K] [LinearOrder K] [IsStrictOrderedRing K] {x y a b t u : K}

theorem fraction_nonneg (h : a ≤ x) : 0 ≤ fraction x a b := by
  unfold fraction
  split
  · rename_i hspan
    exact div_nonneg (sub_nonneg.mpr h) hspan.le
  · exact le_rfl

theorem fraction_le_one (h : x ≤ b) : fraction x a b ≤ 1 := by
  unfold fraction
  split
  · rename_i hspan
    rw [div_le_one hspan]
    exact sub_le_sub_right h a
  · exact zero_le_one

theorem fraction_mono (h : x ≤ y) : fraction x a b ≤ fraction y a b := by
  unfold fraction
  split
  · rename_i hspan
    exact div_le_div_of_nonneg_right (sub_le_sub_right h a) hspan.le
  · exact le_rfl

theorem le_lerp (hab : a ≤ b) (ht : 0 ≤ t) : a ≤ a + t * (b - a) :=
  le_add_of_nonneg_right (mul_nonneg ht (sub_nonneg.mpr hab))

theorem lerp_le (hab : a ≤ b) (ht : t ≤ 1) : a + t * (b - a) ≤ b := by
  have := mul_le_mul_of_nonneg_right ht (sub_nonneg.mpr hab)
  linarith

theorem lerp_mono (hab : a ≤ b) (h : t ≤ u) : a + t * (b - a) ≤ a + u * (b - a) :=
  add_le_add_right (mul_le_mul_of_nonneg_right h (sub_nonneg.mpr hab)) a

end Fraction

section Ends

variable [Preorder K] {value : α → K} {l : List α} {p : α}

theorem head_le (hvalues : l.Pairwise fun a b => value a ≤ value b) (hl : l ≠ []) (hp : p ∈ l) :
    value (l.head hl) ≤ value p := by
  cases l with
  | nil => cases hp
  | cons a rest =>
    rcases List.mem_cons.mp hp with rfl | hp
    · exact le_rfl
    · exact (List.pairwise_cons.mp hvalues).1 p hp

theorem le_getLast (hvalues : l.Pairwise fun a b => value a ≤ value b) (hl : l ≠ []) (hp : p ∈ l) :
    value p ≤ value (l.getLast hl) := by
  rw [← List.dropLast_concat_getLast hl] at hvalues hp
  rcases List.mem_append.mp hp with hp | hp
  · exact (List.pairwise_append.mp hvalues).2.2 p hp _ (List.mem_singleton_self _)
  · rw [List.mem_singleton.mp hp]

end Ends

/-! ### The first hop that reaches a place -/

section Reach

variable [LinearOrder K] {key : α → K} {l : List α} {x : K} {a b : α} {hop : α × α}

theorem reach_cons_of_lt {rest : List α} (h : key b < x) :
    reach key x (a :: b :: rest) = reach key x (b :: rest) := if_pos h

theorem reach_cons_of_le {rest : List α} (h : x ≤ key b) :
    reach key x (a :: b :: rest) = some (a, b) := if_neg (not_lt.mpr h)

/-- Where a list reaches, it has a hop that does. -/
theorem exists_reach (hlength : 2 ≤ l.length) (hlast : ∀ last ∈ l.getLast?, x ≤ key last) :
    ∃ hop, reach key x l = some hop := by
  induction l with
  | nil => exact absurd hlength (Nat.not_succ_le_zero 1)
  | cons a l ih =>
    match l, hlength with
    | [b], _ =>
      exact ⟨(a, b), reach_cons_of_le (hlast b rfl)⟩
    | b :: b' :: rest, _ =>
      rcases lt_or_ge (key b) x with hlt | hge
      · rw [reach_cons_of_lt hlt]
        exact ih (by simp) hlast
      · exact ⟨(a, b), reach_cons_of_le hge⟩

theorem reach_mem (h : reach key x l = some hop) : hop.1 ∈ l ∧ hop.2 ∈ l := by
  induction l with
  | nil => cases h
  | cons a l ih =>
    cases l with
    | nil => cases h
    | cons b rest =>
      rcases lt_or_ge (key b) x with hlt | hge
      · rw [reach_cons_of_lt hlt] at h
        exact ⟨List.mem_cons_of_mem a (ih h).1, List.mem_cons_of_mem a (ih h).2⟩
      · rw [reach_cons_of_le hge] at h
        cases h
        exact ⟨List.mem_cons_self, List.mem_cons_of_mem a List.mem_cons_self⟩

/-- The hop is where the place is. -/
theorem reach_bounds (h : reach key x l = some hop) (hhead : ∀ first ∈ l.head?, key first ≤ x) :
    key hop.1 ≤ x ∧ x ≤ key hop.2 := by
  induction l with
  | nil => cases h
  | cons a l ih =>
    cases l with
    | nil => cases h
    | cons b rest =>
      rcases lt_or_ge (key b) x with hlt | hge
      · rw [reach_cons_of_lt hlt] at h
        refine ih h ?_
        intro first hfirst
        cases hfirst
        exact hlt.le
      · rw [reach_cons_of_le hge] at h
        cases h
        exact ⟨hhead a rfl, hge⟩

/-- What holds from one point of a list to a later one holds along a hop. -/
theorem reach_rel {r : α → α → Prop} (h : reach key x l = some hop) (hl : l.Pairwise r) :
    r hop.1 hop.2 := by
  induction l with
  | nil => cases h
  | cons a l ih =>
    cases l with
    | nil => cases h
    | cons b rest =>
      rw [List.pairwise_cons] at hl
      rcases lt_or_ge (key b) x with hlt | hge
      · rw [reach_cons_of_lt hlt] at h
        exact ih h hl.2
      · rw [reach_cons_of_le hge] at h
        cases h
        exact hl.1 b List.mem_cons_self

end Reach

/-! ### Readings -/

section Reading

variable [Field K] [LinearOrder K] [IsStrictOrderedRing K] {key value : α → K} {l : List α}
  {x y : K} {hop hop' : α × α}

theorem reading_bounds (h : reach key x l = some hop) (hhead : ∀ first ∈ l.head?, key first ≤ x)
    (hvalues : l.Pairwise fun a b => value a ≤ value b) :
    value hop.1 ≤ reading key value x hop ∧ reading key value x hop ≤ value hop.2 := by
  obtain ⟨hlo, hhi⟩ := reach_bounds h hhead
  have hvalue := reach_rel h hvalues
  exact ⟨le_lerp hvalue (fraction_nonneg hlo), lerp_le hvalue (fraction_le_one hhi)⟩

/-- **Readings do not fall** where the values do not. -/
theorem reading_mono (hxy : x ≤ y) (hx : reach key x l = some hop)
    (hy : reach key y l = some hop') (hhead : ∀ first ∈ l.head?, key first ≤ x)
    (hvalues : l.Pairwise fun a b => value a ≤ value b) :
    reading key value x hop ≤ reading key value y hop' := by
  induction l with
  | nil => cases hx
  | cons a l ih =>
    cases l with
    | nil => cases hx
    | cons b rest =>
      rcases lt_or_ge (key b) x with hlt | hge
      · rw [reach_cons_of_lt hlt] at hx
        rw [reach_cons_of_lt (hlt.trans_le hxy)] at hy
        refine ih hx hy ?_ (List.pairwise_cons.mp hvalues).2
        intro first hfirst
        cases hfirst
        exact hlt.le
      · have hfirst := (reading_bounds hx hhead hvalues).2
        rw [reach_cons_of_le hge] at hx
        cases hx
        rcases lt_or_ge (key b) y with hlt' | hge'
        · -- `y` is on a later hop
          rw [reach_cons_of_lt hlt'] at hy
          rw [List.pairwise_cons] at hvalues
          have hlater := (reading_bounds hy (by
            intro first hfirst
            cases hfirst
            exact hlt'.le) hvalues.2).1
          refine hfirst.trans (le_trans ?_ hlater)
          rcases List.mem_cons.mp (reach_mem hy).1 with heq | hmem
          · rw [heq]
          · exact (List.pairwise_cons.mp hvalues.2).1 _ hmem
        · rw [reach_cons_of_le hge'] at hy
          cases hy
          exact lerp_mono ((List.pairwise_cons.mp hvalues).1 b List.mem_cons_self)
            (fraction_mono hxy)

/-- A reading is not above a point further along. -/
theorem reading_le (hx : reach key x l = some hop) (hhead : ∀ first ∈ l.head?, key first ≤ x)
    (hvalues : l.Pairwise fun a b => value a ≤ value b) {p : α} (hp : p ∈ l) (hxp : x < key p) :
    reading key value x hop ≤ value p := by
  induction l with
  | nil => cases hx
  | cons a l ih =>
    cases l with
    | nil => cases hx
    | cons b rest =>
      have hhop := (reading_bounds hx hhead hvalues).2
      have hafter : p ∈ b :: rest := by
        rcases List.mem_cons.mp hp with rfl | hp
        · exact absurd (hhead p rfl) (not_le.mpr hxp)
        · exact hp
      rcases lt_or_ge (key b) x with hlt | hge
      · rw [reach_cons_of_lt hlt] at hx
        refine ih hx ?_ (List.pairwise_cons.mp hvalues).2 hafter
        intro first hfirst
        cases hfirst
        exact hlt.le
      · rw [reach_cons_of_le hge] at hx
        cases hx
        refine hhop.trans ?_
        rcases List.mem_cons.mp hafter with rfl | hp
        · exact le_rfl
        · exact (List.pairwise_cons.mp (List.pairwise_cons.mp hvalues).2).1 p hp

/-- A reading is not below a point before it. -/
theorem le_reading (hx : reach key x l = some hop) (hhead : ∀ first ∈ l.head?, key first ≤ x)
    (hkeys : l.Pairwise fun a b => key a ≤ key b)
    (hvalues : l.Pairwise fun a b => value a ≤ value b) {p : α} (hp : p ∈ l) (hpx : key p < x) :
    value p ≤ reading key value x hop := by
  induction l with
  | nil => cases hx
  | cons a l ih =>
    cases l with
    | nil => cases hx
    | cons b rest =>
      have hhop := (reading_bounds hx hhead hvalues).1
      rw [List.pairwise_cons] at hkeys hvalues
      rcases lt_or_ge (key b) x with hlt | hge
      · rw [reach_cons_of_lt hlt] at hx
        have hhead' : ∀ first ∈ (b :: rest).head?, key first ≤ x := by
          intro first hfirst
          cases hfirst
          exact hlt.le
        rcases List.mem_cons.mp hp with rfl | hp
        · exact (hvalues.1 _ (reach_mem hx).1).trans (reading_bounds hx hhead' hvalues.2).1
        · exact ih hx hhead' hkeys.2 hvalues.2 hp
      · rw [reach_cons_of_le hge] at hx
        cases hx
        rcases List.mem_cons.mp hp with rfl | hp
        · exact hhop
        · -- a later point is not before the end of the hop
          have hbp : key b ≤ key p := by
            rcases List.mem_cons.mp hp with rfl | hp
            · exact le_rfl
            · exact (List.pairwise_cons.mp hkeys.2).1 p hp
          exact absurd (hge.trans hbp) (not_le.mpr hpx)

end Reading

end TelemetryCloud.Interpolation
