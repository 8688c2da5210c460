import Mathlib.Data.List.Induction
import Mathlib.Order.Lattice
import Mathlib.Order.MinMax

/-!
# The least and the greatest of a list

* `Spans` : what they are, of any linear order; `extent` : both, unless the list is empty;
* `spans_foldl` : one pass finds them.
-/

namespace TelemetryCloud.Extents

variable {κ : Type*} [LinearOrder κ]

/-- `low` is the least and `high` the greatest of `l`. -/
structure Spans (l : List κ) (low high : κ) : Prop where
  low_mem : low ∈ l
  high_mem : high ∈ l
  low_le : ∀ a ∈ l, low ≤ a
  le_high : ∀ a ∈ l, a ≤ high

theorem Spans.le {l : List κ} {low high : κ} (h : Spans l low high) : low ≤ high :=
  h.low_le high h.high_mem

theorem spans_foldl (a : κ) (l : List κ) : Spans (a :: l) (l.foldl min a) (l.foldl max a) := by
  induction l using List.reverseRecOn with
  | nil =>
    have hself : ∀ b ∈ [a], b = a := fun b hb => List.mem_singleton.mp hb
    exact ⟨List.mem_singleton_self a, List.mem_singleton_self a,
      fun b hb => (hself b hb).ge, fun b hb => (hself b hb).le⟩
  | append_singleton l c ih =>
    rw [List.foldl_append, List.foldl_append, List.foldl_cons, List.foldl_cons, List.foldl_nil,
      List.foldl_nil, ← List.cons_append]
    have hold : ∀ b ∈ a :: l, b ∈ a :: l ++ [c] := fun b => List.mem_append_left [c]
    have hnew : c ∈ a :: l ++ [c] := List.mem_append_right _ (List.mem_singleton_self c)
    refine ⟨?_, ?_, fun b hb => ?_, fun b hb => ?_⟩
    · rcases le_total (l.foldl min a) c with h | h
      · exact (min_eq_left h).symm ▸ hold _ ih.low_mem
      · exact (min_eq_right h).symm ▸ hnew
    · rcases le_total (l.foldl max a) c with h | h
      · exact (max_eq_right h).symm ▸ hnew
      · exact (max_eq_left h).symm ▸ hold _ ih.high_mem
    · rcases List.mem_append.mp hb with hb | hb
      · exact (min_le_left _ _).trans (ih.low_le b hb)
      · exact List.mem_singleton.mp hb ▸ min_le_right _ _
    · rcases List.mem_append.mp hb with hb | hb
      · exact (ih.le_high b hb).trans (le_max_left _ _)
      · exact List.mem_singleton.mp hb ▸ le_max_right _ _

/-- The least and the greatest of a list, unless it is empty. -/
def extent : List κ → Option {range : κ × κ // range.1 ≤ range.2}
  | [] => none
  | a :: l => some ⟨(l.foldl min a, l.foldl max a), (spans_foldl a l).le⟩

theorem spans_of_extent {l : List κ} {range : {range : κ × κ // range.1 ≤ range.2}}
    (h : extent l = some range) : Spans l range.1.1 range.1.2 := by
  cases l with
  | nil => cases h
  | cons a l =>
    cases h
    exact spans_foldl a l

end TelemetryCloud.Extents
