import Mathlib.Data.List.Sort
import Mathlib.Data.Prod.Lex
import Mathlib.Algebra.Order.Ring.Int

/-!
# Range reads of a table of timed rows

`SELECT … WHERE time >= lo AND time <= hi ORDER BY time, seq` over any type of rows that have an
instant and a sequence number.

* `mem_range` : what a range read returns;
* `window` : the same read with the nearest row on either side, `mem_window`, `window_sorted`.
-/

namespace TelemetryCloud.SampleTable

variable {Row : Type*} (time : Row → ℤ) (seq : Row → ℕ)

/-- `ORDER BY time, seq`. -/
def Before (a b : Row) : Prop := toLex (time a, seq a) ≤ toLex (time b, seq b)

instance : DecidableRel (Before time seq) := fun _ _ => inferInstanceAs (Decidable (_ ≤ _))

instance : Std.Total (Before time seq) := ⟨fun _ _ => le_total _ _⟩

instance : IsTrans Row (Before time seq) := ⟨fun _ _ _ => le_trans⟩

/-- The rows between two instants, both included. -/
def range (rows : List Row) (lo hi : ℤ) : List Row :=
  (rows.filter fun row => lo ≤ time row ∧ time row ≤ hi).insertionSort (Before time seq)

/-- The last row before an instant: `ORDER BY time DESC, seq DESC LIMIT 1`. -/
def lastBefore (rows : List Row) (lo : ℤ) : Option Row :=
  ((rows.filter fun row => time row < lo).insertionSort (Before time seq)).getLast?

/-- The first row after an instant: `ORDER BY time, seq LIMIT 1`. -/
def firstAfter (rows : List Row) (hi : ℤ) : Option Row :=
  ((rows.filter fun row => hi < time row).insertionSort (Before time seq)).head?

/-- The rows between two instants, with the nearest one on either side. -/
def window (rows : List Row) (lo hi : ℤ) : List Row :=
  ((lastBefore time seq rows lo).toList ++
      (rows.filter fun row => lo ≤ time row ∧ time row ≤ hi) ++
      (firstAfter time seq rows hi).toList).insertionSort (Before time seq)

variable {time seq}

theorem mem_range {rows : List Row} {lo hi : ℤ} {row : Row} :
    row ∈ range time seq rows lo hi ↔ row ∈ rows ∧ lo ≤ time row ∧ time row ≤ hi := by
  simp [range, List.mem_insertionSort]

theorem Before.time_le {a b : Row} (h : Before time seq a b) : time a ≤ time b := by
  rcases Prod.Lex.toLex_le_toLex.mp h with h | h
  · exact le_of_lt h
  · exact le_of_eq h.1

theorem mem_lastBefore {rows : List Row} {lo : ℤ} {row : Row}
    (h : lastBefore time seq rows lo = some row) : row ∈ rows ∧ time row < lo := by
  have := List.mem_of_getLast? h
  rw [List.mem_insertionSort, List.mem_filter] at this
  exact ⟨this.1, of_decide_eq_true this.2⟩

theorem mem_firstAfter {rows : List Row} {hi : ℤ} {row : Row}
    (h : firstAfter time seq rows hi = some row) : row ∈ rows ∧ hi < time row := by
  have := List.mem_of_mem_head? h
  rw [List.mem_insertionSort, List.mem_filter] at this
  exact ⟨this.1, of_decide_eq_true this.2⟩

/-- **What a window read returns.** -/
theorem mem_window {rows : List Row} {lo hi : ℤ} {row : Row} :
    row ∈ window time seq rows lo hi ↔
      lastBefore time seq rows lo = some row ∨
        (row ∈ rows ∧ lo ≤ time row ∧ time row ≤ hi) ∨ firstAfter time seq rows hi = some row := by
  simp [window, List.mem_insertionSort, Option.mem_toList]

/-- A window of rows at distinct instants is in strict time order. -/
theorem window_sorted {rows : List Row} (hrows : rows.Pairwise fun a b => time a < time b)
    {lo hi : ℤ} (hlohi : lo ≤ hi) :
    (window time seq rows lo hi).Pairwise fun a b => time a < time b := by
  have hne : (window time seq rows lo hi).Pairwise fun a b => time a ≠ time b := by
    refine (List.Perm.pairwise_iff (fun h => Ne.symm h) (List.perm_insertionSort _ _)).mpr ?_
    have hinside : (rows.filter fun row => lo ≤ time row ∧ time row ≤ hi).Pairwise
        fun a b => time a ≠ time b := (hrows.sublist List.filter_sublist).imp ne_of_lt
    rw [List.pairwise_append, List.pairwise_append]
    refine ⟨⟨?_, hinside, ?_⟩, ?_, ?_⟩
    · cases lastBefore time seq rows lo with
      | none => exact .nil
      | some row => exact List.pairwise_singleton _ row
    · intro a ha b hb
      have ha := (mem_lastBefore (Option.mem_toList.mp ha)).2
      have hb := (of_decide_eq_true (List.mem_filter.mp hb).2).1
      omega
    · cases firstAfter time seq rows hi with
      | none => exact .nil
      | some row => exact List.pairwise_singleton _ row
    · intro a ha b hb
      have hb := (mem_firstAfter (Option.mem_toList.mp hb)).2
      rcases List.mem_append.mp ha with ha | ha
      · have ha := (mem_lastBefore (Option.mem_toList.mp ha)).2
        omega
      · have ha := (of_decide_eq_true (List.mem_filter.mp ha).2).2
        omega
  have hle : (window time seq rows lo hi).Pairwise fun a b => time a ≤ time b :=
    (List.pairwise_insertionSort _ _).imp Before.time_le
  exact (hle.and hne).imp fun h => lt_of_le_of_ne h.1 h.2

theorem Before.of_lt {a b : Row} (h : time a < time b) : Before time seq a b :=
  Prod.Lex.toLex_le_toLex.mpr (.inl h)

/-- The nearest row before an instant, found where no other one is nearer. -/
theorem lastBefore_eq {rows : List Row} (hrows : rows.Pairwise fun a b => time a < time b) {lo : ℤ}
    {row : Row} (hrow : row ∈ rows) (hlt : time row < lo)
    (hlast : ∀ other ∈ rows, time other < lo → time other ≤ time row) :
    lastBefore time seq rows lo = some row := by
  have hsorted := hrows.sublist (List.filter_sublist (l := rows) (p := fun row => time row < lo))
  have hmem : row ∈ rows.filter fun row => time row < lo :=
    List.mem_filter.mpr ⟨hrow, decide_eq_true hlt⟩
  rw [lastBefore, (hsorted.imp Before.of_lt).insertionSort_eq]
  obtain ⟨init, last, hconcat⟩ := (List.eq_nil_or_concat' _).resolve_left (List.ne_nil_of_mem hmem)
  have hother : last ∈ rows.filter fun row => time row < lo := by
    rw [hconcat]
    exact List.mem_append_right _ List.mem_cons_self
  rw [List.mem_filter, decide_eq_true_eq] at hother
  rw [hconcat] at hmem hsorted ⊢
  rw [List.getLast?_concat]
  rcases List.mem_append.mp hmem with hinit | hsingle
  · have hnearer := (List.pairwise_append.mp hsorted).2.2 row hinit last List.mem_cons_self
    have := hlast last hother.1 hother.2
    omega
  · rw [List.mem_singleton.mp hsingle]

/-- The nearest row after an instant, in the same way. -/
theorem firstAfter_eq {rows : List Row} (hrows : rows.Pairwise fun a b => time a < time b) {hi : ℤ}
    {row : Row} (hrow : row ∈ rows) (hlt : hi < time row)
    (hfirst : ∀ other ∈ rows, hi < time other → time row ≤ time other) :
    firstAfter time seq rows hi = some row := by
  have hsorted := hrows.sublist (List.filter_sublist (l := rows) (p := fun row => hi < time row))
  have hmem : row ∈ rows.filter fun row => hi < time row :=
    List.mem_filter.mpr ⟨hrow, decide_eq_true hlt⟩
  rw [firstAfter, (hsorted.imp Before.of_lt).insertionSort_eq]
  obtain ⟨first, rest, hcons⟩ := List.exists_cons_of_ne_nil (List.ne_nil_of_mem hmem)
  have hother : first ∈ rows.filter fun row => hi < time row := by
    rw [hcons]
    exact List.mem_cons_self
  rw [List.mem_filter, decide_eq_true_eq] at hother
  rw [hcons] at hmem hsorted ⊢
  rw [List.head?_cons]
  rcases List.mem_cons.mp hmem with rfl | hrest
  · rfl
  · have hnearer := (List.pairwise_cons.mp hsorted).1 row hrest
    have := hfirst first hother.1 hother.2
    omega

end TelemetryCloud.SampleTable
