import TelemetryCloud.LapTrace
import Mathlib.Algebra.Order.Interval.Finset.SuccPred
import Mathlib.Algebra.Order.Ring.Rat
import Mathlib.Data.Int.Interval
import Mathlib.Data.List.Sublists
import Mathlib.Data.Rat.Floor

/-!
# The point budget of a trace

What `decimateByDistance` keeps of a trace with a point budget, in an arithmetic that may round.  Each
point that is kept sets the threshold for the next one, so what counts against the budget is the longest
row of points of which each clears the threshold of the one before.  Where results are rounded a
threshold need not be past the point that sets it.  In exact arithmetic it is, and the budget cuts the
trace's length into stretches of one spacing each.

* `cleared_keepSpaced`, `Cleared.length_le` : the loop keeps the longest such row;
* `keepsBudget_iff` : **for which traces the budget is kept**: those in which no such row is too long;
* `fits_exact_iff` : in exact arithmetic, those in which some stretch is empty between the two ends;
* `not_keepsBudget_finish` : a car that stands still on the line at the end of its lap, and one that
  stands where a threshold does not advance.
-/

namespace TelemetryCloud.Decimation

open TelemetryCloud.Geometry LapTrace

variable {K T : Type} [Field K] [LinearOrder K] [FloorRing K]

/-- What a trace decimated to a budget is: a part of the trace with its two ends, no longer than the
budget, and the whole trace where that is short enough. -/
structure KeepsBudget (R : Rounding K) (points : List (LapTracePoint K T)) (maxPoints : ℕ) : Prop where
  sublist : (decimateByDistance R points maxPoints).Sublist points
  first : (decimateByDistance R points maxPoints).head? = points.head?
  last : (decimateByDistance R points maxPoints).getLast? = points.getLast?
  budget : (decimateByDistance R points maxPoints).length ≤ maxPoints
  whole : points.length ≤ maxPoints → decimateByDistance R points maxPoints = points

/-- The points between the two ends. -/
def interior (points : List (LapTracePoint K T)) : List (LapTracePoint K T) :=
  points.tail.dropLast

/-- The distance at the end of a trace. -/
def totalM (points : List (LapTracePoint K T)) : K :=
  (points.getLast?.map LapTracePoint.distM).getD 0

/-- What the budget spaces the points by. -/
def spacingM (R : Rounding K) (points : List (LapTracePoint K T)) (maxPoints : ℕ) : K :=
  R.div (totalM points) (maxPoints - 1 : ℕ)

/-- The first of the points clears the threshold, and each next one that which the one before sets. -/
def Cleared (R : Rounding K) (spacing : K) : K → List (LapTracePoint K T) → Prop
  | _, [] => True
  | nextM, point :: rest =>
    nextM ≤ point.distM ∧ Cleared R spacing (nextThreshold R spacing point.distM) rest

instance instDecidableCleared (R : Rounding K) (spacing : K) :
    (nextM : K) → (row : List (LapTracePoint K T)) → Decidable (Cleared R spacing nextM row)
  | _, [] => inferInstanceAs (Decidable True)
  | nextM, point :: rest =>
    haveI := instDecidableCleared R spacing (nextThreshold R spacing point.distM) rest
    inferInstanceAs (Decidable (nextM ≤ point.distM ∧ _))

/-- Which traces fit a budget: the short ones; those with no spacing, from three points on; and those
that have, between the two ends, no row of points for the rest of the budget and one more, of which
each clears the threshold of the one before. -/
def Fits (R : Rounding K) (points : List (LapTracePoint K T)) (maxPoints : ℕ) : Prop :=
  points.length ≤ maxPoints ∨ (spacingM R points maxPoints = 0 ∧ 3 ≤ maxPoints) ∨
    (spacingM R points maxPoints ≠ 0 ∧ ∀ row, row.Sublist (interior points) →
      Cleared R (spacingM R points maxPoints) (spacingM R points maxPoints) row →
      row.length + 2 ≤ maxPoints)

/-! ### The loop -/

section Loop

variable {R : Rounding K}

theorem keepSpaced_sublist (R : Rounding K) (spacing : K) (nextM : Option K)
    (points : List (LapTracePoint K T)) : (keepSpaced R spacing nextM points).Sublist points := by
  induction points generalizing nextM with
  | nil => cases nextM <;> exact List.Sublist.refl _
  | cons p rest ih =>
    cases nextM with
    | none => exact List.nil_sublist _
    | some nextM =>
      rw [keepSpaced]
      split
      · exact (ih _).cons_cons p
      · exact (ih _).cons p

/-- A trace with no spacing: the loop keeps the first point between the ends. -/
theorem length_keepSpaced_zero (R : Rounding K) {points : List (LapTracePoint K T)}
    (hne : points ≠ []) (hzero : ∀ p ∈ points, 0 ≤ p.distM) :
    (keepSpaced R 0 (some (0 : K)) points).length = 1 := by
  cases points with
  | nil => exact absurd rfl hne
  | cons p rest =>
    rw [keepSpaced, if_pos (hzero p List.mem_cons_self), if_pos rfl]
    cases rest <;> rfl

/-- The points that the loop keeps clear one another's thresholds. -/
theorem cleared_keepSpaced {spacing : K} (hspacing : spacing ≠ 0) (nextM : K)
    (points : List (LapTracePoint K T)) :
    Cleared R spacing nextM (keepSpaced R spacing (some nextM) points) := by
  induction points generalizing nextM with
  | nil => exact trivial
  | cons p rest ih =>
    rw [keepSpaced]
    split
    · next hp => exact ⟨hp, ih _⟩
    · exact ih nextM

variable [IsStrictOrderedRing K]

/-- A point farther on sets no earlier threshold. -/
theorem nextThreshold_mono {spacing : K} (hspacing : 0 ≤ spacing) {d d' : K} (h : d ≤ d') :
    nextThreshold R spacing d ≤ nextThreshold R spacing d' := by
  have hfloor : ⌊R.div d spacing⌋ ≤ ⌊R.div d' spacing⌋ :=
    Int.floor_le_floor (R.mono (div_le_div_of_nonneg_right h hspacing))
  have hnext : R.add ⌊R.div d spacing⌋ 1 ≤ R.add ⌊R.div d' spacing⌋ 1 :=
    R.mono (add_le_add_left (Int.cast_le.mpr hfloor) 1)
  exact R.mono (mul_le_mul_of_nonneg_right hnext hspacing)

omit [IsStrictOrderedRing K] in
theorem Cleared.mono {spacing nextM nextM' : K} {row : List (LapTracePoint K T)}
    (h : Cleared R spacing nextM row) (hle : nextM' ≤ nextM) : Cleared R spacing nextM' row := by
  cases row with
  | nil => trivial
  | cons p rest => exact ⟨hle.trans h.1, h.2⟩

/-- **The loop keeps the longest row of points** of which each clears the threshold of the one
before: it takes the first that does, and the others set no earlier threshold. -/
theorem Cleared.length_le {spacing nextM : K} (hspacing : 0 < spacing)
    {points row : List (LapTracePoint K T)} (hsorted : points.Pairwise fun a b => a.distM ≤ b.distM)
    (hsublist : row.Sublist points) (hcleared : Cleared R spacing nextM row) :
    row.length ≤ (keepSpaced R spacing (some nextM) points).length := by
  induction points generalizing nextM row with
  | nil =>
    rw [List.sublist_nil.mp hsublist]
    exact Nat.zero_le _
  | cons p points ih =>
    obtain ⟨hfirst, hrest⟩ := List.pairwise_cons.mp hsorted
    rw [keepSpaced]
    split
    · -- the loop takes `p`; what the row takes first lies no earlier
      rw [if_neg hspacing.ne', List.length_cons]
      cases row with
      | nil => exact Nat.zero_le _
      | cons q row =>
        obtain ⟨-, hrow⟩ := hcleared
        have hle : p.distM ≤ q.distM ∧ row.Sublist points := by
          cases hsublist with
          | cons _ hlater =>
            exact ⟨hfirst q (hlater.subset List.mem_cons_self),
              (List.sublist_cons_self q row).trans hlater⟩
          | cons_cons _ hlater => exact ⟨le_rfl, hlater⟩
        have hnext := hrow.mono (nextThreshold_mono (R := R) hspacing.le hle.1)
        rw [List.length_cons]
        exact Nat.succ_le_succ (ih hrest hle.2 hnext)
    · next hnot =>
      cases hsublist with
      | cons _ hlater => exact ih hrest hlater hcleared
      | cons_cons _ hlater => exact absurd hcleared.1 hnot

end Loop

/-! ### The trace -/

section Trace

variable {R : Rounding K} {points : List (LapTracePoint K T)} {maxPoints : ℕ}

/-- A trace over the budget: its two ends and what the loop keeps of the points between them. -/
theorem decimateByDistance_long (R : Rounding K) (hlong : maxPoints < points.length)
    (hmax : 2 ≤ maxPoints) :
    ∃ first last, points = first :: interior points ++ [last] ∧ totalM points = last.distM ∧
      decimateByDistance R points maxPoints =
        first :: keepSpaced R (spacingM R points maxPoints) (some (spacingM R points maxPoints))
          (interior points) ++ [last] := by
  match points, hlong with
  | first :: second :: rest, hlong =>
    have hlast : (second :: rest).getLast? = some (rest.getLastD second) := by
      rw [List.getLast?_cons, List.getLastD_eq_getLast?]
    have hsplit := List.dropLast_append_getLast? _ (Option.mem_def.mpr hlast)
    have htotal : totalM (first :: second :: rest) = (rest.getLastD second).distM := by
      rw [totalM, List.getLast?_cons_cons, hlast]
      rfl
    refine ⟨first, rest.getLastD second, ?_, htotal, ?_⟩
    · rw [interior, List.tail_cons, List.cons_append, hsplit]
    · rw [decimateByDistance, if_neg (by omega), spacingM, htotal]
      rfl
  | [first], hlong =>
    rw [List.length_singleton] at hlong
    omega
  | [], hlong => exact absurd hlong (Nat.not_lt_zero _)

theorem decimateByDistance_short (R : Rounding K) (hshort : points.length ≤ maxPoints) :
    decimateByDistance R points maxPoints = points := by
  unfold decimateByDistance
  split
  · exact if_pos (.inl hshort)
  · rfl

theorem decimateByDistance_sublist (R : Rounding K) (points : List (LapTracePoint K T))
    (hmax : 2 ≤ maxPoints) : (decimateByDistance R points maxPoints).Sublist points := by
  rcases le_or_gt points.length maxPoints with hshort | hlong
  · rw [decimateByDistance_short R hshort]
  · obtain ⟨first, last, hpoints, -, hdecimate⟩ := decimateByDistance_long R hlong hmax
    have hkept := (keepSpaced_sublist R (spacingM R points maxPoints)
      (some (spacingM R points maxPoints)) (interior points)).cons_cons first
    rw [hdecimate]
    exact (hkept.append_right [last]).trans (by rw [← hpoints])

omit [Field K] [LinearOrder K] [FloorRing K] in
theorem interior_sublist (points : List (LapTracePoint K T)) :
    (interior points).Sublist points :=
  (List.dropLast_sublist _).trans (List.tail_sublist _)

/-- A trace over the budget lies between its ends, and has a point there. -/
theorem interior_range (hsorted : points.Pairwise fun a b => a.distM ≤ b.distM)
    (horigin : ∀ first ∈ points.head?, first.distM = 0) (hlong : maxPoints < points.length)
    (hmax : 2 ≤ maxPoints) : interior points ≠ [] ∧
      ∀ p ∈ interior points, 0 ≤ p.distM ∧ p.distM ≤ totalM points := by
  obtain ⟨first, last, hpoints, htotal, -⟩ := decimateByDistance_long (.exact K) hlong hmax
  have hfirst : first.distM = 0 := horigin first (by rw [hpoints]; rfl)
  constructor
  · intro hnil
    have hlength := congrArg List.length hpoints
    rw [hnil, List.length_append, List.length_cons, List.length_nil, List.length_singleton] at hlength
    omega
  · intro p hp
    rw [hpoints, List.cons_append, List.pairwise_cons, List.pairwise_append] at hsorted
    have hzero := hsorted.1 p (List.mem_append_left _ hp)
    rw [hfirst] at hzero
    rw [htotal]
    exact ⟨hzero, hsorted.2.2.2 p hp last (List.mem_singleton_self _)⟩

variable [IsStrictOrderedRing K]

/-- The budget holds exactly for the traces that fit it. -/
theorem length_decimate_le_iff (hsorted : points.Pairwise fun a b => a.distM ≤ b.distM)
    (horigin : ∀ first ∈ points.head?, first.distM = 0) (hmax : 2 ≤ maxPoints) :
    (decimateByDistance R points maxPoints).length ≤ maxPoints ↔ Fits R points maxPoints := by
  by_cases hshort : points.length ≤ maxPoints
  · rw [decimateByDistance_short R hshort]
    exact iff_of_true hshort (.inl hshort)
  have hlong := not_le.mp hshort
  obtain ⟨first, last, -, -, hdecimate⟩ := decimateByDistance_long R hlong hmax
  obtain ⟨hne, hrange⟩ := interior_range hsorted horigin hlong hmax
  have hsortedInside := hsorted.sublist (interior_sublist points)
  rw [hdecimate, List.length_append, List.length_cons, List.length_singleton, Fits,
    or_iff_right hshort]
  by_cases hzero : spacingM R points maxPoints = 0
  · rw [hzero, length_keepSpaced_zero R hne fun p hp => (hrange p hp).1]
    exact ⟨fun h => .inl ⟨rfl, h⟩, fun h => h.elim And.right fun h => absurd rfl h.1⟩
  · have hspacing : 0 < spacingM R points maxPoints := by
      obtain ⟨p, hp⟩ := List.exists_mem_of_ne_nil _ hne
      have htotal : 0 ≤ totalM points := (hrange p hp).1.trans (hrange p hp).2
      exact lt_of_le_of_ne (R.round_nonneg (div_nonneg htotal (Nat.cast_nonneg _))) (Ne.symm hzero)
    rw [or_iff_right fun h => hzero h.1, and_iff_right hzero]
    constructor
    · intro h row hsublist hcleared
      have hrow := hcleared.length_le hspacing hsortedInside hsublist
      omega
    · exact fun h => h _ (keepSpaced_sublist R _ _ _) (cleared_keepSpaced hzero _ _)

/-- **For which traces the budget is kept**, whatever the rounding. -/
theorem keepsBudget_iff (R : Rounding K) (points : List (LapTracePoint K T)) (maxPoints : ℕ)
    (hsorted : points.Pairwise fun a b => a.distM ≤ b.distM)
    (horigin : ∀ first ∈ points.head?, first.distM = 0) (hmax : 2 ≤ maxPoints) :
    KeepsBudget R points maxPoints ↔ Fits R points maxPoints := by
  constructor
  · intro h
    exact (length_decimate_le_iff hsorted horigin hmax).mp h.budget
  · intro hfits
    exact {
      sublist := decimateByDistance_sublist R points hmax
      first := decimateByDistance_head? R points maxPoints
      last := decimateByDistance_getLast? R points maxPoints
      budget := (length_decimate_le_iff hsorted horigin hmax).mpr hfits
      whole := decimateByDistance_short R }

end Trace

/-! ### Exact arithmetic -/

section Exact

variable [IsStrictOrderedRing K]

/-- The stretches of one spacing that a list of points hits. -/
def stretches (spacing : K) (points : List (LapTracePoint K T)) : Finset ℤ :=
  (points.map fun p => ⌊p.distM / spacing⌋).toFinset

omit [IsStrictOrderedRing K] in
theorem mem_stretches {spacing : K} {points : List (LapTracePoint K T)} {k : ℤ} :
    k ∈ stretches spacing points ↔ ∃ p ∈ points, ⌊p.distM / spacing⌋ = k := by
  rw [stretches, List.mem_toFinset, List.mem_map]

omit [IsStrictOrderedRing K] in
theorem nextThreshold_exact (spacing d : K) :
    nextThreshold (.exact K) spacing d = (⌊d / spacing⌋ + 1) * spacing := rfl

/-- **The loop keeps one point of each stretch** from the threshold on. -/
theorem length_keepSpaced {spacing : K} (hspacing : 0 < spacing)
    {points : List (LapTracePoint K T)} (hsorted : points.Pairwise fun a b => a.distM ≤ b.distM)
    (j : ℤ) :
    (keepSpaced (.exact K) spacing (some (j * spacing)) points).length =
      ((stretches spacing points).filter (j ≤ ·)).card := by
  induction points generalizing j with
  | nil => rfl
  | cons p rest ih =>
    rw [List.pairwise_cons] at hsorted
    have hcons : stretches spacing (p :: rest) =
        insert ⌊p.distM / spacing⌋ (stretches spacing rest) := by
      rw [stretches, List.map_cons, List.toFinset_cons]
      rfl
    have hthreshold : j * spacing ≤ p.distM ↔ j ≤ ⌊p.distM / spacing⌋ := by
      rw [Int.le_floor, le_div_iff₀ hspacing]
    rw [keepSpaced, hcons, Finset.filter_insert]
    by_cases hj : j ≤ ⌊p.distM / spacing⌋
    · rw [if_pos (hthreshold.mpr hj), if_neg hspacing.ne', if_pos hj, List.length_cons]
      have hnext := ih hsorted.2 (⌊p.distM / spacing⌋ + 1)
      push_cast at hnext
      rw [nextThreshold_exact, hnext]
      -- the points that follow hit the point's own stretch and later ones
      have hlater : insert ⌊p.distM / spacing⌋ ((stretches spacing rest).filter (j ≤ ·)) =
          insert ⌊p.distM / spacing⌋
            ((stretches spacing rest).filter (⌊p.distM / spacing⌋ + 1 ≤ ·)) := by
        ext k
        simp only [Finset.mem_insert, Finset.mem_filter]
        constructor
        · rintro (rfl | ⟨hk, hle⟩)
          · exact .inl rfl
          · obtain ⟨q, hq, rfl⟩ := mem_stretches.mp hk
            have hmono := Int.floor_le_floor
              (div_le_div_of_nonneg_right (hsorted.1 q hq) hspacing.le)
            rcases hmono.eq_or_lt with heq | hlt
            · exact .inl heq.symm
            · exact .inr ⟨hk, hlt⟩
        · rintro (rfl | ⟨hk, hle⟩)
          · exact .inl rfl
          · exact .inr ⟨hk, by omega⟩
      rw [hlater, Finset.card_insert_of_notMem]
      intro hmem
      have := (Finset.mem_filter.mp hmem).2
      omega
    · rw [if_neg (hthreshold.not.mpr hj), if_neg hj]
      exact ih hsorted.2 j

/-- A trace with a length: one stretch at least has to be empty. -/
theorem length_keepSpaced_le_iff {points : List (LapTracePoint K T)} {maxPoints : ℕ} {last : K}
    (hlast : 0 < last) (hmax : 2 ≤ maxPoints)
    (hsorted : points.Pairwise fun a b => a.distM ≤ b.distM)
    (hrange : ∀ p ∈ points, 0 ≤ p.distM ∧ p.distM ≤ last) :
    (keepSpaced (.exact K) (last / (maxPoints - 1 : ℕ)) (some (last / (maxPoints - 1 : ℕ)))
        points).length + 1 + 1 ≤ maxPoints ↔
      ∃ k : ℤ, 1 ≤ k ∧ k ≤ (maxPoints : ℤ) - 1 ∧
        ∀ p ∈ points, ¬ (k * (last / (maxPoints - 1 : ℕ)) ≤ p.distM ∧
          p.distM < (k + 1) * (last / (maxPoints - 1 : ℕ))) := by
  have hcount : (0 : K) < (maxPoints - 1 : ℕ) := Nat.cast_pos.mpr (by omega)
  have hspacing : 0 < last / (maxPoints - 1 : ℕ) := div_pos hlast hcount
  have hkept := length_keepSpaced hspacing hsorted 1
  rw [Int.cast_one, one_mul] at hkept
  rw [hkept]
  have hstretch : ∀ (k : ℤ) (p : LapTracePoint K T),
      ⌊p.distM / (last / (maxPoints - 1 : ℕ))⌋ = k ↔
        k * (last / (maxPoints - 1 : ℕ)) ≤ p.distM ∧
          p.distM < (k + 1) * (last / (maxPoints - 1 : ℕ)) := by
    intro k p
    rw [Int.floor_eq_iff, le_div_iff₀ hspacing, div_lt_iff₀ hspacing]
  -- no point is past the last stretch
  have hsubset : (stretches (last / (maxPoints - 1 : ℕ)) points).filter (1 ≤ ·) ⊆
      Finset.Icc 1 ((maxPoints : ℤ) - 1) := by
    intro k hk
    obtain ⟨hk, hone⟩ := Finset.mem_filter.mp hk
    obtain ⟨p, hp, rfl⟩ := mem_stretches.mp hk
    refine Finset.mem_Icc.mpr ⟨hone, ?_⟩
    have hle : ⌊p.distM / (last / (maxPoints - 1 : ℕ))⌋ ≤ ((maxPoints - 1 : ℕ) : ℤ) := by
      rw [Int.floor_le_iff, Int.cast_natCast, div_lt_iff₀ hspacing, add_one_mul,
        mul_div_cancel₀ _ hcount.ne']
      exact (hrange p hp).2.trans_lt (lt_add_of_pos_right _ hspacing)
    omega
  have hcard : (Finset.Icc 1 ((maxPoints : ℤ) - 1)).card = maxPoints - 1 := by
    rw [Int.card_Icc]
    omega
  constructor
  · intro h
    obtain ⟨k, hk, hmiss⟩ := Finset.exists_mem_notMem_of_card_lt_card (s :=
      (stretches (last / (maxPoints - 1 : ℕ)) points).filter (1 ≤ ·)) (show _ <
        (Finset.Icc 1 ((maxPoints : ℤ) - 1)).card by omega)
    obtain ⟨hone, hle⟩ := Finset.mem_Icc.mp hk
    refine ⟨k, hone, hle, ?_⟩
    intro p hp hin
    exact hmiss (Finset.mem_filter.mpr ⟨mem_stretches.mpr ⟨p, hp, (hstretch k p).mpr hin⟩, hone⟩)
  · rintro ⟨k, hone, hle, hempty⟩
    have hlt := Finset.card_lt_card (Finset.ssubset_iff_subset_ne.mpr ⟨hsubset, ?_⟩)
    · omega
    intro heq
    have hk : k ∈ Finset.Icc 1 ((maxPoints : ℤ) - 1) := Finset.mem_Icc.mpr ⟨hone, hle⟩
    rw [← heq] at hk
    obtain ⟨p, hp, hfloor⟩ := mem_stretches.mp (Finset.mem_filter.mp hk).1
    exact hempty p hp ((hstretch k p).mp hfloor)

/-- **In exact arithmetic** a trace fits the budget that has a stretch no point between the two ends
lies in. -/
theorem fits_exact_iff {points : List (LapTracePoint K T)} {maxPoints : ℕ}
    (hsorted : points.Pairwise fun a b => a.distM ≤ b.distM)
    (horigin : ∀ first ∈ points.head?, first.distM = 0) (hmax : 2 ≤ maxPoints) :
    Fits (.exact K) points maxPoints ↔
      points.length ≤ maxPoints ∨ (totalM points = 0 ∧ 3 ≤ maxPoints) ∨
      (0 < totalM points ∧ ∃ k : ℤ, 1 ≤ k ∧ k ≤ (maxPoints : ℤ) - 1 ∧
        ∀ p ∈ interior points, ¬ (k * (totalM points / (maxPoints - 1 : ℕ)) ≤ p.distM ∧
          p.distM < (k + 1) * (totalM points / (maxPoints - 1 : ℕ)))) := by
  by_cases hshort : points.length ≤ maxPoints
  · exact iff_of_true (.inl hshort) (.inl hshort)
  have hlong := not_le.mp hshort
  obtain ⟨first, last, -, -, hdecimate⟩ := decimateByDistance_long (.exact K) hlong hmax
  obtain ⟨hne, hrange⟩ := interior_range hsorted horigin hlong hmax
  obtain ⟨p, hp⟩ := List.exists_mem_of_ne_nil _ hne
  rw [or_iff_right hshort]
  rcases ((hrange p hp).1.trans (hrange p hp).2).eq_or_lt with hzero | hpos
  · have hspacing : spacingM (.exact K) points maxPoints = 0 := by
      rw [spacingM, ← hzero, Rounding.exact_div, zero_div]
    rw [Fits, or_iff_right hshort, ← hzero, hspacing]
    exact or_congr Iff.rfl (iff_of_false (fun h => h.1 rfl) fun h => lt_irrefl 0 h.1)
  · rw [← length_decimate_le_iff hsorted horigin hmax, hdecimate, List.length_append, List.length_cons,
      List.length_singleton, or_iff_right fun h => hpos.ne' h.1, and_iff_right hpos]
    exact length_keepSpaced_le_iff hpos hmax (hsorted.sublist (interior_sublist points)) hrange

end Exact

/-! ### Standing still on the line -/

section Standing

/-- A trace with its points at these distances. -/
def traceAt (distances : List ℚ) : List (LapTracePoint ℚ) :=
  distances.map fun distM => ⟨distM, 0, 0, 0, none, none, none, none, none, none⟩

/-- A car that stands still before the line, and drives on, fits. -/
theorem keepsBudget_iff_drivesOn : KeepsBudget (.binary64 ℚ) (traceAt [0, 1, 1, 2]) 3 := by
  refine (keepsBudget_iff (.binary64 ℚ) (traceAt [0, 1, 1, 2]) 3 (by decide +kernel)
    (by decide +kernel) (by decide)).mpr (.inr (.inr ⟨by decide +kernel, fun row hsublist => ?_⟩))
  have hrows : ∀ row ∈ (interior (traceAt [0, 1, 1, 2])).sublists,
      Cleared (.binary64 ℚ) (spacingM (.binary64 ℚ) (traceAt [0, 1, 1, 2]) 3)
        (spacingM (.binary64 ℚ) (traceAt [0, 1, 1, 2]) 3) row → row.length + 2 ≤ 3 := by
    decide +kernel
  exact hrows row (List.mem_sublists.mpr hsublist)

/-- The double `2.0999999999999996`. -/
def threshold : ℚ := 1182194902184755 / 562949953421312

/-- A car that stands still on the line leaves a point at the closing distance besides the closing
point: four points of a budget of three.  One that stands where the rounded threshold is no farther on
leaves all its points: 52 of a budget of six. -/
theorem not_keepsBudget_finish :
    (traceAt [0, 1, 2, 2]).Pairwise (fun a b => a.distM ≤ b.distM) ∧
      (∀ first ∈ (traceAt [0, 1, 2, 2]).head?, first.distM = 0) ∧
      (decimateByDistance (.binary64 ℚ) (traceAt [0, 1, 2, 2]) 3).length = 4 ∧
      ¬ KeepsBudget (.binary64 ℚ) (traceAt [0, 1, 2, 2]) 3 ∧
      (decimateByDistance (.binary64 ℚ)
        (traceAt (0 :: List.replicate 50 threshold ++ [7 / 2])) 6).length = 52 := by
  refine ⟨by decide +kernel, by decide +kernel, by decide +kernel, ?_, by decide +kernel⟩
  intro h
  exact absurd h.budget (by decide +kernel)

end Standing

end TelemetryCloud.Decimation
