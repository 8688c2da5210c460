import TelemetryCloud.LapMarkers
import Mathlib.Algebra.Order.Ring.Rat
import Mathlib.Data.Rat.Floor

/-!
# The braking zones of a lap

What the loop of `detectBrakingPoints` accumulates before the duration filter, for any lap: zones
that close, zones reopened within `BRAKING_MERGE_MS`, intervals that cannot be measured and a zone
still open at the line.

* `PlacedZone` : a zone with the points of the lap it runs between, carrying what makes it one;
* `Zoned` : the loop after some intervals, with `skip`, `extend` and `start` for the three things
  an interval can do, and `zoned_step` ;
* `detectBrakingPoints_wellFormed` : **the zones are disjoint, in order, more than
  `BRAKING_MERGE_MS` apart, and miss no braking**.
-/

namespace TelemetryCloud.BrakingZones

open TelemetryCloud.Geometry LapMarkers

section Zones

variable {K : Type} [Field K] [LinearOrder K]

/-- Interval `k` of a lap, from its point `k` to its point `k + 1`, has this deceleration. -/
def Measured (points : List (LapPoint K)) (k : ℕ) (decelG : K) : Prop :=
  ∃ a b, points[k]? = some a ∧ points[k + 1]? = some b ∧ decelerationG a b = some decelG

theorem Measured.unique {points : List (LapPoint K)} {k : ℕ} {g g' : K}
    (h : Measured points k g) (h' : Measured points k g') : g = g' := by
  obtain ⟨a, b, ha, hb, hg⟩ := h
  obtain ⟨a', b', ha', hb', hg'⟩ := h'
  cases ha.symm.trans ha'
  cases hb.symm.trans hb'
  exact Option.some.inj (hg.symm.trans hg')

/-- **A zone of a lap**: it starts and ends at points of the lap, it reaches `BRAKING_ENTER_G`, and
its peak is the largest deceleration measured inside it. -/
structure PlacedZone (points : List (LapPoint K)) where
  zone : OpenZone K
  first : ℕ
  last : ℕ
  first_lt_last : first < last
  start_eq : points[first]? = some zone.start
  finish_eq : points[last]? = some zone.finish
  peak_measured : ∃ k, first ≤ k ∧ k < last ∧ Measured points k zone.peakDecelG
  le_peak : ∀ k g, first ≤ k → k < last → Measured points k g → g ≤ zone.peakDecelG
  enter_le_peak : BRAKING_ENTER_G ≤ zone.peakDecelG

/-- Interval `k` of the lap lies inside the zone. -/
def PlacedZone.Covers {points : List (LapPoint K)} (p : PlacedZone points) (k : ℕ) : Prop :=
  p.first ≤ k ∧ k < p.last

/-- One zone is over before the next begins, and they are not close enough to be one. -/
def PlacedZone.Before {points : List (LapPoint K)} (p q : PlacedZone points) : Prop :=
  p.last < q.first ∧ BRAKING_MERGE_MS < q.zone.start.timeMs - p.zone.finish.timeMs

/-- No interval lies in two zones. -/
theorem existsUnique_covers {points : List (LapPoint K)} {placed : List (PlacedZone points)}
    {k : ℕ} (hordered : placed.Pairwise PlacedZone.Before)
    (h : ∃ p ∈ placed, p.Covers k) : ∃! p, p ∈ placed ∧ p.Covers k := by
  obtain ⟨p, hp, hcovers⟩ := h
  refine ⟨p, ⟨hp, hcovers⟩, ?_⟩
  rintro q ⟨hq, hqcovers⟩
  by_contra hne
  have hdisjoint : ∀ a ∈ placed, ∀ b ∈ placed, a ≠ b → a.last < b.first ∨ b.last < a.first := by
    intro a ha b hb
    refine List.Pairwise.forall_of_forall_of_flip
      (R := fun a b => a ≠ b → a.last < b.first ∨ b.last < a.first) ?_ ?_ ?_ ha hb
    · exact fun a _ haa => absurd rfl haa
    · exact hordered.imp fun hab _ => .inl hab.1
    · exact hordered.imp fun hab _ => .inr hab.1
  have hlt := p.first_lt_last
  rcases hdisjoint q hq p hp hne with h | h
  · have := hqcovers.2
    have := hcovers.1
    omega
  · have := hcovers.2
    have := hqcovers.1
    omega

theorem merge_nonneg [IsStrictOrderedRing K] : (0 : K) ≤ BRAKING_MERGE_MS := by
  rw [BRAKING_MERGE_MS]
  norm_num

theorem enter_nonneg [IsStrictOrderedRing K] : (0 : K) ≤ BRAKING_ENTER_G := by
  rw [BRAKING_ENTER_G]
  norm_num


variable {points : List (LapPoint K)} {zones : List (OpenZone K)} {zone : OpenZone K} {n : ℕ}
  {a b : LapPoint K} {g : K}

/-- A zone that reaches one interval further.  What lies between its end and that interval was not
braking. -/
def PlacedZone.extended (p : PlacedZone points) (hlast : p.last ≤ n)
    (hbetween : ∀ k g, p.last ≤ k → k < n → Measured points k g → g < BRAKING_ENTER_G)
    (ha : points[n]? = some a) (hb : points[n + 1]? = some b) (hg : decelerationG a b = some g) :
    PlacedZone points where
  zone := { p.zone with peakDecelG := max p.zone.peakDecelG g, finish := b }
  first := p.first
  last := n + 1
  first_lt_last := p.first_lt_last.trans_le (hlast.trans (Nat.le_succ n))
  start_eq := p.start_eq
  finish_eq := hb
  peak_measured := by
    have hfirst := p.first_lt_last
    rcases le_total g p.zone.peakDecelG with hle | hle
    · obtain ⟨k, hk, hkl, hpeak⟩ := p.peak_measured
      exact ⟨k, hk, by omega, by rwa [max_eq_left hle]⟩
    · exact ⟨n, by omega, Nat.lt_succ_self n, by
        rw [max_eq_right hle]
        exact ⟨a, b, ha, hb, hg⟩⟩
  le_peak := by
    intro k g' hk hkn hg'
    rcases Nat.lt_succ_iff_lt_or_eq.mp hkn with hkn | rfl
    · refine le_max_of_le_left ?_
      by_cases hin : k < p.last
      · exact p.le_peak k g' hk hin hg'
      · exact (hbetween k g' (not_lt.mp hin) hkn hg').le.trans p.enter_le_peak
    · exact (hg'.unique ⟨a, b, ha, hb, hg⟩).le.trans (le_max_right _ _)
  enter_le_peak := p.enter_le_peak.trans (le_max_left _ _)

/-- The zone that one interval over the threshold is. -/
def PlacedZone.started [IsStrictOrderedRing K] (ha : points[n]? = some a)
    (hb : points[n + 1]? = some b) (hg : decelerationG a b = some g) (henter : BRAKING_ENTER_G ≤ g) :
    PlacedZone points where
  zone := ⟨a, b, max 0 g⟩
  first := n
  last := n + 1
  first_lt_last := Nat.lt_succ_self n
  start_eq := ha
  finish_eq := hb
  peak_measured := by
    refine ⟨n, le_rfl, Nat.lt_succ_self n, ?_⟩
    rw [max_eq_right (enter_nonneg.trans henter)]
    exact ⟨a, b, ha, hb, hg⟩
  le_peak := by
    intro k g' hk hkn hg'
    obtain rfl : k = n := by omega
    exact (hg'.unique ⟨a, b, ha, hb, hg⟩).le.trans (le_max_right _ _)
  enter_le_peak := henter.trans (le_max_right _ _)

/-! ### The loop -/

theorem extendZone_zones (zones : List (OpenZone K)) (zone : OpenZone K) (b : LapPoint K) (g : K) :
    (extendZone zones zone b g).1 ++ (extendZone zones zone b g).2.toList =
      zones ++ [{ zone with peakDecelG := max zone.peakDecelG g, finish := b }] := by
  unfold extendZone
  dsimp only
  split
  · rw [Option.toList_none, List.append_nil]
  · rw [Option.toList_some]

/-- What braking opens: the last zone again, or one of its own. -/
theorem openZone_cases (zones : List (OpenZone K)) (a b : LapPoint K) :
    zones = (openZone zones a b).1 ++ [(openZone zones a b).2] ∨
    ((∀ previous, zones.getLast? = some previous →
        BRAKING_MERGE_MS < a.timeMs - previous.finish.timeMs) ∧
      openZone zones a b = (zones, ⟨a, b, 0⟩)) := by
  unfold openZone
  split
  · rename_i previous hlast
    split
    · exact .inl (List.dropLast_append_getLast? previous hlast).symm
    · rename_i hgap
      refine .inr ⟨?_, rfl⟩
      intro other hother
      cases hlast.symm.trans hother
      exact not_le.mp hgap
  · rename_i hlast
    refine .inr ⟨?_, rfl⟩
    intro other hother
    rw [hlast] at hother
    cases hother

/-- **The loop after `n` intervals**: the zones so far end by then, and no braking is outside
them. -/
def Zoned (points : List (LapPoint K)) (n : ℕ) (zones : List (OpenZone K)) : Prop :=
  ∃ placed : List (PlacedZone points), placed.map PlacedZone.zone = zones ∧
    placed.Pairwise PlacedZone.Before ∧ (∀ p ∈ placed, p.last ≤ n) ∧
    ∀ k g, k < n → Measured points k g → BRAKING_ENTER_G ≤ g → ∃ p ∈ placed, p.Covers k

theorem zoned_nil : Zoned points 0 [] := by
  refine ⟨[], rfl, .nil, ?_, ?_⟩
  · exact fun p hp => absurd hp List.not_mem_nil
  · exact fun k g hk => absurd hk (Nat.not_lt_zero k)

/-- An interval that does not brake, or cannot be measured, outside a zone. -/
theorem Zoned.skip (h : Zoned points n zones)
    (hcoast : ∀ g, Measured points n g → g < BRAKING_ENTER_G) : Zoned points (n + 1) zones := by
  obtain ⟨placed, hzones, hordered, hlast, hcovered⟩ := h
  refine ⟨placed, hzones, hordered, fun p hp => (hlast p hp).trans (Nat.le_succ n), ?_⟩
  intro k g hk hg henter
  rcases Nat.lt_succ_iff_lt_or_eq.mp hk with hk | rfl
  · exact hcovered k g hk hg henter
  · exact absurd henter (not_le.mpr (hcoast g hg))

/-- An interval of an open zone, or of one that is opened again. -/
theorem Zoned.extend (h : Zoned points n (zones ++ [zone])) (ha : points[n]? = some a)
    (hb : points[n + 1]? = some b) (hg : decelerationG a b = some g) :
    Zoned points (n + 1)
      (zones ++ [{ zone with peakDecelG := max zone.peakDecelG g, finish := b }]) := by
  obtain ⟨placed, hzones, hordered, hlast, hcovered⟩ := h
  obtain ⟨before, one, rfl, rfl, hone⟩ := List.map_eq_append_iff.mp hzones
  obtain ⟨p, rfl, rfl⟩ := List.map_eq_singleton_iff.mp hone
  have hmem : p ∈ before ++ [p] := List.mem_append_right _ (List.mem_singleton_self p)
  rw [List.pairwise_append] at hordered
  obtain ⟨hbefore, -, hcross⟩ := hordered
  -- an interval after the zone's end is in no zone, so it does not reach the threshold
  have hbetween : ∀ k g, p.last ≤ k → k < n → Measured points k g → g < BRAKING_ENTER_G := by
    intro k g hk hkn hg
    by_contra henter
    obtain ⟨q, hq, hqk⟩ := hcovered k g hkn hg (not_lt.mp henter)
    have hqlast := hqk.2
    have hfirst := p.first_lt_last
    rcases List.mem_append.mp hq with hq | hq
    · have := (hcross q hq p (List.mem_singleton_self p)).1
      omega
    · obtain rfl := List.mem_singleton.mp hq
      omega
  refine ⟨before ++ [p.extended (hlast p hmem) hbetween ha hb hg], ?_, ?_, ?_, ?_⟩
  · rw [List.map_append, List.map_singleton]
    rfl
  · refine Lists.pairwise_concat_iff.mpr ⟨hbefore, fun r hr => ?_⟩
    exact hcross r hr p (List.mem_singleton_self p)
  · intro r hr
    rcases List.mem_append.mp hr with hr | hr
    · exact (hlast r (List.mem_append_left _ hr)).trans (Nat.le_succ n)
    · obtain rfl := List.mem_singleton.mp hr
      exact le_rfl
  · intro k g' hk hg' henter
    have hwide : p.first ≤ k → ∃ q ∈ before ++ [p.extended (hlast p hmem) hbetween ha hb hg],
        q.Covers k := fun hfirst =>
      ⟨_, List.mem_append_right _ (List.mem_singleton_self _), hfirst, hk⟩
    rcases Nat.lt_succ_iff_lt_or_eq.mp hk with hk | rfl
    · obtain ⟨r, hr, hrk⟩ := hcovered k g' hk hg' henter
      rcases List.mem_append.mp hr with hr | hr
      · exact ⟨r, List.mem_append_left _ hr, hrk⟩
      · obtain rfl := List.mem_singleton.mp hr
        exact hwide hrk.1
    · exact hwide (p.first_lt_last.le.trans (hlast p hmem))

/-- A zone that starts long enough after the last one does after all of them. -/
theorem before_started [IsStrictOrderedRing K] {placed : List (PlacedZone points)}
    (htimes : points.Pairwise fun a b => a.timeMs ≤ b.timeMs)
    (hordered : placed.Pairwise PlacedZone.Before) (hlast : ∀ p ∈ placed, p.last ≤ n)
    (ha : points[n]? = some a)
    (hgap : ∀ previous, (placed.map PlacedZone.zone).getLast? = some previous →
      BRAKING_MERGE_MS < a.timeMs - previous.finish.timeMs) :
    ∀ p ∈ placed, p.last < n ∧ BRAKING_MERGE_MS < a.timeMs - p.zone.finish.timeMs := by
  rcases placed.eq_nil_or_concat with rfl | ⟨before, latest, rfl⟩
  · exact fun p hp => absurd hp List.not_mem_nil
  rw [List.concat_eq_append] at hordered hlast hgap ⊢
  have hlatest : BRAKING_MERGE_MS < a.timeMs - latest.zone.finish.timeMs := by
    refine hgap latest.zone ?_
    rw [List.map_append, List.map_singleton, List.getLast?_concat]
  have hend : latest.last < n := by
    refine lt_of_le_of_ne (hlast latest (List.mem_append_right _ (List.mem_singleton_self _))) ?_
    rintro rfl
    rw [Option.some.inj (ha.symm.trans latest.finish_eq), sub_self] at hlatest
    exact absurd hlatest (not_lt.mpr merge_nonneg)
  intro p hp
  rcases List.mem_append.mp hp with hp | hp
  · have hfirst := latest.first_lt_last
    have hbefore := ((List.pairwise_append.mp hordered).2.2 p hp latest
      (List.mem_singleton_self _)).1
    have hmono := Lists.pairwise_getElem? htimes p.finish_eq latest.finish_eq
      (hbefore.trans hfirst)
    exact ⟨by omega, hlatest.trans_le (sub_le_sub_left hmono _)⟩
  · obtain rfl := List.mem_singleton.mp hp
    exact ⟨hend, hlatest⟩

/-- An interval over the threshold, long enough after the zones so far. -/
theorem Zoned.start [IsStrictOrderedRing K] (htimes : points.Pairwise fun a b => a.timeMs ≤ b.timeMs)
    (h : Zoned points n zones) (ha : points[n]? = some a) (hb : points[n + 1]? = some b)
    (hg : decelerationG a b = some g) (henter : BRAKING_ENTER_G ≤ g)
    (hgap : ∀ previous, zones.getLast? = some previous →
      BRAKING_MERGE_MS < a.timeMs - previous.finish.timeMs) :
    Zoned points (n + 1) (zones ++ [⟨a, b, max 0 g⟩]) := by
  obtain ⟨placed, rfl, hordered, hlast, hcovered⟩ := h
  refine ⟨placed ++ [PlacedZone.started ha hb hg henter], ?_, ?_, ?_, ?_⟩
  · rw [List.map_append, List.map_singleton]
    rfl
  · refine Lists.pairwise_concat_iff.mpr ⟨hordered, fun r hr => ?_⟩
    exact before_started htimes hordered hlast ha hgap r hr
  · intro r hr
    rcases List.mem_append.mp hr with hr | hr
    · exact (hlast r hr).trans (Nat.le_succ n)
    · obtain rfl := List.mem_singleton.mp hr
      exact le_rfl
  · intro k g' hk hg' henter'
    rcases Nat.lt_succ_iff_lt_or_eq.mp hk with hk | rfl
    · obtain ⟨r, hr, hrk⟩ := hcovered k g' hk hg' henter'
      exact ⟨r, List.mem_append_left _ hr, hrk⟩
    · exact ⟨_, List.mem_append_right _ (List.mem_singleton_self _), le_rfl, hk⟩

/-- One interval of the loop. -/
theorem zoned_step [IsStrictOrderedRing K] {st : List (OpenZone K) × Option (OpenZone K)}
    (htimes : points.Pairwise fun a b => a.timeMs ≤ b.timeMs)
    (h : Zoned points n (st.1 ++ st.2.toList)) (ha : points[n]? = some a)
    (hb : points[n + 1]? = some b) :
    Zoned points (n + 1) ((brakingStep st (a, b)).1 ++ (brakingStep st (a, b)).2.toList) := by
  obtain ⟨zones, zone?⟩ := st
  have hmeasured : ∀ g, Measured points n g → decelerationG a b = some g := by
    rintro g ⟨a', b', ha', hb', hg⟩
    cases ha.symm.trans ha'
    cases hb.symm.trans hb'
    exact hg
  cases hg : decelerationG a b with
  | none =>
    simp only [brakingStep, hg]
    refine h.skip fun g hg' => ?_
    rw [hmeasured g hg'] at hg
    cases hg
  | some g =>
    cases zone? with
    | some zone =>
      simp only [brakingStep, hg, extendZone_zones]
      exact h.extend ha hb hg
    | none =>
      rw [Option.toList_none, List.append_nil] at h
      by_cases henter : g < BRAKING_ENTER_G
      · simp only [brakingStep, hg, if_pos henter, Option.toList_none, List.append_nil]
        refine h.skip fun g' hg' => ?_
        obtain rfl := Option.some.inj (hg.symm.trans (hmeasured g' hg'))
        exact henter
      · simp only [brakingStep, hg, if_neg henter, extendZone_zones]
        rcases openZone_cases zones a b with hopen | ⟨hgap, hopen⟩
        · dsimp only at h
          rw [hopen] at h
          exact h.extend ha hb hg
        · rw [hopen]
          exact h.start htimes ha hb hg (not_lt.mp henter) hgap

/-- The loop after any number of intervals. -/
theorem zoned_take [IsStrictOrderedRing K] (htimes : points.Pairwise fun a b => a.timeMs ≤ b.timeMs)
    {st : List (OpenZone K) × Option (OpenZone K)} (hn : n + 1 ≤ points.length)
    (hst : st = ((points.zip points.tail).take n).foldl brakingStep ([], none)) :
    Zoned points n (st.1 ++ st.2.toList) := by
  subst hst
  induction n with
  | zero => exact zoned_nil
  | succ n ih =>
    have hhop := Lists.hops_getElem? points (show n + 1 < points.length from hn)
    rw [List.take_add_one, hhop, Option.toList_some, List.foldl_append, List.foldl_cons,
      List.foldl_nil]
    exact zoned_step htimes (ih (by omega)) (List.getElem?_eq_getElem (by omega))
      (List.getElem?_eq_getElem hn)

/-- **The zones of a lap**, each in its place. -/
theorem brakingZones_zoned [IsStrictOrderedRing K]
    (htimes : points.Pairwise fun a b => a.timeMs ≤ b.timeMs) :
    Zoned points (points.length - 1) (brakingZones points) := by
  rcases points.eq_nil_or_concat with rfl | ⟨rest, last, rfl⟩
  · exact zoned_nil
  · refine zoned_take htimes (by rw [List.length_concat]; omega) ?_
    rw [List.take_of_length_le]
    rw [List.length_zip, List.length_tail]
    omega

end Zones

section Markers

variable {K : Type} [Field K] [LinearOrder K] [IsStrictOrderedRing K] [FloorRing K]

variable {points : List (LapPoint K)} (htimes : points.Pairwise fun a b => a.timeMs ≤ b.timeMs)

include htimes

/-- The markers of a lap stand one after the other. -/
theorem detectBrakingPoints_forward
    (hdistances : points.Pairwise fun a b => a.distM ≤ b.distM) :
    (detectBrakingPoints points).Pairwise fun a b => a.distM ≤ b.distM := by
  obtain ⟨placed, hzones, hordered, -, -⟩ := brakingZones_zoned htimes
  rw [detectBrakingPoints, List.pairwise_map]
  refine List.Pairwise.filter _ ?_
  rw [← hzones, List.pairwise_map]
  refine hordered.imp ?_
  intro p q hpq
  have hfirst := p.first_lt_last
  exact roundTo_mono (Lists.pairwise_getElem? hdistances p.start_eq q.start_eq
    (hfirst.trans hpq.1)) 1

/-- A marker stands at a point of the lap. -/
theorem exists_point_of_marker {marker : BrakingPoint K}
    (hmarker : marker ∈ detectBrakingPoints points) :
    ∃ p ∈ points, marker.distM = roundTo p.distM 1 := by
  obtain ⟨zone, hzone, rfl⟩ := List.mem_map.mp hmarker
  obtain ⟨placed, hzones, -⟩ := brakingZones_zoned htimes
  have hmem := (List.mem_filter.mp hzone).1
  rw [← hzones] at hmem
  obtain ⟨p, -, rfl⟩ := List.mem_map.mp hmem
  exact ⟨p.zone.start, List.mem_of_getElem? p.start_eq, rfl⟩

omit htimes

/-- **The braking zones of a lap are well formed and lose no braking.** -/
theorem detectBrakingPoints_wellFormed (points : List (LapPoint K))
    (htimes : points.Pairwise fun a b => a.timeMs ≤ b.timeMs)
    (hdistances : points.Pairwise fun a b => a.distM ≤ b.distM) :
    ∃ placed : List (PlacedZone points), placed.map PlacedZone.zone = brakingZones points ∧
      placed.Pairwise PlacedZone.Before ∧
      (∀ k g, Measured points k g → BRAKING_ENTER_G ≤ g → ∃! p, p ∈ placed ∧ p.Covers k) ∧
      (∀ marker ∈ detectBrakingPoints points, ∃ p ∈ placed, marker = toBrakingPoint p.zone ∧
        MIN_BRAKING_MS ≤ p.zone.finish.timeMs - p.zone.start.timeMs) ∧
      (detectBrakingPoints points).Pairwise fun a b => a.distM ≤ b.distM := by
  obtain ⟨placed, hzones, hordered, -, hcovered⟩ := brakingZones_zoned htimes
  refine ⟨placed, hzones, hordered, ?_, ?_, ?_⟩
  · intro k g hg henter
    obtain ⟨a, b, ha, hb, hdecel⟩ := hg
    have hk := (List.getElem?_eq_some_iff.mp hb).1
    exact existsUnique_covers hordered
      (hcovered k g (by omega) ⟨a, b, ha, hb, hdecel⟩ henter)
  · intro marker hmarker
    obtain ⟨zone, hzone, rfl⟩ := List.mem_map.mp hmarker
    obtain ⟨hmem, hsustained⟩ := List.mem_filter.mp hzone
    rw [← hzones] at hmem
    obtain ⟨p, hp, rfl⟩ := List.mem_map.mp hmem
    exact ⟨p, hp, rfl, of_decide_eq_true hsustained⟩
  · exact detectBrakingPoints_forward htimes hdistances

end Markers

/-! ### A lap -/

/-- A stab at the brakes, a dip, and the brakes again on the last sample of the lap. -/
def mergedLap : List (LapPoint ℚ) :=
  [⟨⟨0, 0, 0, none, none⟩, 0⟩, ⟨⟨100, 0, 0, none, some (-1)⟩, 5⟩, ⟨⟨200, 0, 0, none, some 0⟩, 9⟩,
    ⟨⟨300, 0, 0, none, none⟩, 13⟩, ⟨⟨400, 0, 0, none, some (-2)⟩, 17⟩]

theorem detectBrakingPoints_wellFormed_mergedLap :
    ∃ placed : List (PlacedZone mergedLap), placed.map PlacedZone.zone = brakingZones mergedLap ∧
      placed.Pairwise PlacedZone.Before ∧
      (∀ k g, Measured mergedLap k g → BRAKING_ENTER_G ≤ g → ∃! p, p ∈ placed ∧ p.Covers k) ∧
      (∀ marker ∈ detectBrakingPoints mergedLap, ∃ p ∈ placed, marker = toBrakingPoint p.zone ∧
        MIN_BRAKING_MS ≤ p.zone.finish.timeMs - p.zone.start.timeMs) ∧
      (detectBrakingPoints mergedLap).Pairwise fun a b => a.distM ≤ b.distM :=
  detectBrakingPoints_wellFormed mergedLap (by decide +kernel) (by decide +kernel)

example : (detectBrakingPoints mergedLap).map BrakingPoint.peakDecelG = [2] := by decide +kernel

end TelemetryCloud.BrakingZones
