import TelemetryCloud.LapMarkers
import Mathlib.Algebra.Order.Ring.Rat
import Mathlib.Data.Rat.Floor

/-!
# One burst of braking

What the loop of `detectBrakingPoints` makes of a lap that brakes once: the intervals that reach
`BRAKING_EXIT_G` are one contiguous burst.

* `Phase` : the loop before, in and after the burst, with `phase_step` ;
* `brakingZones_burst` : the one zone there is, which the interval that closes it is part of;
* `detects_iff` : **for which laps the duration test tests the burst**: those in which that interval
  does not carry a burst that is too short over the threshold;
* `not_detects_stab` : one in which it does.
-/

namespace TelemetryCloud.BrakingBurst

open TelemetryCloud.Geometry LapMarkers

section Burst

variable {K : Type} [Field K] [LinearOrder K] [IsStrictOrderedRing K] [FloorRing K]

/-- The lap brakes from its point `i` to its point `j`, and nowhere else: every interval has a
deceleration, those of the burst reach `BRAKING_EXIT_G` and no other does, and the first of them
reaches `BRAKING_ENTER_G`. -/
structure OneBurst (points : List (LapPoint K)) (i j : ℕ) : Prop where
  times : points.Pairwise fun a b => a.timeMs < b.timeMs
  distances : points.Pairwise fun a b => a.distM ≤ b.distM
  nonempty : i < j
  bound : j < points.length
  measured : ∀ (k : ℕ) (a b : LapPoint K), points[k]? = some a → points[k + 1]? = some b →
    ∃ g, decelerationG a b = some g ∧ (BRAKING_EXIT_G ≤ g ↔ i ≤ k ∧ k < j) ∧
      (k = i → BRAKING_ENTER_G ≤ g)

/-- The detector tells a burst of this duration from `first` on: one marker where it began, or none
when it is too short. -/
def Detects (points : List (LapPoint K)) (first : LapPoint K) (duration : K) : Prop :=
  (MIN_BRAKING_MS ≤ duration → ∃ marker, detectBrakingPoints points = [marker] ∧
    marker.distM = roundTo first.distM 1 ∧ marker.lat = first.lat ∧ marker.lon = first.lon ∧
    marker.entrySpeedKmh = roundTo (first.speedKmh.getD 0) 1) ∧
  (duration < MIN_BRAKING_MS → detectBrakingPoints points = [])

/-! ### The loop -/

variable {points : List (LapPoint K)} {i j n : ℕ} {a b : LapPoint K}
  {st : List (OpenZone K) × Option (OpenZone K)}

/-- **The loop after `n` intervals**: it has seen nothing, it is in the burst, or the burst is over
and the interval after it has closed the zone. -/
def Phase (points : List (LapPoint K)) (i j n : ℕ)
    (st : List (OpenZone K) × Option (OpenZone K)) : Prop :=
  (n ≤ i ∧ st = ([], none)) ∨
    (i < n ∧ n ≤ j ∧ ∃ zone, st = ([], some zone) ∧ points[i]? = some zone.start ∧
      points[n]? = some zone.finish) ∨
    (j < n ∧ ∃ zone, st = ([zone], none) ∧ points[i]? = some zone.start ∧
      points[j + 1]? = some zone.finish)

omit [FloorRing K] in
theorem exit_lt_enter : (BRAKING_EXIT_G : K) < BRAKING_ENTER_G := by
  rw [BRAKING_EXIT_G, BRAKING_ENTER_G]
  norm_num

omit [FloorRing K] in
theorem phase_step (h : OneBurst points i j) (ha : points[n]? = some a)
    (hb : points[n + 1]? = some b) (hphase : Phase points i j n st) :
    Phase points i j (n + 1) (brakingStep st (a, b)) := by
  obtain ⟨g, hg, hexit, henter⟩ := h.measured n a b ha hb
  have hij := h.nonempty
  obtain ⟨hn, rfl⟩ | ⟨hin, hnj, zone, rfl, hstart, -⟩ | ⟨hjn, zone, rfl, hstart, hfinish⟩ := hphase
  · rcases hn.lt_or_eq with hlt | rfl
    · -- before the burst
      have hcoast : g < BRAKING_EXIT_G := by
        rw [← not_le, hexit]
        omega
      refine .inl ⟨hlt, ?_⟩
      simp only [brakingStep, hg]
      exact if_pos (hcoast.trans exit_lt_enter)
    · -- its first interval opens the zone
      have hbrake : BRAKING_EXIT_G ≤ g := hexit.mpr ⟨le_rfl, hij⟩
      refine .inr (.inl ⟨Nat.lt_succ_self n, hij, ⟨a, b, max 0 g⟩, ?_, ha, hb⟩)
      simp only [brakingStep, hg, if_neg (not_lt.mpr (henter rfl)), openZone, extendZone,
        List.getLast?_nil, if_neg (not_lt.mpr hbrake)]
  · rcases hnj.lt_or_eq with hlt | rfl
    · -- inside
      have hbrake : BRAKING_EXIT_G ≤ g := hexit.mpr ⟨hin.le, hlt⟩
      refine .inr (.inl ⟨by omega, hlt, { zone with
        peakDecelG := max zone.peakDecelG g, finish := b }, ?_, hstart, hb⟩)
      simp only [brakingStep, hg, extendZone, if_neg (not_lt.mpr hbrake)]
    · -- the interval after it closes the zone
      have hcoast : g < BRAKING_EXIT_G := by
        rw [← not_le, hexit]
        omega
      refine .inr (.inr ⟨Nat.lt_succ_self n, { zone with
        peakDecelG := max zone.peakDecelG g, finish := b }, ?_, hstart, hb⟩)
      simp only [brakingStep, hg, extendZone, if_pos hcoast, List.nil_append]
  · -- after it
    have hcoast : g < BRAKING_EXIT_G := by
      rw [← not_le, hexit]
      omega
    refine .inr (.inr ⟨by omega, zone, ?_, hstart, hfinish⟩)
    simp only [brakingStep, hg, if_pos (hcoast.trans exit_lt_enter)]

omit [FloorRing K] in
/-- The loop stands in its phase after any number of intervals. -/
theorem phase_take (h : OneBurst points i j) (hn : n + 1 ≤ points.length) :
    Phase points i j n (((points.zip points.tail).take n).foldl brakingStep ([], none)) := by
  induction n with
  | zero => exact .inl ⟨Nat.zero_le i, rfl⟩
  | succ n ih =>
    have hhop := Lists.hops_getElem? points (show n + 1 < points.length from hn)
    rw [List.take_add_one, hhop, Option.toList_some, List.foldl_append, List.foldl_cons,
      List.foldl_nil]
    exact phase_step h (List.getElem?_eq_getElem (by omega)) (List.getElem?_eq_getElem hn)
      (ih (by omega))

omit [FloorRing K] in
/-- **There is one zone**, from the first point of the burst to the end of the interval that closes
it, or to the line. -/
theorem brakingZones_burst (h : OneBurst points i j) :
    ∃ zone, brakingZones points = [zone] ∧ points[i]? = some zone.start ∧
      (points[j + 1]? = some zone.finish ∨
        (points[j + 1]? = none ∧ points[j]? = some zone.finish)) := by
  have hij := h.nonempty
  have hj := h.bound
  have hphase := phase_take h (show points.length - 1 + 1 ≤ points.length by omega)
  rw [List.take_of_length_le (by rw [List.length_zip, List.length_tail]; omega)] at hphase
  unfold brakingZones
  obtain ⟨hn, -⟩ | ⟨-, hnj, zone, hst, hstart, hfinish⟩ | ⟨-, zone, hst, hstart, hfinish⟩ := hphase
  · omega
  · have hlast : points.length - 1 = j := by omega
    rw [hlast] at hfinish
    exact ⟨zone, by rw [hst]; rfl, hstart,
      .inr ⟨List.getElem?_eq_none (by omega), hfinish⟩⟩
  · exact ⟨zone, by rw [hst]; rfl, hstart, .inl hfinish⟩

/-! ### The duration test -/

omit [IsStrictOrderedRing K] in
theorem detectBrakingPoints_single {zone : OpenZone K} (hzones : brakingZones points = [zone]) :
    detectBrakingPoints points =
      if MIN_BRAKING_MS ≤ zone.finish.timeMs - zone.start.timeMs then [toBrakingPoint zone]
      else [] := by
  rw [detectBrakingPoints, hzones]
  split
  · rename_i hlong
    have hsustained : isSustained zone = true := decide_eq_true hlong
    rw [List.filter_cons_of_pos hsustained]
    rfl
  · rename_i hshort
    have hstab : ¬ isSustained zone = true := fun hsustained =>
      hshort (of_decide_eq_true hsustained)
    rw [List.filter_cons_of_neg hstab]
    rfl

/-- **When the duration test is a test of the burst**: the interval that closes the zone, if there
is one, does not carry a burst that is too short over the threshold. -/
theorem detects_iff (h : OneBurst points i j) {first last : LapPoint K}
    (hfirst : points[i]? = some first) (hlast : points[j]? = some last) :
    Detects points first (last.timeMs - first.timeMs) ↔
      ∀ closing, points[j + 1]? = some closing →
        MIN_BRAKING_MS ≤ last.timeMs - first.timeMs ∨
          closing.timeMs - first.timeMs < MIN_BRAKING_MS := by
  obtain ⟨zone, hzones, hstart, hfinish⟩ := brakingZones_burst h
  rw [hfirst, Option.some.injEq] at hstart
  subst hstart
  have hdetect := detectBrakingPoints_single hzones
  have hmarked : MIN_BRAKING_MS ≤ zone.finish.timeMs - zone.start.timeMs →
      MIN_BRAKING_MS ≤ last.timeMs - zone.start.timeMs →
      Detects points zone.start (last.timeMs - zone.start.timeMs) := by
    intro hzone hburst
    rw [if_pos hzone] at hdetect
    exact ⟨fun _ => ⟨_, hdetect, rfl, rfl, rfl, rfl⟩,
      fun hshort => absurd hburst (not_le.mpr hshort)⟩
  have hunmarked : zone.finish.timeMs - zone.start.timeMs < MIN_BRAKING_MS →
      last.timeMs - zone.start.timeMs < MIN_BRAKING_MS →
      Detects points zone.start (last.timeMs - zone.start.timeMs) := by
    intro hzone hburst
    rw [if_neg (not_le.mpr hzone)] at hdetect
    exact ⟨fun hlong => absurd hlong (not_le.mpr hburst), fun _ => hdetect⟩
  rcases hfinish with hclosing | ⟨hnone, hfinish⟩
  · -- the zone ends with the interval that closes it, after the burst
    have hlater : last.timeMs < zone.finish.timeMs := by
      obtain ⟨hj, rfl⟩ := List.getElem?_eq_some_iff.mp hlast
      obtain ⟨hj', hfinish⟩ := List.getElem?_eq_some_iff.mp hclosing
      rw [← hfinish]
      exact List.pairwise_iff_getElem.mp h.times j (j + 1) hj hj' (Nat.lt_succ_self j)
    constructor
    · intro hdetects closing hsame
      rw [hclosing, Option.some.injEq] at hsame
      subst hsame
      by_contra hcarried
      rw [not_or, not_le, not_lt] at hcarried
      rw [hdetects.2 hcarried.1, if_pos hcarried.2] at hdetect
      cases hdetect
    · intro hcondition
      rcases hcondition _ hclosing with hlong | hshort
      · exact hmarked (by linarith) hlong
      · exact hunmarked hshort (by linarith)
  · -- the burst runs to the line
    rw [hlast, Option.some.injEq] at hfinish
    subst hfinish
    refine iff_of_true ?_ ?_
    · rcases le_or_gt MIN_BRAKING_MS (zone.finish.timeMs - zone.start.timeMs) with hlong | hshort
      · exact hmarked hlong hlong
      · exact hunmarked hshort hshort
    · intro closing hclosing
      rw [hnone] at hclosing
      cases hclosing

end Burst

section Example

/-- A sample of a lap at 10 Hz. -/
def at10Hz (n : ℕ) (gLon : ℚ) : LapPoint ℚ := ⟨⟨100 * n, 42, 24, some 180, some gLon⟩, 5 * n⟩

/-- Two samples of braking, 200 ms in all. -/
def stab : List (LapPoint ℚ) := [at10Hz 0 0, at10Hz 1 (-1), at10Hz 2 (-1), at10Hz 3 0]

theorem oneBurst_stab : OneBurst stab 0 2 where
  times := by decide +kernel
  distances := by decide +kernel
  nonempty := by decide
  bound := by decide
  measured := by
    intro k a b ha hb
    match k with
    | 0 | 1 =>
      cases ha
      cases hb
      exact ⟨_, rfl, by decide +kernel⟩
    | 2 =>
      cases ha
      cases hb
      exact ⟨_, rfl, by decide +kernel⟩
    | k + 3 => cases hb

/-- The interval that closes the zone makes it 300 ms: a burst of 200 ms is marked. -/
theorem not_detects_stab : OneBurst stab 0 2 ∧
    ¬ Detects stab (at10Hz 0 0) ((at10Hz 2 (-1)).timeMs - (at10Hz 0 0).timeMs) := by
  refine ⟨oneBurst_stab, ?_⟩
  intro h
  have hshort : (at10Hz 2 (-1)).timeMs - (at10Hz 0 0).timeMs < MIN_BRAKING_MS := by decide +kernel
  have hmarked : (detectBrakingPoints stab).isEmpty = false := by decide +kernel
  rw [h.2 hshort] at hmarked
  cases hmarked

/-- The same burst with the lap's end in it. -/
def lastCorner : List (LapPoint ℚ) := [at10Hz 0 0, at10Hz 1 (-1), at10Hz 2 (-1), at10Hz 3 (-1)]

theorem detects_iff_lastCorner :
    Detects lastCorner (at10Hz 0 0) ((at10Hz 3 (-1)).timeMs - (at10Hz 0 0).timeMs) := by
  have hburst : OneBurst lastCorner 0 3 := {
    times := by decide +kernel
    distances := by decide +kernel
    nonempty := by decide
    bound := by decide
    measured := by
      intro k a b ha hb
      match k with
      | 0 | 1 | 2 =>
        cases ha
        cases hb
        exact ⟨_, rfl, by decide +kernel⟩
      | k + 3 => cases hb }
  exact (detects_iff hburst rfl rfl).mpr fun closing hclosing => by cases hclosing

end Example

end TelemetryCloud.BrakingBurst
