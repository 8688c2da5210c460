import TelemetryCloud.Geometry
import TelemetryCloud.RingSweep
import Mathlib.Analysis.SpecialFunctions.Sqrt

/-!
# The speed around the lap

The circuit the mock car drives is a ring of points, and `speedProfile` says how fast it is at each: as
fast as the corner there allows, but slow enough for the next and no faster than it can have become since
the last.  Arithmetic is exact and `Math.sqrt` is whatever function the field is given.

* `backward`, `forward`, `speedProfile` : the code;
* `Drivable` : what a car with this grip can drive;
* `allowed_spec` : what the loops compare;
* `speedProfile_greatest` : **the profile is the fastest drivable one**, all the way around, and two passes
  find it.
-/

namespace TelemetryCloud.SpeedProfile

open RingSweep

/-! ### The code -/

section Code

variable {K : Type} [Field K] [LinearOrder K]

def G : K := 9.80665

/-- The options of `speedProfile`. -/
structure Grip (K : Type) where
  latG : K
  brakeG : K
  accelG : K
  vMaxKmh : K

variable (sqrt : K → K)

/-- The speed in a corner of curvature `kappa`, in m/s. -/
def cornerSpeed (grip : Grip K) (kappa : K) : K :=
  min (grip.vMaxKmh / 3.6) (sqrt (grip.latG * G / max |kappa| 1e-6))

/-- The speed one point away from `speed`, if its square changes by `step`. -/
def allowed (step speed : K) : K := sqrt (speed * speed + step)

/-- The loop from the last point to the first: `next` is the point after, for the last one the first,
where the loop has not been yet. -/
def backward (brakeStep : K) (v : List K) : List K := (sweep (allowed sqrt brakeStep) v.reverse).reverse

/-- The loop from the first point to the last. -/
def forward (accelStep : K) (v : List K) : List K := sweep (allowed sqrt accelStep) v

/-- A turn of the outer loop, of which there are three. -/
def pass (brakeStep accelStep : K) (v : List K) : List K :=
  forward sqrt accelStep (backward sqrt brakeStep v)

def brakeStep (grip : Grip K) (ds : K) : K := 2 * grip.brakeG * G * ds

def accelStep (grip : Grip K) (ds : K) : K := 2 * grip.accelG * G * ds

def speedProfile (kappa : List K) (ds : K) (grip : Grip K) : List K :=
  (pass sqrt (brakeStep grip ds) (accelStep grip ds))^[3] (kappa.map (cornerSpeed sqrt grip))

end Code

/-! ### What a car can drive -/

section Specification

variable {K : Type} [Field K] [LinearOrder K]

/-- The car keeps to its top speed and to its lateral grip everywhere, and from each point to the next
neither brakes nor accelerates harder than it can. -/
structure Drivable (kappa : List K) (ds : K) (grip : Grip K) (v : List K) : Prop where
  corners : kappa.Forall₂ (fun k speed => 0 ≤ speed ∧ speed ≤ grip.vMaxKmh / 3.6 ∧
    speed * speed * max |k| 1e-6 ≤ grip.latG * G) v
  braking : OnRing (fun s t => s * s ≤ t * t + 2 * grip.brakeG * G * ds) v
  traction : OnRing (fun s t => t * t ≤ s * s + 2 * grip.accelG * G * ds) v

/-- The square root. -/
structure IsSqrt (sqrt : K → K) : Prop where
  nonneg : ∀ x, 0 ≤ x → 0 ≤ sqrt x
  mul_self : ∀ x, 0 ≤ x → sqrt x * sqrt x = x

end Specification

section Proof

variable {K : Type} [Field K] [LinearOrder K] [IsStrictOrderedRing K] {sqrt : K → K}

theorem IsSqrt.le_iff (h : IsSqrt sqrt) {x y : K} (hx : 0 ≤ x) (hy : 0 ≤ y) :
    y ≤ sqrt x ↔ y * y ≤ x := by
  rw [mul_self_le_mul_self_iff hy (h.nonneg x hx), h.mul_self x hx]

variable {step : K}

/-- **What the loops compare**: speeds whose squares are `step` apart. -/
theorem allowed_spec (h : IsSqrt sqrt) (hstep : 0 ≤ step) {s t : K} (ht : 0 ≤ t) :
    t ≤ allowed sqrt step s ↔ t * t ≤ s * s + step :=
  h.le_iff (add_nonneg (mul_self_nonneg s) hstep) ht

theorem le_allowed (h : IsSqrt sqrt) (hstep : 0 ≤ step) (s : K) : s ≤ allowed sqrt step s := by
  rcases le_total 0 s with hs | hs
  · rw [allowed_spec h hstep hs]
    linarith
  · exact hs.trans (h.nonneg _ (add_nonneg (mul_self_nonneg s) hstep))

theorem allowed_mono (h : IsSqrt sqrt) (hstep : 0 ≤ step) {s t : K} (hs : 0 ≤ s) (hst : s ≤ t) :
    allowed sqrt step s ≤ allowed sqrt step t := by
  have hsquare := add_nonneg (mul_self_nonneg s) hstep
  have hnonneg : 0 ≤ allowed sqrt step s := h.nonneg _ hsquare
  rw [allowed_spec h hstep hnonneg, allowed, h.mul_self _ hsquare]
  have := mul_self_le_mul_self hs hst
  linarith

theorem le_cornerSpeed_iff (h : IsSqrt sqrt) {grip : Grip K} (hlat : 0 ≤ grip.latG) {kappa speed : K}
    (hspeed : 0 ≤ speed) : speed ≤ cornerSpeed sqrt grip kappa ↔
      speed ≤ grip.vMaxKmh / 3.6 ∧ speed * speed * max |kappa| 1e-6 ≤ grip.latG * G := by
  have hkappa : 0 < max |kappa| (1e-6 : K) := lt_max_of_lt_right (by positivity)
  have hgrip : 0 ≤ grip.latG * G / max |kappa| 1e-6 :=
    div_nonneg (mul_nonneg hlat (by unfold G; positivity)) hkappa.le
  rw [cornerSpeed, le_min_iff, h.le_iff hgrip hspeed, le_div_iff₀ hkappa]

/-- Around a ring of speeds, in terms of their squares. -/
theorem onRing_forward (h : IsSqrt sqrt) (hstep : 0 ≤ step) {v : List K} (hv : ∀ s ∈ v, 0 ≤ s) :
    OnRing (fun s t => t ≤ allowed sqrt step s) v ↔ OnRing (fun s t => t * t ≤ s * s + step) v :=
  onRing_congr fun _ _ t ht => allowed_spec h hstep (hv t ht)

theorem onRing_backward (h : IsSqrt sqrt) (hstep : 0 ≤ step) {v : List K} (hv : ∀ s ∈ v, 0 ≤ s) :
    OnRing (fun s t => s ≤ allowed sqrt step t) v ↔ OnRing (fun s t => s * s ≤ t * t + step) v :=
  onRing_congr fun s hs _ _ => allowed_spec h hstep (hv s hs)

variable {kappa : List K} {ds : K} {grip : Grip K}

omit [Field K] [LinearOrder K] [IsStrictOrderedRing K] in
theorem forall_mem_of_forall₂ {p : K → Prop} {l v : List K} (h : l.Forall₂ (fun _ s => p s) v) :
    ∀ s ∈ v, p s := by
  induction h with
  | nil => exact fun s hs => nomatch hs
  | cons h _ ih => exact List.forall_mem_cons.mpr ⟨h, ih⟩

omit [IsStrictOrderedRing K] in
theorem Drivable.nonneg {v : List K} (h : Drivable kappa ds grip v) : ∀ s ∈ v, 0 ≤ s :=
  forall_mem_of_forall₂ (h.corners.imp fun _ _ hcorner => hcorner.1)

theorem corners_iff (h : IsSqrt sqrt) (hlat : 0 ≤ grip.latG) {v : List K} (hv : ∀ s ∈ v, 0 ≤ s) :
    kappa.Forall₂ (fun k speed => 0 ≤ speed ∧ speed ≤ grip.vMaxKmh / 3.6 ∧
        speed * speed * max |k| 1e-6 ≤ grip.latG * G) v ↔
      v.Forall₂ (· ≤ ·) (kappa.map (cornerSpeed sqrt grip)) := by
  rw [List.forall₂_map_right_iff]
  constructor
  · intro hcorners
    induction hcorners with
    | nil => exact .nil
    | cons hcorner _ ih =>
      obtain ⟨hspeed, hv⟩ := List.forall_mem_cons.mp hv
      exact .cons ((le_cornerSpeed_iff h hlat hspeed).mpr hcorner.2) (ih hv)
  · intro hcorners
    induction hcorners with
    | nil => exact .nil
    | cons hcorner _ ih =>
      obtain ⟨hspeed, hv⟩ := List.forall_mem_cons.mp hv
      exact .cons ⟨hspeed, (le_cornerSpeed_iff h hlat hspeed).mp hcorner⟩ (ih hv)

/-- **A pass goes no lower than what can be driven.** -/
theorem Drivable.le_pass (h : IsSqrt sqrt) (hbrake : 0 ≤ brakeStep grip ds)
    (haccel : 0 ≤ accelStep grip ds) {v w : List K} (hw : Drivable kappa ds grip w)
    (hle : w.Forall₂ (· ≤ ·) v) :
    w.Forall₂ (· ≤ ·) (pass sqrt (brakeStep grip ds) (accelStep grip ds) v) :=
  le_round hle ((onRing_forward h haccel hw.nonneg).mpr hw.traction)
    ((onRing_backward h hbrake hw.nonneg).mpr hw.braking)
    (fun s hs _ hst => allowed_mono h haccel (hw.nonneg s hs) hst)
    (fun s hs _ hst => allowed_mono h hbrake (hw.nonneg s hs) hst)

/-- Not to drive at all is possible. -/
theorem drivable_zero (hbrake : 0 ≤ brakeStep grip ds) (haccel : 0 ≤ accelStep grip ds)
    (hlat : 0 ≤ grip.latG) (hmax : 0 ≤ grip.vMaxKmh) :
    Drivable kappa ds grip (kappa.map fun _ => 0) := by
  have hzero : ∀ s ∈ kappa.map fun _ => (0 : K), s = 0 := by simp
  refine ⟨?_, onRing_of_forall fun s hs t ht => ?_, onRing_of_forall fun s hs t ht => ?_⟩
  · have hlateral : 0 ≤ grip.latG * G := mul_nonneg hlat (by unfold G; positivity)
    have hspeed : (0 : K) ≤ grip.vMaxKmh / 3.6 := div_nonneg hmax (by positivity)
    rw [List.forall₂_map_right_iff, List.forall₂_same]
    intro k _
    rw [mul_zero, zero_mul]
    exact ⟨le_refl 0, hspeed, hlateral⟩
  · rw [hzero s hs, hzero t ht]
    simpa [brakeStep] using hbrake
  · rw [hzero s hs, hzero t ht]
    simpa [accelStep] using haccel

/-- **The fastest drivable profile** is what is computed, and a third pass changes nothing. -/
theorem speedProfile_greatest (h : IsSqrt sqrt) (hds : 0 ≤ ds) (hlat : 0 ≤ grip.latG)
    (hbrakeG : 0 ≤ grip.brakeG) (haccelG : 0 ≤ grip.accelG) (hmax : 0 ≤ grip.vMaxKmh) :
    Drivable kappa ds grip (speedProfile sqrt kappa ds grip) ∧
      (∀ v, Drivable kappa ds grip v → v.Forall₂ (· ≤ ·) (speedProfile sqrt kappa ds grip)) ∧
      speedProfile sqrt kappa ds grip =
        (pass sqrt (brakeStep grip ds) (accelStep grip ds))^[2] (kappa.map (cornerSpeed sqrt grip)) := by
  have hG : (0 : K) ≤ G := by
    unfold G
    positivity
  have hbrake : 0 ≤ brakeStep grip ds := by
    unfold brakeStep
    positivity
  have haccel : 0 ≤ accelStep grip ds := by
    unfold accelStep
    positivity
  obtain ⟨limits, hlimits⟩ : ∃ limits, limits = kappa.map (cornerSpeed sqrt grip) := ⟨_, rfl⟩
  obtain ⟨next, hnext⟩ : ∃ next, next = pass sqrt (brakeStep grip ds) (accelStep grip ds) := ⟨_, rfl⟩
  -- two passes close the ring, so that the third finds nothing to do
  have hring := onRing_round (le_allowed h haccel) (le_allowed h hbrake) limits
  have hsettled : next (next limits) = next (next (next limits)) := by
    rw [hnext]
    exact (round_eq hring.1 hring.2).symm
  have hgreatest : ∀ v, Drivable kappa ds grip v → v.Forall₂ (· ≤ ·) (next (next limits)) := by
    intro v hv
    have hstart : v.Forall₂ (· ≤ ·) limits := by
      rw [hlimits]
      exact (corners_iff h hlat hv.nonneg).mp hv.corners
    rw [hnext]
    exact hv.le_pass h hbrake haccel (hv.le_pass h hbrake haccel hstart)
  have hnonneg : ∀ s ∈ next (next limits), 0 ≤ s :=
    forall_mem_of_forall₂ (List.forall₂_map_left_iff.mp
      (hgreatest _ (drivable_zero hbrake haccel hlat hmax)))
  have hbelow : (next (next limits)).Forall₂ (· ≤ ·) limits := by
    rw [hnext]
    exact forall₂_trans (round_le _) (round_le limits)
  have hdrivable : Drivable kappa ds grip (next (next limits)) := by
    refine ⟨(corners_iff h hlat hnonneg).mpr (hlimits ▸ hbelow), ?_, ?_⟩
    · rw [hnext] at hnonneg ⊢
      exact (onRing_backward h hbrake hnonneg).mp hring.2
    · rw [hnext] at hnonneg ⊢
      exact (onRing_forward h haccel hnonneg).mp hring.1
  have hprofile : speedProfile sqrt kappa ds grip = next (next limits) := by
    rw [hsettled, hnext, hlimits]
    rfl
  rw [hprofile]
  refine ⟨hdrivable, hgreatest, ?_⟩
  rw [hnext, hlimits]
  rfl

end Proof

section Example

theorem isSqrt_real : IsSqrt Real.sqrt := ⟨fun x _ => Real.sqrt_nonneg x, fun _ => Real.mul_self_sqrt⟩

/-- A hairpin at the end of a straight. -/
noncomputable def hairpin : List ℝ := [0, 0, 0, 0.05, 0]

noncomputable def trackTyres : Grip ℝ := ⟨1.2, 1.1, 0.35, 185⟩

theorem speedProfile_greatest_hairpin :
    Drivable hairpin 1 trackTyres (speedProfile Real.sqrt hairpin 1 trackTyres) ∧
      (∀ v, Drivable hairpin 1 trackTyres v →
        v.Forall₂ (· ≤ ·) (speedProfile Real.sqrt hairpin 1 trackTyres)) ∧
      speedProfile Real.sqrt hairpin 1 trackTyres =
        (pass Real.sqrt (brakeStep trackTyres 1) (accelStep trackTyres 1))^[2]
          (hairpin.map (cornerSpeed Real.sqrt trackTyres)) := by
  refine speedProfile_greatest isSqrt_real zero_le_one ?_ ?_ ?_ ?_
  all_goals
    unfold trackTyres
    norm_num

end Example

end TelemetryCloud.SpeedProfile
