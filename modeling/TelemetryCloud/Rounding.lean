import Mathlib.Algebra.Order.Floor.Ring
import Mathlib.Algebra.Order.Ring.Pow
import Mathlib.Algebra.BigOperators.Group.List.Basic
import Mathlib.Data.Int.Log
import Mathlib.Data.List.Induction
import Mathlib.Data.Rat.Floor
import Mathlib.Tactic.Linarith
import Mathlib.Tactic.Positivity

/-!
# Arithmetic with rounded results

An operation of a floating-point type is the exact one with its result rounded.  A `Rounding` is such a
rounding, as far as proofs need it: it keeps order and sign.  Sums are running sums, and what they come
to depends on the order.

* `Rounding`, `Rounding.exact` : a rounding, and that of exact arithmetic;
* `Rounding.sum` : the running sum of a list;
* `Rounding.Within`, `sum_le`, `le_sum` : **how far a running sum is from the sum**;
* `nearest`, `binary64` : to the nearest number of 53 binary digits, half to even.
-/

namespace TelemetryCloud

/-- The base, as a numeral of any field. -/
instance atLeastTwo_two : Nat.AtLeastTwo 2 := ⟨Nat.le_refl 2⟩

/-- A rounding keeps the order and the sign. -/
structure Rounding (K : Type) [Field K] [LinearOrder K] where
  round : K → K
  mono : Monotone round
  neg : ∀ x, round (-x) = -round x

namespace Rounding

section Operations

variable {K : Type} [Field K] [LinearOrder K] (R : Rounding K)

def add (a b : K) : K := R.round (a + b)
def sub (a b : K) : K := R.round (a - b)
def mul (a b : K) : K := R.round (a * b)
def div (a b : K) : K := R.round (a / b)

/-- The running sum. -/
def sum (xs : List K) : K := xs.foldl R.add 0

variable (K) in
/-- Results as they are. -/
def exact : Rounding K := ⟨id, monotone_id, fun _ => rfl⟩

@[simp] theorem exact_round (x : K) : (exact K).round x = x := rfl
@[simp] theorem exact_add (a b : K) : (exact K).add a b = a + b := rfl
@[simp] theorem exact_sub (a b : K) : (exact K).sub a b = a - b := rfl
@[simp] theorem exact_mul (a b : K) : (exact K).mul a b = a * b := rfl
@[simp] theorem exact_div (a b : K) : (exact K).div a b = a / b := rfl

theorem sum_exact (xs : List K) : (exact K).sum xs = xs.sum := List.sum_eq_foldl.symm

theorem add_swap (a b : K) : R.add a b = R.add b a := congrArg R.round (add_comm a b)

theorem sub_swap (a b : K) : R.sub b a = -R.sub a b :=
  (congrArg R.round (neg_sub a b).symm).trans (R.neg (a - b))

theorem mul_neg_left (a b : K) : R.mul (-a) b = -R.mul a b :=
  (congrArg R.round (neg_mul a b)).trans (R.neg (a * b))

theorem sum_concat (xs : List K) (x : K) : R.sum (xs ++ [x]) = R.add (R.sum xs) x := by
  rw [sum, List.foldl_append]
  rfl

variable [IsStrictOrderedRing K]

theorem round_zero : R.round 0 = 0 := by
  have h := R.neg 0
  rw [neg_zero] at h
  linarith

theorem round_nonneg {x : K} (h : 0 ≤ x) : 0 ≤ R.round x := by
  have hmono := R.mono h
  rwa [R.round_zero] at hmono

theorem sum_nonneg {xs : List K} (h : ∀ x ∈ xs, 0 ≤ x) : 0 ≤ R.sum xs := by
  induction xs using List.reverseRecOn with
  | nil => exact le_rfl
  | append_singleton xs x ih =>
    rw [sum_concat]
    have hxs := ih fun y hy => h y (List.mem_append_left _ hy)
    exact R.round_nonneg (add_nonneg hxs (h x (List.mem_append_right _ (List.mem_singleton_self x))))

end Operations

/-! ### The error of a running sum -/

section Errors

variable {K : Type} [Field K] [LinearOrder K]

/-- Sums of numbers that are not negative are off by the unit, relatively, at most. -/
def Within (R : Rounding K) (unit : K) : Prop :=
  ∀ a b, 0 ≤ a → 0 ≤ b → |R.add a b - (a + b)| ≤ unit * (a + b)

variable [IsStrictOrderedRing K]

variable {R : Rounding K} {unit : K} {xs : List K}

/-- A running sum is more than the sum by the unit for each addition at most. -/
theorem sum_le (hR : R.Within unit) (hunit : 0 ≤ unit) (h : ∀ x ∈ xs, 0 ≤ x) :
    R.sum xs ≤ (1 + unit) ^ xs.length * xs.sum := by
  induction xs using List.reverseRecOn with
  | nil => exact (mul_zero _).ge
  | append_singleton xs x ih =>
    have hxs := fun y hy => h y (List.mem_append_left _ hy)
    have hx := h x (List.mem_append_right _ (List.mem_singleton_self x))
    have hpow : 1 ≤ (1 + unit) ^ xs.length := one_le_pow₀ (le_add_of_nonneg_right hunit)
    have hsum : R.sum xs + x ≤ (1 + unit) ^ xs.length * (xs ++ [x]).sum := by
      rw [List.sum_append, List.sum_singleton, mul_add]
      exact add_le_add (ih hxs) (le_mul_of_one_le_left hx hpow)
    have hone := (abs_le.mp (hR (R.sum xs) x (R.sum_nonneg hxs) hx)).2
    calc R.sum (xs ++ [x]) = R.add (R.sum xs) x := R.sum_concat xs x
      _ ≤ (1 + unit) * (R.sum xs + x) := by linarith
      _ ≤ (1 + unit) * ((1 + unit) ^ xs.length * (xs ++ [x]).sum) :=
        mul_le_mul_of_nonneg_left hsum (by linarith)
      _ = (1 + unit) ^ (xs ++ [x]).length * (xs ++ [x]).sum := by
        rw [List.length_append, List.length_singleton, pow_succ', mul_assoc]

/-- And less by the unit for each addition at most. -/
theorem le_sum (hR : R.Within unit) (hunit : 0 ≤ unit) (hle : unit ≤ 1) (h : ∀ x ∈ xs, 0 ≤ x) :
    (1 - unit) ^ xs.length * xs.sum ≤ R.sum xs := by
  induction xs using List.reverseRecOn with
  | nil => exact (mul_zero _).le
  | append_singleton xs x ih =>
    have hxs := fun y hy => h y (List.mem_append_left _ hy)
    have hx := h x (List.mem_append_right _ (List.mem_singleton_self x))
    have hpow : (1 - unit) ^ xs.length ≤ 1 := pow_le_one₀ (by linarith) (by linarith)
    have hsum : (1 - unit) ^ xs.length * (xs ++ [x]).sum ≤ R.sum xs + x := by
      rw [List.sum_append, List.sum_singleton, mul_add]
      exact add_le_add (ih hxs) (mul_le_of_le_one_left hx hpow)
    have hone := (abs_le.mp (hR (R.sum xs) x (R.sum_nonneg hxs) hx)).1
    calc (1 - unit) ^ (xs ++ [x]).length * (xs ++ [x]).sum
        = (1 - unit) * ((1 - unit) ^ xs.length * (xs ++ [x]).sum) := by
          rw [List.length_append, List.length_singleton, pow_succ', mul_assoc]
      _ ≤ (1 - unit) * (R.sum xs + x) := mul_le_mul_of_nonneg_left hsum (by linarith)
      _ ≤ R.add (R.sum xs) x := by linarith
      _ = R.sum (xs ++ [x]) := (R.sum_concat xs x).symm

/-- **A running sum is the sum** up to a quarter, less or more, while the units of all its additions
come to no more than that. -/
theorem sum_quarters (hR : R.Within unit) (hunit : 0 ≤ unit) (hle : unit ≤ 1) {n : ℕ}
    (hsize : n * unit ≤ 1 / 4) (hlength : xs.length ≤ n) (h : ∀ x ∈ xs, 0 ≤ x) :
    3 / 4 * xs.sum ≤ R.sum xs ∧ 3 / 4 * R.sum xs ≤ xs.sum := by
  have hsum : 0 ≤ xs.sum := List.sum_nonneg h
  have hunits : (xs.length : K) * unit ≤ 1 / 4 :=
    (mul_le_mul_of_nonneg_right (Nat.cast_le.mpr hlength) hunit).trans hsize
  have hlow : (3 / 4 : K) ≤ (1 - unit) ^ xs.length := by
    have hbernoulli := one_add_mul_le_pow (show -2 ≤ -unit by linarith) xs.length
    rw [← sub_eq_add_neg] at hbernoulli
    linarith
  have hproduct : (1 - unit) ^ xs.length * (1 + unit) ^ xs.length ≤ 1 := by
    rw [← mul_pow]
    exact pow_le_one₀ (mul_nonneg (by linarith) (by linarith)) (by nlinarith)
  have hhigh : 0 ≤ (1 + unit) ^ xs.length := pow_nonneg (by linarith) _
  constructor
  · exact (mul_le_mul_of_nonneg_right hlow hsum).trans (le_sum hR hunit hle h)
  · calc 3 / 4 * R.sum xs
        ≤ (1 - unit) ^ xs.length * ((1 + unit) ^ xs.length * xs.sum) :=
          mul_le_mul hlow (sum_le hR hunit h) (R.sum_nonneg h) (pow_nonneg (by linarith) _)
      _ = (1 - unit) ^ xs.length * (1 + unit) ^ xs.length * xs.sum := (mul_assoc _ _ _).symm
      _ ≤ xs.sum := mul_le_of_le_one_left hsum hproduct

end Errors

/-! ### The nearest number of so many digits -/

section Nearest

variable {K : Type} [Field K] [LinearOrder K] [FloorRing K]

/-- The nearest integer, and of two the even one. -/
def roundEven (x : K) : ℤ :=
  if x - ⌊x⌋ < 1 / 2 ∨ x - ⌊x⌋ = 1 / 2 ∧ ⌊x⌋ % 2 = 0 then ⌊x⌋ else ⌊x⌋ + 1

/-- The distance between two numbers with so many binary digits after the first, about a number. -/
def ulp (digits : ℕ) (x : K) : K := 2 ^ (Int.log 2 |x| - digits)

/-- The nearest number with so many binary digits after the first. -/
def nearest (digits : ℕ) (x : K) : K := roundEven (x / ulp digits x) * ulp digits x

variable [IsStrictOrderedRing K]

omit [IsStrictOrderedRing K] in
theorem floor_le_roundEven (x : K) : ⌊x⌋ ≤ roundEven x := by
  unfold roundEven
  split <;> omega

omit [IsStrictOrderedRing K] in
theorem roundEven_le (x : K) : roundEven x ≤ ⌊x⌋ + 1 := by
  unfold roundEven
  split <;> omega

theorem roundEven_intCast (n : ℤ) : roundEven (n : K) = n := by
  rw [roundEven, Int.floor_intCast, sub_self, if_pos (.inl (by norm_num))]

theorem roundEven_mono {x y : K} (h : x ≤ y) : roundEven x ≤ roundEven y := by
  rcases (Int.floor_le_floor h).lt_or_eq with hlt | heq
  · have hx := roundEven_le x
    have hy := floor_le_roundEven y
    omega
  · unfold roundEven
    rw [heq]
    by_cases hy : y - ⌊y⌋ < 1 / 2 ∨ y - ⌊y⌋ = 1 / 2 ∧ ⌊y⌋ % 2 = 0
    · have hx : x - ⌊y⌋ < 1 / 2 ∨ x - ⌊y⌋ = 1 / 2 ∧ ⌊y⌋ % 2 = 0 := by
        rcases hy with hlt | ⟨hhalf, heven⟩
        · exact .inl (by linarith)
        · rcases (show x - ⌊y⌋ ≤ 1 / 2 by linarith).lt_or_eq with hlt | heq
          · exact .inl hlt
          · exact .inr ⟨heq, heven⟩
      rw [if_pos hx, if_pos hy]
    · rw [if_neg hy]
      split <;> omega

theorem abs_roundEven_sub_le (x : K) : |roundEven x - x| ≤ 1 / 2 := by
  have hfloor := Int.floor_le x
  have hfract := Int.lt_floor_add_one x
  unfold roundEven
  split
  · next h =>
    have hle : x - ⌊x⌋ ≤ 1 / 2 := h.elim le_of_lt fun h => h.1.le
    exact abs_le.mpr ⟨by linarith, by linarith⟩
  · next h =>
    have hge : 1 / 2 ≤ x - ⌊x⌋ := not_lt.mp (not_or.mp h).1
    push_cast
    exact abs_le.mpr ⟨by linarith, by linarith⟩

theorem roundEven_neg (x : K) : roundEven (-x) = -roundEven x := by
  by_cases hint : x = ⌊x⌋
  · rw [hint, ← Int.cast_neg, roundEven_intCast, roundEven_intCast]
  · have hlt : (⌊x⌋ : K) < x := lt_of_le_of_ne (Int.floor_le x) (Ne.symm hint)
    have hfract := Int.lt_floor_add_one x
    have hfloor : ⌊-x⌋ = -⌊x⌋ - 1 := by
      rw [Int.floor_eq_iff]
      push_cast
      exact ⟨by linarith, by linarith⟩
    unfold roundEven
    rw [hfloor]
    push_cast
    rcases lt_trichotomy (x - ⌊x⌋) (1 / 2) with hdown | hhalf | hup
    · rw [if_neg, if_pos (.inl hdown)]
      · omega
      · rintro (h | ⟨h, -⟩) <;> linarith
    · have htie : -x - (-(⌊x⌋ : K) - 1) = 1 / 2 := by linarith
      by_cases heven : ⌊x⌋ % 2 = 0
      · rw [if_neg, if_pos (.inr ⟨hhalf, heven⟩)]
        · omega
        · rintro (h | ⟨-, h⟩)
          · linarith
          · omega
      · rw [if_pos (.inr ⟨htie, by omega⟩), if_neg]
        · omega
        · rintro (h | ⟨-, h⟩)
          · linarith
          · exact heven h
    · rw [if_pos (.inl (by linarith)), if_neg]
      · omega
      · rintro (h | ⟨h, -⟩) <;> linarith

theorem ulp_pos (digits : ℕ) (x : K) : 0 < ulp digits x := zpow_pos two_pos _

/-- So many digits after the first are below the next power. -/
theorem ulp_mul_pow (digits : ℕ) (x : K) :
    (2 : K) ^ digits * ulp digits x = 2 ^ Int.log 2 |x| := by
  rw [ulp, ← zpow_natCast, ← zpow_add₀ two_pos.ne', add_sub_cancel]

theorem nearest_le {digits : ℕ} {x : K} (h : 0 < x) :
    nearest digits x ≤ 2 ^ (Int.log 2 |x| + 1) := by
  have hulp := ulp_pos digits x
  have hbelow : x / ulp digits x ≤ ((2 ^ (digits + 1) : ℤ) : K) := by
    rw [div_le_iff₀ hulp]
    push_cast
    rw [pow_succ, mul_assoc, mul_comm (2 : K), ← mul_assoc, ulp_mul_pow, ← zpow_add_one₀ two_ne_zero,
      abs_of_pos h]
    exact (Int.lt_zpow_succ_log_self (by decide) x).le
  have hround := roundEven_mono hbelow
  rw [roundEven_intCast] at hround
  calc nearest digits x ≤ ((2 ^ (digits + 1) : ℤ) : K) * ulp digits x :=
        mul_le_mul_of_nonneg_right (Int.cast_le.mpr hround) hulp.le
    _ = 2 ^ (Int.log 2 |x| + 1) := by
      push_cast
      rw [pow_succ, mul_assoc, mul_comm (2 : K), ← mul_assoc, ulp_mul_pow, ← zpow_add_one₀ two_ne_zero]

theorem le_nearest {digits : ℕ} {x : K} (h : 0 < x) : 2 ^ Int.log 2 |x| ≤ nearest digits x := by
  have hulp := ulp_pos digits x
  have habove : ((2 ^ digits : ℤ) : K) ≤ x / ulp digits x := by
    rw [le_div_iff₀ hulp]
    push_cast
    rw [ulp_mul_pow, abs_of_pos h]
    exact Int.zpow_log_le_self (by decide) h
  have hround := roundEven_mono habove
  rw [roundEven_intCast] at hround
  calc (2 : K) ^ Int.log 2 |x| = ((2 ^ digits : ℤ) : K) * ulp digits x := by
        push_cast
        rw [ulp_mul_pow]
    _ ≤ nearest digits x := mul_le_mul_of_nonneg_right (Int.cast_le.mpr hround) hulp.le

theorem nearest_neg (digits : ℕ) (x : K) : nearest digits (-x) = -nearest digits x := by
  have hulp : ulp digits (-x) = ulp digits x := by rw [ulp, abs_neg, ulp]
  rw [nearest, hulp, neg_div, roundEven_neg, Int.cast_neg, neg_mul, nearest]

theorem nearest_zero (digits : ℕ) : nearest digits (0 : K) = 0 := by
  have hround := roundEven_intCast (K := K) 0
  rw [Int.cast_zero] at hround
  rw [nearest, zero_div, hround, Int.cast_zero, zero_mul]

theorem nearest_mono_pos (digits : ℕ) {x y : K} (hx : 0 < x) (h : x ≤ y) :
    nearest digits x ≤ nearest digits y := by
  have hy := hx.trans_le h
  have hlog : Int.log 2 |x| ≤ Int.log 2 |y| := by
    rw [abs_of_pos hx, abs_of_pos hy]
    exact Int.log_mono_right hx h
  rcases hlog.lt_or_eq with hlt | heq
  · calc nearest digits x ≤ 2 ^ (Int.log 2 |x| + 1) := nearest_le hx
      _ ≤ 2 ^ Int.log 2 |y| := zpow_le_zpow_right₀ one_le_two (by omega)
      _ ≤ nearest digits y := le_nearest hy
  · have hulp : ulp digits x = ulp digits y := by rw [ulp, heq, ulp]
    have hdiv : x / ulp digits y ≤ y / ulp digits y :=
      div_le_div_of_nonneg_right h (ulp_pos digits y).le
    rw [nearest, hulp, nearest]
    exact mul_le_mul_of_nonneg_right (Int.cast_le.mpr (roundEven_mono hdiv)) (ulp_pos digits y).le

theorem nearest_nonneg (digits : ℕ) {x : K} (h : 0 ≤ x) : 0 ≤ nearest digits x := by
  rcases h.lt_or_eq with hpos | rfl
  · exact (zpow_pos two_pos _).le.trans (le_nearest hpos)
  · exact (nearest_zero digits).ge

theorem nearest_mono (digits : ℕ) : Monotone (nearest digits : K → K) := by
  intro x y h
  rcases lt_or_ge 0 x with hx | hx
  · exact nearest_mono_pos digits hx h
  rcases lt_or_ge y 0 with hy | hy
  · have hneg := nearest_mono_pos digits (neg_pos.mpr hy) (neg_le_neg h)
    rw [nearest_neg, nearest_neg] at hneg
    exact neg_le_neg_iff.mp hneg
  · have hneg := nearest_nonneg digits (neg_nonneg.mpr hx)
    rw [nearest_neg] at hneg
    exact (neg_nonneg.mp hneg).trans (nearest_nonneg digits hy)

/-- The nearest number is off by half a digit. -/
theorem abs_nearest_sub_le (digits : ℕ) {x : K} (h : 0 ≤ x) :
    |nearest digits x - x| ≤ 1 / 2 ^ (digits + 1) * x := by
  have hulp := ulp_pos digits x
  have hsplit : nearest digits x - x = (roundEven (x / ulp digits x) - x / ulp digits x) *
      ulp digits x := by
    rw [sub_mul, div_mul_cancel₀ _ hulp.ne', nearest]
  have hhalf : |nearest digits x - x| ≤ 1 / 2 * ulp digits x := by
    rw [hsplit, abs_mul, abs_of_pos hulp]
    exact mul_le_mul_of_nonneg_right (abs_roundEven_sub_le _) hulp.le
  rcases h.lt_or_eq with hpos | rfl
  · have hdigits : (2 : K) ^ digits * ulp digits x ≤ x := by
      rw [ulp_mul_pow, abs_of_pos hpos]
      exact Int.zpow_log_le_self (by decide) hpos
    refine hhalf.trans ?_
    rw [pow_succ, div_mul_eq_mul_div, div_mul_eq_mul_div, one_mul, one_mul,
      div_le_div_iff₀ two_pos (by positivity)]
    linarith
  · rw [nearest_zero, sub_zero, abs_zero, mul_zero]

variable (K) in
/-- The rounding of a type with 53 binary digits, whose exponents are not bounded. -/
def binary64 : Rounding K := ⟨nearest 52, nearest_mono 52, nearest_neg 52⟩

theorem binary64_within : (binary64 K).Within (1 / 2 ^ 53) :=
  fun _ _ ha hb => abs_nearest_sub_le 52 (add_nonneg ha hb)

end Nearest

end Rounding

end TelemetryCloud
