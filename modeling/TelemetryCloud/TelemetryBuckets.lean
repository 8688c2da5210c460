import TelemetryCloud.Geometry
import Mathlib.Algebra.Order.Floor.Ring
import Mathlib.Data.Rat.Floor
import Mathlib.Data.List.Sort
import Mathlib.Data.Finset.Card
import Mathlib.Data.Int.Interval

/-!
# Downsampled telemetry

`TelemetryRepository.findDownsampled` sizes a bucket off the window it is asked for and groups the
samples of a session by bucket, one row a bucket. Where the buckets begin is not its to choose: the
origin of `time_bucket` is a parameter here.

* `timeBucket`, `timeBucket_le`, `lt_timeBucket_add` : the bucket of an instant holds it;
* `dedup_timeBucket_le` : **a window of `k` widths touches at most `k + 1` buckets**, wherever they
  begin;
* `bucketMs`, `range_le_bucketMs` : the width, and the `maxPoints - 1` widths that cover the window;
* `findDownsampled` : the rows, and `findDownsampled_capped` : **no more of them than asked for**.
-/

namespace TelemetryCloud.TelemetryBuckets

variable {K : Type} [Field K] [LinearOrder K] [IsStrictOrderedRing K] [FloorRing K]

/-! ### Buckets of one width -/

/-- `time_bucket`: the start of the bucket an instant falls in. -/
def timeBucket (origin width time : K) : K := origin + width * (⌊(time - origin) / width⌋ : K)

section Buckets

variable {origin width time : K}

theorem timeBucket_le (hwidth : 0 < width) : timeBucket origin width time ≤ time := by
  have hfloor := mul_le_mul_of_nonneg_left (Int.floor_le ((time - origin) / width)) hwidth.le
  rw [mul_div_cancel₀ _ hwidth.ne'] at hfloor
  unfold timeBucket
  linarith

theorem lt_timeBucket_add (hwidth : 0 < width) : time < timeBucket origin width time + width := by
  have hfloor := mul_lt_mul_of_pos_left (Int.lt_floor_add_one ((time - origin) / width)) hwidth
  rw [mul_div_cancel₀ _ hwidth.ne', mul_add, mul_one] at hfloor
  unfold timeBucket
  linarith

/-- **A window of `k` widths touches at most `k + 1` buckets**, wherever the buckets begin. -/
theorem dedup_timeBucket_le (origin : K) {lo hi : K} {k : ℕ} (hwidth : 0 < width)
    (hrange : hi - lo ≤ k * width) {times : List K} (htimes : ∀ time ∈ times, lo ≤ time ∧ time ≤ hi) :
    ((times.map (timeBucket origin width)).dedup).length ≤ k + 1 := by
  -- the numbers of the buckets, from that of `lo` on
  let first := ⌊(lo - origin) / width⌋
  have hnumber : ∀ time ∈ times,
      ⌊(time - origin) / width⌋ ∈ Finset.Icc first (first + k) := by
    intro time htime
    obtain ⟨hlo, hhi⟩ := htimes time htime
    refine Finset.mem_Icc.mpr ⟨Int.floor_le_floor ?_, ?_⟩
    · exact div_le_div_of_nonneg_right (sub_le_sub_right hlo origin) hwidth.le
    · have hle : (time - origin) / width ≤ (lo - origin) / width + ((k : ℤ) : K) := by
        rw [div_add' _ _ _ hwidth.ne', Int.cast_natCast]
        refine div_le_div_of_nonneg_right ?_ hwidth.le
        linarith
      exact (Int.floor_le_floor hle).trans (Int.floor_add_intCast _ _).le
  have hsub : (times.map (timeBucket origin width)).toFinset ⊆
      (Finset.Icc first (first + k)).image fun number : ℤ => origin + width * (number : K) := by
    intro bucket hbucket
    obtain ⟨time, htime, rfl⟩ := List.mem_map.mp (List.mem_toFinset.mp hbucket)
    exact Finset.mem_image_of_mem _ (hnumber time htime)
  calc ((times.map (timeBucket origin width)).dedup).length
      = (times.map (timeBucket origin width)).toFinset.card := List.card_toFinset _ |>.symm
    _ ≤ _ := Finset.card_le_card hsub
    _ ≤ (Finset.Icc first (first + k)).card := Finset.card_image_le
    _ = k + 1 := by
      rw [Int.card_Icc]
      omega

end Buckets

/-! ### The query -/

def MIN_BUCKET_MS : ℤ := 100

/-- The width of a bucket: the window over one part fewer than the rows asked for. -/
def bucketMs (fromMs toMs : ℤ) (maxPoints : ℕ) : ℤ :=
  let rangeMs := max (toMs - fromMs) MIN_BUCKET_MS
  max MIN_BUCKET_MS ⌈(rangeMs : ℚ) / (max (maxPoints - 1) 1 : ℕ)⌉

theorem minBucket_le_bucketMs (fromMs toMs : ℤ) (maxPoints : ℕ) :
    MIN_BUCKET_MS ≤ bucketMs fromMs toMs maxPoints := le_max_left _ _

/-- One width fewer than the rows asked for covers the window. -/
theorem range_le_bucketMs (fromMs toMs : ℤ) (maxPoints : ℕ) :
    toMs - fromMs ≤ (max (maxPoints - 1) 1 : ℕ) * bucketMs fromMs toMs maxPoints := by
  have hparts : (0 : ℚ) < (max (maxPoints - 1) 1 : ℕ) :=
    Nat.cast_pos.mpr (Nat.lt_of_lt_of_le Nat.one_pos (Nat.le_max_right _ _))
  have hceil := Int.le_ceil
    (((max (toMs - fromMs) MIN_BUCKET_MS : ℤ) : ℚ) / (max (maxPoints - 1) 1 : ℕ))
  rw [div_le_iff₀ hparts, ← Int.cast_natCast, ← Int.cast_mul, Int.cast_le] at hceil
  calc toMs - fromMs
      ≤ max (toMs - fromMs) MIN_BUCKET_MS := le_max_left _ _
    _ ≤ _ := hceil
    _ ≤ bucketMs fromMs toMs maxPoints * (max (maxPoints - 1) 1 : ℕ) :=
      mul_le_mul_of_nonneg_right (le_max_right _ _) (Int.natCast_nonneg _)
    _ = _ := mul_comm _ _

/-- A row of `telemetry_samples`. -/
structure TelemetrySample (K : Type) where
  sessionId : String
  time : ℤ
  rpm : Option K
  coolantC : Option K
  oilC : Option K
  speedKmh : Option K
  lat : Option K
  lon : Option K
  gLat : Option K
  gLon : Option K
  lapNumber : Option ℕ

structure TelemetryPointDto (K : Type) where
  bucket : K
  rpm : Option K
  coolantC : Option K
  oilC : Option K
  speedKmh : Option K
  lat : Option K
  lon : Option K
  gLatPeak : Option K
  gLonPeak : Option K
  lapNumber : Option ℕ
  samples : ℕ

/-- `avg`, which leaves nulls out. -/
def avg (values : List (Option K)) : Option K :=
  match values.reduceOption with
  | [] => none
  | present => some (present.sum / present.length)

/-- `max(abs(_))`. -/
def peak (values : List (Option K)) : Option K := (values.reduceOption.map abs).max?

/-- The row of a bucket. Of two samples with one instant, `first` and `last` keep the one that the
table lists first. -/
def pointOf (bucket : K) (rows : List (TelemetrySample K)) : TelemetryPointDto K where
  bucket
  rpm := avg (rows.map (·.rpm))
  coolantC := avg (rows.map (·.coolantC))
  oilC := avg (rows.map (·.oilC))
  speedKmh := avg (rows.map (·.speedKmh))
  lat := (rows.minOn? (·.time)).bind (·.lat)
  lon := (rows.minOn? (·.time)).bind (·.lon)
  gLatPeak := peak (rows.map (·.gLat))
  gLonPeak := peak (rows.map (·.gLon))
  lapNumber := (rows.maxOn? (·.time)).bind (·.lapNumber)
  samples := rows.length

/-- `WHERE session_id = $2 AND time >= $3 AND time <= $4`. -/
def selected (samples : List (TelemetrySample K)) (sessionId : String) (fromMs toMs : ℤ) :
    List (TelemetrySample K) :=
  samples.filter fun sample =>
    sample.sessionId = sessionId ∧ fromMs ≤ sample.time ∧ sample.time ≤ toMs

def findDownsampled (origin : K) (samples : List (TelemetrySample K)) (sessionId : String)
    (fromMs toMs : ℤ) (maxPoints : ℕ) : List (TelemetryPointDto K) :=
  let bucketOf := fun sample : TelemetrySample K =>
    timeBucket origin (bucketMs fromMs toMs maxPoints : K) sample.time
  let rows := selected samples sessionId fromMs toMs
  ((rows.map bucketOf).dedup.insertionSort (· ≤ ·)).map fun bucket =>
    pointOf bucket (rows.filter fun sample => bucketOf sample = bucket)

section Rows

variable {origin : K} {samples : List (TelemetrySample K)} {sessionId : String} {fromMs toMs : ℤ}
  {maxPoints : ℕ}

omit [IsStrictOrderedRing K] in
/-- The buckets of the rows, in order and each once. -/
theorem map_bucket_findDownsampled :
    (findDownsampled origin samples sessionId fromMs toMs maxPoints).map (·.bucket) =
      (((selected samples sessionId fromMs toMs).map fun sample =>
        timeBucket origin (bucketMs fromMs toMs maxPoints : K) sample.time).dedup).insertionSort
          (· ≤ ·) := by
  unfold findDownsampled
  rw [List.map_map]
  exact List.map_id _

omit [IsStrictOrderedRing K] in
/-- A row for each bucket with a sample of the window. -/
theorem mem_buckets_iff {bucket : K} :
    bucket ∈ (findDownsampled origin samples sessionId fromMs toMs maxPoints).map (·.bucket) ↔
      ∃ sample ∈ samples, (sample.sessionId = sessionId ∧ fromMs ≤ sample.time ∧
        sample.time ≤ toMs) ∧
        timeBucket origin (bucketMs fromMs toMs maxPoints : K) sample.time = bucket := by
  rw [map_bucket_findDownsampled, List.mem_insertionSort, List.mem_dedup, List.mem_map]
  unfold selected
  simp only [List.mem_filter, decide_eq_true_eq, and_assoc]

/-- Rows up to the parts the window was divided in, and one more. -/
theorem length_findDownsampled_le (origin : K) (samples : List (TelemetrySample K))
    (sessionId : String) (fromMs toMs : ℤ) (maxPoints : ℕ) :
    (findDownsampled origin samples sessionId fromMs toMs maxPoints).length
      ≤ max (maxPoints - 1) 1 + 1 := by
  have hwidth : (0 : K) < (bucketMs fromMs toMs maxPoints : K) := Int.cast_pos.mpr
    (lt_of_lt_of_le (by decide) (minBucket_le_bucketMs fromMs toMs maxPoints))
  have hrange : (toMs : K) - fromMs ≤
      ((max (maxPoints - 1) 1 : ℕ) : K) * (bucketMs fromMs toMs maxPoints : K) := by
    rw [← Int.cast_sub, ← Int.cast_natCast, ← Int.cast_mul, Int.cast_le]
    exact range_le_bucketMs fromMs toMs maxPoints
  have htimes : ∀ time ∈ (selected samples sessionId fromMs toMs).map fun sample =>
      (sample.time : K), (fromMs : K) ≤ time ∧ time ≤ toMs := by
    intro time htime
    obtain ⟨sample, hsample, rfl⟩ := List.mem_map.mp htime
    obtain ⟨-, hfrom, hto⟩ := of_decide_eq_true (List.mem_filter.mp hsample).2
    exact ⟨Int.cast_le.mpr hfrom, Int.cast_le.mpr hto⟩
  have hcount := dedup_timeBucket_le origin hwidth hrange htimes
  rw [List.map_map] at hcount
  rw [← List.length_map TelemetryPointDto.bucket, map_bucket_findDownsampled,
    (List.perm_insertionSort _ _).length_eq]
  exact hcount

/-- **No more rows than asked for**: there is one for each bucket that holds a sample of the window, in
order, and no bucket is narrower than the least. -/
theorem findDownsampled_capped (origin : K) (samples : List (TelemetrySample K)) (sessionId : String)
    (fromMs toMs : ℤ) {maxPoints : ℕ} (hpoints : 2 ≤ maxPoints) :
    MIN_BUCKET_MS ≤ bucketMs fromMs toMs maxPoints ∧
    (findDownsampled origin samples sessionId fromMs toMs maxPoints).length ≤ maxPoints ∧
    ((findDownsampled origin samples sessionId fromMs toMs maxPoints).map (·.bucket)).Pairwise
      (· < ·) ∧
    ∀ bucket, bucket ∈ (findDownsampled origin samples sessionId fromMs toMs maxPoints).map
      (·.bucket) ↔ ∃ sample ∈ samples, (sample.sessionId = sessionId ∧ fromMs ≤ sample.time ∧
        sample.time ≤ toMs) ∧
        timeBucket origin (bucketMs fromMs toMs maxPoints : K) sample.time = bucket := by
  refine ⟨minBucket_le_bucketMs fromMs toMs maxPoints, ?_, ?_, fun bucket => mem_buckets_iff⟩
  · have hlength := length_findDownsampled_le origin samples sessionId fromMs toMs maxPoints
    omega
  · rw [map_bucket_findDownsampled]
    have hsorted := List.pairwise_insertionSort (· ≤ ·)
      ((selected samples sessionId fromMs toMs).map fun sample =>
        timeBucket origin (bucketMs fromMs toMs maxPoints : K) sample.time).dedup
    have hnodup := (List.perm_insertionSort (· ≤ ·) _).nodup_iff.mpr (List.nodup_dedup
      ((selected samples sessionId fromMs toMs).map fun sample =>
        timeBucket origin (bucketMs fromMs toMs maxPoints : K) sample.time))
    exact (hsorted.and hnodup).imp fun h => lt_of_le_of_ne h.1 h.2

/-- Three samples of two seconds. -/
def twoSeconds : List (TelemetrySample ℚ) :=
  [⟨"s", 0, some 900, none, none, none, none, none, none, none, none⟩,
    ⟨"s", 600, none, none, none, none, none, none, none, none, some 1⟩,
    ⟨"s", 2000, some 1, none, none, none, none, none, none, none, some 2⟩]

/-- With buckets of one second from half a second on, two seconds touch the three rows asked for. -/
theorem findDownsampled_capped_twoSeconds :
    bucketMs 0 2000 3 = 1000 ∧
    (findDownsampled 500 twoSeconds "s" 0 2000 3).map (fun row => (row.bucket, row.samples))
      = [(-500, 1), (500, 1), (1500, 1)] ∧
    (findDownsampled 500 twoSeconds "s" 0 2000 3).length ≤ 3 :=
  ⟨by decide +kernel, by decide +kernel,
    (findDownsampled_capped 500 twoSeconds "s" 0 2000 (show 2 ≤ 3 by decide)).2.1⟩

end Rows

end TelemetryCloud.TelemetryBuckets
