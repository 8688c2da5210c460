import TelemetryCloud.Geometry
import TelemetryCloud.Lists
import Mathlib.Algebra.Order.Floor.Ring
import Mathlib.Data.Finset.Max
import Mathlib.Data.Rat.Floor
import Mathlib.Order.Interval.Finset.Nat

/-!
# What a chart draws

`forDisplay` thins the points of a series to what a window shows: it cuts the series to the window and
one sample on either side, and of every run of samples in one bucket it keeps the ends, a lowest and a
highest. The scan is over any buckets and values here; the points come after.

* `Scan.emit`, `Scan.flush`, `scanStep` : the scan; `Run` : a maximal run of samples in one bucket;
* `flush_flushed`, `scanStep_scanned` : **what a flush and a step leave true**; `scan_flushed` : the
  whole scan;
* `exists_run` : every sample is in a run;
* `forDisplay` : the code, and `rangeOf_covers` : the samples that cover the window;
* `forDisplay_hidesNothing` : **thinning hides nothing**.
-/

namespace TelemetryCloud.LineChart

/-! ### The scan -/

/-- The indices of the current bucket. -/
structure Buffer where
  first : ℕ
  last : ℕ
  lowest : ℕ
  highest : ℕ
  deriving DecidableEq, Repr

/-- `out` as indices; `buffer` is there when `first` is set, and `bucket` when it is a number. -/
structure Scan (ι : Type) where
  out : List ℕ
  bucket : Option ι
  buffer : Option Buffer
  previous : Option ℕ

section Scan

variable {ι : Type} [DecidableEq ι] {V : Type} [LinearOrder V]

def Scan.init : Scan ι := ⟨[], none, none, none⟩

/-- A repeat is dropped rather than drawn twice. -/
def Scan.emit (s : Scan ι) (i : ℕ) : Scan ι :=
  if s.previous = some i then s else { s with out := s.out ++ [i], previous := some i }

def Scan.flush (s : Scan ι) : Scan ι :=
  match s.buffer with
  | none => s
  | some b =>
    { (((s.emit b.first).emit (min b.lowest b.highest)).emit (max b.lowest b.highest)).emit b.last with
      buffer := none }

/-- A sample goes to the end of its bucket. -/
def Buffer.extend (val : ℕ → V) (i : ℕ) : Option Buffer → Buffer
  | none => ⟨i, i, i, i⟩
  | some b => {
      first := b.first
      last := i
      lowest := if val i < val b.lowest then i else b.lowest
      highest := if val b.highest < val i then i else b.highest }

/-- One sample; `key` is its bucket, and `none` for a null. -/
def scanStep (key : ℕ → Option ι) (val : ℕ → V) (s : Scan ι) (i : ℕ) : Scan ι :=
  match key i with
  | none => { s.flush with bucket := none, out := s.flush.out ++ [i] }
  | some index =>
    let s := if s.bucket = some index then s else { s.flush with bucket := some index }
    { s with buffer := some (Buffer.extend val i s.buffer) }

/-- The samples from `lo` to `hi`. -/
def scan (key : ℕ → Option ι) (val : ℕ → V) (lo hi : ℕ) : List ℕ :=
  ((List.range' lo (hi + 1 - lo)).foldl (scanStep key val) Scan.init).flush.out

end Scan

/-! ### Emitting -/

section Emit

variable {ι : Type} {s : Scan ι}

/-- What emitting indices that do not decrease adds. -/
structure Emitted (s s' : Scan ι) (indices : List ℕ) (kept : List ℕ) : Prop where
  out : s'.out = s.out ++ kept
  sorted : kept.Pairwise (· < ·)
  length_le : kept.length ≤ indices.length
  mem : ∀ j ∈ kept, j ∈ indices ∧ s.previous ≠ some j
  keeps : ∀ j ∈ indices, j ∈ kept ∨ s.previous = some j
  previous : ∀ p, s'.previous = some p → s.previous = some p ∨ p ∈ indices
  bucket : s'.bucket = s.bucket

theorem exists_emitted (indices : List ℕ) (hsorted : indices.Pairwise (· ≤ ·)) (s : Scan ι)
    (hprevious : ∀ p, s.previous = some p → ∀ j ∈ indices, p ≤ j) :
    ∃ kept, Emitted s (indices.foldl Scan.emit s) indices kept := by
  induction indices generalizing s with
  | nil =>
    exact ⟨[], (List.append_nil _).symm, List.Pairwise.nil, le_rfl,
      fun j hj => absurd hj List.not_mem_nil, fun j hj => absurd hj List.not_mem_nil,
      fun p hp => Or.inl hp, rfl⟩
  | cons i indices ih =>
    obtain ⟨hle, hsorted⟩ := List.pairwise_cons.mp hsorted
    rw [List.foldl_cons]
    by_cases hrepeat : s.previous = some i
    · -- the first index was emitted before
      rw [show s.emit i = s from if_pos hrepeat]
      obtain ⟨kept, h⟩ := ih hsorted s fun p hp j hj =>
        hprevious p hp j (List.mem_cons_of_mem _ hj)
      refine ⟨kept, h.out, h.sorted, h.length_le.trans (Nat.le_succ _),
        fun j hj => ⟨List.mem_cons_of_mem _ (h.mem j hj).1, (h.mem j hj).2⟩, ?_,
        fun p hp => (h.previous p hp).imp_right (List.mem_cons_of_mem _), h.bucket⟩
      intro j hj
      rcases List.mem_cons.mp hj with rfl | hj
      · exact Or.inr hrepeat
      · exact h.keeps j hj
    · rw [show s.emit i = { s with out := s.out ++ [i], previous := some i } from if_neg hrepeat]
      obtain ⟨kept, h⟩ := ih hsorted { s with out := s.out ++ [i], previous := some i }
        fun p hp j hj => Option.some.inj hp ▸ hle j hj
      have hlt : ∀ j ∈ kept, i < j := fun j hj =>
        lt_of_le_of_ne (hle j (h.mem j hj).1) fun hij => (h.mem j hj).2 (congrArg some hij)
      refine ⟨i :: kept, ?_, List.pairwise_cons.mpr ⟨hlt, h.sorted⟩, Nat.succ_le_succ h.length_le,
        ?_, ?_, ?_, h.bucket⟩
      · rw [h.out, List.append_assoc]
        rfl
      · intro j hj
        rcases List.mem_cons.mp hj with rfl | hj
        · exact ⟨List.mem_cons_self, hrepeat⟩
        · refine ⟨List.mem_cons_of_mem _ (h.mem j hj).1, fun hp => ?_⟩
          have hji := hprevious j hp i List.mem_cons_self
          exact absurd (hlt j hj) (not_lt.mpr hji)
      · intro j hj
        rcases List.mem_cons.mp hj with rfl | hj
        · exact Or.inl List.mem_cons_self
        · rcases h.keeps j hj with hkept | hi
          · exact Or.inl (List.mem_cons_of_mem _ hkept)
          · cases hi
            exact Or.inl List.mem_cons_self
      · intro p hp
        rcases h.previous p hp with hi | hmem
        · cases hi
          exact Or.inr List.mem_cons_self
        · exact Or.inr (List.mem_cons_of_mem _ hmem)

end Emit

/-! ### Runs -/

section Runs

variable {ι : Type} {V : Type} [LinearOrder V] {key : ℕ → Option ι} {val : ℕ → V}
  {lo hi : ℕ}

/-- A maximal run of samples in one bucket, none of them null. -/
structure Run (key : ℕ → Option ι) (lo hi a b : ℕ) : Prop where
  lo_le : lo ≤ a
  le : a ≤ b
  le_hi : b ≤ hi
  left : a = lo ∨ key (a - 1) ≠ key a
  right : b = hi ∨ key (b + 1) ≠ key a
  nonNull : key a ≠ none
  same : ∀ j, a ≤ j → j ≤ b → key j = key a

/-- What is kept of a run: its ends, a lowest and a highest, and at most four. -/
structure Kept (val : ℕ → V) (out : List ℕ) (a b : ℕ) : Prop where
  first : a ∈ out
  last : b ∈ out
  lowest : ∃ l ∈ out, a ≤ l ∧ l ≤ b ∧ ∀ j, a ≤ j → j ≤ b → val l ≤ val j
  highest : ∃ h ∈ out, a ≤ h ∧ h ≤ b ∧ ∀ j, a ≤ j → j ≤ b → val j ≤ val h
  length_le : (out.filter fun j => a ≤ j ∧ j ≤ b).length ≤ 4

theorem Kept.append {out more : List ℕ} {a b : ℕ} (h : Kept val out a b)
    (hmore : ∀ j ∈ more, b < j) : Kept val (out ++ more) a b := by
  obtain ⟨l, hl, hlow⟩ := h.lowest
  obtain ⟨u, hu, hhigh⟩ := h.highest
  have hnone : (more.filter fun j => a ≤ j ∧ j ≤ b) = [] := by
    refine List.filter_eq_nil_iff.mpr fun j hj hin => ?_
    exact absurd (hmore j hj) (not_lt.mpr (of_decide_eq_true hin).2)
  refine ⟨List.mem_append_left _ h.first, List.mem_append_left _ h.last,
    ⟨l, List.mem_append_left _ hl, hlow⟩, ⟨u, List.mem_append_left _ hu, hhigh⟩, ?_⟩
  rw [List.filter_append, hnone, List.append_nil]
  exact h.length_le

theorem exists_left {m : ℕ} (hlo : lo ≤ m) : ∃ a, lo ≤ a ∧ a ≤ m ∧
    (a = lo ∨ key (a - 1) ≠ key m) ∧ ∀ j, a ≤ j → j ≤ m → key j = key m := by
  induction m, hlo using Nat.le_induction with
  | base => exact ⟨lo, le_rfl, le_rfl, Or.inl rfl, fun j hj hj' => by rw [le_antisymm hj' hj]⟩
  | succ m hlo ih =>
    by_cases hsame : key m = key (m + 1)
    · obtain ⟨a, ha, ham, hleft, hall⟩ := ih
      refine ⟨a, ha, ham.trans (Nat.le_succ m), hsame ▸ hleft, fun j hj hj' => ?_⟩
      rcases hj'.lt_or_eq with hlt | rfl
      · exact (hall j hj (Nat.le_of_lt_succ hlt)).trans hsame
      · rfl
    · exact ⟨m + 1, hlo.trans (Nat.le_succ m), le_rfl, Or.inr hsame,
        fun j hj hj' => by rw [le_antisymm hj' hj]⟩

theorem exists_right {m : ℕ} (n : ℕ) (hhi : m + n = hi) : ∃ b, m ≤ b ∧ b ≤ hi ∧
    (b = hi ∨ key (b + 1) ≠ key m) ∧ ∀ j, m ≤ j → j ≤ b → key j = key m := by
  induction n generalizing m with
  | zero => exact ⟨m, le_rfl, hhi.le, Or.inl hhi, fun j hj hj' => by rw [le_antisymm hj' hj]⟩
  | succ n ih =>
    by_cases hsame : key (m + 1) = key m
    · obtain ⟨b, hb, hb', hright, hall⟩ := ih (m := m + 1) (by omega)
      refine ⟨b, (Nat.le_succ m).trans hb, hb', hsame ▸ hright, fun j hj hj' => ?_⟩
      rcases hj.lt_or_eq with hlt | rfl
      · exact (hall j hlt hj').trans hsame
      · rfl
    · exact ⟨m, le_rfl, by omega, Or.inr hsame, fun j hj hj' => by rw [le_antisymm hj' hj]⟩

/-- **Every sample is in a run.** -/
theorem exists_run {m : ℕ} (hlo : lo ≤ m) (hhi : m ≤ hi) (hkey : key m ≠ none) :
    ∃ a b, Run key lo hi a b ∧ a ≤ m ∧ m ≤ b := by
  obtain ⟨a, ha, ham, hleft, hbelow⟩ := exists_left hlo
  obtain ⟨b, hmb, hb, hright, habove⟩ := exists_right (hi - m) (show m + (hi - m) = hi by omega)
  have hka : key a = key m := hbelow a le_rfl ham
  refine ⟨a, b, ⟨ha, ham.trans hmb, hb, hka ▸ hleft, hka ▸ hright, hka ▸ hkey, ?_⟩, ham, hmb⟩
  intro j hj hj'
  rw [hka]
  rcases le_total j m with hjm | hmj
  · exact hbelow j hj hjm
  · exact habove j hmj hj'

/-- A maximal stretch of samples without a gap. -/
structure Stretch (key : ℕ → Option ι) (lo hi a b : ℕ) : Prop where
  lo_le : lo ≤ a
  le : a ≤ b
  le_hi : b ≤ hi
  left : a = lo ∨ key (a - 1) = none
  right : b = hi ∨ key (b + 1) = none
  nonNull : ∀ j, a ≤ j → j ≤ b → key j ≠ none

/-- A run of a stretch is all in it. -/
theorem Stretch.subset {a b m c d : ℕ} (h : Stretch key lo hi a b) (hrun : Run key lo hi c d)
    (ham : a ≤ m) (hmb : m ≤ b) (hcm : c ≤ m) (hmd : m ≤ d) : a ≤ c ∧ d ≤ b := by
  have hsome : ∀ j, c ≤ j → j ≤ d → key j ≠ none := fun j hj hj' =>
    (hrun.same j hj hj').symm ▸ hrun.nonNull
  constructor
  · by_contra hlt
    rcases h.left with hlo | hnull
    · exact hlt (hlo ▸ hrun.lo_le)
    · exact hsome (a - 1) (by omega) (by omega) hnull
  · by_contra hlt
    rcases h.right with hhi | hnull
    · exact hlt (hhi ▸ hrun.le_hi)
    · exact hsome (b + 1) (by omega) (by omega) hnull

/-! ### The invariant -/

/-- The samples up to `i` are through: what is out is in order, with every null and all there is to
keep of the runs. -/
structure Flushed (key : ℕ → Option ι) (val : ℕ → V) (lo hi : ℕ) (s : Scan ι) (i : ℕ) : Prop where
  sorted : s.out.Pairwise (· < ·)
  bounds : ∀ j ∈ s.out, lo ≤ j ∧ j < i
  previous : ∀ p, s.previous = some p → p < i
  nulls : ∀ j, lo ≤ j → j < i → key j = none → j ∈ s.out
  runs : ∀ a b, Run key lo hi a b → b < i → Kept val s.out a b

/-- The buffer holds the samples of a bucket up to `i`. -/
structure Buffered (key : ℕ → Option ι) (val : ℕ → V) (lo : ℕ) (index : ι) (b : Buffer) (i : ℕ) :
    Prop where
  lo_le : lo ≤ b.first
  last : b.last + 1 = i
  lowest_mem : b.first ≤ b.lowest ∧ b.lowest ≤ b.last
  highest_mem : b.first ≤ b.highest ∧ b.highest ≤ b.last
  left : b.first = lo ∨ key (b.first - 1) ≠ some index
  same : ∀ j, b.first ≤ j → j ≤ b.last → key j = some index
  lowest : ∀ j, b.first ≤ j → j ≤ b.last → val b.lowest ≤ val j
  highest : ∀ j, b.first ≤ j → j ≤ b.last → val j ≤ val b.highest

/-- The samples before `i` were read: those before the buffer are through. -/
def Scanned (key : ℕ → Option ι) (val : ℕ → V) (lo hi : ℕ) (s : Scan ι) (i : ℕ) : Prop :=
  match s.buffer with
  | none => Flushed key val lo hi s i ∧ s.bucket = none ∧ (i = lo ∨ key (i - 1) = none)
  | some b => Flushed key val lo hi s b.first ∧
      ∃ index, s.bucket = some index ∧ Buffered key val lo index b i

/-- A run that ends in the buffer is the buffer. -/
theorem Buffered.eq_run {index : ι} {buffer : Buffer} {i a b : ℕ}
    (h : Buffered key val lo index buffer i) (hi_le : i ≤ hi + 1) (hrun : Run key lo hi a b)
    (hb : b < i) (hfirst : buffer.first ≤ b) : a = buffer.first ∧ b = buffer.last := by
  have hlast := h.last
  have hkey : key a = some index :=
    (hrun.same b hrun.le le_rfl).symm.trans (h.same b hfirst (by omega))
  constructor
  · rcases lt_trichotomy a buffer.first with hlt | heq | hgt
    · -- the run would go on to the left of the buffer
      rcases h.left with hlo | hleft
      · exact absurd hrun.lo_le (by omega)
      · exact absurd ((hrun.same (buffer.first - 1) (by omega) (by omega)).trans hkey) hleft
    · exact heq
    · -- the buffer would go on to the left of the run
      rcases hrun.left with hlo | hleft
      · exact absurd h.lo_le (by omega)
      · exact absurd ((h.same (a - 1) (by omega) (by have := hrun.le; omega)).trans hkey.symm) hleft
  · by_contra hne
    rcases hrun.right with hlo | hright
    · omega
    · exact hright ((h.same (b + 1) (by omega) (by omega)).trans hkey.symm)

/-- What a flush emits of the buffer. -/
structure Drained (s : Scan ι) (b : Buffer) (kept : List ℕ) : Prop where
  out : s.flush.out = s.out ++ kept
  sorted : kept.Pairwise (· < ·)
  length_le : kept.length ≤ 4
  bounds : ∀ j ∈ kept, b.first ≤ j ∧ j ≤ b.last
  mem : ∀ j ∈ [b.first, b.lowest, b.highest, b.last], j ∈ kept
  previous : ∀ p, s.flush.previous = some p → p ≤ b.last
  bucket : s.flush.bucket = s.bucket
  buffer : s.flush.buffer = none

theorem exists_drained {s : Scan ι} {b : Buffer} {index : ι} {i : ℕ} (hbuffer : s.buffer = some b)
    (hb : Buffered key val lo index b i) (hprevious : ∀ p, s.previous = some p → p < b.first) :
    ∃ kept, Drained s b kept := by
  obtain ⟨hl, hl'⟩ := hb.lowest_mem
  obtain ⟨hu, hu'⟩ := hb.highest_mem
  have hsorted : [b.first, min b.lowest b.highest, max b.lowest b.highest, b.last].Pairwise
      (· ≤ ·) := by
    simp only [List.pairwise_cons, List.mem_cons, List.not_mem_nil, or_false, forall_eq_or_imp,
      forall_eq, List.Pairwise.nil, and_true, IsEmpty.forall_iff, implies_true]
    omega
  obtain ⟨kept, hkept⟩ := exists_emitted _ hsorted s fun p hp j hj => by
    have hp := hprevious p hp
    simp only [List.mem_cons, List.not_mem_nil, or_false] at hj
    omega
  have hflush : s.flush = { [b.first, min b.lowest b.highest, max b.lowest b.highest,
      b.last].foldl Scan.emit s with buffer := none } := by
    unfold Scan.flush
    rw [hbuffer]
    rfl
  refine ⟨kept, ?_, hkept.sorted, hkept.length_le, ?_, ?_, ?_, ?_, ?_⟩
  · rw [hflush]
    exact hkept.out
  · intro j hj
    have hj := (hkept.mem j hj).1
    simp only [List.mem_cons, List.not_mem_nil, or_false] at hj
    omega
  · intro j hj
    simp only [List.mem_cons, List.not_mem_nil, or_false] at hj
    -- the lower and the higher of `lowest` and `highest` are these two
    have hfour : j ∈ [b.first, min b.lowest b.highest, max b.lowest b.highest, b.last] := by
      simp only [List.mem_cons, List.not_mem_nil, or_false]
      omega
    refine (hkept.keeps j hfour).resolve_right fun hp => ?_
    have hp := hprevious j hp
    omega
  · intro p hp
    rw [hflush] at hp
    rcases hkept.previous p hp with hp | hp
    · have hp := hprevious p hp
      omega
    · simp only [List.mem_cons, List.not_mem_nil, or_false] at hp
      omega
  · rw [hflush]
    exact hkept.bucket
  · rw [hflush]

/-- **A flush takes the buffer through.** -/
theorem flush_flushed {s : Scan ι} {i : ℕ} (h : Scanned key val lo hi s i) (hi_le : i ≤ hi + 1) :
    Flushed key val lo hi s.flush i ∧ s.flush.bucket = s.bucket ∧ s.flush.buffer = none := by
  cases hbuffer : s.buffer with
  | none =>
    rw [Scanned, hbuffer] at h
    rw [show s.flush = s by unfold Scan.flush; rw [hbuffer]]
    exact ⟨h.1, rfl, hbuffer⟩
  | some b =>
    rw [Scanned, hbuffer] at h
    obtain ⟨hflushed, index, -, hb⟩ := h
    obtain ⟨kept, hkept⟩ := exists_drained hbuffer hb hflushed.previous
    have hlast := hb.last
    have hfirst : ∀ j ∈ s.out, j < b.first := fun j hj => (hflushed.bounds j hj).2
    refine ⟨⟨?_, ?_, ?_, ?_, ?_⟩, hkept.bucket, hkept.buffer⟩
    · rw [hkept.out]
      refine List.pairwise_append.mpr ⟨hflushed.sorted, hkept.sorted, fun j hj k hk => ?_⟩
      exact lt_of_lt_of_le (hfirst j hj) (hkept.bounds k hk).1
    · intro j hj
      rw [hkept.out] at hj
      rcases List.mem_append.mp hj with hj | hj
      · have hj := hflushed.bounds j hj
        have hle := (hb.lowest_mem.1.trans hb.lowest_mem.2)
        omega
      · have hj := hkept.bounds j hj
        have hlo := hb.lo_le
        omega
    · intro p hp
      have hp := hkept.previous p hp
      omega
    · intro j hlo hj hnull
      rw [hkept.out]
      rcases lt_or_ge j b.first with hlt | hge
      · exact List.mem_append_left _ (hflushed.nulls j hlo hlt hnull)
      · have hsome := hb.same j hge (by omega)
        exact absurd (hnull.symm.trans hsome) (Option.some_ne_none index).symm
    · intro a c hrun hc
      rw [hkept.out]
      rcases lt_or_ge c b.first with hlt | hge
      · exact (hflushed.runs a c hrun hlt).append fun j hj =>
          lt_of_lt_of_le hlt (hkept.bounds j hj).1
      · -- the run is the buffer
        obtain ⟨rfl, rfl⟩ := hb.eq_run hi_le hrun hc hge
        have hnone : (s.out.filter fun j => b.first ≤ j ∧ j ≤ b.last) = [] := by
          refine List.filter_eq_nil_iff.mpr fun j hj hin => ?_
          exact absurd (hfirst j hj) (not_lt.mpr (of_decide_eq_true hin).1)
        have hmem : ∀ j ∈ [b.first, b.lowest, b.highest, b.last], j ∈ s.out ++ kept :=
          fun j hj => List.mem_append_right _ (hkept.mem j hj)
        refine ⟨hmem _ (by simp), hmem _ (by simp),
          ⟨b.lowest, hmem _ (by simp), hb.lowest_mem.1, hb.lowest_mem.2, hb.lowest⟩,
          ⟨b.highest, hmem _ (by simp), hb.highest_mem.1, hb.highest_mem.2, hb.highest⟩, ?_⟩
        rw [List.filter_append, hnone, List.nil_append]
        exact (List.length_filter_le _ _).trans hkept.length_le

/-- What a full scan keeps around a sample of a stretch. -/
theorem Flushed.exists_kept {s : Scan ι} {a b m : ℕ} (h : Flushed key val lo hi s (hi + 1))
    (hstretch : Stretch key lo hi a b) (ham : a ≤ m) (hmb : m ≤ b) :
    ∃ l ∈ s.out, ∃ u ∈ s.out, (a ≤ l ∧ l ≤ b) ∧ (a ≤ u ∧ u ≤ b) ∧ key l = key m ∧ key u = key m ∧
      val l ≤ val m ∧ val m ≤ val u := by
  obtain ⟨c, d, hrun, hcm, hmd⟩ := exists_run (hstretch.lo_le.trans ham)
    (hmb.trans hstretch.le_hi) (hstretch.nonNull m ham hmb)
  obtain ⟨hac, hdb⟩ := hstretch.subset hrun ham hmb hcm hmd
  have hkept := h.runs c d hrun (Nat.lt_succ_of_le hrun.le_hi)
  obtain ⟨l, hl, hcl, hld, hlow⟩ := hkept.lowest
  obtain ⟨u, hu, hcu, hud, hhigh⟩ := hkept.highest
  have hkey := hrun.same m hcm hmd
  exact ⟨l, hl, u, hu, ⟨hac.trans hcl, hld.trans hdb⟩, ⟨hac.trans hcu, hud.trans hdb⟩,
    (hrun.same l hcl hld).trans hkey.symm, (hrun.same u hcu hud).trans hkey.symm,
    hlow m hcm hmd, hhigh m hcm hmd⟩

/-- **A stretch keeps its extremes.** -/
theorem Flushed.extremes {s : Scan ι} {a b : ℕ} (h : Flushed key val lo hi s (hi + 1))
    (hstretch : Stretch key lo hi a b) :
    (∃ l ∈ s.out, a ≤ l ∧ l ≤ b ∧ ∀ j, a ≤ j → j ≤ b → val l ≤ val j) ∧
      ∃ u ∈ s.out, a ≤ u ∧ u ≤ b ∧ ∀ j, a ≤ j → j ≤ b → val j ≤ val u := by
  have hne : (Finset.Icc a b).Nonempty := Finset.nonempty_Icc.mpr hstretch.le
  constructor
  · obtain ⟨m, hm, hmin⟩ := Finset.exists_min_image _ val hne
    obtain ⟨ham, hmb⟩ := Finset.mem_Icc.mp hm
    obtain ⟨l, hl, -, -, hbounds, -, -, -, hle, -⟩ := h.exists_kept hstretch ham hmb
    exact ⟨l, hl, hbounds.1, hbounds.2, fun j hj hj' =>
      hle.trans (hmin j (Finset.mem_Icc.mpr ⟨hj, hj'⟩))⟩
  · obtain ⟨m, hm, hmax⟩ := Finset.exists_max_image _ val hne
    obtain ⟨ham, hmb⟩ := Finset.mem_Icc.mp hm
    obtain ⟨-, -, u, hu, -, hbounds, -, -, -, hle⟩ := h.exists_kept hstretch ham hmb
    exact ⟨u, hu, hbounds.1, hbounds.2, fun j hj hj' =>
      (hmax j (Finset.mem_Icc.mpr ⟨hj, hj'⟩)).trans hle⟩

/-- The ends of a full scan are kept. -/
theorem Flushed.ends {s : Scan ι} (h : Flushed key val lo hi s (hi + 1)) (hle : lo ≤ hi) :
    lo ∈ s.out ∧ hi ∈ s.out := by
  constructor
  · by_cases hnull : key lo = none
    · exact h.nulls lo le_rfl (Nat.lt_succ_of_le hle) hnull
    · obtain ⟨a, b, hrun, hale, -⟩ := exists_run le_rfl hle hnull
      cases le_antisymm hale hrun.lo_le
      exact (h.runs _ b hrun (Nat.lt_succ_of_le hrun.le_hi)).first
  · by_cases hnull : key hi = none
    · exact h.nulls hi hle (Nat.lt_succ_self hi) hnull
    · obtain ⟨a, b, hrun, -, hble⟩ := exists_run hle le_rfl hnull
      cases le_antisymm hble hrun.le_hi
      exact (h.runs a _ hrun (Nat.lt_succ_self _)).last

/-! ### Steps -/

/-- A sample of the buffer's bucket. -/
theorem Buffered.extend {index : ι} {b : Buffer} {i : ℕ} (hb : Buffered key val lo index b i)
    (hkey : key i = some index) :
    Buffered key val lo index (Buffer.extend val i (some b)) (i + 1) := by
  have hlast := hb.last
  obtain ⟨hl, hl'⟩ := hb.lowest_mem
  obtain ⟨hu, hu'⟩ := hb.highest_mem
  unfold Buffer.extend
  refine ⟨hb.lo_le, rfl, ?_, ?_, hb.left, ?_, ?_, ?_⟩
  · dsimp only
    split <;> omega
  · dsimp only
    split <;> omega
  · intro j hj hj'
    dsimp only at hj hj'
    rcases hj'.lt_or_eq with hlt | rfl
    · exact hb.same j hj (by omega)
    · exact hkey
  · intro j hj hj'
    dsimp only at hj hj' ⊢
    have hold := hb.lowest
    split
    · next hlower =>
      rcases hj'.lt_or_eq with hlt | rfl
      · exact hlower.le.trans (hold j hj (by omega))
      · exact le_rfl
    · next hlower =>
      rcases hj'.lt_or_eq with hlt | rfl
      · exact hold j hj (by omega)
      · exact not_lt.mp hlower
  · intro j hj hj'
    dsimp only at hj hj' ⊢
    have hold := hb.highest
    split
    · next hhigher =>
      rcases hj'.lt_or_eq with hlt | rfl
      · exact (hold j hj (by omega)).trans hhigher.le
      · exact le_rfl
    · next hhigher =>
      rcases hj'.lt_or_eq with hlt | rfl
      · exact hold j hj (by omega)
      · exact not_lt.mp hhigher

/-- A sample that begins a bucket. -/
theorem buffered_single {index : ι} {i : ℕ} (hlo : lo ≤ i) (hkey : key i = some index)
    (hleft : i = lo ∨ key (i - 1) ≠ some index) :
    Buffered key val lo index (Buffer.extend val i none) (i + 1) := by
  have honly : ∀ j, i ≤ j → j ≤ i → j = i := fun j hj hj' => le_antisymm hj' hj
  refine ⟨hlo, rfl, ⟨le_rfl, le_rfl⟩, ⟨le_rfl, le_rfl⟩, hleft, ?_, ?_, ?_⟩
  · intro j hj hj'
    rw [honly j hj hj']
    exact hkey
  · intro j hj hj'
    rw [honly j hj hj']
    exact le_rfl
  · intro j hj hj'
    rw [honly j hj hj']
    exact le_rfl

/-- A null, which is kept. -/
theorem Flushed.null {s : Scan ι} {i : ℕ} (h : Flushed key val lo hi s i) (hlo : lo ≤ i)
    (hkey : key i = none) :
    Flushed key val lo hi { s with bucket := none, out := s.out ++ [i] } (i + 1) where
  sorted := Lists.pairwise_concat_iff.mpr ⟨h.sorted, fun j hj => (h.bounds j hj).2⟩
  bounds := by
    intro j hj
    rcases List.mem_append.mp hj with hj | hj
    · have hj := h.bounds j hj
      omega
    · rw [List.mem_singleton.mp hj]
      omega
  previous := fun p hp => (h.previous p hp).trans (Nat.lt_succ_self i)
  nulls := by
    intro j hj hj' hnull
    rcases (Nat.le_of_lt_succ hj').lt_or_eq with hlt | rfl
    · exact List.mem_append_left _ (h.nulls j hj hlt hnull)
    · exact List.mem_append_right _ List.mem_cons_self
  runs := by
    intro a b hrun hb
    have hne : b ≠ i := by
      rintro rfl
      exact hrun.nonNull ((hrun.same b hrun.le le_rfl).symm.trans hkey)
    have hlt : b < i := by omega
    exact (h.runs a b hrun hlt).append fun j hj => (List.mem_singleton.mp hj) ▸ hlt

/-- A sample of another bucket than the last begins a run. -/
theorem Scanned.left {s : Scan ι} {index : ι} {i : ℕ} (h : Scanned key val lo hi s i)
    (hsame : s.bucket ≠ some index) : i = lo ∨ key (i - 1) ≠ some index := by
  cases hold : s.buffer with
  | none =>
    rw [Scanned, hold] at h
    refine h.2.2.imp_right fun hnull => ?_
    rw [hnull]
    exact (Option.some_ne_none index).symm
  | some b =>
    rw [Scanned, hold] at h
    obtain ⟨-, index', hindex, hb⟩ := h
    have hlast := hb.last
    have hle := hb.lowest_mem.1.trans hb.lowest_mem.2
    refine Or.inr fun hleft => hsame ?_
    rw [hindex, ← hleft, show i - 1 = b.last by omega]
    exact (hb.same b.last hle le_rfl).symm

variable [DecidableEq ι]

/-- **One sample.** -/
theorem scanStep_scanned {s : Scan ι} {i : ℕ} (h : Scanned key val lo hi s i) (hlo : lo ≤ i)
    (hi_le : i ≤ hi) : Scanned key val lo hi (scanStep key val s i) (i + 1) := by
  obtain ⟨hflushed, hbucket, hbuffer⟩ := flush_flushed h (hi_le.trans (Nat.le_succ hi))
  cases hkey : key i with
  | none =>
    have hstep : scanStep key val s i = { s.flush with bucket := none, out := s.flush.out ++ [i] } := by
      unfold scanStep
      rw [hkey]
    rw [hstep]
    unfold Scanned
    rw [hbuffer]
    exact ⟨hflushed.null hlo hkey, rfl, Or.inr hkey⟩
  | some index =>
    by_cases hsame : s.bucket = some index
    · have hstep : scanStep key val s i = { s with buffer := some (Buffer.extend val i s.buffer) } := by
        unfold scanStep
        simp only [hkey, hsame, if_true]
      rw [hstep]
      cases hold : s.buffer with
      | none =>
        -- there is no bucket without a buffer
        rw [Scanned, hold] at h
        exact absurd (h.2.1.symm.trans hsame) (Option.some_ne_none index).symm
      | some b =>
        rw [Scanned, hold] at h
        obtain ⟨hthrough, index', hindex, hb⟩ := h
        cases hsame.symm.trans hindex
        exact ⟨⟨hthrough.sorted, hthrough.bounds, hthrough.previous, hthrough.nulls, hthrough.runs⟩,
          index, hsame, hb.extend hkey⟩
    · have hstep : scanStep key val s i =
          { s.flush with bucket := some index, buffer := some (Buffer.extend val i none) } := by
        unfold scanStep
        simp only [hkey, hsame, if_false, hbuffer]
      rw [hstep]
      refine ⟨⟨hflushed.sorted, hflushed.bounds, hflushed.previous, hflushed.nulls, hflushed.runs⟩,
        index, rfl, buffered_single hlo hkey (h.left hsame)⟩

/-- **The whole scan.** -/
theorem scan_flushed (key : ℕ → Option ι) (val : ℕ → V) (hle : lo ≤ hi) :
    ∃ s : Scan ι, Flushed key val lo hi s (hi + 1) ∧ scan key val lo hi = s.out := by
  have hrun : ∀ n, lo + n ≤ hi + 1 → Scanned key val lo hi
      ((List.range' lo n).foldl (scanStep key val) Scan.init) (lo + n) := by
    intro n
    induction n with
    | zero =>
      intro _
      refine ⟨⟨List.Pairwise.nil, fun j hj => absurd hj List.not_mem_nil, (fun p hp => nomatch hp),
        fun j hj hj' => absurd hj' (not_lt.mpr hj), fun a b hrun hb => ?_⟩, rfl, Or.inl rfl⟩
      exact absurd (hrun.lo_le.trans hrun.le) (not_le.mpr hb)
    | succ n ih =>
      intro hn
      rw [List.range'_1_concat, List.foldl_append]
      exact scanStep_scanned (ih (by omega)) (by omega) (by omega)
  have hscanned := hrun (hi + 1 - lo) (by omega)
  rw [show lo + (hi + 1 - lo) = hi + 1 by omega] at hscanned
  exact ⟨_, (flush_flushed hscanned le_rfl).1, rfl⟩

end Runs

/-! ### The points -/

structure Point (K : Type) where
  x : K
  y : Option K
  deriving DecidableEq

def WIDTH : ℕ := 1000
def PAD_LEFT : ℕ := 88
def PAD_RIGHT : ℕ := 12
def PLOT_W : ℕ := WIDTH - PAD_LEFT - PAD_RIGHT
def DISPLAY_BUCKETS : ℕ := PLOT_W / 2

section Window

variable {K : Type} [LinearOrder K]

/-- How far an index moves while the next point passes. -/
def advance (passes : Point K → Bool) : List (Point K) → ℕ
  | _ :: next :: rest => if passes next then advance passes (next :: rest) + 1 else 0
  | _ => 0

/-- `lo` and `hi`: the window, with one sample on either side. -/
def rangeOf (points : List (Point K)) (xMin xMax : K) : ℕ × ℕ :=
  let lo := advance (fun p => p.x < xMin) points
  (lo, points.length - 1 - advance (fun p => xMax < p.x) (points.drop lo).reverse)

variable {points : List (Point K)} {xMin xMax : K}

omit [LinearOrder K] in
theorem advance_spec (passes : Point K → Bool) {points : List (Point K)} (hne : points ≠ []) :
    advance passes points < points.length ∧
      (∀ i p, 0 < i → i ≤ advance passes points → points[i]? = some p → passes p = true) ∧
      ∀ p, points[advance passes points + 1]? = some p → passes p = false := by
  induction points with
  | nil => exact absurd rfl hne
  | cons first rest ih =>
    cases rest with
    | nil =>
      refine ⟨Nat.one_pos, fun i p hi hi' => absurd hi (not_lt.mpr hi'), fun p hp => ?_⟩
      exact absurd hp (Option.some_ne_none p).symm
    | cons next rest =>
      unfold advance
      split
      · next hpasses =>
        obtain ⟨hlt, hall, hstop⟩ := ih (List.cons_ne_nil _ _)
        refine ⟨Nat.succ_lt_succ hlt, fun i p hi hi' hp => ?_, fun p hp => hstop p hp⟩
        obtain ⟨i, rfl⟩ := Nat.exists_eq_succ_of_ne_zero hi.ne'
        rw [List.getElem?_cons_succ] at hp
        rcases i.eq_zero_or_pos with rfl | hpos
        · cases hp
          exact hpasses
        · exact hall i p hpos (Nat.le_of_succ_le_succ hi') hp
      · next hfails =>
        refine ⟨Nat.succ_pos _, fun i p hi hi' => absurd hi (not_lt.mpr hi'), fun p hp => ?_⟩
        cases hp
        exact Bool.eq_false_iff.mpr hfails

/-- The samples that cover the window: from the last one before it, if there is one, to the first one
after it. -/
structure Covers (points : List (Point K)) (xMin xMax : K) (lo hi : ℕ) : Prop where
  le : lo ≤ hi
  lt : hi < points.length
  before : lo = 0 ∨ ∀ p, points[lo]? = some p → p.x < xMin
  fromLo : ∀ i p, lo < i → points[i]? = some p → xMin ≤ p.x
  after : hi + 1 = points.length ∨ ∀ p, points[hi]? = some p → xMax < p.x
  toHi : ∀ i p, i < hi → points[i]? = some p → p.x ≤ xMax
  window : ∀ i p, points[i]? = some p → xMin ≤ p.x → p.x ≤ xMax → lo ≤ i ∧ i ≤ hi

omit [LinearOrder K] in
/-- The points from the end, as far as `lo`. -/
theorem getElem?_reverse_drop {lo i : ℕ} (hi : i < points.length - lo) :
    (points.drop lo).reverse[i]? = points[points.length - 1 - i]? := by
  rw [List.getElem?_reverse (by rw [List.length_drop]; exact hi), List.getElem?_drop,
    List.length_drop]
  congr 1
  omega

theorem x_le_of_le (hx : points.Pairwise fun p q => p.x ≤ q.x) {i j : ℕ} {p q : Point K}
    (hij : i ≤ j) (hp : points[i]? = some p) (hq : points[j]? = some q) : p.x ≤ q.x := by
  rcases hij.lt_or_eq with hlt | rfl
  · exact Lists.pairwise_getElem? hx hp hq hlt
  · cases hp.symm.trans hq
    exact le_rfl

theorem rangeOf_covers (hx : points.Pairwise fun p q => p.x ≤ q.x) (hwindow : xMin < xMax)
    (hne : points ≠ []) :
    Covers points xMin xMax (rangeOf points xMin xMax).1 (rangeOf points xMin xMax).2 := by
  unfold rangeOf
  dsimp only
  obtain ⟨hlo, hbefore, hfrom⟩ := advance_spec (fun p => decide (p.x < xMin)) hne
  generalize advance (fun p => p.x < xMin) points = lo at hlo hbefore hfrom
  have hrev : (points.drop lo).reverse ≠ [] := by
    rw [Ne, List.reverse_eq_nil_iff, List.drop_eq_nil_iff]
    exact not_le.mpr hlo
  obtain ⟨hsteps, hafter, hto⟩ := advance_spec (fun p => decide (xMax < p.x)) hrev
  generalize advance (fun p => xMax < p.x) (points.drop lo).reverse = steps at hsteps hafter hto
  rw [List.length_reverse, List.length_drop] at hsteps
  have hbeforeLo : lo = 0 ∨ ∀ p, points[lo]? = some p → p.x < xMin := by
    refine (Nat.eq_zero_or_pos lo).imp_right fun hpos p hp => ?_
    exact of_decide_eq_true (hbefore lo p hpos le_rfl hp)
  have hfromLo : ∀ i p, lo < i → points[i]? = some p → xMin ≤ p.x := by
    intro i p hi hp
    have hi' := (List.getElem?_eq_some_iff.mp hp).1
    obtain ⟨next, hnext⟩ := Lists.exists_getElem? (show lo + 1 < points.length by omega)
    exact (not_lt.mp (of_decide_eq_false (hfrom next hnext))).trans (x_le_of_le hx hi hnext hp)
  have hafterHi : points.length - 1 - steps + 1 = points.length ∨
      ∀ p, points[points.length - 1 - steps]? = some p → xMax < p.x := by
    rcases Nat.eq_zero_or_pos steps with hzero | hpos
    · exact Or.inl (by omega)
    · refine Or.inr fun p hp => of_decide_eq_true (hafter steps p hpos le_rfl ?_)
      rw [getElem?_reverse_drop hsteps]
      exact hp
  have htoHi : ∀ i p, i < points.length - 1 - steps → points[i]? = some p → p.x ≤ xMax := by
    intro i p hi hp
    rcases lt_or_ge (steps + 1) (points.length - lo) with hmore | hall
    · obtain ⟨prev, hprev⟩ := Lists.exists_getElem?
        (show points.length - 1 - (steps + 1) < points.length by omega)
      have hstop := hto prev ((getElem?_reverse_drop hmore).trans hprev)
      exact (x_le_of_le hx (by omega) hp hprev).trans (not_lt.mp (of_decide_eq_false hstop))
    · -- `hi` went down to `lo`, which is before the window
      obtain ⟨first, hfirst⟩ := Lists.exists_getElem? hlo
      have hlt := hbeforeLo.resolve_left (by omega) first hfirst
      exact (x_le_of_le hx (by omega) hp hfirst).trans (hlt.trans hwindow).le
  refine ⟨by omega, by omega, hbeforeLo, hfromLo, hafterHi, htoHi, fun i p hp hmin hmax => ?_⟩
  constructor
  · by_contra hlt
    obtain ⟨first, hfirst⟩ := Lists.exists_getElem? hlo
    have hout := hbeforeLo.resolve_left (by omega) first hfirst
    exact absurd (x_le_of_le hx (by omega) hp hfirst) (not_le.mpr (hout.trans_le hmin))
  · by_contra hlt
    have hi := (List.getElem?_eq_some_iff.mp hp).1
    obtain ⟨last, hlast⟩ := Lists.exists_getElem?
      (show points.length - 1 - steps < points.length by omega)
    have hout := hafterHi.resolve_left (by omega) last hlast
    exact absurd (x_le_of_le hx (by omega) hlast hp) (not_le.mpr (lt_of_le_of_lt hmax hout))

end Window

section Points

variable {K : Type} [Field K] [LinearOrder K] [IsStrictOrderedRing K] [FloorRing K]

/-- The bucket of a point, which a null has none of. -/
def keyOf (points : List (Point K)) (xMin bucketWidth : K) (i : ℕ) : Option ℤ :=
  points[i]?.bind fun p => p.y.map fun _ => ⌊(p.x - xMin) / bucketWidth⌋

def valueOf (points : List (Point K)) (i : ℕ) : K := (points[i]?.bind (·.y)).getD 0

def forDisplay (points : List (Point K)) (xMin xMax : K) : List (Point K) :=
  match points with
  | [] => []
  | first :: rest =>
    let points := first :: rest
    let (lo, hi) := rangeOf points xMin xMax
    let bucketWidth := (xMax - xMin) / DISPLAY_BUCKETS
    if !(0 < bucketWidth) then (points.drop lo).take (hi + 1 - lo)
    else (scan (keyOf points xMin bucketWidth) (valueOf points) lo hi).filterMap (points[·]?)

/-- **What is left of the points** from `lo` to `hi`: in their order, with the ends, every null, and
what there is to keep of every run; so that each stretch without a gap keeps its extremes, over all of
it and over its part inside the window. The first sample at the window's end is kept itself. -/
structure Thinned (points : List (Point K)) (xMin xMax : K) (lo hi : ℕ) (indices : List ℕ) :
    Prop where
  sorted : indices.Pairwise (· < ·)
  bounds : ∀ i ∈ indices, lo ≤ i ∧ i ≤ hi
  lo_mem : lo ∈ indices
  hi_mem : hi ∈ indices
  nulls : ∀ i p, lo ≤ i → i ≤ hi → points[i]? = some p → p.y = none → i ∈ indices
  unbridged : ∀ i ∈ indices, ∀ j ∈ indices, (∀ k ∈ indices, k ≤ i ∨ j ≤ k) →
    ∀ k p, i < k → k < j → points[k]? = some p → p.y ≠ none
  runs : ∀ a b, Run (keyOf points xMin ((xMax - xMin) / DISPLAY_BUCKETS)) lo hi a b →
    Kept (valueOf points) indices a b
  stretches : ∀ a b, Stretch (keyOf points xMin ((xMax - xMin) / DISPLAY_BUCKETS)) lo hi a b →
    (∃ l ∈ indices, a ≤ l ∧ l ≤ b ∧ ∀ j, a ≤ j → j ≤ b → valueOf points l ≤ valueOf points j) ∧
    ∃ h ∈ indices, a ≤ h ∧ h ≤ b ∧ ∀ j, a ≤ j → j ≤ b → valueOf points j ≤ valueOf points h
  inside : ∀ a b, Stretch (keyOf points xMin ((xMax - xMin) / DISPLAY_BUCKETS)) lo hi a b →
    ∀ j p, a ≤ j → j ≤ b → points[j]? = some p → xMin ≤ p.x → p.x < xMax →
      ∃ l ∈ indices, ∃ h ∈ indices, (a ≤ l ∧ l ≤ b) ∧ (a ≤ h ∧ h ≤ b) ∧
        (∀ q, points[l]? = some q ∨ points[h]? = some q → xMin ≤ q.x ∧ q.x < xMax) ∧
        valueOf points l ≤ valueOf points j ∧ valueOf points j ≤ valueOf points h
  edge : ∀ i p, lo ≤ i → i ≤ hi → points[i]? = some p → p.x = xMax →
    (∀ j q, j < i → points[j]? = some q → q.x < xMax) → i ∈ indices

variable {points : List (Point K)} {xMin xMax : K}

omit [IsStrictOrderedRing K] in
theorem keyOf_eq_none_iff {bucketWidth : K} {i : ℕ} {p : Point K} (hp : points[i]? = some p) :
    keyOf points xMin bucketWidth i = none ↔ p.y = none := by
  rw [keyOf, hp, Option.bind_some, Option.map_eq_none_iff]

/-- The buckets before the window's end are those below `DISPLAY_BUCKETS`. -/
theorem lt_xMax_iff (hwindow : xMin < xMax) {i : ℕ} {p : Point K} {k : ℤ}
    (hp : points[i]? = some p)
    (hk : keyOf points xMin ((xMax - xMin) / DISPLAY_BUCKETS) i = some k) :
    p.x < xMax ↔ k < DISPLAY_BUCKETS := by
  rw [keyOf, hp, Option.bind_some] at hk
  obtain ⟨y, -, rfl⟩ := Option.map_eq_some_iff.mp hk
  have hbuckets : (0 : K) < DISPLAY_BUCKETS := Nat.cast_pos.mpr (by decide)
  have hwidth : 0 < (xMax - xMin) / (DISPLAY_BUCKETS : K) :=
    div_pos (sub_pos.mpr hwindow) hbuckets
  rw [Int.floor_lt, Int.cast_natCast, div_lt_iff₀ hwidth, mul_div_cancel₀ _ hbuckets.ne',
    sub_lt_sub_iff_right]

/-- The buckets of the window are those from 0 up to `DISPLAY_BUCKETS`. -/
theorem inside_iff (hwindow : xMin < xMax) {i : ℕ} {p : Point K} {k : ℤ}
    (hp : points[i]? = some p)
    (hk : keyOf points xMin ((xMax - xMin) / DISPLAY_BUCKETS) i = some k) :
    xMin ≤ p.x ∧ p.x < xMax ↔ 0 ≤ k ∧ k < DISPLAY_BUCKETS := by
  refine and_congr ?_ (lt_xMax_iff hwindow hp hk)
  rw [keyOf, hp, Option.bind_some] at hk
  obtain ⟨y, -, rfl⟩ := Option.map_eq_some_iff.mp hk
  have hwidth : 0 < (xMax - xMin) / (DISPLAY_BUCKETS : K) :=
    div_pos (sub_pos.mpr hwindow) (Nat.cast_pos.mpr (by decide))
  rw [Int.floor_nonneg]
  constructor
  · intro hmin
    exact div_nonneg (sub_nonneg.mpr hmin) hwidth.le
  · intro hmin
    by_contra hlt
    exact absurd hmin (not_le.mpr (div_neg_of_neg_of_pos (sub_neg.mpr (not_le.mp hlt)) hwidth))

/-- **A full scan of a window thins it.** -/
theorem thinned_of_flushed (hwindow : xMin < xMax) {lo hi : ℕ} {s : Scan ℤ}
    (hcovers : Covers points xMin xMax lo hi)
    (h : Flushed (keyOf points xMin ((xMax - xMin) / DISPLAY_BUCKETS)) (valueOf points) lo hi s
      (hi + 1)) : Thinned points xMin xMax lo hi s.out := by
  obtain ⟨hlo_mem, hhi_mem⟩ := h.ends hcovers.le
  have hbounds : ∀ i ∈ s.out, lo ≤ i ∧ i ≤ hi := fun i hi' =>
    ⟨(h.bounds i hi').1, Nat.le_of_lt_succ (h.bounds i hi').2⟩
  have hnulls : ∀ i p, lo ≤ i → i ≤ hi → points[i]? = some p → p.y = none → i ∈ s.out :=
    fun i p hlo hhi hp hy => h.nulls i hlo (Nat.lt_succ_of_le hhi) ((keyOf_eq_none_iff hp).mpr hy)
  refine ⟨h.sorted, hbounds, hlo_mem, hhi_mem, hnulls, ?_,
    fun a b hrun => h.runs a b hrun (Nat.lt_succ_of_le hrun.le_hi),
    fun a b hstretch => h.extremes hstretch, ?_, ?_⟩
  · intro i hi' j hj hnext k p hik hkj hp hy
    have hk := hnulls k p ((hbounds i hi').1.trans hik.le) (hkj.le.trans (hbounds j hj).2) hp hy
    rcases hnext k hk with hle | hle
    · exact absurd hik (not_lt.mpr hle)
    · exact absurd hkj (not_lt.mpr hle)
  · intro a b hstretch j p haj hjb hp hmin hmax
    obtain ⟨l, hl, u, hu, hlb, hub, hkl, hku, hle, hge⟩ := h.exists_kept hstretch haj hjb
    refine ⟨l, hl, u, hu, hlb, hub, fun q hq => ?_, hle, hge⟩
    obtain ⟨k, hk⟩ := Option.ne_none_iff_exists'.mp (hstretch.nonNull j haj hjb)
    have hbucket := (inside_iff hwindow hp hk).mp ⟨hmin, hmax⟩
    rcases hq with hq | hq
    · exact (inside_iff hwindow hq (hkl.trans hk)).mpr hbucket
    · exact (inside_iff hwindow hq (hku.trans hk)).mpr hbucket
  · intro i p hlo hhi hp hend hbefore
    by_cases hnull : keyOf points xMin ((xMax - xMin) / DISPLAY_BUCKETS) i = none
    · exact hnulls i p hlo hhi hp ((keyOf_eq_none_iff hp).mp hnull)
    · obtain ⟨a, b, hrun, hai, hib⟩ := exists_run hlo hhi hnull
      have hfirst := (h.runs a b hrun (Nat.lt_succ_of_le hrun.le_hi)).first
      rcases hai.lt_or_eq with hlt | rfl
      · -- a sample before the end is in an earlier bucket
        obtain ⟨k, hk⟩ := Option.ne_none_iff_exists'.mp hnull
        obtain ⟨q, hq⟩ := Lists.exists_getElem? (hlt.trans (List.getElem?_eq_some_iff.mp hp).1)
        have hka := (hrun.same i hai hib).symm.trans hk
        have hbucket := (lt_xMax_iff hwindow hq hka).mp (hbefore a q hlt hq)
        exact absurd hend ((lt_xMax_iff hwindow hp hk).mpr hbucket).ne
      · exact hfirst

/-- **Thinning hides nothing**: what is drawn are points of the series, thinned over the samples that
cover the window. -/
theorem forDisplay_hidesNothing (hx : points.Pairwise fun p q => p.x ≤ q.x)
    (hwindow : xMin < xMax) :
    (points = [] → forDisplay points xMin xMax = []) ∧
    (points ≠ [] → ∃ lo hi indices, Covers points xMin xMax lo hi ∧
      (forDisplay points xMin xMax).map some = indices.map (points[·]?) ∧
      Thinned points xMin xMax lo hi indices) := by
  refine ⟨fun hnil => by rw [hnil]; rfl, fun hne => ?_⟩
  have hcovers := rangeOf_covers hx hwindow hne
  obtain ⟨s, hflushed, hscan⟩ := scan_flushed
    (keyOf points xMin ((xMax - xMin) / DISPLAY_BUCKETS)) (valueOf points) hcovers.le
  have hthinned := thinned_of_flushed hwindow hcovers hflushed
  refine ⟨_, _, s.out, hcovers, ?_, hthinned⟩
  have hwidth : 0 < (xMax - xMin) / (DISPLAY_BUCKETS : K) :=
    div_pos (sub_pos.mpr hwindow) (Nat.cast_pos.mpr (by decide))
  have hdisplay : forDisplay points xMin xMax = s.out.filterMap (points[·]?) := by
    rw [← hscan]
    obtain ⟨first, rest, rfl⟩ := List.exists_cons_of_ne_nil hne
    exact if_neg (by rw [decide_eq_true hwidth]; exact Bool.false_ne_true)
  rw [hdisplay]
  refine Lists.map_some_filterMap fun i hi => ?_
  obtain ⟨p, hp⟩ := Lists.exists_getElem?
    (lt_of_le_of_lt (hthinned.bounds i hi).2 hcovers.lt)
  exact Option.isSome_iff_exists.mpr ⟨p, hp⟩

/-- A spike in one bucket, a dropout, and samples on either side of the window. -/
def spiked : List (Point ℚ) :=
  [⟨-2, some 1⟩, ⟨-1, some 1⟩, ⟨0, some 2⟩, ⟨1 / 5, some 3⟩, ⟨2 / 5, some 9⟩, ⟨3 / 5, some 4⟩,
    ⟨4 / 5, some 5⟩, ⟨3, none⟩, ⟨4, some 5⟩, ⟨451, some 6⟩, ⟨452, some 7⟩]

theorem forDisplay_hidesNothing_spiked :
    forDisplay spiked 0 450 = [⟨-1, some 1⟩, ⟨0, some 2⟩, ⟨2 / 5, some 9⟩, ⟨4 / 5, some 5⟩,
      ⟨3, none⟩, ⟨4, some 5⟩, ⟨451, some 6⟩] ∧
    ∃ lo hi indices, Covers spiked 0 450 lo hi ∧
      (forDisplay spiked 0 450).map some = indices.map (spiked[·]?) ∧
      Thinned spiked 0 450 lo hi indices :=
  ⟨by decide +kernel,
    (forDisplay_hidesNothing (show spiked.Pairwise fun p q : Point ℚ => p.x ≤ q.x by decide +kernel)
      (by decide +kernel)).2
      (by decide +kernel)⟩

end Points

end TelemetryCloud.LineChart
