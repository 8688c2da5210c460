import Mathlib.Algebra.BigOperators.Group.List.Basic
import Mathlib.Algebra.GroupWithZero.Nat
import Mathlib.Data.List.Basic
import Mathlib.Data.Nat.Find

/-!
# Timers and promise chains

Two devices of a single-threaded event loop.  A **timer** is a handle the loop holds while the timer
is armed.  A **chain** serialises jobs through one promise, `tail = tail.then(run, run)`: a job is
called once the promise before it has settled, whichever way, and its own promise of the chain
settles after the promise its `run` returned.

* `Timers` : arming, clearing, firing;
* `Chain.andThen`, `Chain.call`, `Chain.finish`, `Chain.settle` : what happens to a chain, the last
  three together `Moves`;
* `Serial` : a job that has been called has only settled jobs before it, kept by all four
  (`Serial.andThen`, `Serial.moves`);
* `Serial.running_unique`, `Serial.settled_before` : no two jobs run at once, and a promise of the
  chain settles after every job before it;
* `exists_next`, `Moves.pending_lt` : a chain that is not through has a next job, and whatever a job
  does brings the chain closer to its end.

Promise `0` is the settled promise a chain starts with and promise `n + 1` that of its job `n`.
Jobs and results are of arbitrary types.
-/

namespace TelemetryCloud.EventLoop

/-! ### Timers -/

/-- The timers of the loop: the next handle, and the handles that are armed. -/
structure Timers where
  next : ℕ
  armed : List ℕ
  deriving DecidableEq, Repr

namespace Timers

def init : Timers := ⟨0, []⟩

/-- `setTimeout`, whose handle is `next`. -/
def set (t : Timers) : Timers := ⟨t.next + 1, t.armed ++ [t.next]⟩

/-- `clearTimeout`; a timer that fires leaves the list in the same way. -/
def clear (t : Timers) (handle : ℕ) : Timers := { t with armed := t.armed.filter (· ≠ handle) }

@[simp] theorem set_next (t : Timers) : t.set.next = t.next + 1 := rfl
@[simp] theorem set_armed (t : Timers) : t.set.armed = t.armed ++ [t.next] := rfl
@[simp] theorem clear_next (t : Timers) (handle : ℕ) : (t.clear handle).next = t.next := rfl

/-- A timer that is not armed is cleared without effect. -/
theorem clear_of_not_mem {t : Timers} {handle : ℕ} (h : handle ∉ t.armed) : t.clear handle = t := by
  have hall : t.armed.filter (· ≠ handle) = t.armed := by
    rw [List.filter_eq_self]
    intro a ha
    exact decide_eq_true fun heq => h (heq ▸ ha)
  rw [clear, hall]

/-- Clearing the only armed timer leaves none. -/
theorem clear_armed_singleton {t : Timers} {handle : ℕ} (h : t.armed = [handle]) :
    (t.clear handle).armed = [] := by
  simp only [clear, h, List.filter_cons, ne_eq, not_true_eq_false, decide_false,
    Bool.false_eq_true, if_false, List.filter_nil]

/-- A timer that is cleared when no other is armed leaves none, whatever was cleared before. -/
theorem clear_clear_armed {t : Timers} {handle : ℕ} (h : t.armed = [handle]) (other : ℕ) :
    ((t.clear other).clear handle).armed = [] := by
  rw [List.eq_nil_iff_forall_not_mem]
  intro x hx
  simp only [clear, List.mem_filter, h, List.mem_singleton, decide_eq_true_eq] at hx
  exact hx.2 hx.1.1

end Timers

/-! ### Chains -/

/-- How far a job of a chain is. -/
inductive Phase (ρ : Type*)
  /-- The promise before it has not settled, or its `run` has not been called yet. -/
  | waiting
  /-- `run` was called and its promise is pending. -/
  | running
  /-- The promise of `run` has settled. -/
  | finished (result : ρ)
  /-- So has the promise of the chain, and the next job may be called. -/
  | settled (result : ρ)
  deriving DecidableEq, Repr

namespace Phase

variable {ρ : Type*}

/-- The result, once the promise of `run` has settled. -/
def result : Phase ρ → Option ρ
  | finished r | settled r => some r
  | _ => none

def isSettled : Phase ρ → Bool
  | settled _ => true
  | _ => false

/-- The steps a job has left. -/
def left : Phase ρ → ℕ
  | waiting => 3
  | running => 2
  | finished _ => 1
  | settled _ => 0

theorem left_pos_iff {p : Phase ρ} : 0 < p.left ↔ p.isSettled = false := by
  cases p <;> simp [left, isSettled]

theorem result_isSome_of_isSettled {p : Phase ρ} (h : p.isSettled = true) :
    p.result.isSome = true := by
  cases p with
  | settled r => rfl
  | _ => cases h

end Phase

structure Job (α ρ : Type*) where
  work : α
  phase : Phase ρ
  deriving DecidableEq, Repr

/-- The jobs of a chain, in the order they were chained. -/
abbrev Chain (α ρ : Type*) := List (Job α ρ)

namespace Chain

variable {α ρ : Type*} (l : Chain α ρ)

/-- Promise `n` of the chain has settled. -/
def isSettled : ℕ → Bool
  | 0 => true
  | n + 1 => (l[n]?.map fun job => job.phase.isSettled).getD false

/-- `tail = tail.then(run, run)`. -/
def andThen (a : α) : Chain α ρ := l ++ [⟨a, .waiting⟩]

/-- The loop calls the `run` of job `k`. -/
def call (k : ℕ) : Option (α × Chain α ρ) :=
  match l[k]? with
  | some ⟨a, .waiting⟩ => if l.isSettled k then some (a, l.set k ⟨a, .running⟩) else none
  | _ => none

/-- The promise of the `run` of job `k` settles. -/
def finish (k : ℕ) (r : ρ) : Option (Chain α ρ) :=
  match l[k]? with
  | some ⟨a, .running⟩ => some (l.set k ⟨a, .finished r⟩)
  | _ => none

/-- Promise `k + 1` of the chain settles. -/
def settle (k : ℕ) : Option (Chain α ρ) :=
  match l[k]? with
  | some ⟨a, .finished r⟩ => some (l.set k ⟨a, .settled r⟩)
  | _ => none

/-- The steps the jobs of the chain have left. -/
def pending : ℕ := (l.map fun job => job.phase.left).sum

/-- A job that has been called has only settled jobs before it. -/
def Serial : Prop :=
  ∀ (i j : ℕ) (a b : Job α ρ), i < j → l[i]? = some a → l[j]? = some b → b.phase ≠ .waiting →
    a.phase.isSettled = true

variable {l}

theorem call_eq_some {k : ℕ} {a : α} {l' : Chain α ρ} (h : l.call k = some (a, l')) :
    l[k]? = some ⟨a, .waiting⟩ ∧ l.isSettled k = true ∧ l' = l.set k ⟨a, .running⟩ := by
  unfold call at h
  split at h
  · rename_i b hk
    split at h
    · rename_i hset
      cases h
      exact ⟨hk, hset, rfl⟩
    · cases h
  · cases h

theorem finish_eq_some {k : ℕ} {r : ρ} {l' : Chain α ρ} (h : l.finish k r = some l') :
    ∃ a, l[k]? = some ⟨a, .running⟩ ∧ l' = l.set k ⟨a, .finished r⟩ := by
  unfold finish at h
  split at h
  · rename_i a hk
    cases h
    exact ⟨a, hk, rfl⟩
  · cases h

theorem settle_eq_some {k : ℕ} {l' : Chain α ρ} (h : l.settle k = some l') :
    ∃ a r, l[k]? = some ⟨a, .finished r⟩ ∧ l' = l.set k ⟨a, .settled r⟩ := by
  unfold settle at h
  split at h
  · rename_i a r hk
    cases h
    exact ⟨a, r, hk, rfl⟩
  · cases h

/-- A job of the chain moves on. -/
inductive Moves (l l' : Chain α ρ) : Prop
  | call {k : ℕ} {a : α} (h : l.call k = some (a, l'))
  | finish {k : ℕ} {r : ρ} (h : l.finish k r = some l')
  | settle {k : ℕ} (h : l.settle k = some l')

/-- It does one of the steps it had left. -/
theorem Moves.eq_set {l' : Chain α ρ} (h : Moves l l') :
    ∃ k a p q, l[k]? = some ⟨a, p⟩ ∧ l' = l.set k ⟨a, q⟩ ∧ q.left < p.left := by
  cases h with
  | call h =>
    obtain ⟨hk, -, rfl⟩ := call_eq_some h
    exact ⟨_, _, _, _, hk, rfl, Nat.lt_succ_self 2⟩
  | finish h =>
    obtain ⟨a, hk, rfl⟩ := finish_eq_some h
    exact ⟨_, _, _, _, hk, rfl, Nat.lt_succ_self 1⟩
  | settle h =>
    obtain ⟨a, r, hk, rfl⟩ := settle_eq_some h
    exact ⟨_, _, _, _, hk, rfl, Nat.lt_succ_self 0⟩

/-- A job keeps its work whatever happens to it. -/
theorem map_work_set {k : ℕ} {a : α} {p q : Phase ρ} (h : l[k]? = some ⟨a, p⟩) :
    (l.set k ⟨a, q⟩).map Job.work = l.map Job.work := by
  rw [List.map_set]
  apply List.ext_getElem?
  intro n
  by_cases hn : k = n
  · subst hn
    have hlt := (List.getElem?_eq_some_iff.mp h).1
    rw [List.getElem?_set_self (by rwa [List.length_map]), List.getElem?_map, h, Option.map_some]
  · rw [List.getElem?_set_ne hn]

theorem Moves.map_work {l' : Chain α ρ} (h : Moves l l') : l'.map Job.work = l.map Job.work := by
  obtain ⟨k, a, p, q, hk, rfl, -⟩ := h.eq_set
  exact map_work_set hk

/-- What stands where after the job at `k` has moved on. -/
theorem getElem?_set_of {k : ℕ} {x : Job α ρ} (hk : l[k]? = some x) (y : Job α ρ) (j : ℕ) :
    (l.set k y)[j]? = if k = j then some y else l[j]? := by
  by_cases hj : k = j
  · subst hj
    rw [if_pos rfl, List.getElem?_set_self (List.getElem?_eq_some_iff.mp hk).1]
  · rw [if_neg hj, List.getElem?_set_ne hj]

/-- A move between two phases with the same result changes no result. -/
theorem result_set {k : ℕ} {a : α} {p : Phase ρ} (hk : l[k]? = some ⟨a, p⟩) (q : Phase ρ)
    (hpq : q.result = p.result) (j : ℕ) (r : ρ) :
    (∃ b p', (l.set k ⟨a, q⟩)[j]? = some ⟨b, p'⟩ ∧ p'.result = some r) ↔
      ∃ b p', l[j]? = some ⟨b, p'⟩ ∧ p'.result = some r := by
  rw [getElem?_set_of hk]
  by_cases hj : k = j
  · subst hj
    rw [if_pos rfl, hk]
    constructor
    · rintro ⟨b, p', hjob, hr⟩
      cases hjob
      exact ⟨a, p, rfl, hpq ▸ hr⟩
    · rintro ⟨b, p', hjob, hr⟩
      cases hjob
      exact ⟨a, q, rfl, hpq.trans hr⟩
  · rw [if_neg hj]

/-- A job that moves on to anything but running starts no job. -/
theorem running_of_set {k j : ℕ} {a b : α} {p q : Phase ρ} (hk : l[k]? = some ⟨a, p⟩)
    (hq : q ≠ .running) (hj : (l.set k ⟨a, q⟩)[j]? = some ⟨b, .running⟩) :
    k ≠ j ∧ l[j]? = some ⟨b, .running⟩ := by
  rw [getElem?_set_of hk] at hj
  split at hj
  · cases hj
    exact absurd rfl hq
  · rename_i hne
    exact ⟨hne, hj⟩

theorem getElem?_andThen {k : ℕ} {job : Job α ρ} (a : α) (hk : l[k]? = some job) :
    (l.andThen a)[k]? = some job := by
  rw [andThen, List.getElem?_append_left (List.getElem?_eq_some_iff.mp hk).1]
  exact hk

/-- The job chained last has not been called. -/
theorem getElem?_of_andThen {k : ℕ} {a : α} {job : Job α ρ} (hk : (l.andThen a)[k]? = some job)
    (hp : job.phase ≠ .waiting) : l[k]? = some job := by
  unfold andThen at hk
  rcases Nat.lt_or_ge k l.length with hlt | hge
  · rwa [List.getElem?_append_left hlt] at hk
  · rw [List.getElem?_append_right hge, List.getElem?_singleton] at hk
    split at hk
    · cases hk
      exact absurd rfl hp
    · cases hk

theorem isSettled_succ {n : ℕ} :
    l.isSettled (n + 1) = true ↔ ∃ job, l[n]? = some job ∧ job.phase.isSettled = true := by
  rw [isSettled]
  cases l[n]? with
  | none => simp
  | some job => simp

/-- What is chained later settles nothing and unsettles nothing. -/
theorem isSettled_andThen {n : ℕ} {a : α} (h : l.isSettled n = true) :
    (l.andThen a).isSettled n = true := by
  cases n with
  | zero => rfl
  | succ n =>
    obtain ⟨job, hjob, hset⟩ := isSettled_succ.mp h
    exact isSettled_succ.mpr ⟨job, getElem?_andThen a hjob, hset⟩

/-- A promise that has settled stays so. -/
theorem Moves.isSettled {l' : Chain α ρ} (h : Moves l l') {n : ℕ} (hn : l.isSettled n = true) :
    l'.isSettled n = true := by
  obtain ⟨k, a, p, q, hk, rfl, hlt⟩ := h.eq_set
  cases n with
  | zero => rfl
  | succ n =>
    obtain ⟨job, hjob, hset⟩ := isSettled_succ.mp hn
    apply isSettled_succ.mpr
    refine ⟨job, ?_, hset⟩
    rw [List.getElem?_set_ne]
    · exact hjob
    · rintro rfl
      -- a settled job has no step left
      rw [hk] at hjob
      cases hjob
      cases p with
      | settled r => exact absurd hlt (Nat.not_lt_zero _)
      | _ => cases hset

namespace Serial

theorem nil : Serial ([] : Chain α ρ) := by
  intro i j a b _ ha
  simp at ha

theorem andThen (h : Serial l) (a : α) : Serial (l.andThen a) := by
  intro i j x y hij hx hy hp
  have hold := getElem?_of_andThen hy hp
  have hlt : i < l.length := Nat.lt_trans hij (List.getElem?_eq_some_iff.mp hold).1
  unfold Chain.andThen at hx
  rw [List.getElem?_append_left hlt] at hx
  exact h i j x y hij hx hold hp

/-- **A promise of the chain settles after every job before it.** -/
theorem settled_before (h : Serial l) {n : ℕ} (hn : l.isSettled n = true) {i : ℕ} {job : Job α ρ}
    (hi : i < n) (hjob : l[i]? = some job) : job.phase.isSettled = true := by
  cases n with
  | zero => omega
  | succ n =>
    obtain ⟨last, hlast, hset⟩ := isSettled_succ.mp hn
    rcases Nat.lt_or_ge i n with hlt | hge
    · apply h i n job last hlt hjob hlast
      intro hwait
      rw [hwait] at hset
      cases hset
    · obtain rfl : i = n := by omega
      rw [hjob] at hlast
      cases hlast
      exact hset

/-- A job moves on: it has only settled jobs before it, and if it was settled it stays so. -/
theorem set (h : Serial l) {k : ℕ} {a : α} {p q : Phase ρ} (hk : l[k]? = some ⟨a, p⟩)
    (hbefore : ∀ i job, i < k → l[i]? = some job → job.phase.isSettled = true)
    (hkeep : p.isSettled = true → q.isSettled = true) : Serial (l.set k ⟨a, q⟩) := by
  intro i j x y hij hx hy hp
  rw [List.getElem?_set] at hx hy
  by_cases hjk : k = j
  · rw [if_neg (by omega)] at hx
    exact hbefore i x (by omega) hx
  · rw [if_neg hjk] at hy
    split at hx
    · rename_i hki
      split at hx
      · cases hx
        apply hkeep
        exact h k j ⟨a, p⟩ y (by omega) hk hy hp
      · cases hx
    · exact h i j x y hij hx hy hp

/-- The jobs before one that has been called are settled. -/
theorem before (h : Serial l) {k : ℕ} {a : α} {p : Phase ρ} (hk : l[k]? = some ⟨a, p⟩)
    (hp : p ≠ .waiting) (i : ℕ) (job : Job α ρ) (hi : i < k) (hjob : l[i]? = some job) :
    job.phase.isSettled = true :=
  h i k job ⟨a, p⟩ hi hjob hk hp

/-- **Whatever a job does keeps the chain serial.** -/
theorem moves (h : Serial l) {l' : Chain α ρ} (hm : Moves l l') : Serial l' := by
  cases hm with
  | call hc =>
    obtain ⟨hk, hset, rfl⟩ := call_eq_some hc
    apply h.set hk
    · intro i job hi hjob
      exact h.settled_before hset hi hjob
    · intro hp
      cases hp
  | finish hc =>
    obtain ⟨a, hk, rfl⟩ := finish_eq_some hc
    apply h.set hk (h.before hk (by simp))
    intro hp
    cases hp
  | settle hc =>
    obtain ⟨a, r, hk, rfl⟩ := settle_eq_some hc
    apply h.set hk (h.before hk (by simp))
    intro _
    rfl

/-- **No two jobs run at once.** -/
theorem running_unique (h : Serial l) {i j : ℕ} {a b : α} (hi : l[i]? = some ⟨a, .running⟩)
    (hj : l[j]? = some ⟨b, .running⟩) : i = j := by
  rcases Nat.lt_trichotomy i j with hlt | heq | hgt
  · have := h i j _ _ hlt hi hj (by simp)
    cases this
  · exact heq
  · have := h j i _ _ hgt hj hi (by simp)
    cases this

end Serial

/-! ### Progress -/

/-- A chain is through when all its jobs have settled. -/
theorem pending_pos_iff :
    0 < l.pending ↔ ∃ (k : ℕ) (job : Job α ρ), l[k]? = some job ∧ job.phase.isSettled = false := by
  rw [pending, List.sum_pos_iff_exists_pos_nat]
  constructor
  · rintro ⟨n, hn, hpos⟩
    obtain ⟨job, hjob, rfl⟩ := List.mem_map.mp hn
    obtain ⟨k, hk⟩ := List.getElem?_of_mem hjob
    exact ⟨k, job, hk, Phase.left_pos_iff.mp hpos⟩
  · rintro ⟨k, job, hk, hphase⟩
    exact ⟨_, List.mem_map_of_mem (List.mem_of_getElem? hk), Phase.left_pos_iff.mpr hphase⟩

/-- **A chain that is not through has a next job**: the first that has not settled, and all that
it waits for has. -/
theorem exists_next (hpos : 0 < l.pending) :
    ∃ (k : ℕ) (job : Job α ρ), l[k]? = some job ∧ job.phase.isSettled = false ∧
      l.isSettled k = true := by
  have hex := pending_pos_iff.mp hpos
  obtain ⟨job, hk, hphase⟩ := Nat.find_spec hex
  refine ⟨Nat.find hex, job, hk, hphase, ?_⟩
  cases hfirst : Nat.find hex with
  | zero => rfl
  | succ n =>
    have hlt : n < l.length := by
      have := (List.getElem?_eq_some_iff.mp hk).1
      omega
    apply isSettled_succ.mpr
    refine ⟨l[n], List.getElem?_eq_getElem hlt, ?_⟩
    -- otherwise job `n` would be an earlier one
    by_contra hne
    have hmin := Nat.find_min hex (show n < Nat.find hex by omega)
    exact hmin ⟨l[n], List.getElem?_eq_getElem hlt, eq_false_of_ne_true hne⟩

theorem pending_set_lt {k : ℕ} {a : α} {p q : Phase ρ} (hk : l[k]? = some ⟨a, p⟩)
    (hlt : q.left < p.left) : pending (l.set k ⟨a, q⟩) < pending l := by
  induction l generalizing k with
  | nil => simp at hk
  | cons first rest ih =>
    cases k with
    | zero =>
      rw [List.getElem?_cons_zero, Option.some.injEq] at hk
      subst hk
      simp only [pending, List.set_cons_zero, List.map_cons, List.sum_cons]
      omega
    | succ k =>
      rw [List.getElem?_cons_succ] at hk
      have := ih hk
      simp only [pending, List.set_cons_succ, List.map_cons, List.sum_cons] at this ⊢
      omega

/-- **A job that moves on brings the chain closer to its end.** -/
theorem Moves.pending_lt {l' : Chain α ρ} (h : Moves l l') : pending l' < pending l := by
  obtain ⟨k, a, p, q, hk, rfl, hlt⟩ := h.eq_set
  exact pending_set_lt hk hlt

end Chain

end TelemetryCloud.EventLoop
