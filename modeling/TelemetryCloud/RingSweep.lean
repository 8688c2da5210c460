import Mathlib.Data.List.Chain
import Mathlib.Data.List.Forall2
import Mathlib.Order.MinMax

/-!
# Sweeps around a ring

The values around a ring are lowered one after the other, each to at most what the one before it allows.

* `OnRing` : a relation between each value and the next, the last and the first included;
* `sweep` : one sweep, `sweep_le` : what it does not raise;
* `onRing_sweep` : **a sweep closes the ring** if its relation held but between the last and the first;
* `OnRing.swept` : it keeps the relation of the sweep the other way;
* `le_sweep` : **it goes no lower than it must**;
* `onRing_round` : **two rounds of a sweep each way settle both relations**.
-/

namespace TelemetryCloud.RingSweep

section Rings

variable {α : Type*}

/-- The relation holds between each element and the next, and between the last and the first. -/
def OnRing (R : α → α → Prop) (l : List α) : Prop :=
  l.IsChain R ∧ ∀ first ∈ l.head?, ∀ last ∈ l.getLast?, R last first

theorem onRing_reverse {R : α → α → Prop} {l : List α} :
    OnRing R l.reverse ↔ OnRing (fun x y => R y x) l := by
  unfold OnRing
  rw [List.isChain_reverse, List.head?_reverse, List.getLast?_reverse]
  constructor
  · exact fun h => ⟨h.1, fun first hfirst last hlast => h.2 last hlast first hfirst⟩
  · exact fun h => ⟨h.1, fun first hfirst last hlast => h.2 last hlast first hfirst⟩

theorem onRing_congr {R S : α → α → Prop} {l : List α} (h : ∀ a ∈ l, ∀ b ∈ l, R a b ↔ S a b) :
    OnRing R l ↔ OnRing S l := by
  refine and_congr (List.IsChain.iff_of_mem_imp fun a b ha hb => h a ha b hb) ?_
  refine forall₂_congr fun first hfirst => forall₂_congr fun last hlast => ?_
  exact h last (List.mem_of_getLast? hlast) first (List.mem_of_head? hfirst)

theorem onRing_of_forall {R : α → α → Prop} {l : List α} (h : ∀ a ∈ l, ∀ b ∈ l, R a b) : OnRing R l :=
  ⟨(List.pairwise_of_forall_mem_list h).isChain, fun first hfirst last hlast =>
    h last (List.mem_of_getLast? hlast) first (List.mem_of_head? hfirst)⟩

theorem getLast?_eq_getLastD (x : α) (l : List α) : (x :: l).getLast? = some (l.getLastD x) := by
  rw [List.getLast?_cons, List.getLastD_eq_getLast?]

theorem onRing_cons {R : α → α → Prop} {x : α} {l : List α} :
    OnRing R (x :: l) ↔ (x :: l).IsChain R ∧ R (l.getLastD x) x := by
  unfold OnRing
  rw [List.head?_cons, getLast?_eq_getLastD]
  simp only [Option.mem_some_iff, forall_eq']

end Rings

section Sweeps

variable {K : Type*} [LinearOrder K] (f : K → K)

/-- The values after `previous`, each lowered to at most what the one before it allows. -/
def sweepFrom (previous : K) : List K → List K
  | [] => []
  | x :: l => min x (f previous) :: sweepFrom (min x (f previous)) l

/-- A sweep starts with the first value, and what is before that is the last. -/
def sweep (l : List K) : List K :=
  match l.getLast? with
  | none => []
  | some last => sweepFrom f last l

variable {f}

theorem sweep_eq_sweepFrom {l : List K} {last : K} (h : last ∈ l.getLast?) :
    sweep f l = sweepFrom f last l := by
  rw [sweep, h]

theorem sweepFrom_le (previous : K) (l : List K) : (sweepFrom f previous l).Forall₂ (· ≤ ·) l := by
  induction l generalizing previous with
  | nil => exact .nil
  | cons x l ih => exact .cons (min_le_left _ _) (ih _)

theorem sweep_le (l : List K) : (sweep f l).Forall₂ (· ≤ ·) l := by
  cases hlast : l.getLast? with
  | none =>
    rw [List.getLast?_eq_none_iff.mp hlast]
    exact .nil
  | some last =>
    rw [sweep_eq_sweepFrom hlast]
    exact sweepFrom_le last l

theorem sweepFrom_chain (previous : K) (l : List K) :
    (previous :: sweepFrom f previous l).IsChain fun x y => y ≤ f x := by
  induction l generalizing previous with
  | nil => exact .singleton _
  | cons x l ih => exact .cons_cons (min_le_right _ _) (ih _)

theorem sweep_chain (l : List K) : (sweep f l).IsChain fun x y => y ≤ f x := by
  cases hlast : l.getLast? with
  | none =>
    rw [List.getLast?_eq_none_iff.mp hlast]
    exact .nil
  | some last =>
    rw [sweep_eq_sweepFrom hlast]
    exact (sweepFrom_chain last l).tail

theorem sweep_cons (x : K) (l : List K) :
    sweep f (x :: l) = sweepFrom f (l.getLastD x) (x :: l) :=
  sweep_eq_sweepFrom (getLast?_eq_getLastD x l)

/-- A sweep leaves the last value where it is, or above what the last one was before: each value is the
one that was there, or no less than the one the sweep started from. -/
theorem sweepFrom_last (hf : ∀ x, x ≤ f x) {known previous floor : K} {l : List K}
    (hchain : (known :: l).IsChain fun x y => y ≤ f x) (hprevious : previous = known ∨ floor ≤ previous) :
    (sweepFrom f previous l).getLastD previous = l.getLastD known ∨
      floor ≤ (sweepFrom f previous l).getLastD previous := by
  induction l generalizing known previous with
  | nil => exact hprevious
  | cons x l ih =>
    rw [sweepFrom, List.getLastD_cons, List.getLastD_cons]
    refine ih hchain.tail ?_
    have hx : x ≤ f known := (List.isChain_cons_cons.mp hchain).1
    rcases le_total x (f previous) with h | h
    · exact .inl (min_eq_left h)
    · rw [min_eq_right h]
      rcases hprevious with rfl | hfloor
      · exact .inl (le_antisymm h hx)
      · exact .inr (hfloor.trans (hf previous))

theorem getLastD_le {l l' : List K} (h : l'.Forall₂ (· ≤ ·) l) {x x' : K} (hx : x' ≤ x) :
    l'.getLastD x' ≤ l.getLastD x := by
  induction h generalizing x x' with
  | nil => exact hx
  | cons h _ ih =>
    rw [List.getLastD_cons, List.getLastD_cons]
    exact ih h

/-- **A sweep closes the ring.** -/
theorem onRing_sweep (hf : ∀ x, x ≤ f x) {l : List K} (hchain : l.IsChain fun x y => y ≤ f x) :
    OnRing (fun x y => y ≤ f x) (sweep f l) := by
  cases l with
  | nil => exact ⟨.nil, fun _ h => nomatch h⟩
  | cons x l =>
    have hswept := sweep_chain (f := f) (x :: l)
    rw [sweep_cons, sweepFrom] at hswept ⊢
    generalize hstart : l.getLastD x = last at *
    refine onRing_cons.mpr ⟨hswept, ?_⟩
    -- the last value is the one that was there
    have hfirst : min x (f last) = x ∨ last ≤ min x (f last) := by
      rcases le_total x (f last) with h | h
      · exact .inl (min_eq_left h)
      · rw [min_eq_right h]
        exact .inr (hf last)
    have hlast := sweepFrom_last hf hchain hfirst
    rw [hstart] at hlast
    have hle := getLastD_le (sweepFrom_le (f := f) (min x (f last)) l) (min_le_left x (f last))
    rw [hstart] at hle
    have hsame : (sweepFrom f (min x (f last)) l).getLastD (min x (f last)) = last := by
      rcases hlast with h | h
      · exact h
      · exact le_antisymm hle h
    rw [hsame]
    exact min_le_right _ _

variable {g : K → K}

theorem sweepFrom_keeps (hf : ∀ x, x ≤ f x) (hg : ∀ x, x ≤ g x) {l : List K}
    (hchain : l.IsChain fun x y => x ≤ g y) (previous : K) :
    (sweepFrom f previous l).IsChain fun x y => x ≤ g y := by
  induction l generalizing previous with
  | nil => exact .nil
  | cons x l ih =>
    have htail := ih hchain.tail (min x (f previous))
    cases l with
    | nil => exact .singleton _
    | cons y l =>
      have hx : x ≤ g y := (List.isChain_cons_cons.mp hchain).1
      refine .cons_cons ?_ htail
      -- either the next value is the one that was there, or it is no less than this one
      rcases le_total y (f (min x (f previous))) with h | h
      · rw [min_eq_left h]
        exact (min_le_left _ _).trans hx
      · rw [min_eq_right h]
        exact (hf _).trans (hg _)

/-- **A sweep keeps the relation of the sweep the other way.** -/
theorem OnRing.swept (hf : ∀ x, x ≤ f x) (hg : ∀ x, x ≤ g x) {l : List K}
    (h : OnRing (fun x y => x ≤ g y) l) : OnRing (fun x y => x ≤ g y) (sweep f l) := by
  cases l with
  | nil => exact ⟨.nil, fun _ h => nomatch h⟩
  | cons x l =>
    obtain ⟨hchain, hclosed⟩ := onRing_cons.mp h
    have hkept := sweepFrom_keeps hf hg hchain (l.getLastD x)
    rw [sweepFrom] at hkept
    rw [sweep_cons, sweepFrom]
    refine onRing_cons.mpr ⟨hkept, ?_⟩
    have hle := getLastD_le (sweepFrom_le (f := f) (min x (f (l.getLastD x))) l)
      (min_le_left x (f (l.getLastD x)))
    refine hle.trans ?_
    rcases le_total x (f (l.getLastD x)) with h | h
    · rw [min_eq_left h]
      exact hclosed
    · rw [min_eq_right h]
      exact (hf _).trans (hg _)

/-- **A sweep goes no lower than it must**: what is below the values, and itself never above what the
value before allows, is below them still. -/
theorem le_sweep {l w : List K} (hle : w.Forall₂ (· ≤ ·) l) (hw : OnRing (fun x y => y ≤ f x) w)
    (hmono : ∀ x ∈ w, ∀ y, x ≤ y → f x ≤ f y) : w.Forall₂ (· ≤ ·) (sweep f l) := by
  have hfrom : ∀ {w l : List K} {a b : K}, w.Forall₂ (· ≤ ·) l → (∀ y, a ≤ y → f a ≤ f y) →
      (∀ x ∈ w, ∀ y, x ≤ y → f x ≤ f y) → (a :: w).IsChain (fun x y => y ≤ f x) → a ≤ b →
      w.Forall₂ (· ≤ ·) (sweepFrom f b l) := by
    intro w l a b hle
    induction hle generalizing a b with
    | nil => exact fun _ _ _ _ => .nil
    | @cons x y w l hxy _ ih =>
      intro ha hmono hchain hab
      have hx : x ≤ min y (f b) :=
        le_min hxy ((List.isChain_cons_cons.mp hchain).1.trans (ha b hab))
      exact .cons hx (ih (hmono x List.mem_cons_self)
        (fun z hz => hmono z (List.mem_cons_of_mem x hz)) hchain.tail hx)
  cases hle with
  | nil => exact .nil
  | @cons x y w l hxy hle =>
    obtain ⟨hchain, hclosed⟩ := onRing_cons.mp hw
    rw [sweep_cons]
    have hlast : w.getLastD x ∈ x :: w := List.getLastD_mem_cons
    exact hfrom (.cons hxy hle) (hmono _ hlast) hmono (.cons_cons hclosed hchain)
      (getLastD_le hle hxy)

/-- A sweep changes nothing that is right. -/
theorem OnRing.sweep_eq {l : List K} (h : OnRing (fun x y => y ≤ f x) l) : sweep f l = l := by
  have hfrom : ∀ {l : List K} {previous : K}, (previous :: l).IsChain (fun x y => y ≤ f x) →
      sweepFrom f previous l = l := by
    intro l
    induction l with
    | nil => exact fun _ => rfl
    | cons x l ih =>
      intro previous hchain
      have hx : min x (f previous) = x := min_eq_left (List.isChain_cons_cons.mp hchain).1
      rw [sweepFrom, hx, ih hchain.tail]
  cases l with
  | nil => rfl
  | cons x l =>
    obtain ⟨hchain, hclosed⟩ := onRing_cons.mp h
    rw [sweep_cons, hfrom (.cons_cons hclosed hchain)]

end Sweeps

section Rounds

variable {K : Type*} [LinearOrder K] (f g : K → K)

/-- A sweep backward and one forward. -/
def round (l : List K) : List K := sweep f (sweep g l.reverse).reverse

variable {f g}

theorem forall₂_trans {a b c : List K} (hab : a.Forall₂ (· ≤ ·) b) (hbc : b.Forall₂ (· ≤ ·) c) :
    a.Forall₂ (· ≤ ·) c := by
  induction hab generalizing c with
  | nil => exact hbc
  | cons h _ ih =>
    cases hbc with
    | cons hbc hrest => exact .cons (h.trans hbc) (ih hrest)

theorem round_le (l : List K) : (round f g l).Forall₂ (· ≤ ·) l := by
  have hback : (sweep g l.reverse).reverse.Forall₂ (· ≤ ·) l := by
    rw [← List.forall₂_reverse_iff, List.reverse_reverse]
    exact sweep_le l.reverse
  exact forall₂_trans (sweep_le _) hback

/-- After a round both relations hold but between the last value and the first. -/
theorem chain_round (hf : ∀ x, x ≤ f x) (hg : ∀ x, x ≤ g x) (l : List K) :
    ((round f g l).IsChain fun x y => y ≤ f x) ∧ (round f g l).IsChain fun x y => x ≤ g y := by
  refine ⟨sweep_chain _, ?_⟩
  have hback : (sweep g l.reverse).reverse.IsChain fun x y => x ≤ g y :=
    List.isChain_reverse.mpr (sweep_chain l.reverse)
  unfold round
  generalize (sweep g l.reverse).reverse = back at *
  cases back with
  | nil => exact .nil
  | cons x back =>
    rw [sweep_cons]
    exact sweepFrom_keeps hf hg hback _

/-- **After two rounds both relations hold all the way around.** -/
theorem onRing_round (hf : ∀ x, x ≤ f x) (hg : ∀ x, x ≤ g x) (l : List K) :
    OnRing (fun x y => y ≤ f x) (round f g (round f g l)) ∧
      OnRing (fun x y => x ≤ g y) (round f g (round f g l)) := by
  obtain ⟨hforward, hbackward⟩ := chain_round hf hg l
  generalize round f g l = once at *
  have hback : OnRing (fun x y => x ≤ g y) (sweep g once.reverse).reverse :=
    onRing_reverse.mpr (onRing_sweep hg (List.isChain_reverse.mpr hbackward))
  have hkept : (sweep g once.reverse).reverse.IsChain fun x y => y ≤ f x := by
    rw [List.isChain_reverse]
    have hreversed : once.reverse.IsChain fun x y => x ≤ f y := List.isChain_reverse.mpr hforward
    generalize once.reverse = reversed at *
    cases reversed with
    | nil => exact .nil
    | cons x reversed =>
      rw [sweep_cons]
      exact sweepFrom_keeps hg hf hreversed _
  exact ⟨onRing_sweep hf hkept, hback.swept hf hg⟩

theorem le_round {l w : List K} (hle : w.Forall₂ (· ≤ ·) l) (hforward : OnRing (fun x y => y ≤ f x) w)
    (hbackward : OnRing (fun x y => x ≤ g y) w) (hf : ∀ x ∈ w, ∀ y, x ≤ y → f x ≤ f y)
    (hg : ∀ x ∈ w, ∀ y, x ≤ y → g x ≤ g y) : w.Forall₂ (· ≤ ·) (round f g l) := by
  refine le_sweep ?_ hforward hf
  rw [← List.forall₂_reverse_iff, List.reverse_reverse]
  exact le_sweep (List.forall₂_reverse_iff.mpr hle) (onRing_reverse.mpr hbackward) fun x hx =>
    hg x (List.mem_reverse.mp hx)

theorem round_eq {l : List K} (hforward : OnRing (fun x y => y ≤ f x) l)
    (hbackward : OnRing (fun x y => x ≤ g y) l) : round f g l = l := by
  unfold round
  rw [(onRing_reverse.mpr hbackward).sweep_eq, List.reverse_reverse, hforward.sweep_eq]

end Rounds

end TelemetryCloud.RingSweep
