import TelemetryCloud.OptimalLap
import Mathlib.Algebra.Order.BigOperators.Group.List
import Mathlib.Data.List.Perm.Basic
import Mathlib.Data.Prod.Lex

/-!
# The best of every sector

`pickBestSectors` over any ordered field of times and any order of lap numbers, a split being a number
that may not be finite (`none`).

* `pickBestSectors_eq_some` : a plan is that of the winners, and there is one when two laps are
  eligible;
* `Wins.unique`, `pickBestSectors_congr` : **the winners decide the plan**, and only one lap wins a
  sector;
* `pickBestSectors_meets` : **the specification**, with what follows of the order of the laps, of
  ineligible laps, and of laps that come and go;
* `pickBestSectors_ofRow` : the plan of the laps that the table `laps` holds is such a plan.
-/

namespace TelemetryCloud.BestSectors

structure SectoredLap (N K : Type) where
  lapNumber : N
  distanceM : K
  sectorMs : List (Option K)
  deriving DecidableEq

structure BestSector (N K : Type) where
  sector : ℕ
  lapNumber : N
  sectorMs : K
  deriving DecidableEq

@[ext] structure OptimalLapCore (N K : Type) where
  lapMs : K
  distanceM : K
  sectors : List (BestSector N K)
  matchesLapNumber : Option N
  deriving DecidableEq

section Defs

variable {N K : Type} [LinearOrder N] [Field K] [LinearOrder K]

/-- A complete set of splits, each finite and greater than zero. -/
def eligible (sectorCount : ℕ) (lap : SectoredLap N K) : Bool :=
  lap.sectorMs.length = sectorCount ∧ lap.sectorMs.all (·.any (0 < ·))

/-- A split, which an eligible lap has for every sector. -/
def SectoredLap.split (lap : SectoredLap N K) (i : ℕ) : K := (lap.sectorMs.getD i none).getD 0

/-- Faster in a sector, or as fast with a lower number. -/
def better (i : ℕ) (lap winner : SectoredLap N K) : Prop :=
  lap.split i < winner.split i ∨ (lap.split i = winner.split i ∧ lap.lapNumber < winner.lapNumber)

instance (i : ℕ) (lap winner : SectoredLap N K) : Decidable (better i lap winner) :=
  inferInstanceAs (Decidable (_ ∨ _))

/-- The winner of a sector, from `first` on. -/
def winnerOf (i : ℕ) (first : SectoredLap N K) (laps : List (SectoredLap N K)) : SectoredLap N K :=
  laps.foldl (fun winner lap => if better i lap winner then lap else winner) first

/-- The number of the lap all sectors are of. -/
def matching : List (BestSector N K) → Option N
  | [] => none
  | sector :: others =>
    if others.all (·.lapNumber = sector.lapNumber) then some sector.lapNumber else none

def pickBestSectors (laps : List (SectoredLap N K)) (sectorCount : ℕ) :
    Option (OptimalLapCore N K) :=
  match laps.filter (eligible sectorCount) with
  | first :: second :: rest =>
    let sectors := (List.range sectorCount).map fun i =>
      let winner := winnerOf i first (first :: second :: rest)
      (⟨i, winner.lapNumber, winner.split i⟩ : BestSector N K)
    some {
      lapMs := (sectors.map BestSector.sectorMs).sum
      distanceM := (sectors.map fun sector =>
        ((first :: second :: rest).find? (·.lapNumber = sector.lapNumber)).elim (0 : K)
          fun lap => lap.distanceM / sectorCount).sum
      sectors
      matchesLapNumber := matching sectors }
  | _ => none

end Defs

/-! ### Winners -/

section Winners

variable {N K : Type} [LinearOrder N] [Field K] [LinearOrder K] {laps laps' : List (SectoredLap N K)}
  {sectorCount i : ℕ} {a b : SectoredLap N K}

/-- The eligible lap that is least in the order of split and number. -/
def Wins (laps : List (SectoredLap N K)) (sectorCount i : ℕ) (winner : SectoredLap N K) : Prop :=
  winner ∈ laps ∧ eligible sectorCount winner = true ∧
    ∀ lap ∈ laps, eligible sectorCount lap = true → lap ≠ winner → better i winner lap

/-- The place of a lap in the order of split and number. -/
def place (i : ℕ) (lap : SectoredLap N K) : K ×ₗ N := toLex (lap.split i, lap.lapNumber)

theorem better_iff : better i a b ↔ place i a < place i b := by
  unfold place
  rw [Prod.Lex.toLex_lt_toLex]
  exact Iff.rfl

omit [LinearOrder N] [LinearOrder K] in
theorem place_ne (hnumber : a.lapNumber ≠ b.lapNumber) : place i a ≠ place i b :=
  fun h => hnumber (congrArg (fun place => (ofLex place).2) h)

/-- **One lap wins a sector.** -/
theorem Wins.unique (ha : Wins laps sectorCount i a) (hb : Wins laps sectorCount i b) : a = b := by
  by_contra hne
  have hab := better_iff.mp (ha.2.2 b hb.1 hb.2.1 (Ne.symm hne))
  have hba := better_iff.mp (hb.2.2 a ha.1 ha.2.1 hne)
  exact lt_asymm hab hba

/-- Which laps win depends on the eligible laps alone. -/
theorem Wins.congr (h : ∀ lap, eligible sectorCount lap = true → (lap ∈ laps ↔ lap ∈ laps'))
    (ha : Wins laps sectorCount i a) : Wins laps' sectorCount i a := by
  obtain ⟨hmem, heligible, hbest⟩ := ha
  exact ⟨(h a heligible).mp hmem, heligible, fun lap hlap hcomplete =>
    hbest lap ((h lap hcomplete).mpr hlap) hcomplete⟩

/-- **The fold** ends at a lap that no other beats. -/
theorem winnerOf_spec (i : ℕ) (first : SectoredLap N K) (laps : List (SectoredLap N K)) :
    (winnerOf i first laps = first ∨ winnerOf i first laps ∈ laps) ∧
      place i (winnerOf i first laps) ≤ place i first ∧
      ∀ lap ∈ laps, place i (winnerOf i first laps) ≤ place i lap := by
  induction laps generalizing first with
  | nil => exact ⟨Or.inl rfl, le_refl (place i first), fun lap h => absurd h List.not_mem_nil⟩
  | cons lap laps ih =>
    rw [winnerOf, List.foldl_cons, ← winnerOf]
    split
    · next hbetter =>
      -- `lap` takes over
      obtain ⟨hmem, hlap, hall⟩ := ih lap
      refine ⟨Or.inr ?_, hlap.trans (better_iff.mp hbetter).le, ?_⟩
      · rcases hmem with hmem | hmem
        · rw [hmem]
          exact List.mem_cons_self
        · exact List.mem_cons_of_mem _ hmem
      · intro other hother
        rcases List.mem_cons.mp hother with rfl | hother
        · exact hlap
        · exact hall other hother
    · next hbetter =>
      obtain ⟨hmem, hfirst, hall⟩ := ih first
      refine ⟨hmem.imp_right (List.mem_cons_of_mem _), hfirst, ?_⟩
      intro other hother
      rcases List.mem_cons.mp hother with rfl | hother
      · exact hfirst.trans (not_lt.mp (mt better_iff.mpr hbetter))
      · exact hall other hother

/-- Laps with different numbers have a winner in every sector. -/
theorem wins_winnerOf (hnumbers : (laps.map (·.lapNumber)).Nodup) {first : SectoredLap N K}
    {rest : List (SectoredLap N K)} (hfilter : laps.filter (eligible sectorCount) = first :: rest)
    (i : ℕ) : Wins laps sectorCount i (winnerOf i first (first :: rest)) := by
  obtain ⟨hmem, -, hall⟩ := winnerOf_spec i first (first :: rest)
  have hmem : winnerOf i first (first :: rest) ∈ laps.filter (eligible sectorCount) := by
    rw [hfilter]
    rcases hmem with hmem | hmem
    · rw [hmem]
      exact List.mem_cons_self
    · exact hmem
  obtain ⟨hlaps, heligible⟩ := List.mem_filter.mp hmem
  refine ⟨hlaps, heligible, fun lap hlap hcomplete hne => better_iff.mpr ?_⟩
  have hle := hall lap (hfilter ▸ List.mem_filter.mpr ⟨hlap, hcomplete⟩)
  refine lt_of_le_of_ne hle (place_ne fun hnumber => hne ?_)
  exact (List.inj_on_of_nodup_map hnumbers hlaps hlap hnumber).symm

end Winners

/-! ### Plans -/

section Plans

variable {N K : Type} [LinearOrder N] [Field K] [LinearOrder K] {laps laps' : List (SectoredLap N K)}
  {sectorCount : ℕ} {core core' : OptimalLapCore N K}

/-- The plan of the winners of the sectors. -/
def planOf (winner : ℕ → SectoredLap N K) (sectorCount : ℕ) : OptimalLapCore N K where
  lapMs := ((List.range sectorCount).map fun i => (winner i).split i).sum
  distanceM := ((List.range sectorCount).map fun i => (winner i).distanceM / sectorCount).sum
  sectors := (List.range sectorCount).map fun i => ⟨i, (winner i).lapNumber, (winner i).split i⟩
  matchesLapNumber := matching
    ((List.range sectorCount).map fun i => ⟨i, (winner i).lapNumber, (winner i).split i⟩)

/-- **A plan is that of the winners.** -/
theorem pickBestSectors_eq_some (hnumbers : (laps.map (·.lapNumber)).Nodup)
    (h : pickBestSectors laps sectorCount = some core) :
    ∃ winner : ℕ → SectoredLap N K, (∀ i, Wins laps sectorCount i (winner i)) ∧
      core = planOf winner sectorCount := by
  unfold pickBestSectors at h
  split at h
  · next first second rest hfilter =>
    cases h
    have hwins := wins_winnerOf hnumbers hfilter
    have hdistance : ∀ i, (((first :: second :: rest).find?
        (·.lapNumber = (winnerOf i first (first :: second :: rest)).lapNumber)).elim (0 : K)
        fun lap => lap.distanceM / sectorCount)
          = (winnerOf i first (first :: second :: rest)).distanceM / sectorCount := by
      intro i
      have hmem : winnerOf i first (first :: second :: rest) ∈ first :: second :: rest := by
        rw [← hfilter]
        exact List.mem_filter.mpr ⟨hfilter ▸ (hwins i).1, hfilter ▸ (hwins i).2.1⟩
      have hkeys : ((first :: second :: rest).map (·.lapNumber)).Nodup := by
        rw [← hfilter]
        exact hnumbers.sublist (List.filter_sublist.map _)
      rw [(Lists.find?_key_iff hkeys).mpr ⟨hmem, rfl⟩]
      rfl
    refine ⟨fun i => winnerOf i first (first :: second :: rest), hwins, ?_⟩
    unfold planOf
    simp only [List.map_map, Function.comp_def, hdistance]
  · cases h

theorem pickBestSectors_isSome_iff :
    (pickBestSectors laps sectorCount).isSome ↔ 2 ≤ laps.countP (eligible sectorCount) := by
  rw [List.countP_eq_length_filter]
  unfold pickBestSectors
  match laps.filter (eligible sectorCount) with
  | [] => simp
  | [_] => simp
  | _ :: _ :: _ => simp

/-- **The winners decide the plan.** -/
theorem pickBestSectors_congr (hnumbers : (laps.map (·.lapNumber)).Nodup)
    (hnumbers' : (laps'.map (·.lapNumber)).Nodup) (htwo : 2 ≤ laps.countP (eligible sectorCount))
    (htwo' : 2 ≤ laps'.countP (eligible sectorCount))
    (hwins : ∀ i < sectorCount, ∀ lap, Wins laps sectorCount i lap → Wins laps' sectorCount i lap) :
    pickBestSectors laps sectorCount = pickBestSectors laps' sectorCount := by
  obtain ⟨core, hcore⟩ := Option.isSome_iff_exists.mp (pickBestSectors_isSome_iff.mpr htwo)
  obtain ⟨core', hcore'⟩ := Option.isSome_iff_exists.mp (pickBestSectors_isSome_iff.mpr htwo')
  obtain ⟨winner, hwinner, rfl⟩ := pickBestSectors_eq_some hnumbers hcore
  obtain ⟨winner', hwinner', rfl⟩ := pickBestSectors_eq_some hnumbers' hcore'
  have hsame : ∀ i ∈ List.range sectorCount, winner i = winner' i := fun i hi =>
    (hwins i (List.mem_range.mp hi) _ (hwinner i)).unique (hwinner' i)
  have hsectors : (List.range sectorCount).map (fun i =>
      (⟨i, (winner i).lapNumber, (winner i).split i⟩ : BestSector N K)) =
      (List.range sectorCount).map fun i => ⟨i, (winner' i).lapNumber, (winner' i).split i⟩ :=
    List.map_congr_left fun i hi => by rw [hsame i hi]
  have hsplits : (List.range sectorCount).map (fun i => (winner i).split i) =
      (List.range sectorCount).map fun i => (winner' i).split i :=
    List.map_congr_left fun i hi => by rw [hsame i hi]
  have hdistances : (List.range sectorCount).map (fun i => (winner i).distanceM / sectorCount) =
      (List.range sectorCount).map fun i => (winner' i).distanceM / sectorCount :=
    List.map_congr_left fun i hi => by rw [hsame i hi]
  rw [hcore, hcore']
  unfold planOf
  rw [hsectors, hsplits, hdistances]

theorem pickBestSectors_eq_none_iff :
    pickBestSectors laps sectorCount = none ↔ laps.countP (eligible sectorCount) < 2 := by
  rw [← not_le, ← pickBestSectors_isSome_iff, Option.not_isSome_iff_eq_none]

/-- The order of the laps does not matter. -/
theorem pickBestSectors_perm (hnumbers : (laps.map (·.lapNumber)).Nodup) (hperm : laps.Perm laps') :
    pickBestSectors laps' sectorCount = pickBestSectors laps sectorCount := by
  have hcount := hperm.countP_eq (eligible sectorCount)
  by_cases htwo : 2 ≤ laps.countP (eligible sectorCount)
  · exact pickBestSectors_congr ((hperm.map _).nodup hnumbers) hnumbers (hcount ▸ htwo) htwo
      fun i _ lap => Wins.congr fun lap _ => hperm.mem_iff.symm
  · rw [pickBestSectors_eq_none_iff.mpr (not_le.mp htwo),
      pickBestSectors_eq_none_iff.mpr (hcount ▸ not_le.mp htwo)]

/-- Ineligible laps do not matter. -/
theorem pickBestSectors_filter (laps : List (SectoredLap N K)) (sectorCount : ℕ) :
    pickBestSectors (laps.filter (eligible sectorCount)) sectorCount
      = pickBestSectors laps sectorCount := by
  unfold pickBestSectors
  simp only [List.filter_filter, Bool.and_self]

omit [Field K] [LinearOrder K] in
theorem matching_iff {sectors : List (BestSector N K)} {n : N} :
    matching sectors = some n ↔ sectors ≠ [] ∧ ∀ sector ∈ sectors, sector.lapNumber = n := by
  cases sectors with
  | nil => exact iff_of_false (fun h => nomatch h) fun h => h.1 rfl
  | cons sector others =>
    exact Lists.ite_all_key_iff.trans (and_iff_right (List.cons_ne_nil sector others)).symm

/-- The plan of some winners matches a lap exactly when that lap wins every sector. -/
theorem matches_planOf_iff (hnumbers : (laps.map (·.lapNumber)).Nodup) (hcount : 1 ≤ sectorCount)
    {winner : ℕ → SectoredLap N K} (hwinner : ∀ i, Wins laps sectorCount i (winner i)) {n : N} :
    (planOf winner sectorCount).matchesLapNumber = some n ↔
      ∃ lap, lap.lapNumber = n ∧ ∀ i < sectorCount, Wins laps sectorCount i lap := by
  unfold planOf
  rw [matching_iff]
  constructor
  · rintro ⟨-, hall⟩
    have hnumber : ∀ i < sectorCount, (winner i).lapNumber = n := fun i hi =>
      hall _ (List.mem_map_of_mem (List.mem_range.mpr hi))
    refine ⟨winner 0, hnumber 0 hcount, fun i hi => ?_⟩
    have hsame : winner i = winner 0 := List.inj_on_of_nodup_map hnumbers (hwinner i).1
      (hwinner 0).1 ((hnumber i hi).trans (hnumber 0 hcount).symm)
    exact hsame ▸ hwinner i
  · rintro ⟨lap, rfl, hwins⟩
    refine ⟨fun hnil => ?_, fun sector hsector => ?_⟩
    · have hlength := congrArg List.length hnil
      rw [List.length_map, List.length_range, List.length_nil] at hlength
      omega
    · obtain ⟨i, hi, rfl⟩ := List.mem_map.mp hsector
      exact congrArg (·.lapNumber) ((hwinner i).unique (hwins i (List.mem_range.mp hi)))

/-- The winner of a larger set of laps is no slower. -/
theorem Wins.split_le {i : ℕ} {a b : SectoredLap N K} (hsub : laps ⊆ laps')
    (ha : Wins laps sectorCount i a) (hb : Wins laps' sectorCount i b) : b.split i ≤ a.split i := by
  by_cases hab : a = b
  · rw [hab]
  · rcases hb.2.2 a (hsub ha.1) ha.2.1 hab with h | ⟨h, -⟩
    · exact h.le
    · exact h.le

end Plans

section Specification

variable {N K : Type} [LinearOrder N] [Field K] [LinearOrder K] [IsStrictOrderedRing K]

/-- **The specification**: what a plan is and when there is one; that neither the order of the laps nor
an ineligible lap changes it; that one more eligible lap makes it no slower; and that a lap which won
no sector can go. -/
theorem pickBestSectors_meets (laps : List (SectoredLap N K))
    (hnumbers : (laps.map (·.lapNumber)).Nodup) {sectorCount : ℕ} (hcount : 1 ≤ sectorCount) :
    (pickBestSectors laps sectorCount = none ↔ laps.countP (eligible sectorCount) < 2) ∧
    (∀ core, pickBestSectors laps sectorCount = some core →
      ∃ winner : ℕ → SectoredLap N K, (∀ i, Wins laps sectorCount i (winner i)) ∧
        core = planOf winner sectorCount ∧
        ∀ n, core.matchesLapNumber = some n ↔
          ∃ lap, lap.lapNumber = n ∧ ∀ i < sectorCount, Wins laps sectorCount i lap) ∧
    (∀ laps', laps.Perm laps' →
      pickBestSectors laps' sectorCount = pickBestSectors laps sectorCount) ∧
    (∀ laps' lap, eligible sectorCount lap = false → laps'.Perm (lap :: laps) →
      pickBestSectors laps' sectorCount = pickBestSectors laps sectorCount) ∧
    (∀ laps' lap, eligible sectorCount lap = true → laps'.Perm (lap :: laps) →
      (laps'.map (·.lapNumber)).Nodup → ∀ core, pickBestSectors laps sectorCount = some core →
      ∃ core', pickBestSectors laps' sectorCount = some core' ∧ core'.lapMs ≤ core.lapMs) ∧
    (∀ rest lap, laps.Perm (lap :: rest) → (∀ i < sectorCount, ¬ Wins laps sectorCount i lap) →
      2 ≤ rest.countP (eligible sectorCount) →
      pickBestSectors rest sectorCount = pickBestSectors laps sectorCount) := by
  refine ⟨pickBestSectors_eq_none_iff, ?_, ?_, ?_, ?_, ?_⟩
  · intro core hcore
    obtain ⟨winner, hwinner, rfl⟩ := pickBestSectors_eq_some hnumbers hcore
    exact ⟨winner, hwinner, rfl, fun n => matches_planOf_iff hnumbers hcount hwinner⟩
  · exact fun laps' hperm => pickBestSectors_perm hnumbers hperm
  · intro laps' lap hineligible hperm
    have hfilter : (laps.filter (eligible sectorCount)).Perm
        (laps'.filter (eligible sectorCount)) := by
      have hcons := hperm.filter (eligible sectorCount)
      rw [List.filter_cons_of_neg (by simp [hineligible])] at hcons
      exact hcons.symm
    rw [← pickBestSectors_filter laps', ← pickBestSectors_filter laps]
    exact pickBestSectors_perm (hnumbers.sublist (List.filter_sublist.map _)) hfilter
  · intro laps' lap heligible hperm hnumbers' core hcore
    have htwo := pickBestSectors_isSome_iff.mp (Option.isSome_iff_exists.mpr ⟨core, hcore⟩)
    have htwo' : 2 ≤ laps'.countP (eligible sectorCount) := by
      rw [hperm.countP_eq, List.countP_cons]
      omega
    obtain ⟨core', hcore'⟩ := Option.isSome_iff_exists.mp (pickBestSectors_isSome_iff.mpr htwo')
    obtain ⟨winner, hwinner, rfl⟩ := pickBestSectors_eq_some hnumbers hcore
    obtain ⟨winner', hwinner', rfl⟩ := pickBestSectors_eq_some hnumbers' hcore'
    refine ⟨_, hcore', List.sum_le_sum fun i _ => ?_⟩
    exact (hwinner i).split_le (fun lap hlap => hperm.mem_iff.mpr (List.mem_cons_of_mem _ hlap))
      (hwinner' i)
  · intro rest lap hperm hloses htwo
    have hnumbersRest : (rest.map (·.lapNumber)).Nodup :=
      (List.nodup_cons.mp ((hperm.map _).nodup hnumbers)).2
    have htwoLaps : 2 ≤ laps.countP (eligible sectorCount) := by
      rw [hperm.countP_eq, List.countP_cons]
      omega
    refine (pickBestSectors_congr hnumbers hnumbersRest htwoLaps htwo ?_).symm
    intro i hi winner hwins
    have hne : winner ≠ lap := fun h => hloses i hi (h ▸ hwins)
    refine ⟨?_, hwins.2.1, fun other hother hcomplete => ?_⟩
    · exact List.mem_of_ne_of_mem hne (hperm.mem_iff.mp hwins.1)
    · exact hwins.2.2 other (hperm.mem_iff.mpr (List.mem_cons_of_mem _ hother)) hcomplete

/-- Three laps of two sectors: the first and the third take a sector each, the tie in the first one
going to the lower number, and the second misses a split. -/
def threeLaps : List (SectoredLap ℕ ℚ) :=
  [⟨7, 3000, [some 31, some 40]⟩, ⟨4, 3010, [some 30, none]⟩, ⟨5, 2990, [some 31, some 44]⟩]

theorem pickBestSectors_meets_threeLaps :
    (threeLaps.map (·.lapNumber)).Nodup ∧
    (pickBestSectors threeLaps 2).map (fun core => (core.lapMs, core.sectors.map (·.lapNumber)))
      = some (71, [5, 7]) ∧
    (pickBestSectors threeLaps 2 = none ↔ threeLaps.countP (eligible 2) < 2) :=
  ⟨by decide +kernel, by decide +kernel,
    (pickBestSectors_meets threeLaps (by decide +kernel) (by decide)).1⟩

end Specification

/-! ### The laps of the table -/

section Rows

variable {K : Type} [Field K]

/-- A lap of the table, whose splits are whole milliseconds. -/
def ofRow (K : Type) [Field K] (lap : OptimalLap.SectoredLap) : SectoredLap ℕ K :=
  ⟨lap.lapNumber, lap.distanceM, lap.sectorMs.map fun ms : ℤ => some (ms : K)⟩

theorem split_ofRow (lap : OptimalLap.SectoredLap) (i : ℕ) :
    (ofRow K lap).split i = ((lap.sectorMs.getD i 0 : ℤ) : K) := by
  unfold SectoredLap.split ofRow
  rcases lt_or_ge i lap.sectorMs.length with hi | hi
  · simp [List.getD_eq_getElem?_getD, List.getElem?_eq_getElem hi]
  · simp [List.getD_eq_getElem?_getD, List.getElem?_eq_none hi]

/-- A sector of the table's plan. -/
def ofSector (K : Type) [Field K] (sector : OptimalLap.BestSector) : BestSector ℕ K :=
  ⟨sector.sector, sector.lapNumber, (sector.sectorMs : K)⟩

theorem sum_ofSector (sectors : List OptimalLap.BestSector) :
    ((sectors.map (ofSector K)).map BestSector.sectorMs).sum =
      ((sectors.map OptimalLap.BestSector.sectorMs).sum : ℤ) := by
  induction sectors with
  | nil => exact Int.cast_zero.symm
  | cons sector sectors ih =>
    rw [List.map_cons, List.map_cons, List.map_cons, List.sum_cons, List.sum_cons, ih,
      Int.cast_add]
    rfl

theorem share_ofRow (laps : List OptimalLap.SectoredLap) (n sectorCount : ℕ) :
    ((laps.map (ofRow K)).find? (·.lapNumber = n)).elim (0 : K)
        (fun lap => lap.distanceM / sectorCount) =
      (laps.find? (·.lapNumber = n)).elim 0 fun lap => (lap.distanceM : K) / sectorCount := by
  rw [List.find?_map]
  show ((laps.find? (·.lapNumber = n)).map (ofRow K)).elim _ _ = _
  cases laps.find? (·.lapNumber = n) with
  | none => rfl
  | some lap => rfl

theorem matching_ofSector (sectors : List OptimalLap.BestSector) :
    matching (sectors.map (ofSector K)) = match sectors with
      | [] => none
      | sector :: others =>
        if others.all (·.lapNumber = sector.lapNumber) then some sector.lapNumber else none := by
  cases sectors with
  | nil => rfl
  | cons sector others =>
    unfold matching
    rw [List.map_cons]
    simp only [List.all_map]
    rfl

variable [LinearOrder K] [IsStrictOrderedRing K]

theorem eligible_ofRow (sectorCount : ℕ) (lap : OptimalLap.SectoredLap) :
    eligible sectorCount (ofRow K lap) = OptimalLap.eligible sectorCount lap := by
  unfold eligible OptimalLap.eligible ofRow
  simp [List.all_map, Function.comp_def]

theorem winnerOf_ofRow (i : ℕ) (first : OptimalLap.SectoredLap)
    (laps : List OptimalLap.SectoredLap) :
    winnerOf i (ofRow K first) (laps.map (ofRow K))
      = ofRow K (OptimalLap.bestInSector i first laps) := by
  induction laps generalizing first with
  | nil => rfl
  | cons lap laps ih =>
    have hbetter : better i (ofRow K lap) (ofRow K first) ↔
        lap.sectorMs.getD i 0 < first.sectorMs.getD i 0 ∨
          (lap.sectorMs.getD i 0 = first.sectorMs.getD i 0 ∧ lap.lapNumber < first.lapNumber) := by
      unfold better
      rw [split_ofRow, split_ofRow, Int.cast_lt, Int.cast_inj]
      exact Iff.rfl
    rw [List.map_cons, winnerOf, OptimalLap.bestInSector, List.foldl_cons, List.foldl_cons,
      ← winnerOf, ← OptimalLap.bestInSector]
    by_cases h : lap.sectorMs.getD i 0 < first.sectorMs.getD i 0 ∨
        (lap.sectorMs.getD i 0 = first.sectorMs.getD i 0 ∧ lap.lapNumber < first.lapNumber)
    · rw [if_pos (hbetter.mpr h), if_pos h, ih]
    · rw [if_neg (mt hbetter.mp h), if_neg h, ih]

/-- **The plan of the laps of the table**, its times read as numbers, is that of their rows. -/
theorem pickBestSectors_ofRow (laps : List OptimalLap.SectoredLap) (sectorCount : ℕ) :
    pickBestSectors (laps.map (ofRow K)) sectorCount =
      (OptimalLap.pickBestSectors laps sectorCount).map fun core =>
        { lapMs := (core.lapMs : K)
          distanceM := core.distanceM
          sectors := core.sectors.map (ofSector K)
          matchesLapNumber := core.matchesLapNumber } := by
  unfold pickBestSectors OptimalLap.pickBestSectors
  have hfilter : (laps.map (ofRow K)).filter (eligible sectorCount) =
      (laps.filter (OptimalLap.eligible sectorCount)).map (ofRow K) := by
    rw [List.filter_map]
    exact congrArg _ (List.filter_congr fun lap _ => eligible_ofRow sectorCount lap)
  rw [hfilter]
  rcases laps.filter (OptimalLap.eligible sectorCount) with _ | ⟨first, _ | ⟨second, rest⟩⟩
  · rfl
  · rfl
  · have hsectors : ((List.range sectorCount).map fun i =>
        let winner := winnerOf i (ofRow K first) ((first :: second :: rest).map (ofRow K))
        (⟨i, winner.lapNumber, winner.split i⟩ : BestSector ℕ K)) =
        (((List.range sectorCount).map fun i =>
          (i, OptimalLap.bestInSector i first (first :: second :: rest))).map fun entry =>
            (⟨entry.1, entry.2.lapNumber, entry.2.sectorMs.getD entry.1 0⟩ : OptimalLap.BestSector)).map
              (ofSector K) := by
      rw [List.map_map, List.map_map]
      refine List.map_congr_left fun i _ => ?_
      simp only [winnerOf_ofRow, split_ofRow]
      rfl
    refine congrArg some (OptimalLapCore.ext ?_ ?_ hsectors ?_)
    · show (List.map BestSector.sectorMs _).sum = _
      rw [← List.map_cons, ← List.map_cons, hsectors]
      exact sum_ofSector _
    · show (List.map _ _).sum = _
      rw [← List.map_cons, ← List.map_cons, hsectors, List.map_map]
      exact congrArg List.sum (List.map_congr_left fun sector _ => share_ofRow _ _ _)
    · show matching _ = _
      rw [← List.map_cons, ← List.map_cons, hsectors]
      exact matching_ofSector _

end Rows

end TelemetryCloud.BestSectors
