import TelemetryCloud.LapMarkers

/-!
# The optimal lap of a set of laps

`optimal-lap-core.ts` and the plan of `optimal-lap.ts`: the best time of every sector among the laps
with a full set of splits, and the braking points of the laps that set them.

* `pickBestSectors_isSome` : there is an optimal lap when two laps are eligible;
* `bestInSector_precedes` : the winner of a sector is no slower there than any eligible lap.
-/

namespace TelemetryCloud.OptimalLap

open TelemetryCloud.Geometry LapMarkers

structure SectoredLap where
  lapNumber : ℕ
  lapMs : ℤ
  distanceM : ℤ
  sectorMs : List ℤ
  deriving DecidableEq

/-- A lap as the optimal lap reads one; a `Lap` row is one with more columns. -/
structure OptimalLapInput (K : Type) extends SectoredLap where
  brakingPoints : List (BrakingPoint K)

structure BestSector where
  sector : ℕ
  lapNumber : ℕ
  sectorMs : ℤ
  deriving DecidableEq

structure OptimalLapCore (K : Type) where
  lapMs : ℤ
  distanceM : K
  sectors : List BestSector
  matchesLapNumber : Option ℕ

/-- The plan of an optimal lap; no trace has been read yet, so it has no seams. -/
structure OptimalLapDto (K : Type) extends OptimalLapCore K where
  brakingPoints : List (BrakingPoint K)

/-- A complete, valid set of splits. -/
def eligible (sectorCount : ℕ) (lap : SectoredLap) : Bool :=
  lap.sectorMs.length = sectorCount ∧ lap.sectorMs.all (0 < ·)

/-- The eligible lap that is fastest in a sector, the lower number first. -/
def bestInSector (i : ℕ) (first : SectoredLap) (laps : List SectoredLap) : SectoredLap :=
  laps.foldl (fun winner lap =>
    if lap.sectorMs.getD i 0 < winner.sectorMs.getD i 0 ∨
        (lap.sectorMs.getD i 0 = winner.sectorMs.getD i 0 ∧ lap.lapNumber < winner.lapNumber)
    then lap else winner) first

section Core

variable {K : Type} [Field K] [LinearOrder K] [FloorRing K]

/-- `pickBestSectors`. -/
def pickBestSectors (laps : List SectoredLap) (sectorCount : ℕ := DEFAULT_SECTOR_COUNT) :
    Option (OptimalLapCore K) :=
  match laps.filter (eligible sectorCount) with
  | first :: second :: rest =>
    let winners := (List.range sectorCount).map fun i =>
      (i, bestInSector i first (first :: second :: rest))
    let sectors := winners.map fun (i, winner) =>
      (⟨i, winner.lapNumber, winner.sectorMs.getD i 0⟩ : BestSector)
    some {
      lapMs := (sectors.map BestSector.sectorMs).sum
      distanceM := (sectors.map fun sector =>
        ((first :: second :: rest).find? (·.lapNumber = sector.lapNumber)).elim (0 : K)
          fun lap => (lap.distanceM : K) / sectorCount).sum
      sectors
      matchesLapNumber := match sectors with
        | [] => none
        | sector :: others =>
          if others.all (·.lapNumber = sector.lapNumber) then some sector.lapNumber else none }
  | _ => none

/-- The braking points of a sector's winner that lie in the sector, on the stitched axis. -/
def sectorBrakingPoints (lap : OptimalLapInput K) (sector sectorCount : ℕ) (cumulativeM : K) :
    List (BrakingPoint K) :=
  let step : K := (lap.distanceM : K) / sectorCount
  let fromM := step * (sector : K)
  let toM := step * ((sector + 1 : ℕ) : K)
  (lap.brakingPoints.filter fun bp =>
      fromM ≤ bp.distM ∧ if sector + 1 = sectorCount then bp.distM ≤ toM else bp.distM < toM).map
    fun bp => { bp with distM := roundTo (cumulativeM + (bp.distM - fromM)) 1 }

/-- `buildOptimalLap`; of two laps with one number the map keeps the last. -/
def buildOptimalLap (laps : List (OptimalLapInput K)) : Option (OptimalLapDto K) :=
  (pickBestSectors (laps.map (·.toSectoredLap))).map fun core =>
    let sectorCount := core.sectors.length
    let rebased := core.sectors.foldl (fun (acc : List (BrakingPoint K) × K) sector =>
        match laps.reverse.find? (·.lapNumber = sector.lapNumber) with
        | none => acc
        | some lap =>
          (acc.1 ++ sectorBrakingPoints lap sector.sector sectorCount acc.2,
            acc.2 + (lap.distanceM : K) / sectorCount))
      ([], 0)
    { core with brakingPoints := rebased.1 }

omit [LinearOrder K] [FloorRing K] in
/-- **There is an optimal lap exactly when two laps are eligible.** -/
theorem pickBestSectors_isSome (laps : List SectoredLap) (sectorCount : ℕ) :
    (pickBestSectors (K := K) laps sectorCount).isSome ↔
      2 ≤ (laps.filter (eligible sectorCount)).length := by
  unfold pickBestSectors
  match laps.filter (eligible sectorCount) with
  | [] => simp
  | [_] => simp
  | _ :: _ :: _ => simp

end Core

/-! ### The winner of a sector -/

/-- Quicker in a sector, or as quick with a number that is no higher. -/
def Precedes (i : ℕ) (a b : SectoredLap) : Prop :=
  a.sectorMs.getD i 0 < b.sectorMs.getD i 0 ∨
    (a.sectorMs.getD i 0 = b.sectorMs.getD i 0 ∧ a.lapNumber ≤ b.lapNumber)

/-- **The winner of a sector precedes every lap it was chosen from.** -/
theorem bestInSector_precedes (i : ℕ) (first : SectoredLap) (laps : List SectoredLap) :
    Precedes i (bestInSector i first laps) first ∧
      ∀ lap ∈ laps, Precedes i (bestInSector i first laps) lap := by
  unfold Precedes
  induction laps generalizing first with
  | nil => exact ⟨.inr ⟨rfl, le_rfl⟩, fun lap h => absurd h List.not_mem_nil⟩
  | cons lap laps ih =>
    rw [bestInSector, List.foldl_cons, ← bestInSector]
    split
    · rename_i h
      obtain ⟨hle, hall⟩ := ih lap
      refine ⟨by omega, fun other hother => ?_⟩
      rcases List.mem_cons.mp hother with rfl | hother
      · exact hle
      · exact hall other hother
    · rename_i h
      obtain ⟨hle, hall⟩ := ih first
      refine ⟨hle, fun other hother => ?_⟩
      rcases List.mem_cons.mp hother with rfl | hother
      · omega
      · exact hall other hother

theorem Precedes.le {i : ℕ} {a b : SectoredLap} (h : Precedes i a b) :
    a.sectorMs.getD i 0 ≤ b.sectorMs.getD i 0 := by
  rcases h with h | ⟨h, -⟩
  · exact h.le
  · exact h.le

end TelemetryCloud.OptimalLap
