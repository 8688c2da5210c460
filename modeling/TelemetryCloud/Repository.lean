import TelemetryCloud.Lists
import Mathlib.Data.List.Nodup

/-!
# Tables behind a repository

`AbstractRepository` over a table that is a list of rows: what each of its methods answers and what
it leaves in the table.  A `where` is a predicate on rows.

* `findOne`, `findOneAndUpdate`, `findOneAndDelete` : the methods;
* `mem_updateWhere`, `map_updateWhere` : the rows an update leaves;
* `countP_updateWhere`, `countP_deleteWhere` : how a count over a table with a key moves.
-/

namespace TelemetryCloud.Repository

/-- What a handler throws: an exception of the framework with its message, the driver's error with
the code `UNIQUE_VIOLATION`, or (`failed`) any other failure of a call. -/
inductive RequestError
  | notFound (message : String)
  | forbidden (message : String)
  | conflict (message : String)
  | uniqueViolation
  | failed
  deriving DecidableEq, Repr

/-- `AbstractRepository.asConflict`. -/
def asConflict (error : RequestError) (message : String) : RequestError :=
  if error = .uniqueViolation then .conflict message else error

variable {T : Type}

/-- `AbstractRepository.findOne`. -/
def findOne (rows : List T) (matching : T → Bool) : Except RequestError T :=
  match rows.find? matching with
  | some row => .ok row
  | none => .error (.notFound "Entity not found")

theorem findOne_eq_ok {rows : List T} {matching : T → Bool} {row : T}
    (h : findOne rows matching = .ok row) : row ∈ rows ∧ matching row = true := by
  unfold findOne at h
  split at h
  · rename_i found hfind
    cases h
    exact ⟨List.mem_of_find?_eq_some hfind, List.find?_some hfind⟩
  · cases h

/-- **A look-up by primary key** finds the one row with the key. -/
theorem findOne_key_iff {rows : List T} {key : T → ℕ} (hkey : (rows.map key).Nodup) {k : ℕ}
    {row : T} : findOne rows (key · = k) = .ok row ↔ row ∈ rows ∧ key row = k := by
  rw [← Lists.find?_key_iff hkey, findOne]
  cases rows.find? (key · = k) with
  | none => simp
  | some found => simp

/-- The `UPDATE … WHERE`. -/
def updateWhere (rows : List T) (matching : T → Bool) (set : T → T) : List T :=
  rows.map fun row => if matching row then set row else row

/-- `AbstractRepository.findOneAndUpdate`. -/
def findOneAndUpdate (rows : List T) (matching : T → Bool) (set : T → T) :
    List T × Except RequestError T :=
  if rows.any matching then
    let updated := updateWhere rows matching set
    (updated, findOne updated matching)
  else (rows, .error (.notFound "Entity not found"))

/-- The `DELETE … WHERE`. -/
def deleteWhere (rows : List T) (matching : T → Bool) : List T := rows.filter (!matching ·)

/-- `AbstractRepository.findOneAndDelete`. -/
def findOneAndDelete (rows : List T) (matching : T → Bool) : List T × Except RequestError Unit :=
  if rows.any matching then (deleteWhere rows matching, .ok ())
  else (rows, .error (.notFound "Entity not found"))

/-! ### What the methods leave in the table -/

/-- A row after an update: one it has written, or one it has left. -/
theorem mem_updateWhere {rows : List T} {matching : T → Bool} {set : T → T} {row : T}
    (h : row ∈ updateWhere rows matching set) :
    ∃ old ∈ rows, (matching old = true ∧ row = set old) ∨ (matching old = false ∧ row = old) := by
  obtain ⟨old, hold, rfl⟩ := List.mem_map.mp h
  refine ⟨old, hold, ?_⟩
  cases hm : matching old with
  | true => exact .inl ⟨rfl, rfl⟩
  | false => exact .inr ⟨rfl, rfl⟩

/-- A column an update does not set. -/
theorem map_updateWhere {α : Type} {f : T → α} {set : T → T} (hset : ∀ row, f (set row) = f row)
    (rows : List T) (matching : T → Bool) :
    (updateWhere rows matching set).map f = rows.map f := by
  rw [updateWhere, List.map_map]
  apply List.map_congr_left
  intro row _
  rw [Function.comp_apply]
  split
  · exact hset row
  · rfl

/-- A row inserted under an id that is new. -/
theorem nodup_map_concat {rows : List T} {id : T → ℕ} {row : T} (hids : (rows.map id).Nodup)
    (hnew : ∀ old ∈ rows, id old < id row) : ((rows ++ [row]).map id).Nodup := by
  rw [List.map_append, List.nodup_append]
  refine ⟨hids, List.nodup_singleton _, ?_⟩
  intro a ha b hb
  obtain ⟨old, hold, rfl⟩ := List.mem_map.mp ha
  rw [List.mem_singleton.mp hb]
  exact Nat.ne_of_lt (hnew old hold)

theorem updateWhere_eq_self {rows : List T} {matching : T → Bool}
    (h : ∀ row ∈ rows, matching row = false) (set : T → T) :
    updateWhere rows matching set = rows := by
  rw [updateWhere, List.map_congr_left (g := id), List.map_id]
  intro row hrow
  rw [if_neg (by rw [h row hrow]; exact Bool.false_ne_true), id]

theorem deleteWhere_eq_self {rows : List T} {matching : T → Bool}
    (h : ∀ row ∈ rows, matching row = false) : deleteWhere rows matching = rows := by
  rw [deleteWhere, List.filter_eq_self]
  intro row hrow
  rw [h row hrow]
  rfl

theorem findOneAndUpdate_rows (rows : List T) (matching : T → Bool) (set : T → T) :
    (findOneAndUpdate rows matching set).1 = updateWhere rows matching set := by
  unfold findOneAndUpdate
  split
  · rfl
  · rename_i hnone
    rw [Bool.not_eq_true, List.any_eq_false] at hnone
    exact (updateWhere_eq_self (fun row hrow => by simpa using hnone row hrow) set).symm

theorem findOneAndDelete_rows (rows : List T) (matching : T → Bool) :
    (findOneAndDelete rows matching).1 = deleteWhere rows matching := by
  unfold findOneAndDelete
  split
  · rfl
  · rename_i hnone
    rw [Bool.not_eq_true, List.any_eq_false] at hnone
    exact (deleteWhere_eq_self fun row hrow => by simpa using hnone row hrow).symm

section Keyed

variable {κ : Type} [DecidableEq κ] (key : T → κ)

/-- In a table with a primary key, an update by key moves a count by what it makes of the one row
there is. -/
theorem countP_updateWhere {rows : List T} (hkey : (rows.map key).Nodup) {row : T} (hrow : row ∈ rows)
    (set : T → T) (p : T → Bool) :
    (updateWhere rows (fun r => key r = key row) set).countP p + (p row).toNat =
      rows.countP p + (p (set row)).toNat := by
  induction rows with
  | nil => cases hrow
  | cons first rest ih =>
    rw [List.map_cons, List.nodup_cons] at hkey
    rcases List.mem_cons.mp hrow with rfl | hrest
    · have hother : ∀ r ∈ rest, decide (key r = key row) = false := fun r hr =>
        decide_eq_false fun heq => hkey.1 (heq ▸ List.mem_map_of_mem hr)
      have hupd : updateWhere (row :: rest) (fun r => key r = key row) set = set row :: rest := by
        rw [updateWhere, List.map_cons, ← updateWhere, updateWhere_eq_self hother]
        simp
      rw [hupd, List.countP_cons, List.countP_cons]
      cases p row <;> cases p (set row) <;> simp
    · have hne : key first ≠ key row := fun heq => hkey.1 (heq ▸ List.mem_map_of_mem hrest)
      have hupd : updateWhere (first :: rest) (fun r => key r = key row) set =
          first :: updateWhere rest (fun r => key r = key row) set := by
        simp [updateWhere, hne]
      have hih := ih hkey.2 hrest
      rw [hupd, List.countP_cons, List.countP_cons]
      omega

/-- A delete by key takes the one row there is out of a count. -/
theorem countP_deleteWhere {rows : List T} (hkey : (rows.map key).Nodup) {row : T} (hrow : row ∈ rows)
    (p : T → Bool) :
    (deleteWhere rows fun r => key r = key row).countP p + (p row).toNat = rows.countP p := by
  induction rows with
  | nil => cases hrow
  | cons first rest ih =>
    rw [List.map_cons, List.nodup_cons] at hkey
    rcases List.mem_cons.mp hrow with rfl | hrest
    · have hother : ∀ r ∈ rest, decide (key r = key row) = false := fun r hr =>
        decide_eq_false fun heq => hkey.1 (heq ▸ List.mem_map_of_mem hr)
      have hdel : deleteWhere (row :: rest) (fun r => key r = key row) = rest := by
        rw [deleteWhere, List.filter_cons_of_neg (by simp), ← deleteWhere,
          deleteWhere_eq_self hother]
      rw [hdel, List.countP_cons]
      cases p row <;> simp
    · have hne : key first ≠ key row := fun heq => hkey.1 (heq ▸ List.mem_map_of_mem hrest)
      have hdel : deleteWhere (first :: rest) (fun r => key r = key row) =
          first :: deleteWhere rest (fun r => key r = key row) := by
        rw [deleteWhere, List.filter_cons_of_pos (by simp [hne]), ← deleteWhere]
      have hih := ih hkey.2 hrest
      rw [hdel, List.countP_cons, List.countP_cons]
      omega

end Keyed

end TelemetryCloud.Repository
