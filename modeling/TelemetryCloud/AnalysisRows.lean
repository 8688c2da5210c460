import TelemetryCloud.AnalysisRuns

/-!
# The lap table, whatever runs there are

Runs at the same time may merge their laps; here is what they leave true of the table all the same,
whatever they read, in whatever order they go on, and wherever they crash.

* `insertIgnoringDuplicates_numbered` : an insert keeps the rows and adds the laps beyond them;
* `Kept` : what holds of every state, `kept_step` : **and every step keeps**;
* `rows_step` : **no step loses the rows of a session**;
* `laps_kept` : **laps are never lost**: the rows are numbered from 1 without a gap, a stamped session
  has some, and no answer that claims to list them is empty.
-/

namespace TelemetryCloud.AnalysisRows

open TelemetryCloud.Geometry TelemetryCloud.Derivation
open LapSegmenter LapTrace AnalysisService AnalysisRuns Runs

/-! ### Inserting into a numbered table -/

section Insert

variable {K : Type}

/-- The rows are numbered from 1 without a gap. -/
def Numbered (rows : List (Lap K)) : Prop :=
  rows.map (fun row => row.lapNumber) = List.range' 1 rows.length

/-- **An insert keeps the rows and adds the laps beyond them.** -/
theorem insertIgnoringDuplicates_numbered {rows laps : List (Lap K)} (hrows : Numbered rows)
    (hlaps : Numbered laps) :
    insertIgnoringDuplicates rows laps = rows ++ laps.drop rows.length ∧
      Numbered (rows ++ laps.drop rows.length) := by
  have hbeyond : (laps.drop rows.length).map (fun lap => lap.lapNumber) =
      List.range' (1 + rows.length) (laps.length - rows.length) := by
    rw [List.map_drop, hlaps, List.drop_range', Nat.mul_one]
  have hnumbered : Numbered (rows ++ laps.drop rows.length) := by
    rw [Numbered, List.map_append, hrows, hbeyond, List.length_append, List.length_drop,
      List.range'_append_1]
  refine ⟨?_, hnumbered⟩
  have hnodup : ((rows ++ laps.drop rows.length).map fun lap => lap.lapNumber).Nodup := by
    rw [hnumbered]
    exact List.nodup_range'
  have htake : Numbered (laps.take rows.length) := by
    rw [Numbered, List.map_take, hlaps, List.length_take]
    rcases Nat.le_total rows.length laps.length with hle | hle
    · rw [List.take_range'_of_length_ge hle, Nat.min_eq_left hle]
    · rw [List.take_range'_of_length_le hle, Nat.min_eq_right hle]
  calc insertIgnoringDuplicates rows laps
      = insertIgnoringDuplicates rows (laps.take rows.length ++ laps.drop rows.length) := by
        rw [List.take_append_drop]
    _ = insertIgnoringDuplicates (insertIgnoringDuplicates rows (laps.take rows.length))
          (laps.drop rows.length) := insertIgnoringDuplicates_two _ _ _
    _ = insertIgnoringDuplicates rows (laps.drop rows.length) := by
        rw [insertIgnoringDuplicates_of_length_le hrows htake (List.length_take_le _ _)]
    _ = rows ++ laps.drop rows.length := insertIgnoringDuplicates_append _ _ hnodup

/-- After a run wrote its laps, there are rows, numbered, and those that were there unless the run
replaced them. -/
theorem rowsAfter_spec {rows laps : List (Lap K)} (hrows : Numbered rows) (hlaps : Numbered laps)
    (hne : laps ≠ []) (replace : Bool) :
    Numbered (rowsAfter rows laps replace) ∧ rowsAfter rows laps replace ≠ [] ∧
      (replace = false → rows <+: rowsAfter rows laps replace) := by
  cases replace with
  | true =>
    have hreplaced : rowsAfter rows laps true = laps := by
      refine replaceSession_eq laps ?_
      rw [hlaps]
      exact List.nodup_range'
    rw [hreplaced]
    exact ⟨hlaps, hne, fun h => by cases h⟩
  | false =>
    obtain ⟨hinsert, hnumbered⟩ := insertIgnoringDuplicates_numbered hrows hlaps
    have hinserted : rowsAfter rows laps false = rows ++ laps.drop rows.length := hinsert
    rw [hinserted]
    refine ⟨hnumbered, fun hnil => ?_, fun _ => List.prefix_append _ _⟩
    obtain ⟨hnone, hdrop⟩ := List.append_eq_nil_iff.mp hnil
    rw [hnone, List.length_nil, List.drop_zero] at hdrop
    exact hne hdrop

end Insert

/-! ### What every step keeps -/

section Kept

variable {K : Type} [Field K] [LinearOrder K] [FloorRing K] (M : MathLib K)

/-- The run has seen a stamp or is past its write: it is about to stamp, or to list the rows. -/
def Listing : Phase K → Prop
  | .listing | .stamping _ | .readingBack _ _ => True
  | _ => False

/-- **What holds of every state**, whatever the runs read. -/
structure Kept (s : System K) : Prop where
  segmented : ∀ r f, s.runs r = some f → Segmented M f.run.phase
  numbered : ∀ id, Numbered (s.db.laps id)
  stamped : ∀ id session, s.db.sessions id = some session → session.analyzedAt.isSome →
    s.db.laps id ≠ []
  listing : ∀ r f, s.runs r = some f → Listing f.run.phase → s.db.laps f.run.sessionId ≠ []

variable {M} {s t : System K} {lower : String → String}

theorem kept_start {db : Database K} (h : Fresh db) : Kept M (start db) where
  segmented _ _ hrun := by cases hrun
  numbered id := by
    rw [Numbered, show (start db).db.laps id = [] from h.1 id]
    rfl
  stamped id session hsession hanalyzed := by
    rw [h.2 id session hsession] at hanalyzed
    cases hanalyzed
  listing _ _ hrun := by cases hrun

/-- **The frame**: a step that loses no rows, and brings stamps and runs only where there are some. -/
theorem Kept.frame (h : Kept M s) (hnumbered : ∀ id, Numbered (t.db.laps id))
    (hrows : ∀ id, s.db.laps id ≠ [] → t.db.laps id ≠ [])
    (hsessions : ∀ id session, t.db.sessions id = some session → session.analyzedAt.isSome →
      (∃ old, s.db.sessions id = some old ∧ old.analyzedAt.isSome) ∨ t.db.laps id ≠ [])
    (hruns : ∀ r f, t.runs r = some f → s.runs r = some f ∨
      Segmented M f.run.phase ∧ (Listing f.run.phase → t.db.laps f.run.sessionId ≠ [])) :
    Kept M t where
  segmented r f hrun := (hruns r f hrun).elim (h.segmented r f) (·.1)
  numbered := hnumbered
  stamped id session hsession hanalyzed := by
    rcases hsessions id session hsession hanalyzed with ⟨old, hold, hat⟩ | hlaps
    · exact hrows id (h.stamped id old hold hat)
    · exact hlaps
  listing r f hrun hlisting := by
    rcases hruns r f hrun with hold | ⟨-, hnew⟩
    · exact hrows _ (h.listing r f hold hlisting)
    · exact hnew hlisting

variable {r : ℕ} {f : InFlight K}

omit [Field K] [LinearOrder K] [FloorRing K] in
/-- One run goes on or starts, the others as they are. -/
theorem runs_update {f? : Option (InFlight K)} {r' : ℕ} {f' : InFlight K}
    (hrun : Function.update s.runs r f? r' = some f') : s.runs r' = some f' ∨ f? = some f' := by
  by_cases hr : r' = r
  · rw [hr, Function.update_self] at hrun
    exact .inr hrun
  · rw [Function.update_of_ne hr] at hrun
    exact .inl hrun

variable {node id : ℕ} {session : Session} {replace : Bool} {own : Reads K}

/-- The rows after a run wrote its laps. -/
theorem written_rows (h : Kept M s)
    (hrun : s.runs r = some ⟨node, ⟨id, session, replace, .writing own⟩⟩) :
    Numbered (rowsAfter (s.db.laps id) (derivation M own).laps replace) ∧
      rowsAfter (s.db.laps id) (derivation M own).laps replace ≠ [] ∧
      (replace = false →
        s.db.laps id <+: rowsAfter (s.db.laps id) (derivation M own).laps replace) := by
  have hown : own.derived M ≠ [] := h.segmented r _ hrun
  have hne : (derivation M own).laps ≠ [] := by
    intro hnil
    have hlength := length_derivation M own
    rw [hnil] at hlength
    exact hown (List.length_eq_zero_iff.mp hlength.symm)
  exact rowsAfter_spec (h.numbered id) (derivation_rows M hown).numbered hne replace

theorem kept_writing (h : Kept M s) {memos : ℕ → NoCrossings}
    (hrun : s.runs r = some ⟨node, ⟨id, session, replace, .writing own⟩⟩) :
    Kept M ⟨s.db.setLaps id (rowsAfter (s.db.laps id) (derivation M own).laps replace), memos,
      Function.update s.runs r (some ⟨node, ⟨id, session, replace, .stamping own⟩⟩)⟩ := by
  obtain ⟨hnumbered, hne, -⟩ := written_rows h hrun
  have hself : (s.db.setLaps id (rowsAfter (s.db.laps id) (derivation M own).laps replace)).laps id =
      rowsAfter (s.db.laps id) (derivation M own).laps replace := Function.update_self ..
  have hother : ∀ id', id' ≠ id → (s.db.setLaps id
      (rowsAfter (s.db.laps id) (derivation M own).laps replace)).laps id' = s.db.laps id' :=
    fun id' hid => Function.update_of_ne hid ..
  refine h.frame (fun id' => ?_) (fun id' hrows => ?_)
    (fun id' old hold hat => .inl ⟨old, hold, hat⟩) fun r' f' hf' => ?_
  · by_cases hid : id' = id
    · subst hid
      exact hself.symm ▸ hnumbered
    · exact (hother id' hid).symm ▸ h.numbered id'
  · by_cases hid : id' = id
    · subst hid
      exact hself.symm ▸ hne
    · exact (hother id' hid).symm ▸ hrows
  · refine (runs_update hf').imp_right fun hf => ?_
    cases hf
    have hown : own.derived M ≠ [] := h.segmented r _ hrun
    exact ⟨hown, fun _ => hself.symm ▸ hne⟩

theorem kept_stamping (h : Kept M s) {memos : ℕ → NoCrossings} (now : ℤ)
    (hrun : s.runs r = some ⟨node, ⟨id, session, replace, .stamping own⟩⟩) :
    Kept M ⟨s.db.setAnalyzedAt id now (derivation M own).sectorScheme, memos,
      Function.update s.runs r (some ⟨node, ⟨id, session, replace, .readingBack now own⟩⟩)⟩ := by
  have hrows : s.db.laps id ≠ [] := h.listing r _ hrun trivial
  refine h.frame h.numbered (fun _ hne => hne) (fun id' row hrow hat => ?_) fun r' f' hf' => ?_
  · by_cases hid : id' = id
    · subst hid
      exact .inr hrows
    · have hold : s.db.sessions id' = some row := by
        rw [← hrow]
        exact (Function.update_of_ne hid ..).symm
      exact .inl ⟨row, hold, hat⟩
  · refine (runs_update hf').imp_right fun hf => ?_
    cases hf
    exact ⟨trivial, fun _ => hrows⟩

/-- No other call leads to a run about to list. -/
theorem advance_listing (M : MathLib K) (lower : String → String) (env : Env) (db : Database K)
    (memo : NoCrossings) (run : AnalysisService.Run K)
    (hstamping : ∀ own, run.phase ≠ .stamping own) (hwriting : ∀ own, run.phase ≠ .writing own) :
    ∀ next, (advance M lower env db memo run).run = .inl next → ¬ Listing next.phase := by
  obtain ⟨id, session, replace, phase⟩ := run
  intro next hnext
  cases phase with
  | writing own => exact absurd rfl (hwriting own)
  | stamping own => exact absurd rfl (hstamping own)
  | listing | skipping | readingBack => cases hnext
  | resolving | counting | reading | mapping | persisting =>
    simp only [advance] at hnext
    repeat' split at hnext
    all_goals
      cases hnext
      exact not_false

/-- One database call. -/
theorem kept_advance (h : Kept M s) (env : Env) (hrun : s.runs r = some f) :
    Kept M (advanced M lower s r f env) := by
  obtain ⟨node, ⟨id, session, replace, phase⟩⟩ := f
  by_cases hwriting : ∃ own, phase = .writing own
  · obtain ⟨own, rfl⟩ := hwriting
    exact kept_writing h hrun
  by_cases hstamping : ∃ own, phase = .stamping own
  · obtain ⟨own, rfl⟩ := hstamping
    exact kept_stamping h env.now hrun
  have haside := advance_aside M lower env s.db (s.memos node) ⟨id, session, replace, phase⟩
    (h.segmented r _ hrun) (fun own hphase => hwriting ⟨own, hphase⟩)
    (fun own hphase => hstamping ⟨own, hphase⟩)
  have hnew := advance_listing M lower env s.db (s.memos node) ⟨id, session, replace, phase⟩
    (fun own hphase => hstamping ⟨own, hphase⟩) (fun own hphase => hwriting ⟨own, hphase⟩)
  refine h.frame (fun id' => ?_) (fun id' hrows => ?_) (fun id' row hrow hat => .inl ⟨row, ?_, hat⟩)
    fun r' f' hf' => ?_
  · show Numbered ((advance M lower env s.db (s.memos node) _).db.laps id')
    rw [haside.laps]
    exact h.numbered id'
  · show (advance M lower env s.db (s.memos node) _).db.laps id' ≠ []
    rw [haside.laps]
    exact hrows
  · rw [← haside.sessions]
    exact hrow
  · refine (runs_update hf').imp_right fun hf => ?_
    obtain ⟨next, hnext, rfl⟩ := Option.map_eq_some_iff.mp hf
    have hleft := Sum.getLeft?_eq_some_iff.mp hnext
    exact ⟨(haside.goesOn next hleft).1, fun hlisting => absurd hlisting (hnew next hleft)⟩

/-- A call that starts. -/
theorem kept_started (h : Kept M s) {memos : ℕ → NoCrossings} {run : Session → AnalysisService.Run K}
    (hphase : ∀ session, s.db.sessions id = some session → Segmented M (run session).phase ∧
      (Listing (run session).phase → s.db.laps (run session).sessionId ≠ []))
    (hstep : started ⟨s.db, memos, s.runs⟩ r node id run = some t) : Kept M t := by
  unfold started at hstep
  split at hstep
  · cases hstep
  · obtain ⟨session, hsession, rfl⟩ := Option.map_eq_some_iff.mp hstep
    refine h.frame h.numbered (fun _ hne => hne) (fun _ row hrow hat => .inl ⟨row, hrow, hat⟩)
      fun r' f' hf' => ?_
    refine (runs_update hf').imp_right fun hf => ?_
    cases hf
    exact hphase session hsession

/-- What no run and no lap is touched by. -/
theorem kept_tables (h : Kept M s) {db : Database K} {memos : ℕ → NoCrossings}
    (hlaps : db.laps = s.db.laps)
    (hsessions : ∀ id session, db.sessions id = some session → session.analyzedAt.isSome →
      ∃ old, s.db.sessions id = some old ∧ old.analyzedAt.isSome) : Kept M ⟨db, memos, s.runs⟩ := by
  refine h.frame (fun id => ?_) (fun id hne => ?_)
    (fun id session hsession hat => .inl (hsessions id session hsession hat)) fun _ _ hrun => .inl hrun
  · rw [show db.laps id = s.db.laps id from congrFun hlaps id]
    exact h.numbered id
  · rw [show db.laps id = s.db.laps id from congrFun hlaps id]
    exact hne

/-- **Every step keeps it.** -/
theorem kept_step (h : Kept M s) {e : Event K} (hstep : step M lower s e = some t) : Kept M t := by
  have hderive : ∀ session : Session, Segmented M (derivePhase session : Phase K) ∧
      ¬ Listing (derivePhase session : Phase K) := by
    intro session
    unfold derivePhase
    split
    · exact ⟨trivial, not_false⟩
    · exact ⟨trivial, not_false⟩
  cases e with
  | getLaps r node id =>
    refine kept_started h (fun session hsession => ?_) hstep
    unfold getLapsRun
    dsimp only
    split
    · next hat => exact ⟨trivial, fun _ => h.stamped id session hsession hat⟩
    · exact ⟨(hderive session).1, fun hlisting => absurd hlisting (hderive session).2⟩
  | recompute r node id =>
    exact kept_started h (fun session _ =>
      ⟨(hderive session).1, fun hlisting => absurd hlisting (hderive session).2⟩) hstep
  | advance r env =>
    obtain ⟨f, hrun, rfl⟩ := Option.map_eq_some_iff.mp hstep
    exact kept_advance h env hrun
  | crash r =>
    obtain ⟨f, hrun, rfl⟩ := Option.map_eq_some_iff.mp hstep
    refine h.frame h.numbered (fun _ hne => hne) (fun _ row hrow hat => .inl ⟨row, hrow, hat⟩)
      fun r' f' hf' => ?_
    exact (runs_update hf').imp_right fun hf => by cases hf
  | putSession id session =>
    rw [step] at hstep
    split at hstep
    · next hstamp =>
      cases hstep
      refine kept_tables h rfl fun id' row hrow hat => ?_
      change Function.update s.db.sessions id (some session) id' = some row at hrow
      by_cases hid : id' = id
      · subst hid
        rw [Function.update_self] at hrow
        cases hrow
        cases hold : s.db.sessions id' with
        | none =>
          rw [hold] at hstamp
          rw [← (Prod.mk.inj hstamp).1] at hat
          cases hat
        | some old =>
          rw [hold] at hstamp
          refine ⟨old, rfl, ?_⟩
          rw [(Prod.mk.inj (show stamp old = stamp session from hstamp)).1]
          exact hat
      · rw [Function.update_of_ne hid] at hrow
        exact ⟨row, hrow, hat⟩
    · cases hstep
  | restart | arrive | setTrack | setCircuit =>
    cases hstep
    exact kept_tables h rfl fun _ row hrow hat => ⟨row, hrow, hat⟩

variable (lower)

/-- The step is the write of a recompute. -/
def Replaces (id : ℕ) (s : System K) : Event K → Prop
  | .advance r _ => ∃ f own, s.runs r = some f ∧ f.run.sessionId = id ∧ f.run.replace = true ∧
      f.run.phase = .writing own
  | _ => False

/-- **No step loses the rows of a session**, and only the write of a recompute changes one. -/
theorem rows_step (h : Kept M s) {e : Event K} (hstep : step M lower s e = some t) (id : ℕ) :
    (s.db.laps id ≠ [] → t.db.laps id ≠ []) ∧
      (¬ Replaces id s e → s.db.laps id <+: t.db.laps id) := by
  have hsame : t.db.laps id = s.db.laps id → (s.db.laps id ≠ [] → t.db.laps id ≠ []) ∧
      (¬ Replaces id s e → s.db.laps id <+: t.db.laps id) := by
    intro heq
    rw [heq]
    exact ⟨fun hne => hne, fun _ => List.prefix_rfl⟩
  cases e with
  | advance r env =>
    obtain ⟨⟨node, ⟨id', session, replace, phase⟩⟩, hrun, rfl⟩ := Option.map_eq_some_iff.mp hstep
    by_cases hwriting : ∃ own, phase = .writing own
    · obtain ⟨own, rfl⟩ := hwriting
      by_cases hid : id = id'
      · subst hid
        obtain ⟨-, hne, hpre⟩ := written_rows h hrun
        have hrows : (advanced M lower s r ⟨node, ⟨id, session, replace, .writing own⟩⟩ env).db.laps
            id = rowsAfter (s.db.laps id) (derivation M own).laps replace := Function.update_self ..
        rw [hrows]
        refine ⟨fun _ => hne, fun hnot => hpre ?_⟩
        exact Bool.eq_false_iff.mpr fun hreplace => hnot ⟨_, own, hrun, rfl, hreplace, rfl⟩
      · exact hsame (Function.update_of_ne hid ..)
    · refine hsame ?_
      by_cases hstamping : ∃ own, phase = .stamping own
      · obtain ⟨own, rfl⟩ := hstamping
        rfl
      · have haside := advance_aside M lower env s.db (s.memos node)
          ⟨id', session, replace, phase⟩ (h.segmented r _ hrun)
          (fun own hphase => hwriting ⟨own, hphase⟩) (fun own hphase => hstamping ⟨own, hphase⟩)
        exact congrFun haside.laps id
  | getLaps r node id' =>
    rw [step, started] at hstep
    split at hstep
    · cases hstep
    · obtain ⟨session, -, rfl⟩ := Option.map_eq_some_iff.mp hstep
      exact hsame rfl
  | recompute r node id' =>
    rw [step, started] at hstep
    split at hstep
    · cases hstep
    · obtain ⟨session, -, rfl⟩ := Option.map_eq_some_iff.mp hstep
      exact hsame rfl
  | crash r =>
    obtain ⟨f, -, rfl⟩ := Option.map_eq_some_iff.mp hstep
    exact hsame rfl
  | putSession id' session =>
    rw [step] at hstep
    split at hstep
    · cases hstep
      exact hsame rfl
    · cases hstep
  | restart | arrive | setTrack | setCircuit =>
    cases hstep
    exact hsame rfl

theorem kept_run (h : Kept M s) {es : List (Event K)} (hrun : run (step M lower) s es = some t) :
    Kept M t :=
  run_invariant_of_step (step M lower) (fun _ _ _ h hstep => kept_step h hstep) es s t h hrun

theorem rows_run (h : Kept M s) {es : List (Event K)} (hrun : run (step M lower) s es = some t)
    (id : ℕ) : (s.db.laps id ≠ [] → t.db.laps id ≠ []) ∧
      (Meets (step M lower) (fun s e => ¬ Replaces id s e) s es →
        s.db.laps id <+: t.db.laps id) := by
  induction es using List.reverseRecOn generalizing t with
  | nil =>
    cases hrun
    exact ⟨fun hne => hne, fun _ => List.prefix_rfl⟩
  | append_singleton es e ih =>
    obtain ⟨mid, hmid, hstep⟩ := (run_snoc_eq_some _).mp hrun
    obtain ⟨hkept, hpre⟩ := ih hmid
    obtain ⟨hkept', hpre'⟩ := rows_step lower (kept_run lower h hmid) hstep id
    refine ⟨fun hne => hkept' (hkept hne), fun hmeets => ?_⟩
    obtain ⟨hmeets, hlast⟩ := (meets_snoc _ hmid).mp hmeets
    exact (hpre hmeets).trans (hpre' hlast)

variable (M)

/-- **Laps are never lost.**  In every run from fresh tables, of any number of reads and recomputes
that go on in any order, crash anywhere and read whatever there is: the rows of a session are numbered
from 1 without a gap; a stamped session has rows; a session that has rows goes on to have some, and
keeps the ones it has until a recompute writes; and an answer that names no reason lists at least one
lap. -/
theorem laps_kept (db : Database K) (hfresh : Fresh db) (es more : List (Event K)) (mid s : System K)
    (hmid : run (step M lower) (start db) es = some mid)
    (hrun : run (step M lower) mid more = some s) (id : ℕ) :
    Numbered (s.db.laps id) ∧
      (∀ session, s.db.sessions id = some session → session.analyzedAt.isSome → s.db.laps id ≠ []) ∧
      (mid.db.laps id ≠ [] → s.db.laps id ≠ []) ∧
      (Meets (step M lower) (fun s e => ¬ Replaces id s e) mid more →
        mid.db.laps id <+: s.db.laps id) ∧
      ∀ r f env response, s.runs r = some f →
        (advance M lower env s.db (s.memos f.node) f.run).run = .inr response →
        response.reason = none → response.laps ≠ [] := by
  have hkept : Kept M mid := kept_run lower (kept_start hfresh) hmid
  have h : Kept M s := kept_run lower hkept hrun
  obtain ⟨hrows, hpre⟩ := rows_run lower hkept hrun id
  refine ⟨h.numbered id, h.stamped id, hrows, hpre, fun r f env response hf hanswer hreason => ?_⟩
  have hlisted : ∀ rows : List (Lap K), rows ≠ [] → findBySession rows ≠ [] := fun rows hne hnil =>
    hne (List.perm_nil.mp (hnil ▸ (List.perm_insertionSort _ rows).symm))
  obtain ⟨node, ⟨id', session, replace, phase⟩⟩ := f
  cases phase with
  | listing =>
    cases hanswer
    exact hlisted _ (h.listing r _ hf trivial)
  | readingBack analyzedAt reads =>
    cases hanswer
    exact hlisted _ (h.listing r _ hf trivial)
  | skipping reason =>
    cases hanswer
    cases hreason
  | writing | stamping => cases hanswer
  | resolving | counting | reading | mapping | persisting =>
    simp only [advance] at hanswer
    repeat' split at hanswer
    all_goals cases hanswer

end Kept

/-- Two reads that merge their laps, and still leave a table. -/
theorem laps_kept_lateRun : ∃ s, run (step flatMath id) (start lateDatabase) lateRun = some s ∧
    Numbered (s.db.laps 0) ∧ s.db.laps 0 ≠ [] := by
  obtain ⟨s, hrun, -, hstamp, -⟩ := run_lateRun
  obtain ⟨hnumbered, hstamped, -⟩ := laps_kept flatMath id lateDatabase fresh_lateDatabase []
    lateRun (start lateDatabase) s rfl hrun 0
  obtain ⟨session, hsession, hat⟩ := (Option.any_eq_true _ _).mp hstamp
  exact ⟨s, hrun, hnumbered, hstamped session hsession hat⟩

end TelemetryCloud.AnalysisRows
