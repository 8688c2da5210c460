import TelemetryCloud.Derivation

/-!
# `AnalysisService`, one database call at a time

A call of `getLaps` or `recompute` is a run: the session row it started from and what it does next.
`advance` is the code from one database call to the next one; what it has read so far is all the
state a run has.

* `advance` : one database call of a run;
* `finish`, `finish_isSome` : a run on its own, which always comes to an answer;
* `NoCrossings` : the memo of sessions without crossings, as the insertion-ordered map it is.
-/

namespace TelemetryCloud.AnalysisService

open TelemetryCloud.Geometry TelemetryCloud.Derivation
open Gates LapSegmenter LapTrace SectorGates

def MAX_ANALYSIS_SAMPLES : ℕ := 300000
def NO_CROSSINGS_MEMO_SIZE : ℕ := 256

/-! ### The memo -/

structure NoCrossingsMemo where
  sampleCount : ℕ
  trackUpdatedMs : ℤ
  deriving DecidableEq

/-- `noCrossings`, by session, the least recently inserted first. -/
structure NoCrossings where
  entries : List (ℕ × NoCrossingsMemo)

namespace NoCrossings

def empty : NoCrossings := ⟨[]⟩

def get (memo : NoCrossings) (sessionId : ℕ) : Option NoCrossingsMemo :=
  (memo.entries.find? (·.1 = sessionId)).map Prod.snd

def delete (memo : NoCrossings) (sessionId : ℕ) : NoCrossings :=
  ⟨memo.entries.filter (·.1 ≠ sessionId)⟩

/-- A key that is there keeps its place. -/
def set (memo : NoCrossings) (sessionId : ℕ) (value : NoCrossingsMemo) : NoCrossings :=
  if memo.entries.any (·.1 = sessionId) then
    ⟨memo.entries.map fun entry => if entry.1 = sessionId then (sessionId, value) else entry⟩
  else ⟨memo.entries ++ [(sessionId, value)]⟩

/-- `rememberNoCrossings`. -/
def remember (memo : NoCrossings) (sessionId : ℕ) (value : NoCrossingsMemo) : NoCrossings :=
  if NO_CROSSINGS_MEMO_SIZE ≤ memo.entries.length then
    (NoCrossings.mk memo.entries.tail).set sessionId value
  else memo.set sessionId value

@[simp] theorem get_empty (sessionId : ℕ) : empty.get sessionId = none := rfl

theorem get_empty_ne (sessionId : ℕ) (value : NoCrossingsMemo) :
    empty.get sessionId ≠ some value := by
  rw [get_empty]
  exact Option.some_ne_none value |>.symm

theorem mem_of_get {memo : NoCrossings} {sessionId : ℕ} {value : NoCrossingsMemo}
    (h : memo.get sessionId = some value) : (sessionId, value) ∈ memo.entries := by
  obtain ⟨entry, hfind, rfl⟩ := Option.map_eq_some_iff.mp h
  have hkey := List.find?_some (p := fun e : ℕ × NoCrossingsMemo => decide (e.1 = sessionId)) hfind
  rw [← of_decide_eq_true hkey]
  exact List.mem_of_find?_eq_some hfind

theorem mem_delete {memo : NoCrossings} {sessionId : ℕ} {entry : ℕ × NoCrossingsMemo} :
    entry ∈ (memo.delete sessionId).entries ↔ entry ∈ memo.entries ∧ entry.1 ≠ sessionId := by
  rw [delete, List.mem_filter, decide_eq_true_eq]

@[simp] theorem get_delete (memo : NoCrossings) (sessionId : ℕ) :
    (memo.delete sessionId).get sessionId = none := by
  cases h : (memo.delete sessionId).get sessionId with
  | none => rfl
  | some value => exact absurd rfl (mem_delete.mp (mem_of_get h)).2

theorem mem_set {memo : NoCrossings} {sessionId : ℕ} {value : NoCrossingsMemo}
    {entry : ℕ × NoCrossingsMemo} (h : entry ∈ (memo.set sessionId value).entries) :
    entry = (sessionId, value) ∨ (entry ∈ memo.entries ∧ entry.1 ≠ sessionId) := by
  unfold set at h
  split at h
  · obtain ⟨old, hold, rfl⟩ := List.mem_map.mp h
    split
    · exact .inl rfl
    · rename_i hne
      exact .inr ⟨hold, hne⟩
  · rename_i hany
    rw [Bool.not_eq_true, List.any_eq_false] at hany
    rcases List.mem_append.mp h with h | h
    · exact .inr ⟨h, fun heq => hany entry h (decide_eq_true heq)⟩
    · exact .inl (List.mem_singleton.mp h)

theorem mem_remember {memo : NoCrossings} {sessionId : ℕ} {value : NoCrossingsMemo}
    {entry : ℕ × NoCrossingsMemo} (h : entry ∈ (memo.remember sessionId value).entries) :
    entry = (sessionId, value) ∨ (entry ∈ memo.entries ∧ entry.1 ≠ sessionId) := by
  unfold remember at h
  split at h
  · rcases mem_set h with h | ⟨hmem, hne⟩
    · exact .inl h
    · exact .inr ⟨List.mem_of_mem_tail hmem, hne⟩
  · exact mem_set h

end NoCrossings

/-! ### Runs -/

/-- What a run does next, with what it has read. -/
inductive Phase (K : Type)
  | listing
  | resolving
  | counting (track : Track K)
  | reading (track : Track K) (upTo : ℤ) (count : ℕ)
  | mapping (track : Track K) (samples : List (AnalysisSample K))
  | persisting (reads : Reads K)
  | writing (reads : Reads K)
  | stamping (reads : Reads K)
  | readingBack (analyzedAt : ℤ) (reads : Reads K)
  | skipping (reason : AnalysisSkipReason)

/-- How many database calls may still follow the next one. -/
def Phase.rank {K : Type} : Phase K → ℕ
  | .resolving => 8
  | .counting _ => 7
  | .reading _ _ _ => 6
  | .mapping _ _ => 5
  | .persisting _ => 4
  | .writing _ => 3
  | .stamping _ => 2
  | .readingBack _ _ => 1
  | .listing => 0
  | .skipping _ => 0

structure Run (K : Type) where
  sessionId : ℕ
  session : Session
  replace : Bool
  phase : Phase K

/-- The first thing `derive` does. -/
def derivePhase {K : Type} (session : Session) : Phase K :=
  if session.status = .live then .skipping .sessionLive else .resolving

/-- `getLaps`, once it has the session row. -/
def getLapsRun {K : Type} (sessionId : ℕ) (session : Session) : Run K :=
  ⟨sessionId, session, false, if session.analyzedAt.isSome then .listing else derivePhase session⟩

/-- `recompute`, once it has the session row and has forgotten the session in the memo. -/
def recomputeRun {K : Type} (sessionId : ℕ) (session : Session) : Run K :=
  ⟨sessionId, session, true, derivePhase session⟩

/-- The clocks a step sees: the service's own, and the database's for the row it updates. -/
structure Env where
  now : ℤ
  updatedAt : ℤ

/-- Where a step leaves the tables, the memo and the run: still on its way, or answered. -/
structure After (K : Type) where
  db : Database K
  noCrossings : NoCrossings
  run : Run K ⊕ LapsResponse K

section Code

variable {K : Type} [Field K] [LinearOrder K] [FloorRing K] (M : MathLib K) (lower : String → String)

/-- The run goes on with `phase`. -/
def goOn (db : Database K) (memo : NoCrossings) (run : Run K) (phase : Phase K) : After K :=
  ⟨db, memo, .inl { run with phase }⟩

/-- **One database call of a run**, and the code up to the next one. -/
def advance (env : Env) (db : Database K) (memo : NoCrossings) (run : Run K) : After K :=
  let id := run.sessionId
  let session := run.session
  match run.phase with
  | .listing => ⟨db, memo, .inr (respond session (findBySession (db.laps id)) none)⟩
  | .skipping reason =>
    ⟨db, memo, .inr (respond session
      (if run.replace then findBySession (db.laps id) else []) (some reason))⟩
  | .resolving =>
    match resolve lower db.tracks session.track with
    | none => goOn db memo run (.skipping .noTrackGate)
    | some track => goOn db memo run (.counting track)
  | .counting track =>
    let upTo := session.endedAt.getD env.now
    let count := countRange (db.samples id) session.startedAt upTo
    if count = 0 then goOn db memo run (.skipping .noSamples)
    else if MAX_ANALYSIS_SAMPLES < count then goOn db memo run (.skipping .tooManySamples)
    else if memo.get id = some ⟨count, track.updatedAt⟩ then
      goOn db memo run (.skipping .noCrossings)
    else goOn db memo run (.reading track upTo count)
  | .reading track upTo count =>
    let samples := findRange (db.samples id) session.startedAt upTo
    if (segmentLaps M {} (gateOf track) samples).isEmpty then
      goOn db (memo.remember id ⟨count, track.updatedAt⟩) run (.skipping .noCrossings)
    else if (knownSectorGates (known track)).isSome then
      goOn db memo run (.writing ⟨track, samples, none⟩)
    else goOn db memo run (.mapping track samples)
  | .mapping track samples =>
    let reads : Reads K := ⟨track, samples, db.circuits track.id⟩
    if (derivation M reads).newlyDerived.isSome then goOn db memo run (.persisting reads)
    else goOn db memo run (.writing reads)
  | .persisting reads =>
    match (derivation M reads).newlyDerived with
    | none => goOn db memo run (.writing reads)
    | some set =>
      goOn (db.setDerivedSectorGates reads.track.id set env.updatedAt) memo run
        (.writing reads)
  | .writing reads =>
    let laps := (derivation M reads).laps
    goOn (db.setLaps id
        (if run.replace then replaceSession laps else insertIgnoringDuplicates (db.laps id) laps))
      memo run (.stamping reads)
  | .stamping reads =>
    goOn (db.setAnalyzedAt id env.now (derivation M reads).sectorScheme)
      (memo.delete id) run (.readingBack env.now reads)
  | .readingBack analyzedAt reads =>
    ⟨db, memo, .inr (respond
      { session with
        analyzedAt := some analyzedAt
        sectorScheme := some (derivation M reads).sectorScheme }
      (findBySession (db.laps id)) none)⟩

/-- A run on its own, for a number of database calls. -/
def finish (env : Env) : ℕ → Database K → NoCrossings → Run K → Option (After K)
  | 0, _, _, _ => none
  | n + 1, db, memo, run =>
    let after := advance M lower env db memo run
    match after.run with
    | .inr _ => some after
    | .inl next => finish env n after.db after.noCrossings next

/-- Every database call brings a run closer to its answer. -/
theorem advance_rank {env : Env} {db : Database K} {memo : NoCrossings} {run next : Run K}
    (h : (advance M lower env db memo run).run = .inl next) : next.phase.rank < run.phase.rank := by
  obtain ⟨id, session, replace, phase⟩ := run
  cases phase with
  | listing => cases h
  | skipping reason => cases h
  | readingBack analyzedAt reads => cases h
  | resolving =>
    simp only [advance] at h
    split at h <;> cases h <;> exact Nat.le_of_ble_eq_true rfl
  | counting track =>
    simp only [advance] at h
    split at h
    · cases h
      exact Nat.le_of_ble_eq_true rfl
    · split at h
      · cases h
        exact Nat.le_of_ble_eq_true rfl
      · split at h <;> cases h <;> exact Nat.le_of_ble_eq_true rfl
  | reading track upTo count =>
    simp only [advance] at h
    split at h
    · cases h
      exact Nat.le_of_ble_eq_true rfl
    · split at h <;> cases h <;> exact Nat.le_of_ble_eq_true rfl
  | mapping track samples =>
    simp only [advance] at h
    split at h <;> cases h <;> exact Nat.le_of_ble_eq_true rfl
  | persisting reads =>
    simp only [advance] at h
    split at h <;> cases h <;> exact Nat.le_of_ble_eq_true rfl
  | writing reads =>
    cases h
    exact Nat.le_of_ble_eq_true rfl
  | stamping reads =>
    cases h
    exact Nat.le_of_ble_eq_true rfl

/-- **A run on its own comes to an answer** within its rank of database calls. -/
theorem finish_isSome (env : Env) {n : ℕ} {db : Database K} {memo : NoCrossings} {run : Run K}
    (h : run.phase.rank < n) :
    ∃ after response, finish M lower env n db memo run = some after ∧ after.run = .inr response := by
  induction n generalizing db memo run with
  | zero => exact absurd h (Nat.not_lt_zero _)
  | succ n ih =>
    unfold finish
    dsimp only
    split
    · rename_i response hafter
      exact ⟨_, response, rfl, hafter⟩
    · rename_i next hafter
      exact ih (Nat.lt_of_lt_of_le (advance_rank M lower hafter) (Nat.le_of_lt_succ h))

end Code

section Scan

variable {K : Type} (lower : String → String)

/-! ### What a derivation is about to segment -/

/-- The samples of a session's window. -/
def windowSamples (db : Database K) (sessionId : ℕ) (session : Session) (env : Env) :
    List (AnalysisSample K) :=
  findRange (db.samples sessionId) session.startedAt (session.endedAt.getD env.now)

/-- The track and the sample count with which a derivation of the session reaches the memo. -/
def scan (db : Database K) (sessionId : ℕ) (session : Session) (env : Env) :
    Option (Track K × ℕ) :=
  if session.status = .live then none
  else (resolve lower db.tracks session.track).bind fun track =>
    let count := countRange (db.samples sessionId) session.startedAt (session.endedAt.getD env.now)
    if count = 0 ∨ MAX_ANALYSIS_SAMPLES < count then none else some (track, count)

/-- What `scan` says of the tables. -/
theorem scan_eq_some {db : Database K} {id : ℕ} {session : Session} {env : Env} {track : Track K}
    {count : ℕ} (h : scan lower db id session env = some (track, count)) :
    session.status ≠ .live ∧ resolve lower db.tracks session.track = some track ∧
      countRange (db.samples id) session.startedAt (session.endedAt.getD env.now) = count ∧
      count ≠ 0 ∧ count ≤ MAX_ANALYSIS_SAMPLES := by
  unfold scan at h
  split at h
  · cases h
  · rename_i hlive
    obtain ⟨row, hrow, h⟩ := Option.bind_eq_some_iff.mp h
    dsimp only at h
    split at h
    · cases h
    · rename_i hcount
      cases h
      rw [not_or, not_lt] at hcount
      exact ⟨hlive, hrow, rfl, hcount.1, hcount.2⟩

end Scan

/-! ### A derivation on its own -/

/-- The tables differ in nothing that decides which samples a session has. -/
structure SameWindows {K : Type} (db db' : Database K) : Prop where
  samples : db'.samples = db.samples
  sessions : ∀ id session, db.sessions id = some session → ∃ session', db'.sessions id = some session' ∧
    session'.startedAt = session.startedAt ∧ session'.endedAt = session.endedAt ∧
    session'.status = session.status

section Alone

variable {K : Type}

theorem SameWindows.refl (db : Database K) : SameWindows db db :=
  ⟨rfl, fun _ session h => ⟨session, h, rfl, rfl, rfl⟩⟩

theorem SameWindows.trans {a b c : Database K} (hab : SameWindows a b) (hbc : SameWindows b c) :
    SameWindows a c := by
  refine ⟨hbc.samples.trans hab.samples, fun id session h => ?_⟩
  obtain ⟨mid, hmid, h1, h2, h3⟩ := hab.sessions id session h
  obtain ⟨last, hlast, h1', h2', h3'⟩ := hbc.sessions id mid hmid
  exact ⟨last, hlast, h1'.trans h1, h2'.trans h2, h3'.trans h3⟩

theorem sameWindows_setAnalyzedAt (db : Database K) (id : ℕ) (analyzedAt : ℤ)
    (sectorScheme : SectorScheme) : SameWindows db (db.setAnalyzedAt id analyzedAt sectorScheme) := by
  refine ⟨rfl, fun other session h => ?_⟩
  by_cases hid : other = id
  · subst hid
    refine ⟨{ session with analyzedAt := some analyzedAt, sectorScheme := some sectorScheme },
      ?_, rfl, rfl, rfl⟩
    rw [Database.setAnalyzedAt]
    dsimp only
    rw [Function.update_self, h]
    rfl
  · refine ⟨session, ?_, rfl, rfl, rfl⟩
    rw [Database.setAnalyzedAt]
    dsimp only
    rw [Function.update_of_ne hid, h]

/-- A step of a run past the memo: it loses at most the run's own entry, the windows stay, and an
answer with rows has no reason. -/
structure LateStep (db : Database K) (memo : NoCrossings) (run : Run K) (after : After K) : Prop where
  shrinks : after.noCrossings.entries ⊆ memo.entries
  windows : SameWindows db after.db
  goesOn : ∀ next, after.run = .inl next →
    next.phase.rank ≤ 5 ∧ (0 < run.phase.rank → 0 < next.phase.rank)
  answers : ∀ response, after.run = .inr response → 0 < run.phase.rank → response.reason = none

theorem lateStep_goOn {db db' : Database K} {memo memo' : NoCrossings} {run : Run K}
    {phase : Phase K} (hmemo : memo'.entries ⊆ memo.entries) (hdb : SameWindows db db')
    (hle : phase.rank ≤ 5) (hpos : 0 < phase.rank) :
    LateStep db memo run (goOn db' memo' run phase) where
  shrinks := hmemo
  windows := hdb
  goesOn next h := by
    cases h
    exact ⟨hle, fun _ => hpos⟩
  answers response h := by cases h

section Late

variable [Field K] [LinearOrder K] [FloorRing K] (M : MathLib K) (lower : String → String)
  {env : Env} {db : Database K} {run : Run K}

theorem advance_late (memo : NoCrossings) (h : run.phase.rank ≤ 5) :
    LateStep db memo run (advance M lower env db memo run) := by
  have hsame : memo.entries ⊆ memo.entries := List.Subset.refl _
  obtain ⟨id, session, replace, phase⟩ := run
  cases phase with
  | resolving => exact absurd h (Nat.not_le_of_lt (Nat.le_of_ble_eq_true rfl))
  | counting track => exact absurd h (Nat.not_le_of_lt (Nat.le_of_ble_eq_true rfl))
  | reading track upTo count => exact absurd h (Nat.not_le_of_lt (Nat.le_of_ble_eq_true rfl))
  | listing =>
    exact ⟨hsame, .refl db, (fun next h => by cases h), fun _ _ h => absurd h (Nat.lt_irrefl 0)⟩
  | skipping reason =>
    exact ⟨hsame, .refl db, (fun next h => by cases h), fun _ _ h => absurd h (Nat.lt_irrefl 0)⟩
  | readingBack analyzedAt reads =>
    refine ⟨hsame, .refl db, (fun next h => by cases h), fun response h _ => ?_⟩
    cases h
    rfl
  | mapping track samples =>
    simp only [advance]
    split
    · exact lateStep_goOn hsame (.refl db) (Nat.le_of_ble_eq_true rfl) (Nat.le_of_ble_eq_true rfl)
    · exact lateStep_goOn hsame (.refl db) (Nat.le_of_ble_eq_true rfl) (Nat.le_of_ble_eq_true rfl)
  | persisting reads =>
    simp only [advance]
    split
    · exact lateStep_goOn hsame (.refl db) (Nat.le_of_ble_eq_true rfl) (Nat.le_of_ble_eq_true rfl)
    · exact lateStep_goOn hsame ⟨rfl, fun _ session h => ⟨session, h, rfl, rfl, rfl⟩⟩
        (Nat.le_of_ble_eq_true rfl) (Nat.le_of_ble_eq_true rfl)
  | writing reads =>
    exact lateStep_goOn hsame ⟨rfl, fun _ session h => ⟨session, h, rfl, rfl, rfl⟩⟩
      (Nat.le_of_ble_eq_true rfl) (Nat.le_of_ble_eq_true rfl)
  | stamping reads =>
    exact lateStep_goOn (fun entry h => (NoCrossings.mem_delete.mp h).1)
      (sameWindows_setAnalyzedAt db id env.now _) (Nat.le_of_ble_eq_true rfl)
      (Nat.le_of_ble_eq_true rfl)

/-- Past the memo, the memo decides nothing. -/
theorem advance_memo (memo memo' : NoCrossings) (h : run.phase.rank ≤ 5) :
    (advance M lower env db memo run).db = (advance M lower env db memo' run).db ∧
      (advance M lower env db memo run).run = (advance M lower env db memo' run).run := by
  obtain ⟨id, session, replace, phase⟩ := run
  cases phase with
  | resolving => exact absurd h (Nat.not_le_of_lt (Nat.le_of_ble_eq_true rfl))
  | counting track => exact absurd h (Nat.not_le_of_lt (Nat.le_of_ble_eq_true rfl))
  | reading track upTo count => exact absurd h (Nat.not_le_of_lt (Nat.le_of_ble_eq_true rfl))
  | mapping track samples =>
    simp only [advance]
    split <;> exact ⟨rfl, rfl⟩
  | persisting reads =>
    simp only [advance]
    split <;> exact ⟨rfl, rfl⟩
  | _ => exact ⟨rfl, rfl⟩

/-- **A run past the memo, to its answer.** -/
theorem finish_late {n : ℕ} (h : run.phase.rank ≤ 5) (hn : run.phase.rank < n) (memo : NoCrossings) :
    ∃ after response, finish M lower env n db memo run = some after ∧ after.run = .inr response ∧
      after.noCrossings.entries ⊆ memo.entries ∧ SameWindows db after.db ∧
      (0 < run.phase.rank → response.reason = none) ∧
      ∀ memo', ∃ after', finish M lower env n db memo' run = some after' ∧
        after'.run = .inr response := by
  induction n generalizing db memo run with
  | zero => exact absurd hn (Nat.not_lt_zero _)
  | succ n ih =>
    obtain ⟨hshrinks, hwindows, hgoesOn, hanswers⟩ :
        LateStep db memo run (advance M lower env db memo run) := advance_late M lower memo h
    cases hrun : (advance M lower env db memo run).run with
    | inr response =>
      refine ⟨advance M lower env db memo run, response, ?_, hrun, hshrinks, hwindows,
        hanswers response hrun, fun memo' => ⟨advance M lower env db memo' run, ?_, ?_⟩⟩
      · rw [finish]
        simp only [hrun]
      · rw [finish]
        simp only [← (advance_memo M lower memo memo' h).2, hrun]
      · rw [← (advance_memo M lower memo memo' h).2, hrun]
    | inl next =>
      obtain ⟨hle, hpos⟩ := hgoesOn next hrun
      have hlt := Nat.lt_of_lt_of_le (advance_rank M lower hrun) (Nat.le_of_lt_succ hn)
      obtain ⟨after, response, hfinish, hanswer, hsub, hsame, hreason, hother⟩ :=
        @ih (advance M lower env db memo run).db next hle hlt
          (advance M lower env db memo run).noCrossings
      refine ⟨after, response, ?_, hanswer, fun _ he => hshrinks (hsub he), hwindows.trans hsame,
        fun h => hreason (hpos h), fun memo' => ?_⟩
      · rw [finish]
        simp only [hrun, hfinish]
      · obtain ⟨hdb, hnext⟩ := @advance_memo K _ _ _ M lower env db run memo memo' h
        obtain ⟨after', hfinish', hanswer'⟩ :=
          hother (advance M lower env db memo' run).noCrossings
        refine ⟨after', ?_, hanswer'⟩
        rw [finish]
        simp only [← hnext, hrun, ← hdb, hfinish']

/-! ### A derivation from its start -/

variable (env db) (memo : NoCrossings) (id : ℕ) (session : Session) (replace : Bool)

/-- The answer of a derivation that declined to run. -/
def skipped (reason : AnalysisSkipReason) : LapsResponse K :=
  respond session (if replace then findBySession (db.laps id) else []) (some reason)

theorem finish_skipping (n : ℕ) (reason : AnalysisSkipReason) :
    finish M lower env (n + 1) db memo ⟨id, session, replace, .skipping reason⟩ =
      some ⟨db, memo, .inr (skipped db id session replace reason)⟩ := rfl

variable {env db id session}

/-- A derivation that does not get as far as the memo does not depend on it. -/
theorem finish_unscanned (h : scan lower db id session env = none) :
    ∃ reason, ∀ memo, finish M lower env 9 db memo ⟨id, session, replace, derivePhase session⟩ =
      some ⟨db, memo, .inr (skipped db id session replace reason)⟩ := by
  unfold scan at h
  unfold derivePhase
  split at h
  · rename_i hlive
    rw [if_pos hlive]
    exact ⟨.sessionLive, fun memo => finish_skipping M lower env db memo id session replace 8 _⟩
  · rename_i hlive
    rw [if_neg hlive]
    cases htrack : resolve lower db.tracks session.track with
    | none =>
      refine ⟨.noTrackGate, fun memo => ?_⟩
      simp only [finish, advance, goOn, htrack]
      rfl
    | some track =>
      rw [htrack, Option.bind_some] at h
      dsimp only at h
      split at h
      · rename_i hcount
        by_cases hzero :
            countRange (db.samples id) session.startedAt (session.endedAt.getD env.now) = 0
        · refine ⟨.noSamples, fun memo => ?_⟩
          simp only [finish, advance, goOn, htrack, hzero, if_true]
          rfl
        · have hmany := hcount.resolve_left hzero
          refine ⟨.tooManySamples, fun memo => ?_⟩
          simp only [finish, advance, goOn, htrack, hzero, if_false, hmany, if_true]
          rfl
      · cases h

variable {track : Track K} {count : ℕ}

/-- A derivation that finds its own memo entry declines to run. -/
theorem finish_hit (hscan : scan lower db id session env = some (track, count))
    (hhit : memo.get id = some ⟨count, track.updatedAt⟩) :
    finish M lower env 9 db memo ⟨id, session, replace, derivePhase session⟩ =
      some ⟨db, memo, .inr (skipped db id session replace .noCrossings)⟩ := by
  obtain ⟨hlive, htrack, hcount, hzero, hmax⟩ := scan_eq_some lower hscan
  rw [derivePhase, if_neg hlive]
  simp only [finish, advance, goOn, htrack, hcount, hzero, if_false, not_lt.mpr hmax, hhit, if_true]
  rfl

/-- Past the memo it reads the samples. -/
theorem finish_scan (hscan : scan lower db id session env = some (track, count))
    (hmiss : memo.get id ≠ some ⟨count, track.updatedAt⟩) :
    finish M lower env 9 db memo ⟨id, session, replace, derivePhase session⟩ =
      finish M lower env 7 db memo
        ⟨id, session, replace, .reading track (session.endedAt.getD env.now) count⟩ := by
  obtain ⟨hlive, htrack, hcount, hzero, hmax⟩ := scan_eq_some lower hscan
  rw [derivePhase, if_neg hlive]
  conv_lhs => rw [finish]
  simp only [advance, goOn, htrack]
  conv_lhs => rw [finish]
  simp only [advance, goOn, hcount, hzero, if_false, not_lt.mpr hmax, hmiss]

/-- Where it finds no lap it remembers so. -/
theorem finish_noCrossings (hscan : scan lower db id session env = some (track, count))
    (hmiss : memo.get id ≠ some ⟨count, track.updatedAt⟩)
    (hnone : segmentLaps M {} (gateOf track) (windowSamples db id session env) = []) :
    finish M lower env 9 db memo ⟨id, session, replace, derivePhase session⟩ =
      some ⟨db, memo.remember id ⟨count, track.updatedAt⟩,
        .inr (skipped db id session replace .noCrossings)⟩ := by
  rw [finish_scan M lower memo replace hscan hmiss, finish]
  rw [windowSamples] at hnone
  simp only [advance, goOn, hnone, List.isEmpty_nil, if_true]
  exact finish_skipping M lower env db _ id session replace 5 _

/-- Where it finds laps it answers with rows and no reason, whatever else the memo holds. -/
theorem finish_laps (hscan : scan lower db id session env = some (track, count))
    (hmiss : memo.get id ≠ some ⟨count, track.updatedAt⟩)
    (hsome : segmentLaps M {} (gateOf track) (windowSamples db id session env) ≠ []) :
    ∃ after response, finish M lower env 9 db memo ⟨id, session, replace, derivePhase session⟩ =
        some after ∧ after.run = .inr response ∧ after.noCrossings.entries ⊆ memo.entries ∧
      SameWindows db after.db ∧ response.reason = none ∧
      ∀ memo' : NoCrossings, memo'.get id ≠ some ⟨count, track.updatedAt⟩ → ∃ after',
        finish M lower env 9 db memo' ⟨id, session, replace, derivePhase session⟩ = some after' ∧
          after'.run = .inr response := by
  have hempty : (segmentLaps M {} (gateOf track)
      (findRange (db.samples id) session.startedAt (session.endedAt.getD env.now))).isEmpty = false :=
    List.isEmpty_eq_false_iff.mpr hsome
  -- reading goes on to a phase past the memo, the same one whatever the memo holds
  obtain ⟨phase, hle, hpos, hread⟩ : ∃ phase : Phase K, phase.rank ≤ 5 ∧ 0 < phase.rank ∧
      ∀ memo, advance M lower env db memo
          ⟨id, session, replace, .reading track (session.endedAt.getD env.now) count⟩ =
        goOn db memo
          ⟨id, session, replace, .reading track (session.endedAt.getD env.now) count⟩ phase := by
    cases hknown : (knownSectorGates (known track)).isSome with
    | true =>
      refine ⟨.writing ⟨track, windowSamples db id session env, none⟩, Nat.le_of_ble_eq_true rfl,
        Nat.le_of_ble_eq_true rfl, fun memo => ?_⟩
      simp only [advance, hempty, hknown, if_true, if_false, Bool.false_eq_true]
      rfl
    | false =>
      refine ⟨.mapping track (windowSamples db id session env), Nat.le_of_ble_eq_true rfl,
        Nat.le_of_ble_eq_true rfl, fun memo => ?_⟩
      simp only [advance, hempty, hknown, if_false, Bool.false_eq_true]
      rfl
  have hstep : ∀ memo, finish M lower env 7 db memo
        ⟨id, session, replace, .reading track (session.endedAt.getD env.now) count⟩ =
      finish M lower env 6 db memo ⟨id, session, replace, phase⟩ := by
    intro memo
    rw [finish, hread]
    rfl
  obtain ⟨after, response, hfinish, hanswer, hsub, hsame, hreason, hother⟩ :=
    @finish_late K _ _ _ M lower env db ⟨id, session, replace, phase⟩ 6 hle (Nat.lt_succ_of_le hle)
      memo
  refine ⟨after, response, ?_, hanswer, hsub, hsame, hreason hpos, fun memo' hmiss' => ?_⟩
  · rw [finish_scan M lower memo replace hscan hmiss, hstep]
    exact hfinish
  · rw [finish_scan M lower memo' replace hscan hmiss', hstep]
    exact hother memo'

end Late

end Alone

end TelemetryCloud.AnalysisService
