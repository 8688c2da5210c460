import TelemetryCloud.AnalysisMemo

/-!
# Derivations at the same time

Any number of `getLaps` and `recompute` runs on any number of instances of the service over the same
tables, one database call at a time, any of which may crash after any of them, while samples arrive
and the sessions, the tracks and their maps are written.

* `step`, `sources` : the system, and the inputs of the run whose rows a session has;
* `Careful` : what a run that inserts, stamps or crashes must not do;
* `Sound`, `sound_step` : what every step meeting it keeps;
* `careful_of_agree` : runs of the same inputs meet it;
* `laps_of_one_run` : **the stored laps are those of one run, and the scheme is that run's**;
* `lateSamples_merged` : where two runs' rows merge.
-/

namespace TelemetryCloud.AnalysisRuns

open TelemetryCloud.Geometry TelemetryCloud.Derivation
open Gates LapSegmenter LapTrace SectorGates AnalysisService AnalysisMemo Runs

/-! ### The system -/

/-- A run on one instance of the service. -/
structure InFlight (K : Type) where
  node : ℕ
  run : Run K

structure System (K : Type) where
  db : Database K
  memos : ℕ → NoCrossings
  runs : ℕ → Option (InFlight K)

inductive Event (K : Type)
  | getLaps (r node sessionId : ℕ)
  | recompute (r node sessionId : ℕ)
  | advance (r : ℕ) (env : Env)
  | crash (r : ℕ)
  /-- An instance restarts, and its memo is gone. -/
  | restart (node : ℕ)
  | arrive (sessionId : ℕ) (sample : StoredSample K)
  | setTrack (track : Track K)
  | setCircuit (trackId : ℕ) (circuit : Option (ReadyCircuit K))
  /-- A session row is created or written over, its stamp apart. -/
  | putSession (sessionId : ℕ) (session : Session)

/-- What only `setAnalyzedAt` writes. -/
def stamp (session : Session) : Option ℤ × Option SectorScheme :=
  (session.analyzedAt, session.sectorScheme)

section Code

variable {K : Type} [Field K] [LinearOrder K] [FloorRing K] (M : MathLib K) (lower : String → String)

/-- One database call of a run in flight; with its answer the run is over. -/
def advanced (s : System K) (r : ℕ) (f : InFlight K) (env : Env) : System K :=
  let after := advance M lower env s.db (s.memos f.node) f.run
  { db := after.db
    memos := Function.update s.memos f.node after.noCrossings
    runs := Function.update s.runs r (after.run.getLeft?.map fun run => ⟨f.node, run⟩) }

/-- A call starts, `r` being its name from here on; without the session it throws. -/
def started (s : System K) (r node sessionId : ℕ) (run : Session → Run K) : Option (System K) :=
  if (s.runs r).isSome then none
  else (s.db.sessions sessionId).map fun session =>
    { s with runs := Function.update s.runs r (some ⟨node, run session⟩) }

def step (s : System K) : Event K → Option (System K)
  | .getLaps r node sessionId => started s r node sessionId (getLapsRun sessionId)
  | .recompute r node sessionId =>
    started { s with memos := Function.update s.memos node ((s.memos node).delete sessionId) }
      r node sessionId (recomputeRun sessionId)
  | .advance r env => (s.runs r).map fun f => advanced M lower s r f env
  | .crash r => (s.runs r).map fun _ => { s with runs := Function.update s.runs r none }
  | .restart node => some { s with memos := Function.update s.memos node .empty }
  | .arrive sessionId sample => some { s with db := s.db.arrive sessionId sample }
  | .setTrack track => some { s with db := s.db.setTrack track }
  | .setCircuit trackId circuit =>
    some { s with db := { s.db with circuits := Function.update s.db.circuits trackId circuit } }
  | .putSession sessionId session =>
    if ((s.db.sessions sessionId).map stamp).getD (none, none) = stamp session then
      some { s with
        db := { s.db with sessions := Function.update s.db.sessions sessionId (some session) } }
    else none

/-- No run, and nothing in the memos. -/
def start (db : Database K) : System K := ⟨db, fun _ => .empty, fun _ => none⟩

/-- Nothing was derived yet. -/
def Fresh (db : Database K) : Prop :=
  (∀ id, db.laps id = []) ∧
    ∀ id session, db.sessions id = some session → session.analyzedAt.isSome = false

/-! ### Whose rows a session has -/

/-- A run's rows become the session's: they are put in the place of the rows there, or there are
more of them. -/
def puts (stored : Option (Reads K)) (own : Reads K) (replace : Bool) : Bool :=
  replace || stored.all fun stored => (stored.derived M).length < (own.derived M).length

/-- The inputs of the run whose rows each session has, after one more event. -/
def source (s : System K) (e : Event K) (g : ℕ → Option (Reads K)) : ℕ → Option (Reads K) :=
  match e with
  | .advance r _ =>
    match s.runs r with
    | some ⟨_, ⟨id, _, replace, .writing own⟩⟩ =>
      if puts M (g id) own replace then Function.update g id (some own) else g
    | _ => g
  | _ => g

/-- **The inputs of the run whose rows each session has**, in a run from fresh tables. -/
def sources (db : Database K) (es : List (Event K)) : ℕ → Option (Reads K) :=
  history (step M lower) (source M) (start db) (fun _ => none) es

/-! ### The condition -/

/-- The run is about to stamp the session, and its laps are split on gates just when these are. -/
def Stamps (s : System K) (r id : ℕ) (stored : Reads K) : Prop :=
  ∃ f own, s.runs r = some f ∧ f.run.sessionId = id ∧ f.run.phase = .stamping own ∧
    own.usesGates M = stored.usesGates M

/-- The session row says how these laps are split. -/
def Says (session : Session) (stored : Reads K) : Prop :=
  session.sectorScheme = some (if stored.usesGates M then .gates else .distance)

/-- **What a run must not do to the rows another one stored**: where it inserts, it has no more laps
than there are rows, or those are the first of its own; where it stamps, its laps are split on gates
just when the rows are; and where it crashes instead of stamping a session that has a stamp, that
stamp says how they are split.  Another run about to stamp the session so makes up for the last
two. -/
def Careful (x : System K × (ℕ → Option (Reads K))) : Event K → Prop
  | .advance r _ => ∀ f, x.1.runs r = some f →
    match f.run.phase with
    | .writing own => f.run.replace = false →
      (derivation M own).laps.length ≤ (x.1.db.laps f.run.sessionId).length ∨
        x.1.db.laps f.run.sessionId <+: (derivation M own).laps
    | .stamping own => ∀ stored, x.2 f.run.sessionId = some stored →
      own.usesGates M = stored.usesGates M ∨
        ∃ r', r' ≠ r ∧ Stamps M x.1 r' f.run.sessionId stored
    | _ => True
  | .crash r => ∀ f, x.1.runs r = some f →
    match f.run.phase with
    | .stamping _ => ∀ stored session, x.2 f.run.sessionId = some stored →
      x.1.db.sessions f.run.sessionId = some session → session.analyzedAt.isSome →
        Says M session stored ∨ ∃ r', r' ≠ r ∧ Stamps M x.1 r' f.run.sessionId stored
    | _ => True
  | _ => True

end Code

/-! ### What one database call does -/

section Advance

variable {K : Type} [Field K] [LinearOrder K] [FloorRing K] (M : MathLib K)

/-- A phase past the segmentation has laps. -/
def Segmented : Phase K → Prop
  | .mapping track samples => segmentLaps M {} (gateOf track) samples ≠ []
  | .persisting reads => reads.derived M ≠ []
  | .writing reads => reads.derived M ≠ []
  | .stamping reads => reads.derived M ≠ []
  | _ => True

/-- A call that is no write of laps and no stamp. -/
structure Aside (db : Database K) (run : Run K) (after : After K) : Prop where
  laps : after.db.laps = db.laps
  sessions : after.db.sessions = db.sessions
  goesOn : ∀ next, after.run = .inl next →
    Segmented M next.phase ∧ ∀ own, next.phase ≠ .stamping own

theorem aside_goOn {db db' : Database K} {memo : NoCrossings} {run : Run K} {phase : Phase K}
    (hlaps : db'.laps = db.laps) (hsessions : db'.sessions = db.sessions) (h : Segmented M phase)
    (hstamping : ∀ own, phase ≠ .stamping own) : Aside M db run (goOn db' memo run phase) where
  laps := hlaps
  sessions := hsessions
  goesOn next hnext := by
    cases hnext
    exact ⟨h, hstamping⟩

theorem aside_answer (db : Database K) (memo : NoCrossings) (run : Run K) (response : LapsResponse K) :
    Aside M db run ⟨db, memo, .inr response⟩ :=
  ⟨rfl, rfl, fun next h => by cases h⟩

theorem advance_aside (lower : String → String) (env : Env) (db : Database K) (memo : NoCrossings)
    (run : Run K) (h : Segmented M run.phase) (hwriting : ∀ own, run.phase ≠ .writing own)
    (hstamping : ∀ own, run.phase ≠ .stamping own) :
    Aside M db run (advance M lower env db memo run) := by
  obtain ⟨id, session, replace, phase⟩ := run
  have hskip : ∀ memo reason,
      Aside M db ⟨id, session, replace, phase⟩ (goOn db memo ⟨id, session, replace, phase⟩
        (.skipping reason)) :=
    fun memo reason => aside_goOn M rfl rfl trivial fun own h => by cases h
  cases phase with
  | writing own => exact absurd rfl (hwriting own)
  | stamping own => exact absurd rfl (hstamping own)
  | listing => exact aside_answer M db memo _ _
  | skipping reason => exact aside_answer M db memo _ _
  | readingBack analyzedAt reads => exact aside_answer M db memo _ _
  | resolving =>
    simp only [advance]
    split
    · exact hskip _ _
    · exact aside_goOn M rfl rfl trivial fun own h => by cases h
  | counting track =>
    simp only [advance]
    split
    · exact hskip _ _
    · split
      · exact hskip _ _
      · split
        · exact hskip _ _
        · exact aside_goOn M rfl rfl trivial fun own h => by cases h
  | reading track upTo count =>
    simp only [advance]
    split
    · exact hskip _ _
    · rename_i hne
      have hsome := fun hnil => hne (List.isEmpty_iff.mpr hnil)
      split
      · exact aside_goOn M rfl rfl hsome fun own h => by cases h
      · exact aside_goOn M rfl rfl hsome fun own h => by cases h
  | mapping track samples =>
    simp only [advance]
    split
    · exact aside_goOn M rfl rfl h fun own h => by cases h
    · exact aside_goOn M rfl rfl h fun own h => by cases h
  | persisting reads =>
    simp only [advance]
    split
    · exact aside_goOn M rfl rfl h fun own h => by cases h
    · exact aside_goOn M rfl rfl h fun own h => by cases h

end Advance

/-! ### The invariant -/

section Sound

variable {K : Type} [Field K] [LinearOrder K] [FloorRing K] (M : MathLib K)

/-- **What holds of every state**: the rows of a session are those of the run they are of, and a
stamp says how they are split, or a run is about to stamp it so. -/
structure Sound (s : System K) (g : ℕ → Option (Reads K)) : Prop where
  segmented : ∀ r f, s.runs r = some f → Segmented M f.run.phase
  bare : ∀ id, g id = none → s.db.laps id = []
  stored : ∀ id reads, g id = some reads →
    reads.derived M ≠ [] ∧ s.db.laps id = (derivation M reads).laps
  written : ∀ r f own, s.runs r = some f → f.run.phase = .stamping own →
    ∃ reads, g f.run.sessionId = some reads
  settled : ∀ id session, s.db.sessions id = some session → session.analyzedAt.isSome →
    ∃ reads, g id = some reads ∧ (Says M session reads ∨ ∃ r, Stamps M s r id reads)

variable {M} {s t : System K} {g : ℕ → Option (Reads K)}

theorem Stamps.of_runs {r id : ℕ} {stored : Reads K} (h : Stamps M s r id stored)
    (hkeeps : ∀ f own, s.runs r = some f → f.run.phase = .stamping own → t.runs r = some f) :
    Stamps M t r id stored := by
  obtain ⟨f, own, hrun, hid, hphase, hgates⟩ := h
  exact ⟨f, own, hkeeps f own hrun hphase, hid, hphase, hgates⟩

theorem sound_start {db : Database K} (h : Fresh db) : Sound M (start db) fun _ => none where
  segmented r f hrun := by cases hrun
  bare id _ := h.1 id
  stored id reads hg := by cases hg
  written r f own hrun := by cases hrun
  settled id session hsession hanalyzed := by
    rw [h.2 id session hsession] at hanalyzed
    cases hanalyzed

/-- **The frame of the invariant**: a step that leaves the laps, the stamps and the runs about to
stamp as they are, and brings no run about to stamp a session without rows. -/
theorem Sound.frame (h : Sound M s g) (hlaps : t.db.laps = s.db.laps)
    (hsessions : ∀ id session, t.db.sessions id = some session → session.analyzedAt.isSome →
      ∃ old, s.db.sessions id = some old ∧ stamp old = stamp session)
    (hruns : ∀ r f, t.runs r = some f → s.runs r = some f ∨ Segmented M f.run.phase ∧
      ∀ own, f.run.phase = .stamping own → ∃ reads, g f.run.sessionId = some reads)
    (hkeeps : ∀ r f own, s.runs r = some f → f.run.phase = .stamping own → t.runs r = some f) :
    Sound M t g where
  segmented r f hrun := by
    rcases hruns r f hrun with hold | ⟨hnew, -⟩
    · exact h.segmented r f hold
    · exact hnew
  bare id hg := by
    rw [hlaps]
    exact h.bare id hg
  stored id reads hg := by
    rw [hlaps]
    exact h.stored id reads hg
  written r f own hrun hphase := by
    rcases hruns r f hrun with hold | ⟨-, hnew⟩
    · exact h.written r f own hold hphase
    · exact hnew own hphase
  settled id session hsession hanalyzed := by
    obtain ⟨old, hold, hstamp⟩ := hsessions id session hsession hanalyzed
    obtain ⟨hat, hscheme⟩ := Prod.mk.inj hstamp
    obtain ⟨reads, hg, hsays⟩ := h.settled id old hold (by rw [hat]; exact hanalyzed)
    refine ⟨reads, hg, ?_⟩
    rcases hsays with hsays | ⟨r, hstamps⟩
    · left
      rw [Says, ← hscheme]
      exact hsays
    · exact .inr ⟨r, hstamps.of_runs (hkeeps r)⟩

variable {r : ℕ} {f? : Option (InFlight K)} {db : Database K} {memos : ℕ → NoCrossings}

/-- A run that is not about to stamp may start, end or go on; it stamps only where there are rows. -/
theorem Sound.frame_run (h : Sound M s g) (hlaps : db.laps = s.db.laps)
    (hsessions : db.sessions = s.db.sessions)
    (hold : ∀ f own, s.runs r = some f → f.run.phase ≠ .stamping own)
    (hnew : ∀ f, f? = some f → Segmented M f.run.phase ∧
      ∀ own, f.run.phase = .stamping own → ∃ reads, g f.run.sessionId = some reads) :
    Sound M ⟨db, memos, Function.update s.runs r f?⟩ g := by
  refine h.frame hlaps (fun id session hsession _ => ⟨session, ?_, rfl⟩) ?_ ?_
  · rw [← hsessions]
    exact hsession
  · intro r' f hrun
    change Function.update s.runs r f? r' = some f at hrun
    by_cases hr : r' = r
    · subst hr
      rw [Function.update_self] at hrun
      exact .inr (hnew f hrun)
    · rw [Function.update_of_ne hr] at hrun
      exact .inl hrun
  · intro r' f own hrun hphase
    by_cases hr : r' = r
    · subst hr
      exact absurd hphase (hold f own hrun)
    · show Function.update s.runs r f? r' = some f
      rw [Function.update_of_ne hr]
      exact hrun

/-! ### The steps that write -/

/-- Another run about to stamp still is. -/
theorem Stamps.of_ne {r' id : ℕ} {stored : Reads K} (h : Stamps M s r' id stored) (hne : r' ≠ r) :
    Stamps M ⟨db, memos, Function.update s.runs r f?⟩ r' id stored :=
  h.of_runs fun f own hrun _ => by
    show Function.update s.runs r f? r' = some f
    rw [Function.update_of_ne hne]
    exact hrun

/-- A run of another session is another run. -/
theorem Stamps.ne_of_session {r' id : ℕ} {stored : Reads K} {f : InFlight K}
    (h : Stamps M s r' id stored) (hrun : s.runs r = some f) (hid : f.run.sessionId ≠ id) :
    r' ≠ r := by
  obtain ⟨f', own, hrun', hid', -, -⟩ := h
  rintro rfl
  rw [hrun, Option.some.injEq] at hrun'
  rw [hrun'] at hid
  exact hid hid'

variable {node id : ℕ} {session : Session} {replace : Bool} {own : Reads K}

/-- The rows a session has after a run wrote its own. -/
def rowsAfter (rows laps : List (Lap K)) (replace : Bool) : List (Lap K) :=
  if replace then replaceSession laps else insertIgnoringDuplicates rows laps

/-- A run that leaves the rows of a session as they are has no more laps than there are. -/
theorem rowsAfter_kept (h : Sound M s g) (hown : own.derived M ≠ [])
    (hputs : puts M (g id) own replace = false) :
    (∃ stored, g id = some stored) ∧
      rowsAfter (s.db.laps id) (derivation M own).laps replace = s.db.laps id := by
  rw [puts, Bool.or_eq_false_iff] at hputs
  obtain ⟨rfl, hall⟩ := hputs
  obtain ⟨stored, hg⟩ : ∃ stored, g id = some stored := by
    refine Option.ne_none_iff_exists'.mp fun hnone => ?_
    rw [hnone, Option.all_none] at hall
    cases hall
  obtain ⟨hne, hlaps⟩ := h.stored id stored hg
  rw [hg, Option.all_some, decide_eq_false_iff_not, not_lt] at hall
  refine ⟨⟨stored, hg⟩, ?_⟩
  show insertIgnoringDuplicates (s.db.laps id) (derivation M own).laps = s.db.laps id
  rw [hlaps]
  refine insertIgnoringDuplicates_of_length_le (derivation_rows M hne).numbered
    (derivation_rows M hown).numbered ?_
  rw [length_derivation, length_derivation]
  exact hall

/-- A run whose rows become the session's leaves them whole, where it is careful. -/
theorem rowsAfter_own (h : Sound M s g) (hown : own.derived M ≠ [])
    (hcareful : replace = false →
      (derivation M own).laps.length ≤ (s.db.laps id).length ∨
        s.db.laps id <+: (derivation M own).laps)
    (hputs : puts M (g id) own replace = true) :
    rowsAfter (s.db.laps id) (derivation M own).laps replace = (derivation M own).laps := by
  have hnodup := (derivation_rows M hown).nodup
  cases replace with
  | true => exact replaceSession_eq _ hnodup
  | false =>
    show insertIgnoringDuplicates (s.db.laps id) (derivation M own).laps = (derivation M own).laps
    rw [puts, Bool.false_or] at hputs
    cases hg : g id with
    | none =>
      rw [h.bare id hg]
      exact replaceSession_eq _ hnodup
    | some stored =>
      rw [hg, Option.all_some, decide_eq_true_eq] at hputs
      rcases hcareful rfl with hle | hpre
      · rw [(h.stored id stored hg).2, length_derivation, length_derivation] at hle
        exact absurd hputs (not_lt.mpr hle)
      · exact insertIgnoringDuplicates_prefix hpre hnodup

/-- **A run writes its rows.** -/
theorem sound_writing (h : Sound M s g)
    (hrun : s.runs r = some ⟨node, ⟨id, session, replace, .writing own⟩⟩)
    (hcareful : replace = false →
      (derivation M own).laps.length ≤ (s.db.laps id).length ∨
        s.db.laps id <+: (derivation M own).laps) :
    Sound M ⟨s.db.setLaps id (rowsAfter (s.db.laps id) (derivation M own).laps replace), memos,
        Function.update s.runs r (some ⟨node, ⟨id, session, replace, .stamping own⟩⟩)⟩
      (if puts M (g id) own replace then Function.update g id (some own) else g) := by
  have hown : own.derived M ≠ [] := h.segmented r _ hrun
  have hnot : ∀ f own', s.runs r = some f → f.run.phase ≠ .stamping own' := by
    intro f own' hf hphase
    rw [hrun, Option.some.injEq] at hf
    subst hf
    cases hphase
  cases hputs : puts M (g id) own replace with
  | false =>
    obtain ⟨hstored, hkept⟩ := rowsAfter_kept h hown hputs
    rw [if_neg Bool.false_ne_true, hkept]
    refine h.frame_run ?_ rfl hnot fun f hf => ?_
    · exact Function.update_eq_self id s.db.laps
    · cases hf
      exact ⟨hown, fun _ _ => hstored⟩
  | true =>
    rw [if_pos rfl, rowsAfter_own h hown hcareful hputs]
    -- the session first: its rows are the run's, and the run is about to stamp it
    have hself : Stamps M ⟨s.db.setLaps id (derivation M own).laps, memos,
        Function.update s.runs r (some ⟨node, ⟨id, session, replace, .stamping own⟩⟩)⟩ r id own :=
      ⟨_, own, Function.update_self _ _ _, rfl, rfl, rfl⟩
    constructor
    · intro r' f hf
      change Function.update s.runs r _ r' = some f at hf
      by_cases hr : r' = r
      · subst hr
        rw [Function.update_self] at hf
        cases hf
        exact hown
      · rw [Function.update_of_ne hr] at hf
        exact h.segmented r' f hf
    · intro id' hg
      by_cases hid : id' = id
      · subst hid
        rw [Function.update_self] at hg
        cases hg
      · rw [Function.update_of_ne hid] at hg
        show Function.update s.db.laps id _ id' = []
        rw [Function.update_of_ne hid]
        exact h.bare id' hg
    · intro id' reads hg
      show _ ∧ Function.update s.db.laps id _ id' = _
      by_cases hid : id' = id
      · subst hid
        rw [Function.update_self] at hg ⊢
        cases hg
        exact ⟨hown, rfl⟩
      · rw [Function.update_of_ne hid] at hg ⊢
        exact h.stored id' reads hg
    · intro r' f own' hf hphase
      change Function.update s.runs r _ r' = some f at hf
      by_cases hid : f.run.sessionId = id
      · exact ⟨own, by rw [hid, Function.update_self]⟩
      · rw [Function.update_of_ne hid]
        by_cases hr : r' = r
        · subst hr
          rw [Function.update_self] at hf
          cases hf
          exact absurd rfl hid
        · rw [Function.update_of_ne hr] at hf
          exact h.written r' f own' hf hphase
    · intro id' session' hsession hanalyzed
      by_cases hid : id' = id
      · subst hid
        exact ⟨own, Function.update_self _ _ _, .inr ⟨r, hself⟩⟩
      · obtain ⟨reads, hg, hsays⟩ := h.settled id' session' hsession hanalyzed
        refine ⟨reads, by rw [Function.update_of_ne hid]; exact hg, ?_⟩
        rcases hsays with hsays | ⟨r', hstamps⟩
        · exact .inl hsays
        · exact .inr ⟨r', hstamps.of_ne (hstamps.ne_of_session hrun (Ne.symm hid))⟩

/-- A run about to stamp is gone, and its session is settled without it. -/
theorem Sound.drop (h : Sound M s g) {f : InFlight K} (hrun : s.runs r = some f)
    (hlaps : db.laps = s.db.laps)
    (hnew : ∀ f', f? = some f' → Segmented M f'.run.phase ∧ ∀ own, f'.run.phase ≠ .stamping own)
    (hothers : ∀ id, id ≠ f.run.sessionId → db.sessions id = s.db.sessions id)
    (hsettled : ∀ session, db.sessions f.run.sessionId = some session → session.analyzedAt.isSome →
      ∃ reads, g f.run.sessionId = some reads ∧
        (Says M session reads ∨ ∃ r', r' ≠ r ∧ Stamps M s r' f.run.sessionId reads)) :
    Sound M ⟨db, memos, Function.update s.runs r f?⟩ g where
  segmented r' f' hf := by
    change Function.update s.runs r f? r' = some f' at hf
    by_cases hr : r' = r
    · subst hr
      rw [Function.update_self] at hf
      exact (hnew f' hf).1
    · rw [Function.update_of_ne hr] at hf
      exact h.segmented r' f' hf
  bare id hg := by
    show db.laps id = []
    rw [hlaps]
    exact h.bare id hg
  stored id reads hg := by
    show _ ∧ db.laps id = _
    rw [hlaps]
    exact h.stored id reads hg
  written r' f' own hf hphase := by
    change Function.update s.runs r f? r' = some f' at hf
    by_cases hr : r' = r
    · subst hr
      rw [Function.update_self] at hf
      exact absurd hphase ((hnew f' hf).2 own)
    · rw [Function.update_of_ne hr] at hf
      exact h.written r' f' own hf hphase
  settled id session hsession hanalyzed := by
    change db.sessions id = some session at hsession
    by_cases hid : id = f.run.sessionId
    · subst hid
      obtain ⟨reads, hg, hsays⟩ := hsettled session hsession hanalyzed
      refine ⟨reads, hg, ?_⟩
      rcases hsays with hsays | ⟨r', hr, hstamps⟩
      · exact .inl hsays
      · exact .inr ⟨r', hstamps.of_ne hr⟩
    · rw [hothers id hid] at hsession
      obtain ⟨reads, hg, hsays⟩ := h.settled id session hsession hanalyzed
      refine ⟨reads, hg, ?_⟩
      rcases hsays with hsays | ⟨r', hstamps⟩
      · exact .inl hsays
      · exact .inr ⟨r', hstamps.of_ne (hstamps.ne_of_session hrun (Ne.symm hid))⟩

/-- **A run stamps its session.** -/
theorem sound_stamping (h : Sound M s g) (now : ℤ)
    (hrun : s.runs r = some ⟨node, ⟨id, session, replace, .stamping own⟩⟩)
    (hcareful : ∀ stored, g id = some stored → own.usesGates M = stored.usesGates M ∨
      ∃ r', r' ≠ r ∧ Stamps M s r' id stored) :
    Sound M ⟨s.db.setAnalyzedAt id now (derivation M own).sectorScheme, memos,
      Function.update s.runs r (some ⟨node, ⟨id, session, replace, .readingBack now own⟩⟩)⟩ g := by
  refine h.drop hrun rfl ?_ ?_ ?_
  · intro f' hf
    cases hf
    exact ⟨trivial, fun own h => by cases h⟩
  · intro id' hid
    exact Function.update_of_ne hid _ _
  · intro row hrow _
    obtain ⟨stored, hg⟩ := h.written r _ own hrun rfl
    refine ⟨stored, hg, ?_⟩
    rcases hcareful stored hg with hgates | hother
    · left
      change Function.update s.db.sessions id _ id = some row at hrow
      rw [Function.update_self] at hrow
      obtain ⟨old, -, rfl⟩ := Option.map_eq_some_iff.mp hrow
      rw [Says, ← hgates]
      exact congrArg some (derivation_sectorScheme M own)
    · exact .inr hother

/-- **A run crashes.** -/
theorem sound_crash (h : Sound M s g) {f : InFlight K} (hrun : s.runs r = some f)
    (hcareful : Careful M (s, g) (.crash r)) :
    Sound M ⟨s.db, s.memos, Function.update s.runs r none⟩ g := by
  by_cases hphase : ∃ own, f.run.phase = .stamping own
  · obtain ⟨own, hphase⟩ := hphase
    refine h.drop hrun rfl (fun f' hf => by cases hf) (fun _ _ => rfl) ?_
    intro session hsession hanalyzed
    obtain ⟨stored, hg⟩ := h.written r f own hrun hphase
    have hcrash := hcareful f hrun
    rw [hphase] at hcrash
    exact ⟨stored, hg, hcrash stored session hg hsession hanalyzed⟩
  · refine h.frame_run rfl rfl (fun f' own hf hstamping => ?_) (fun f' hf => by cases hf)
    rw [hrun, Option.some.injEq] at hf
    subst hf
    exact hphase ⟨own, hstamping⟩

/-- **Runs of the same inputs are careful**: where a run agrees with the one whose rows are stored,
as `insertIgnoringDuplicates` counts on, its rows and its stamp are redundant. -/
theorem careful_of_agree (hs : Sound M s g) (env : Env)
    (h : ∀ f stored own, s.runs r = some f → g f.run.sessionId = some stored →
      f.run.phase = .writing own ∨ f.run.phase = .stamping own → Agree M stored own) :
    Careful M (s, g) (.advance r env) := by
  intro f hf
  split
  · rename_i own hphase
    intro _
    show _ ∨ s.db.laps f.run.sessionId <+: _
    cases hg : g f.run.sessionId with
    | none =>
      rw [hs.bare _ hg]
      exact .inr List.nil_prefix
    | some stored =>
      rw [(hs.stored _ stored hg).2,
        (derivation_congr M (h f stored own hf hg (.inl hphase))).1]
      exact .inr (List.prefix_refl _)
  · rename_i own hphase
    intro stored hg
    exact .inl (usesGates_congr M (h f stored own hf hg (.inr hphase))).symm
  · trivial

/-! ### Every step -/

variable (lower : String → String)

/-- Only a write of laps brings other rows. -/
theorem source_aside {f : InFlight K} {env : Env} (hrun : s.runs r = some f)
    (hwriting : ∀ own, f.run.phase ≠ .writing own) : source M s (.advance r env) g = g := by
  simp only [source, hrun]
  split
  · rename_i heq
    cases heq
    exact absurd rfl (hwriting _)
  · rfl

/-- One database call of a careful run. -/
theorem sound_advance (h : Sound M s g) {f : InFlight K} (env : Env) (hrun : s.runs r = some f)
    (hcareful : Careful M (s, g) (.advance r env)) :
    Sound M (advanced M lower s r f env) (source M s (.advance r env) g) := by
  obtain ⟨node, ⟨id, session, replace, phase⟩⟩ := f
  by_cases hwriting : ∃ own, phase = .writing own
  · obtain ⟨own, rfl⟩ := hwriting
    simp only [source, hrun]
    exact sound_writing h hrun (hcareful _ hrun)
  · rw [source_aside hrun fun own hphase => hwriting ⟨own, hphase⟩]
    by_cases hstamping : ∃ own, phase = .stamping own
    · obtain ⟨own, rfl⟩ := hstamping
      exact sound_stamping h env.now hrun (hcareful _ hrun)
    · have haside := advance_aside M lower env s.db (s.memos node) ⟨id, session, replace, phase⟩
        (h.segmented r _ hrun) (fun own hphase => hwriting ⟨own, hphase⟩)
        (fun own hphase => hstamping ⟨own, hphase⟩)
      refine h.frame_run haside.laps haside.sessions (fun f own hf hphase => ?_) fun f hf => ?_
      · rw [hrun, Option.some.injEq] at hf
        subst hf
        exact hstamping ⟨own, hphase⟩
      · obtain ⟨next, hnext, rfl⟩ := Option.map_eq_some_iff.mp hf
        obtain ⟨hsegmented, hnot⟩ := haside.goesOn next (Sum.getLeft?_eq_some_iff.mp hnext)
        exact ⟨hsegmented, fun own hphase => absurd hphase (hnot own)⟩

/-- A call that starts has segmented nothing yet. -/
theorem sound_started (h : Sound M s g) {run : Session → Run K}
    (hphase : ∀ session, Segmented M (run session).phase ∧
      ∀ own, (run session).phase ≠ .stamping own)
    (hstep : started ⟨s.db, memos, s.runs⟩ r node id run = some t) : Sound M t g := by
  unfold started at hstep
  split at hstep
  · cases hstep
  · rename_i hfree
    obtain ⟨session, -, rfl⟩ := Option.map_eq_some_iff.mp hstep
    refine h.frame_run rfl rfl (fun f own hf _ => ?_) fun f hf => ?_
    · change ¬(s.runs r).isSome at hfree
      rw [hf] at hfree
      exact hfree rfl
    · cases hf
      exact ⟨(hphase session).1, fun own hstamping => absurd hstamping ((hphase session).2 own)⟩

theorem derivePhase_aside (session : Session) : Segmented M (derivePhase session : Phase K) ∧
    ∀ own, (derivePhase session : Phase K) ≠ .stamping own := by
  unfold derivePhase
  split
  · exact ⟨trivial, fun own h => by cases h⟩
  · exact ⟨trivial, fun own h => by cases h⟩

/-- **Every careful step keeps the invariant.** -/
theorem sound_step {e : Event K} (h : Sound M s g) (hcareful : Careful M (s, g) e)
    (hstep : step M lower s e = some t) : Sound M t (source M s e g) := by
  cases e with
  | getLaps r node id =>
    refine sound_started h (fun session => ?_) hstep
    unfold getLapsRun
    dsimp only
    split
    · exact ⟨trivial, fun own h => by cases h⟩
    · exact derivePhase_aside session
  | recompute r node id => exact sound_started h derivePhase_aside hstep
  | advance r env =>
    obtain ⟨f, hrun, rfl⟩ := Option.map_eq_some_iff.mp hstep
    exact sound_advance lower h env hrun hcareful
  | crash r =>
    obtain ⟨f, hrun, rfl⟩ := Option.map_eq_some_iff.mp hstep
    exact sound_crash h hrun hcareful
  | putSession id session =>
    rw [step] at hstep
    split at hstep
    · rename_i hstamp
      cases hstep
      refine h.frame rfl (fun id' row hrow hanalyzed => ?_) (fun r f hf => .inl hf)
        (fun r f own hf _ => hf)
      change Function.update s.db.sessions id _ id' = some row at hrow
      by_cases hid : id' = id
      · subst hid
        rw [Function.update_self, Option.some.injEq] at hrow
        subst hrow
        cases hold : s.db.sessions id' with
        | none =>
          rw [hold] at hstamp
          rw [← (Prod.mk.inj hstamp).1] at hanalyzed
          cases hanalyzed
        | some old =>
          rw [hold] at hstamp
          exact ⟨old, rfl, hstamp⟩
      · rw [Function.update_of_ne hid] at hrow
        exact ⟨row, hrow, rfl⟩
    · cases hstep
  | restart node =>
    cases hstep
    exact h.frame rfl (fun _ row hrow _ => ⟨row, hrow, rfl⟩) (fun _ _ hf => .inl hf)
      (fun _ _ _ hf _ => hf)
  | arrive id sample =>
    cases hstep
    exact h.frame rfl (fun _ row hrow _ => ⟨row, hrow, rfl⟩) (fun _ _ hf => .inl hf)
      (fun _ _ _ hf _ => hf)
  | setTrack track =>
    cases hstep
    exact h.frame rfl (fun _ row hrow _ => ⟨row, hrow, rfl⟩) (fun _ _ hf => .inl hf)
      (fun _ _ _ hf _ => hf)
  | setCircuit trackId circuit =>
    cases hstep
    exact h.frame rfl (fun _ row hrow _ => ⟨row, hrow, rfl⟩) (fun _ _ hf => .inl hf)
      (fun _ _ _ hf _ => hf)

variable (M)

/-- **Stored laps come from one derivation**: in every run of careful steps from fresh tables, a
session that is stamped and has no run in flight has exactly the rows of one run, and the stamp has
the scheme of that run. -/
theorem laps_of_one_run (db : Database K) (hfresh : Fresh db) (es : List (Event K)) (s : System K)
    (hrun : run (step M lower) (start db) es = some s)
    (hcareful : Meets (withHistory (step M lower) (source M)) (Careful M)
      (start db, fun _ => none) es)
    (id : ℕ) (hquiet : ∀ r f, s.runs r = some f → f.run.sessionId ≠ id) (session : Session)
    (hsession : s.db.sessions id = some session) (hanalyzed : session.analyzedAt.isSome) :
    ∃ reads, sources M lower db es id = some reads ∧
      s.db.laps id = (derivation M reads).laps ∧ LapRows (s.db.laps id) ∧
      session.sectorScheme = some (derivation M reads).sectorScheme := by
  have hsound : Sound M s (sources M lower db es) := by
    refine run_invariant (withHistory (step M lower) (source M)) (C := Careful M)
      (I := fun x => Sound M x.1 x.2) ?_ es (start db, fun _ => none)
      (s, sources M lower db es) (sound_start hfresh) hcareful ?_
    · intro x e y hx hC hstep
      obtain ⟨ht, hg⟩ := (withHistory_eq_some _ _).mp hstep
      rw [hg]
      exact sound_step lower hx hC ht
    · rw [run_withHistory, hrun]
      rfl
  obtain ⟨reads, hg, hsays⟩ := hsound.settled id session hsession hanalyzed
  obtain ⟨hne, hlaps⟩ := hsound.stored id reads hg
  refine ⟨reads, hg, hlaps, ?_, ?_⟩
  · rw [hlaps]
    exact derivation_rows M hne
  · rcases hsays with hsays | ⟨r, f, own, hf, hid, -, -⟩
    · rw [derivation_sectorScheme]
      exact hsays
    · exact absurd hid (hquiet r f hf)

end Sound

/-! ### A run by itself -/

section Steps

variable {K : Type}

/-- A run goes on to another phase, or ends. -/
def System.setRun (s : System K) (r : ℕ) (f? : Option (InFlight K)) : System K :=
  { s with runs := Function.update s.runs r f? }

@[simp] theorem System.setRun_runs (s : System K) (r : ℕ) (f? : Option (InFlight K)) :
    (s.setRun r f?).runs r = f? := Function.update_self _ _ _

@[simp] theorem System.setRun_setRun (s : System K) (r : ℕ) (f? f?' : Option (InFlight K)) :
    (s.setRun r f?).setRun r f?' = s.setRun r f?' := by
  rw [setRun, setRun, setRun]
  dsimp only
  rw [Function.update_idem]

variable [Field K] [LinearOrder K] [FloorRing K] (M : MathLib K) (lower : String → String)
  {s : System K} {r node id : ℕ} {f : InFlight K} {session : Session} {replace : Bool}
  {track : Track K} {count : ℕ} {own : Reads K} (env : Env)

theorem step_goOn (hrun : s.runs r = some f) {phase : Phase K}
    (h : advance M lower env s.db (s.memos f.node) f.run =
      goOn s.db (s.memos f.node) f.run phase) :
    step M lower s (.advance r env) =
      some (s.setRun r (some ⟨f.node, { f.run with phase }⟩)) := by
  rw [step, hrun, Option.map_some, advanced, h, System.setRun]
  dsimp only [goOn]
  rw [Function.update_eq_self]
  rfl

theorem step_resolving (hrun : s.runs r = some ⟨node, ⟨id, session, replace, .resolving⟩⟩)
    (hscan : scan lower s.db id session env = some (track, count)) :
    step M lower s (.advance r env) =
      some (s.setRun r (some ⟨node, ⟨id, session, replace, .counting track⟩⟩)) := by
  obtain ⟨-, htrack, -, -, -⟩ := scan_eq_some lower hscan
  refine step_goOn M lower env hrun ?_
  simp only [advance, htrack]

theorem step_counting (hrun : s.runs r = some ⟨node, ⟨id, session, replace, .counting track⟩⟩)
    (hscan : scan lower s.db id session env = some (track, count))
    (hmiss : (s.memos node).get id ≠ some ⟨count, track.updatedAt⟩) :
    step M lower s (.advance r env) =
      some (s.setRun r (some ⟨node, ⟨id, session, replace,
        .reading track (session.endedAt.getD env.now) count⟩⟩)) := by
  obtain ⟨-, -, hcount, hzero, hmax⟩ := scan_eq_some lower hscan
  refine step_goOn M lower env hrun ?_
  simp only [advance, hcount, hzero, if_false, not_lt.mpr hmax, hmiss]

theorem step_reading
    (hrun : s.runs r = some ⟨node, ⟨id, session, replace,
      .reading track (session.endedAt.getD env.now) count⟩⟩)
    (hlaps : segmentLaps M {} (gateOf track) (windowSamples s.db id session env) ≠ [])
    (hknown : (knownSectorGates (known track)).isSome) :
    step M lower s (.advance r env) =
      some (s.setRun r (some ⟨node, ⟨id, session, replace,
        .writing ⟨track, windowSamples s.db id session env, none⟩⟩⟩)) := by
  refine step_goOn M lower env hrun ?_
  rw [windowSamples] at hlaps
  simp only [advance, List.isEmpty_eq_false_iff.mpr hlaps, hknown, if_true, if_false,
    Bool.false_eq_true]
  rfl

theorem step_writing (hrun : s.runs r = some ⟨node, ⟨id, session, replace, .writing own⟩⟩) :
    step M lower s (.advance r env) =
      some ⟨s.db.setLaps id (rowsAfter (s.db.laps id) (derivation M own).laps replace), s.memos,
        Function.update s.runs r (some ⟨node, ⟨id, session, replace, .stamping own⟩⟩)⟩ := by
  rw [step, hrun, Option.map_some, advanced]
  dsimp only [advance, goOn]
  rw [Function.update_eq_self]
  rfl

theorem step_stamping (hrun : s.runs r = some ⟨node, ⟨id, session, replace, .stamping own⟩⟩) :
    step M lower s (.advance r env) =
      some ⟨s.db.setAnalyzedAt id env.now (derivation M own).sectorScheme,
        Function.update s.memos node ((s.memos node).delete id),
        Function.update s.runs r
          (some ⟨node, ⟨id, session, replace, .readingBack env.now own⟩⟩)⟩ := by
  rw [step, hrun]
  rfl

theorem step_readingBack {analyzedAt : ℤ}
    (hrun : s.runs r = some ⟨node, ⟨id, session, replace, .readingBack analyzedAt own⟩⟩) :
    step M lower s (.advance r env) = some (s.setRun r none) := by
  rw [step, hrun, Option.map_some, advanced, System.setRun]
  dsimp only [advance]
  rw [Function.update_eq_self]
  rfl

/-- The three calls that bring a run to its rows, where the sector gates are known. -/
theorem run_to_writing (hrun : s.runs r = some ⟨node, ⟨id, session, replace, .resolving⟩⟩)
    (hscan : scan lower s.db id session env = some (track, count))
    (hmiss : (s.memos node).get id ≠ some ⟨count, track.updatedAt⟩)
    (hlaps : segmentLaps M {} (gateOf track) (windowSamples s.db id session env) ≠ [])
    (hknown : (knownSectorGates (known track)).isSome) :
    run (step M lower) s [.advance r env, .advance r env, .advance r env] =
      some (s.setRun r (some ⟨node, ⟨id, session, replace,
        .writing ⟨track, windowSamples s.db id session env, none⟩⟩⟩)) := by
  rw [run_cons, step_resolving M lower env hrun hscan, Option.bind_some, run_cons,
    step_counting M lower env (System.setRun_runs _ _ _) hscan hmiss, Option.bind_some,
    System.setRun_setRun, run_cons,
    step_reading M lower env (System.setRun_runs _ _ _) hlaps hknown, Option.bind_some,
    System.setRun_setRun, run_nil]
  rfl

/-- The three calls that store them, stamp the session and read them back. -/
theorem run_from_writing (hrun : s.runs r = some ⟨node, ⟨id, session, replace, .writing own⟩⟩) :
    run (step M lower) s [.advance r env, .advance r env, .advance r env] =
      some ⟨(s.db.setLaps id (rowsAfter (s.db.laps id) (derivation M own).laps replace)).setAnalyzedAt
          id env.now (derivation M own).sectorScheme,
        Function.update s.memos node ((s.memos node).delete id),
        Function.update s.runs r none⟩ := by
  rw [run_cons, step_writing M lower env hrun, Option.bind_some, run_cons,
    step_stamping M lower env (Function.update_self _ _ _), Option.bind_some, run_cons,
    step_readingBack M lower env (Function.update_self _ _ _), Option.bind_some, run_nil]
  simp only [System.setRun, Function.update_idem]

/-- What they leave in the tables. -/
theorem run_from_writing_tables
    (hrun : s.runs r = some ⟨node, ⟨id, session, replace, .writing own⟩⟩) :
    ∃ t, run (step M lower) s [.advance r env, .advance r env, .advance r env] = some t ∧
      t.db.laps id = rowsAfter (s.db.laps id) (derivation M own).laps replace ∧
      t.db.sessions id = (s.db.sessions id).map (fun row =>
        { row with
          analyzedAt := some env.now
          sectorScheme := some (derivation M own).sectorScheme }) ∧
      t.runs = Function.update s.runs r none :=
  ⟨_, run_from_writing M lower env hrun, Function.update_self _ _ _, Function.update_self _ _ _, rfl⟩

/-- What is neither a write of laps nor a stamp is careful, and brings no other rows. -/
theorem meets_aside {t : System K} {g : ℕ → Option (Reads K)} {es : List (Event K)}
    (hrun : s.runs r = some f) (hwriting : ∀ own, f.run.phase ≠ .writing own)
    (hstamping : ∀ own, f.run.phase ≠ .stamping own)
    (hstep : step M lower s (.advance r env) = some t)
    (h : Meets (withHistory (step M lower) (source M)) (Careful M) (t, g) es) :
    Meets (withHistory (step M lower) (source M)) (Careful M) (s, g) (.advance r env :: es) := by
  refine meets_withHistory_cons _ _ ?_ hstep ?_
  · intro f' hf
    rw [hrun, Option.some.injEq] at hf
    subst hf
    split
    · exact absurd ‹_› (hwriting _)
    · exact absurd ‹_› (hstamping _)
    · trivial
  · rw [source_aside hrun hwriting]
    exact h

theorem source_writing {g : ℕ → Option (Reads K)}
    (hrun : s.runs r = some ⟨node, ⟨id, session, replace, .writing own⟩⟩) :
    source M s (.advance r env) g =
      if puts M (g id) own replace then Function.update g id (some own) else g := by
  simp only [source, hrun]

/-- A run that stamps its own rows is careful. -/
theorem meets_from_stamping {g : ℕ → Option (Reads K)} (hg : g id = some own)
    (hrun : s.runs r = some ⟨node, ⟨id, session, replace, .stamping own⟩⟩) :
    Meets (withHistory (step M lower) (source M)) (Careful M) (s, g)
      [.advance r env, .advance r env] := by
  refine meets_withHistory_cons _ _ ?_ (step_stamping M lower env hrun) ?_
  · intro f hf
    rw [hrun, Option.some.injEq] at hf
    subst hf
    intro stored hstored
    change g id = some stored at hstored
    rw [hg, Option.some.injEq] at hstored
    subst hstored
    exact .inl rfl
  · rw [source_aside hrun (fun _ h => by cases h)]
    exact meets_aside M lower env (Function.update_self _ _ _) (fun _ h => by cases h)
      (fun _ h => by cases h) (step_readingBack M lower env (Function.update_self _ _ _)) trivial

/-- A run that is the first to write is careful. -/
theorem meets_from_writing {g : ℕ → Option (Reads K)} (hg : g id = none) (hlaps : s.db.laps id = [])
    (hrun : s.runs r = some ⟨node, ⟨id, session, replace, .writing own⟩⟩) :
    Meets (withHistory (step M lower) (source M)) (Careful M) (s, g)
      [.advance r env, .advance r env, .advance r env] := by
  refine meets_withHistory_cons _ _ ?_ (step_writing M lower env hrun) ?_
  · intro f hf
    rw [hrun, Option.some.injEq] at hf
    subst hf
    intro _
    show _ ∨ s.db.laps id <+: _
    rw [hlaps]
    exact .inr List.nil_prefix
  · have hputs : puts M (g id) own replace = true := by
      rw [hg, puts, Option.all_none, Bool.or_true]
    rw [source_writing M env hrun, if_pos hputs]
    exact meets_from_stamping M lower env (Function.update_self _ _ _) (Function.update_self _ _ _)

/-- **A read of a session without rows is careful** when no other event comes between its calls. -/
theorem meets_alone {g : ℕ → Option (Reads K)} (hg : g id = none) (hbare : s.db.laps id = [])
    (hrun : s.runs r = some ⟨node, ⟨id, session, replace, .resolving⟩⟩)
    (hscan : scan lower s.db id session env = some (track, count))
    (hmiss : (s.memos node).get id ≠ some ⟨count, track.updatedAt⟩)
    (hlaps : segmentLaps M {} (gateOf track) (windowSamples s.db id session env) ≠ [])
    (hknown : (knownSectorGates (known track)).isSome) :
    Meets (withHistory (step M lower) (source M)) (Careful M) (s, g)
      [.advance r env, .advance r env, .advance r env, .advance r env, .advance r env,
        .advance r env] := by
  refine meets_aside M lower env hrun (fun _ h => by cases h) (fun _ h => by cases h)
    (step_resolving M lower env hrun hscan) ?_
  refine meets_aside M lower env (System.setRun_runs _ _ _) (fun _ h => by cases h)
    (fun _ h => by cases h) (step_counting M lower env (System.setRun_runs _ _ _) hscan hmiss) ?_
  refine meets_aside M lower env (System.setRun_runs _ _ _) (fun _ h => by cases h)
    (fun _ h => by cases h)
    (step_reading M lower env (System.setRun_runs _ _ _) hlaps hknown) ?_
  exact meets_from_writing M lower env hg hbare (System.setRun_runs _ _ _)

end Steps

/-! ### Samples that arrive between two reads -/

/-- A track with surveyed gates no lap crosses. -/
def surveyed : Track ℚ := { seeded 1 "meridian" meridianGate with sectorGates := some [farGate] }

/-- A completed session of ten seconds on it. -/
def lateSession : Session := ⟨"meridian", 0, some 10000, .completed, none, none, fun _ => rfl⟩

/-- The session with its first two passes. -/
def lateDatabase : Database ℚ where
  sessions id := if id = 0 then some lateSession else none
  tracks := [surveyed]
  samples id := if id = 0 then twoPassesRows else []
  laps _ := []
  circuits _ := none

/-- A third pass, which closes a quicker lap. -/
def thirdPass : List (AnalysisSample ℚ) := [fixAt 9000 (-1 / 10000), fixAt 9100 (1 / 10000)]

def lateEnv : Env := ⟨11000, 11000⟩

/-- Three database calls of a run. -/
def calls (r : ℕ) : List (Event ℚ) := [.advance r lateEnv, .advance r lateEnv, .advance r lateEnv]

/-- Two tabs open the session; the third pass arrives after the first of them read it. -/
def lateRun : List (Event ℚ) :=
  [.getLaps 0 0 0, .getLaps 1 0 0] ++ calls 0 ++
    thirdPass.map (fun sample => .arrive 0 ⟨sample, 0⟩) ++ calls 1 ++ calls 0 ++ calls 1

def earlyReads : Reads ℚ := ⟨surveyed, twoPasses, none⟩
def lateReads : Reads ℚ := ⟨surveyed, twoPasses ++ thirdPass, none⟩

theorem accepted_threePasses :
    ∃ x y z, accepted (passages (projectGate flatMath meridianGate)
        ((twoPasses ++ thirdPass).filterMap AnalysisSample.point?)) = [x, y, z] ∧
      x.crossing.crossMs = 50 ∧ y.crossing.crossMs = 5050 ∧ z.crossing.crossMs = 9050 := by
  have hpath : (twoPasses ++ thirdPass).filterMap AnalysisSample.point? =
      [⟨(0 : ℤ), 0, -1 / 10000, none, none⟩, ⟨(100 : ℤ), 0, 1 / 10000, none, none⟩,
        ⟨(5000 : ℤ), 0, -1 / 10000, none, none⟩, ⟨(5100 : ℤ), 0, 1 / 10000, none, none⟩,
        ⟨(9000 : ℤ), 0, -1 / 10000, none, none⟩, ⟨(9100 : ℤ), 0, 1 / 10000, none, none⟩] := rfl
  rw [hpath]
  simp only [passages, passagesFrom, passage?, findGateCrossing, intersectGate, projectGate,
    flatMath, meridianGate, toFix, isStationary, metersPerDegLon, METERS_PER_DEG_LAT, MAX_FIX_GAP_MS]
  norm_num [abs_of_pos, accepted, acceptFrom, MIN_LAP_MS]
  exact ⟨_, _, _, ⟨rfl, rfl, rfl⟩, rfl, rfl, rfl⟩

theorem lapMs_of_accepted (samples : List (AnalysisSample ℚ)) {xs : List (Passage ℚ)}
    (h : accepted (passages (projectGate flatMath meridianGate)
      (samples.filterMap AnalysisSample.point?)) = xs) :
    (segmentLaps flatMath {} meridianGate samples).map (fun lap => lap.lapMs) =
      List.zipWith (fun x y => (instants x y).2.2) xs xs.tail := by
  rw [segmentLaps_eq, h]
  refine map_lapsOf flatMath {} _ (fun lap => lap.lapMs) (fun x y => (instants x y).2.2) ?_ 1 xs
  intro n x y
  exact congrArg (fun p => p.2.2) (lapBetween_instants flatMath {} _ n x y)

theorem lapMs_earlyReads : (earlyReads.derived flatMath).map (fun lap => lap.lapMs) = [5000] := by
  obtain ⟨x, y, hchosen, hx, hy⟩ := accepted_twoPasses
  refine (lapMs_of_accepted twoPasses hchosen).trans ?_
  have hlap : y.crossing.crossMs - x.crossing.crossMs = ((5000 : ℤ) : ℚ) := by
    rw [hx, hy]
    norm_num
  show [mathRound (y.crossing.crossMs - x.crossing.crossMs)] = [5000]
  rw [hlap, mathRound_intCast]

theorem lapMs_lateReads :
    (lateReads.derived flatMath).map (fun lap => lap.lapMs) = [5000, 4000] := by
  obtain ⟨x, y, z, hchosen, hx, hy, hz⟩ := accepted_threePasses
  refine (lapMs_of_accepted _ hchosen).trans ?_
  have hfirst : y.crossing.crossMs - x.crossing.crossMs = ((5000 : ℤ) : ℚ) := by
    rw [hx, hy]
    norm_num
  have hsecond : z.crossing.crossMs - y.crossing.crossMs = ((4000 : ℤ) : ℚ) := by
    rw [hy, hz]
    norm_num
  show [mathRound (y.crossing.crossMs - x.crossing.crossMs),
    mathRound (z.crossing.crossMs - y.crossing.crossMs)] = [5000, 4000]
  rw [hfirst, hsecond, mathRound_intCast, mathRound_intCast]

theorem derived_ne_nil {reads : Reads ℚ} {n : ℤ} {ns : List ℤ}
    (h : (reads.derived flatMath).map (fun lap => lap.lapMs) = n :: ns) :
    reads.derived flatMath ≠ [] := by
  intro hnil
  rw [hnil] at h
  cases h

/-- The one row of the first read: the best lap. -/
theorem rows_earlyReads : ∃ a, (derivation flatMath earlyReads).laps = [a] ∧ a.lapNumber = 1 ∧
    a.isBest = true := by
  have hrows := derivation_rows flatMath (derived_ne_nil lapMs_earlyReads)
  have hms := derivation_map flatMath (fun row => row.lapMs) (fun lap => lap.lapMs)
    (fun _ _ => rfl) (fun _ _ => rfl) earlyReads
  rw [lapMs_earlyReads] at hms
  obtain ⟨a, hlaps⟩ := List.length_eq_one_iff.mp (by
    simpa using congrArg List.length hms : (derivation flatMath earlyReads).laps.length = 1)
  rw [hlaps] at hrows
  refine ⟨a, hlaps, ?_, ?_⟩
  · exact (List.cons.inj hrows.numbered).1
  · obtain ⟨k, best, hget, hbest, -, -⟩ := hrows.best
    rw [List.getElem?_singleton] at hget
    split at hget
    · cases hget
      exact hbest
    · cases hget

/-- The two rows of the second read: its best lap is the second. -/
theorem rows_lateReads : ∃ b c, (derivation flatMath lateReads).laps = [b, c] ∧ b.lapNumber = 1 ∧
    c.lapNumber = 2 ∧ c.isBest = true := by
  have hrows := derivation_rows flatMath (derived_ne_nil lapMs_lateReads)
  have hms := derivation_map flatMath (fun row => row.lapMs) (fun lap => lap.lapMs)
    (fun _ _ => rfl) (fun _ _ => rfl) lateReads
  rw [lapMs_lateReads] at hms
  obtain ⟨b, c, hlaps⟩ := List.length_eq_two.mp (by
    simpa using congrArg List.length hms : (derivation flatMath lateReads).laps.length = 2)
  rw [hlaps] at hrows hms
  obtain ⟨hb, hc⟩ : b.lapMs = 5000 ∧ c.lapMs = 4000 := by simpa using hms
  obtain ⟨hone, htwo⟩ : b.lapNumber = 1 ∧ c.lapNumber = 2 := by
    simpa [List.range'] using hrows.numbered
  refine ⟨b, c, hlaps, hone, htwo, ?_⟩
  obtain ⟨k, best, hget, hbest, hmin, -⟩ := hrows.best
  have hle : best.lapMs ≤ c.lapMs := hmin c (by simp)
  match k with
  | 0 =>
    cases hget
    omega
  | 1 =>
    cases hget
    exact hbest
  | k + 2 => cases hget

/-- A run of the session that is about to do `phase`. -/
def tab (phase : Phase ℚ) : Option (InFlight ℚ) := some ⟨0, ⟨0, lateSession, false, phase⟩⟩

/-- One tab has opened the session. -/
def firstOpened : System ℚ := (start lateDatabase).setRun 0 (tab .resolving)

/-- Both tabs have. -/
def opened : System ℚ := firstOpened.setRun 1 (tab .resolving)

/-- The session with all its passes. -/
def lateTables : Database ℚ :=
  { lateDatabase with
    samples := Function.update lateDatabase.samples 0
      (twoPassesRows ++ thirdPass.map fun sample => ⟨sample, 0⟩) }

/-- The first tab has its rows. -/
def earlyRead : ℕ → Option (InFlight ℚ) := Function.update opened.runs 0 (tab (.writing earlyReads))

/-- Both tabs have theirs. -/
def bothRead : ℕ → Option (InFlight ℚ) := Function.update earlyRead 1 (tab (.writing lateReads))

theorem run_early : run (step flatMath id) opened (calls 0) =
    some ⟨lateDatabase, opened.memos, earlyRead⟩ := by
  have hwindow : windowSamples opened.db 0 lateSession lateEnv = twoPasses := rfl
  have hlaps : earlyReads.derived flatMath ≠ [] := derived_ne_nil lapMs_earlyReads
  have h := @run_to_writing ℚ _ _ _ flatMath id opened 0 0 0 lateSession false surveyed 4 lateEnv
    rfl rfl (NoCrossings.get_empty_ne _ _)
  rw [hwindow] at h
  exact h hlaps rfl

theorem run_thirdPass (runs : ℕ → Option (InFlight ℚ)) :
    run (step flatMath id) ⟨lateDatabase, opened.memos, runs⟩
        (thirdPass.map fun sample => .arrive 0 ⟨sample, 0⟩) =
      some ⟨lateTables, opened.memos, runs⟩ := by
  show some (System.mk { lateDatabase with
    samples := Function.update (Function.update lateDatabase.samples 0 _) 0 _ } _ _) = _
  rw [Function.update_idem]
  rfl

theorem run_late : run (step flatMath id) ⟨lateTables, opened.memos, earlyRead⟩ (calls 1) =
    some ⟨lateTables, opened.memos, bothRead⟩ := by
  have hwindow : windowSamples lateTables 0 lateSession lateEnv = twoPasses ++ thirdPass := rfl
  have hlaps : lateReads.derived flatMath ≠ [] := derived_ne_nil lapMs_lateReads
  have h := @run_to_writing ℚ _ _ _ flatMath id ⟨lateTables, opened.memos, earlyRead⟩ 1 0 0
    lateSession false surveyed 6 lateEnv rfl rfl (NoCrossings.get_empty_ne _ _)
  dsimp only at h
  rw [hwindow] at h
  exact h hlaps rfl

/-- Where the run ends: no run is in flight, the session is stamped, and it has rows of both. -/
theorem run_lateRun : ∃ s, run (step flatMath id) (start lateDatabase) lateRun = some s ∧
    (∀ r, s.runs r = none) ∧ (s.db.sessions 0).any (·.analyzedAt.isSome) ∧
    s.db.laps 0 = rowsAfter (rowsAfter [] (derivation flatMath earlyReads).laps false)
      (derivation flatMath lateReads).laps false := by
  have hopened : run (step flatMath id) (start lateDatabase) [.getLaps 0 0 0, .getLaps 1 0 0] =
      some opened := rfl
  have hearly : (System.mk lateTables opened.memos bothRead).runs 0 =
      tab (.writing earlyReads) := rfl
  obtain ⟨s, hfirst, hlaps, hsessions, hruns⟩ :=
    run_from_writing_tables flatMath id lateEnv hearly
  have hlate : s.runs 1 = tab (.writing lateReads) := by
    rw [hruns]
    rfl
  obtain ⟨t, hsecond, hlaps', hsessions', hruns'⟩ :=
    run_from_writing_tables flatMath id lateEnv hlate
  refine ⟨t, ?_, fun r => ?_, ?_, ?_⟩
  · rw [lateRun, run_append, run_append, run_append, run_append, run_append, hopened,
      Option.bind_some, run_early, Option.bind_some, run_thirdPass, Option.bind_some, run_late,
      Option.bind_some, calls, hfirst, Option.bind_some]
    exact hsecond
  · rw [hruns', hruns]
    show Function.update (Function.update (Function.update (Function.update (Function.update
      (Function.update (fun _ => none) 0 _) 1 _) 0 _) 1 _) 0 none) 1 none r = none
    by_cases hone : r = 1
    · rw [hone, Function.update_self]
    · by_cases hzero : r = 0
      · rw [Function.update_of_ne hone, hzero, Function.update_self]
      · simp only [Function.update_of_ne hone, Function.update_of_ne hzero]
  · rw [hsessions', hsessions]
    rfl
  · rw [hlaps', hlaps]
    rfl

/-- The tables the session starts from. -/
theorem fresh_lateDatabase : Fresh lateDatabase := by
  refine ⟨fun _ => rfl, fun id session h => ?_⟩
  rw [lateDatabase] at h
  dsimp only at h
  split at h
  · cases h
    rfl
  · cases h

/-- **Two reads of one session store laps of both**: the late lap is added to the rows of the read
that did not see it, two rows are the best, and no derivation gives these rows. -/
theorem lateSamples_merged :
    ∃ s, Fresh lateDatabase ∧ run (step flatMath id) (start lateDatabase) lateRun = some s ∧
      (∀ r, s.runs r = none) ∧ (s.db.sessions 0).any (·.analyzedAt.isSome) ∧
      (∃ a c, s.db.laps 0 = [a, c] ∧ a.isBest = true ∧ c.isBest = true) ∧
      ∀ reads, s.db.laps 0 ≠ (derivation flatMath reads).laps := by
  obtain ⟨s, hrun, hquiet, hanalyzed, hlaps⟩ := run_lateRun
  obtain ⟨a, hearly, hnumber, ha⟩ := rows_earlyReads
  obtain ⟨b, c, hlate, hb, hc, hbest⟩ := rows_lateReads
  have hmerged : s.db.laps 0 = [a, c] := by
    rw [hlaps, hearly, hlate]
    simp [rowsAfter, insertIgnoringDuplicates, hnumber, hb, hc]
  refine ⟨s, fresh_lateDatabase, hrun, hquiet, hanalyzed, ⟨a, c, hmerged, ha, hbest⟩, ?_⟩
  intro reads heq
  rw [hmerged] at heq
  have hne : reads.derived flatMath ≠ [] := by
    intro hnil
    have hlength := length_derivation flatMath reads
    rw [hnil, ← heq] at hlength
    cases hlength
  obtain ⟨k, -, -, -, -, honly⟩ := (derivation_rows flatMath hne).best
  rw [← heq] at honly
  have hzero := honly 0 a rfl ha
  have hone := honly 1 c rfl hbest
  omega

/-- One read of the session with its two passes: its rows are the read's. -/
theorem laps_of_one_run_oneRead :
    ∃ s session reads,
      run (step flatMath id) (start lateDatabase) (.getLaps 0 0 0 :: (calls 0 ++ calls 0)) = some s ∧
        s.db.sessions 0 = some session ∧ s.db.laps 0 = (derivation flatMath reads).laps ∧
        LapRows (s.db.laps 0) ∧
        session.sectorScheme = some (derivation flatMath reads).sectorScheme := by
  have hlaps : earlyReads.derived flatMath ≠ [] := derived_ne_nil lapMs_earlyReads
  have hwindow : windowSamples (firstOpened.db) 0 lateSession lateEnv = twoPasses := rfl
  have hmiss := NoCrossings.get_empty_ne 0 ⟨4, 5⟩
  have hread := @run_to_writing ℚ _ _ _ flatMath id firstOpened 0 0 0 lateSession false surveyed 4
    lateEnv rfl rfl hmiss
  have hcareful := @meets_alone ℚ _ _ _ flatMath id firstOpened 0 0 0 lateSession false surveyed 4
    lateEnv (fun _ => none) rfl rfl rfl rfl hmiss
  rw [hwindow] at hread hcareful
  obtain ⟨s, hwrite, -, hsessions, hruns⟩ := run_from_writing_tables flatMath id lateEnv
    (System.setRun_runs firstOpened 0 (tab (.writing earlyReads)))
  have hrun : run (step flatMath id) (start lateDatabase)
      (.getLaps 0 0 0 :: (calls 0 ++ calls 0)) = some s := by
    show run (step flatMath id) firstOpened (calls 0 ++ calls 0) = some s
    rw [run_append, calls, hread hlaps rfl, Option.bind_some]
    exact hwrite
  have hquiet : s.runs = fun _ => none := by
    rw [hruns]
    show Function.update (Function.update (Function.update (fun _ => none) 0 _) 0 _) 0 none = _
    rw [Function.update_idem, Function.update_idem]
    exact Function.update_eq_self 0 fun _ => none
  obtain ⟨reads, -, hrows, htable, hscheme⟩ := laps_of_one_run flatMath id lateDatabase
    fresh_lateDatabase _ s hrun (meets_withHistory_cons _ _ trivial rfl (hcareful hlaps rfl)) 0
    (fun r f hf => by
      rw [hquiet] at hf
      cases hf) _ hsessions rfl
  exact ⟨s, _, reads, hrun, hsessions, hrows, htable, hscheme⟩

end TelemetryCloud.AnalysisRuns
