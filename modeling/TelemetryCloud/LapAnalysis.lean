import Mathlib.Data.List.Induction
import Mathlib.Data.List.Infix
import Mathlib.Data.Nat.Notation
import Mathlib.Order.Basic

/-!
# The laps the analysis view asks for

The browser's `LapAnalysisService`: two remembered choices, the laps of the open session as they
were last answered, and the active and the reference lap derived from the three.

* `activeLap`, `referenceLap`, `offerable` : the derived signals; `step`, `run` : the commands and
  the answers that come in between;
* `Sound` : the view asks for laps that are there; `sound_iff` : when one state is sound;
* `sound_run_iff` : **in which runs the view is sound**: those in which no answer drops a lap that a
  choice still numbers, and no command numbers one that is not there;
* `not_sound_dropped` : a recompute that drops the selected lap.
-/

namespace TelemetryCloud.LapAnalysis

/-! ### The service -/

inductive LapRef
  | lap (lapNumber : ℕ)
  | optimal
  deriving DecidableEq

/-- `unset` lets the reference default to the best lap, `noComparison` is the explicit "—". -/
inductive CompareChoice
  | unset
  | noComparison
  | ref (ref : LapRef)
  deriving DecidableEq

structure Lap where
  lapNumber : ℕ
  lapMs : ℕ
  isBest : Bool
  deriving DecidableEq

structure OptimalLap where
  lapMs : ℕ
  matchesLapNumber : Option ℕ
  deriving DecidableEq

structure LapsResponse where
  laps : List Lap
  optimal : Option OptimalLap
  deriving DecidableEq

/-- The signals.  The laps resource keeps its value over a reload, loses it when another session is
opened and when a request fails; `posts` counts the requests of `recompute` in flight. -/
structure View where
  sessionId : Option String
  selected : Option LapRef
  compareWith : CompareChoice
  lapsResponse : Option LapsResponse
  loading : Bool
  posts : ℕ
  deriving DecidableEq

namespace View

def init : View := ⟨none, none, .unset, none, false, 0⟩

variable (v : View)

def laps : List Lap := (v.lapsResponse.map (·.laps)).getD []

def optimal : Option OptimalLap := v.lapsResponse.bind (·.optimal)

def bestLap : Option ℕ := (v.laps.find? (·.isBest)).map (·.lapNumber)

/-- A ref, unless it is one this session cannot currently offer. -/
def offerable : Option LapRef → Option LapRef
  | none => none
  | some .optimal => if v.optimal.isSome then some .optimal else none
  | some (.lap lapNumber) => some (.lap lapNumber)

def activeLap : Option LapRef := (v.offerable v.selected).or (v.bestLap.map .lap)

/-- The reference of an explicit choice, or of none. -/
def referenceOf (explicit : Option LapRef) : Option LapRef :=
  match v.offerable explicit with
  | some ref => if v.activeLap = some ref then none else some ref
  | none =>
    match v.bestLap with
    | some best => if v.activeLap = some (.lap best) then none else some (.lap best)
    | none => none

def referenceLap : Option LapRef :=
  match v.compareWith with
  | .noComparison => none
  | .unset => v.referenceOf none
  | .ref ref => v.referenceOf (some ref)

/-- The session requests go to; an empty id is none. -/
def requested : Option String := v.sessionId.filter (· ≠ "")

/-- The path of a trace request, below the base URL. -/
def traceRequest (ref : Option LapRef) : Option String :=
  match v.requested, ref with
  | some id, some .optimal => some ("/sessions/" ++ id ++ "/optimal/trace")
  | some id, some (.lap lapNumber) =>
    some ("/sessions/" ++ id ++ "/laps/" ++ toString lapNumber ++ "/trace")
  | _, _ => none

/-! ### Commands -/

/-- `open`. -/
def openSession (sessionId : String) : View :=
  if v.sessionId = some sessionId then v
  else
    { v with
      sessionId := some sessionId
      selected := none
      compareWith := .unset
      lapsResponse := none
      loading := sessionId ≠ "" }

/-- What `select` and `selectRef` write. -/
def choose (ref : LapRef) : View :=
  { v with
    selected := some ref
    compareWith := if v.compareWith = .ref ref then .unset else v.compareWith }

def select (lapNumber : ℕ) : View := v.choose (.lap lapNumber)

def selectRef : Option LapRef → View
  | none => v
  | some ref => v.choose ref

def toggleCompare (lapNumber : ℕ) : View :=
  { v with
    compareWith :=
      if v.compareWith = .ref (.lap lapNumber) then .unset else .ref (.lap lapNumber) }

def setCompare (ref : Option LapRef) : View :=
  { v with compareWith := ref.elim .noComparison .ref }

/-- `recompute` up to its request. -/
def recompute : View := if v.requested.isSome then { v with posts := v.posts + 1 } else v

/-- `recompute` from where its request is answered; a resource that is idle or loading does not
reload. -/
def recomputed : View :=
  if v.posts = 0 then v
  else { v with posts := v.posts - 1, loading := v.requested.isSome }

/-- The laps request of the open session is answered, or fails. -/
def settle (response : Option LapsResponse) : View :=
  if v.loading then { v with lapsResponse := response, loading := false } else v

end View

inductive Input
  | openSession (sessionId : String)
  | select (lapNumber : ℕ)
  | selectRef (ref : Option LapRef)
  | setCompare (ref : Option LapRef)
  | toggleCompare (lapNumber : ℕ)
  | recompute
  | recomputed
  | recomputeFailed
  | laps (response : LapsResponse)
  | lapsFailed
  deriving DecidableEq

def step (v : View) : Input → View
  | .openSession sessionId => v.openSession sessionId
  | .select lapNumber => v.select lapNumber
  | .selectRef ref => v.selectRef ref
  | .setCompare ref => v.setCompare ref
  | .toggleCompare lapNumber => v.toggleCompare lapNumber
  | .recompute => v.recompute
  | .recomputed => v.recomputed
  | .recomputeFailed => { v with posts := v.posts - 1 }
  | .laps response => v.settle (some response)
  | .lapsFailed => v.settle none

def run (es : List Input) : View := es.foldl step View.init

theorem run_snoc (es : List Input) (e : Input) : run (es ++ [e]) = step (run es) e := by
  rw [run, List.foldl_append, List.foldl_cons, List.foldl_nil, run]

/-! ### What the view asks for -/

/-- The lap is there to be asked for. -/
def Offered (v : View) : LapRef → Prop
  | .lap lapNumber => lapNumber ∈ v.laps.map (·.lapNumber)
  | .optimal => v.optimal.isSome = true

/-- **The view never asks for a lap that is not there**, nor compares a lap with itself. -/
structure Sound (v : View) : Prop where
  active : ∀ ref, v.activeLap = some ref → Offered v ref
  reference : ∀ ref, v.referenceLap = some ref → Offered v ref
  distinct : v.referenceLap = v.activeLap → v.referenceLap = none

/-- A choice numbers the lap. -/
def Chosen (v : View) (lapNumber : ℕ) : Prop :=
  v.selected = some (.lap lapNumber) ∨ v.compareWith = .ref (.lap lapNumber)

/-- Every lap a choice numbers is there. -/
def Held (v : View) : Prop := ∀ n, Chosen v n → n ∈ v.laps.map (·.lapNumber)

section Signals

variable {v : View} {ref : LapRef}

theorem offered_best {best : ℕ} (h : v.bestLap = some best) : Offered v (.lap best) := by
  obtain ⟨lap, hlap, rfl⟩ := Option.map_eq_some_iff.mp h
  exact List.mem_map_of_mem (List.mem_of_find?_eq_some hlap)

/-- What is offered is there, or a number that was asked for. -/
theorem offered_offerable {choice : Option LapRef} (h : v.offerable choice = some ref) :
    Offered v ref ∨ ∃ n, choice = some (.lap n) ∧ ref = .lap n := by
  match choice, h with
  | some .optimal, h =>
    simp only [View.offerable] at h
    split at h
    · rename_i hoptimal
      cases h
      exact .inl hoptimal
    · cases h
  | some (.lap n), h =>
    cases h
    exact .inr ⟨n, rfl, rfl⟩

/-- **Only a numbered choice can leave a lap active that is not there.** -/
theorem offered_active (h : v.activeLap = some ref) :
    Offered v ref ∨ ∃ n, v.selected = some (.lap n) ∧ ref = .lap n := by
  rcases Option.or_eq_some_iff.mp h with hselected | ⟨-, hmap⟩
  · exact offered_offerable hselected
  · obtain ⟨best, hbest, rfl⟩ := Option.map_eq_some_iff.mp hmap
    exact .inl (offered_best hbest)

theorem referenceOf_eq_some {explicit : Option LapRef} (h : v.referenceOf explicit = some ref) :
    v.activeLap ≠ some ref ∧ (v.offerable explicit = some ref ∨ v.bestLap.map .lap = some ref) := by
  unfold View.referenceOf at h
  split at h
  · rename_i r hr
    split at h
    · cases h
    · rename_i hne
      cases h
      exact ⟨hne, .inl hr⟩
  · split at h
    · rename_i best hbest
      split at h
      · cases h
      · rename_i hne
        cases h
        exact ⟨hne, .inr (by rw [hbest]; rfl)⟩
    · cases h

/-- The reference is never the active lap, and is there unless a choice numbers it. -/
theorem referenceLap_eq_some (h : v.referenceLap = some ref) :
    v.activeLap ≠ some ref ∧
      (Offered v ref ∨ ∃ n, v.compareWith = .ref (.lap n) ∧ ref = .lap n) := by
  have hof : ∀ explicit, v.referenceOf explicit = some ref → v.activeLap ≠ some ref ∧
      (Offered v ref ∨ ∃ n, explicit = some (.lap n) ∧ ref = .lap n) := by
    intro explicit h
    obtain ⟨hne, hoffer | hmap⟩ := referenceOf_eq_some h
    · exact ⟨hne, offered_offerable hoffer⟩
    · obtain ⟨best, hbest, rfl⟩ := Option.map_eq_some_iff.mp hmap
      exact ⟨hne, .inl (offered_best hbest)⟩
  unfold View.referenceLap at h
  split at h
  · cases h
  · obtain ⟨hne, hoffer | ⟨n, hn, -⟩⟩ := hof _ h
    · exact ⟨hne, .inl hoffer⟩
    · cases hn
  · rename_i explicit hcompare
    obtain ⟨hne, hoffer | ⟨n, hn, hr⟩⟩ := hof _ h
    · exact ⟨hne, .inl hoffer⟩
    · cases hn
      exact ⟨hne, .inr ⟨n, hcompare, hr⟩⟩

end Signals

/-- **A state is sound exactly when the laps its choices number are there.** -/
theorem sound_iff (v : View) : Sound v ↔ Held v := by
  constructor
  · intro h n hn
    rcases hn with hselected | hcompare
    · have hactive : v.activeLap = some (.lap n) := by
        rw [View.activeLap, hselected]
        rfl
      exact h.active _ hactive
    · by_cases hactive : v.activeLap = some (.lap n)
      · exact h.active _ hactive
      · have hreference : v.referenceLap = some (.lap n) := by
          rw [View.referenceLap, hcompare]
          exact if_neg hactive
        exact h.reference _ hreference
  · intro h
    refine ⟨?_, ?_, ?_⟩
    · intro ref hactive
      obtain hoffer | ⟨n, hselected, rfl⟩ := offered_active hactive
      · exact hoffer
      · exact h n (.inl hselected)
    · intro ref hreference
      obtain ⟨-, hoffer | ⟨n, hcompare, rfl⟩⟩ := referenceLap_eq_some hreference
      · exact hoffer
      · exact h n (.inr hcompare)
    · intro hsame
      cases hreference : v.referenceLap with
      | none => rfl
      | some ref =>
        rw [hreference] at hsame
        exact absurd hsame.symm (referenceLap_eq_some hreference).1

/-- A trace is only ever requested of a lap that is there. -/
theorem traceRequest_offered {v : View} (h : Sound v) {path : String}
    (hpath : v.traceRequest v.activeLap = some path ∨ v.traceRequest v.referenceLap = some path) :
    ∃ ref, Offered v ref ∧ v.traceRequest (some ref) = some path := by
  have hrequest : ∀ choice, v.traceRequest choice = some path → ∃ ref, choice = some ref := by
    intro choice hchoice
    cases choice with
    | some ref => exact ⟨ref, rfl⟩
    | none =>
      unfold View.traceRequest at hchoice
      split at hchoice <;> contradiction
  rcases hpath with hpath | hpath
  · obtain ⟨ref, href⟩ := hrequest _ hpath
    exact ⟨ref, h.active ref href, href ▸ hpath⟩
  · obtain ⟨ref, href⟩ := hrequest _ hpath
    exact ⟨ref, h.reference ref href, href ▸ hpath⟩

/-! ### Runs -/

/-- A command numbers a lap that is there, or takes a choice back; an answer has every lap that a
choice numbers. -/
def Allowed (v : View) : Input → Prop
  | .select n | .selectRef (some (.lap n)) | .setCompare (some (.lap n)) =>
    n ∈ v.laps.map (·.lapNumber)
  | .toggleCompare n => v.compareWith = .ref (.lap n) ∨ n ∈ v.laps.map (·.lapNumber)
  | .laps response => v.loading = true → ∀ n, Chosen v n → n ∈ response.laps.map (·.lapNumber)
  | .lapsFailed => v.loading = true → ∀ n, ¬ Chosen v n
  | _ => True

section Steps

variable {v v' : View}

/-- With the same laps, it is the new choices that have to be there. -/
theorem held_same_laps (h : Held v) (hlaps : v'.laps = v.laps) :
    Held v' ↔ ∀ n, Chosen v' n → Chosen v n ∨ n ∈ v.laps.map (·.lapNumber) := by
  unfold Held
  rw [hlaps]
  constructor
  · exact fun h' n hn => .inr (h' n hn)
  · intro h' n hn
    rcases h' n hn with hold | hthere
    · exact h n hold
    · exact hthere

/-- Fewer choices are held as well. -/
theorem Held.of_fewer (h : Held v) (hlaps : v'.laps = v.laps)
    (hchosen : ∀ n, Chosen v' n → Chosen v n) : Held v' :=
  (held_same_laps h hlaps).mpr fun n hn => .inl (hchosen n hn)

theorem held_choose (h : Held v) (ref : LapRef) :
    Held (v.choose ref) ↔ ∀ n, ref = .lap n → n ∈ v.laps.map (·.lapNumber) := by
  have hlaps : (v.choose ref).laps = v.laps := rfl
  rw [held_same_laps h hlaps]
  constructor
  · intro hnew n href
    rcases hnew n (.inl (congrArg some href)) with hold | hthere
    · exact h n hold
    · exact hthere
  · intro hthere n hn
    rcases hn with hselected | hcompare
    · exact .inr (hthere n (Option.some.inj hselected))
    · have hcompare' : (if v.compareWith = .ref ref then .unset else v.compareWith) =
          CompareChoice.ref (.lap n) := hcompare
      split at hcompare'
      · cases hcompare'
      · exact .inl (.inr hcompare')

theorem held_compare (h : Held v) (choice : CompareChoice) :
    Held { v with compareWith := choice } ↔
      ∀ n, choice = .ref (.lap n) → n ∈ v.laps.map (·.lapNumber) := by
  have hlaps : View.laps { v with compareWith := choice } = v.laps := rfl
  rw [held_same_laps h hlaps]
  constructor
  · intro hnew n hchoice
    rcases hnew n (.inr hchoice) with hold | hthere
    · exact h n hold
    · exact hthere
  · intro hthere n hn
    rcases hn with hselected | hcompare
    · exact .inl (.inl hselected)
    · exact .inr (hthere n hcompare)

theorem held_settle (h : Held v) (response : Option LapsResponse) :
    Held (v.settle response) ↔ (v.loading = true → ∀ n, Chosen v n →
      n ∈ ((response.map (·.laps)).getD []).map (·.lapNumber)) := by
  unfold View.settle
  split
  · rename_i hloading
    exact ⟨fun h' _ => h', fun h' => h' hloading⟩
  · rename_i hidle
    exact ⟨fun _ hloading => absurd hloading hidle, fun _ => h⟩

/-- **One input keeps the choices held exactly when it is allowed.** -/
theorem held_step (h : Held v) (e : Input) : Held (step v e) ↔ Allowed v e := by
  cases e with
  | openSession sessionId =>
    refine iff_of_true ?_ trivial
    show Held (v.openSession sessionId)
    unfold View.openSession
    split
    · exact h
    · intro n hn
      rcases hn with hn | hn <;> cases hn
  | select lapNumber =>
    show Held (v.choose (.lap lapNumber)) ↔ _
    rw [held_choose h]
    exact ⟨fun hthere => hthere lapNumber rfl, fun hthere n hn => LapRef.lap.inj hn ▸ hthere⟩
  | selectRef ref =>
    match ref with
    | none => exact iff_of_true h trivial
    | some .optimal =>
      refine iff_of_true ((held_choose h .optimal).mpr ?_) trivial
      intro n hn
      cases hn
    | some (.lap lapNumber) =>
      show Held (v.choose (.lap lapNumber)) ↔ _
      rw [held_choose h]
      exact ⟨fun hthere => hthere lapNumber rfl, fun hthere n hn => LapRef.lap.inj hn ▸ hthere⟩
  | setCompare ref =>
    show Held { v with compareWith := _ } ↔ _
    rw [held_compare h]
    match ref with
    | none => exact iff_of_true (fun n hn => by cases hn) trivial
    | some .optimal => exact iff_of_true (fun n hn => by cases hn) trivial
    | some (.lap lapNumber) =>
      refine ⟨fun hthere => hthere lapNumber rfl, ?_⟩
      intro hthere n hn
      cases hn
      exact hthere
  | toggleCompare lapNumber =>
    show Held { v with compareWith := _ } ↔ v.compareWith = _ ∨ _
    rw [held_compare h]
    by_cases hback : v.compareWith = .ref (.lap lapNumber)
    · rw [if_pos hback]
      exact iff_of_true (fun n hn => by cases hn) (.inl hback)
    · rw [if_neg hback, or_iff_right hback]
      refine ⟨fun hthere => hthere lapNumber rfl, ?_⟩
      intro hthere n hn
      cases hn
      exact hthere
  | recompute =>
    refine iff_of_true ?_ trivial
    show Held v.recompute
    unfold View.recompute
    split
    · exact h.of_fewer rfl fun n hn => hn
    · exact h
  | recomputed =>
    refine iff_of_true ?_ trivial
    show Held v.recomputed
    unfold View.recomputed
    split
    · exact h
    · exact h.of_fewer rfl fun n hn => hn
  | recomputeFailed => exact iff_of_true (h.of_fewer rfl fun n hn => hn) trivial
  | laps response => exact held_settle h (some response)
  | lapsFailed =>
    show Held (v.settle none) ↔ _
    rw [held_settle h]
    simp [Allowed]

end Steps

theorem held_init : Held View.init := by
  intro n hn
  rcases hn with hn | hn <;> cases hn

/-- **In which runs the view never asks for a lap that is not there**: in exactly those whose
commands number laps that are there and whose answers have every lap a choice numbers. -/
theorem sound_run_iff (es : List Input) :
    (∀ pre, pre <+: es → Sound (run pre)) ↔
      ∀ pre e, pre ++ [e] <+: es → Allowed (run pre) e := by
  constructor
  · intro h pre e hpre
    have hbefore := (sound_iff _).mp (h pre ((List.prefix_append _ _).trans hpre))
    have hafter := (sound_iff _).mp (h _ hpre)
    rw [run_snoc] at hafter
    exact (held_step hbefore e).mp hafter
  · intro h pre hpre
    rw [sound_iff]
    induction pre using List.reverseRecOn with
    | nil => exact held_init
    | append_singleton pre e ih =>
      rw [run_snoc]
      exact (held_step (ih ((List.prefix_append _ _).trans hpre)) e).mpr (h pre e hpre)

section Example

def threeLaps : LapsResponse :=
  ⟨[⟨1, 90000, true⟩, ⟨2, 91000, false⟩, ⟨3, 92000, false⟩], none⟩

/-- The third lap is looked at, and a recompute finds only two. -/
def dropped : List Input :=
  [.openSession "s", .laps threeLaps, .select 3, .recompute, .recomputed,
    .laps ⟨threeLaps.laps.take 2, none⟩]

theorem not_sound_dropped : ¬ ∀ pre, pre <+: dropped → Sound (run pre) := by
  intro h
  have hactive : (run dropped).activeLap = some (.lap 3) := by decide
  have hoffered := (h dropped List.prefix_rfl).active (.lap 3) hactive
  revert hoffered
  show ¬ 3 ∈ (run dropped).laps.map (·.lapNumber)
  decide

end Example

end TelemetryCloud.LapAnalysis
