import Mathlib.Data.List.Basic
import Mathlib.Logic.Function.Basic

/-!
# The live bus: refcounted Redis subscriptions, one car at a time

`LiveTelemetryBusService` keeps, per car, an entry with a viewer count and the promise of the
`SUBSCRIBE` that established it.  Everything it does to one car touches that car's entry, that car's
promises and that car's Redis commands only, so the model is one record per car.

* `addViewer` runs up to its `await entry.subscribing`; `dropFailed` is its `catch`.
* `removeViewer` releases one viewer and issues the `UNSUBSCRIBE` when it was the last one.
* `reply` is Redis answering the oldest outstanding command of the car, with success or failure:
  commands reach Redis in the order they were issued.

## The invariant

`Consistent b waiting held` says what the entry of a car has to do with its viewers: `waiting i`
viewers are suspended on promise `i`, `held` viewers have been told they are subscribed and have not
left.  Each operation keeps it as long as only a held viewer leaves, which is the one thing this
service takes on trust from its caller.
-/

namespace TelemetryCloud.LiveBus

/-- The promise `redis.subscribe` returned. -/
inductive Promise
  | pending
  | fulfilled
  | rejected
  deriving DecidableEq, Repr

/-- A command issued to Redis for one car: the `i`-th `SUBSCRIBE` of that car, or an `UNSUBSCRIBE`. -/
inductive Command
  | subscribe (i : ℕ)
  | unsubscribe
  deriving DecidableEq, Repr

/-- A value of the `cars` map.  Two entries are the same object iff they hold the same promise. -/
structure Entry where
  count : ℕ
  subscribing : ℕ
  deriving DecidableEq, Repr

/-- One car on the bus: its map entry, the promises of its `SUBSCRIBE`s so far, the commands Redis
has not answered yet and whether Redis holds the subscription. -/
structure CarBus where
  entry : Option Entry
  promise : ℕ → Promise
  issued : ℕ
  queue : List Command
  subscribed : Bool

namespace CarBus

def init : CarBus := ⟨none, fun _ => .pending, 0, [], false⟩

def refcount (b : CarBus) : ℕ := (b.entry.map Entry.count).getD 0

/-- `addViewer` up to its `await`, with the promise it goes on to await. -/
def addViewer (b : CarBus) : CarBus × ℕ :=
  match b.entry with
  | some e => ({ b with entry := some { e with count := e.count + 1 } }, e.subscribing)
  | none =>
    ({ b with
        entry := some ⟨1, b.issued⟩
        issued := b.issued + 1
        queue := b.queue ++ [.subscribe b.issued] }, b.issued)

/-- The `catch` of `addViewer`: the entry goes, unless a newer one has taken its place. -/
def dropFailed (b : CarBus) (i : ℕ) : CarBus :=
  match b.entry with
  | some e => if e.subscribing = i then { b with entry := none } else b
  | none => b

/-- `release`: the decremented entry, and whether that was the last viewer. -/
def release (b : CarBus) : CarBus × Bool :=
  match b.entry with
  | none => (b, false)
  | some e =>
    if e.count ≤ 1 then ({ b with entry := none }, true)
    else ({ b with entry := some { e with count := e.count - 1 } }, false)

/-- `removeViewer` up to its `await`; a failed `UNSUBSCRIBE` is only logged. -/
def removeViewer (b : CarBus) : CarBus :=
  let r := b.release
  if r.2 then { r.1 with queue := r.1.queue ++ [.unsubscribe] } else r.1

/-- Redis answers the oldest outstanding command. -/
def reply (b : CarBus) (ok : Bool) : Option CarBus :=
  match b.queue with
  | [] => none
  | .subscribe i :: rest =>
    some { b with
      queue := rest
      promise := Function.update b.promise i (if ok then .fulfilled else .rejected)
      subscribed := if ok then true else b.subscribed }
  | .unsubscribe :: rest =>
    some { b with queue := rest, subscribed := if ok then false else b.subscribed }

/-- What the bus knows about one car, with `waiting i` viewers suspended on promise `i` and `held`
viewers whose `addViewer` resolved and who have not left. -/
structure Consistent (b : CarBus) (waiting : ℕ → ℕ) (held : ℕ) : Prop where
  absent : b.entry = none → held = 0
  counted : ∀ e, b.entry = some e →
    e.count = waiting e.subscribing + held ∧ 0 < e.count ∧ e.subscribing < b.issued
  unresolved : ∀ e, b.entry = some e → b.promise e.subscribing ≠ .fulfilled → held = 0
  resolved : ∀ e, b.entry = some e → b.promise e.subscribing = .fulfilled →
    b.queue = [] ∧ b.subscribed = true
  suspended : ∀ i, 0 < waiting i →
    (∃ e, b.entry = some e ∧ e.subscribing = i) ∨ b.promise i = .rejected
  fresh : ∀ i, b.issued ≤ i → b.promise i = .pending ∧ waiting i = 0
  outstanding : ∀ i, .subscribe i ∈ b.queue → b.promise i = .pending ∧
    (∃ e, b.entry = some e ∧ e.subscribing = i) ∧
    ∃ pre, b.queue = pre ++ [.subscribe i] ∧ ∀ j, .subscribe j ∉ pre

theorem consistent_init : Consistent init (fun _ => 0) 0 := by
  constructor <;> simp [init]

variable {b : CarBus} {waiting : ℕ → ℕ} {held : ℕ}

/-- **A viewer that starts waiting is counted on the promise it waits on.** -/
theorem Consistent.addViewer (h : Consistent b waiting held) :
    Consistent b.addViewer.1
      (Function.update waiting b.addViewer.2 (waiting b.addViewer.2 + 1)) held := by
  cases he : b.entry with
  | some e =>
    obtain ⟨hc, hpos, hlt⟩ := h.counted e he
    simp only [CarBus.addViewer, he]
    constructor
    · simp
    · rintro _ ⟨⟩
      simp only [Function.update_self]
      omega
    · rintro _ ⟨⟩ hp
      exact h.unresolved e he hp
    · rintro _ ⟨⟩ hp
      exact h.resolved e he hp
    · intro i hi
      by_cases hie : i = e.subscribing
      · exact .inl ⟨_, rfl, hie.symm⟩
      · rw [Function.update_of_ne hie] at hi
        obtain ⟨e', he', rfl⟩ | hr := h.suspended i hi
        · rw [he] at he'
          cases he'
          exact absurd rfl hie
        · exact .inr hr
    · intro i hi
      have hi' : b.issued ≤ i := hi
      rw [Function.update_of_ne (by omega)]
      exact h.fresh i hi'
    · intro i hi
      obtain ⟨hp, ⟨e', he', hs⟩, hq⟩ := h.outstanding i hi
      rw [he] at he'
      cases he'
      exact ⟨hp, ⟨_, rfl, hs⟩, hq⟩
  | none =>
    have hheld : held = 0 := h.absent he
    simp only [CarBus.addViewer, he]
    constructor
    · simp
    · rintro _ ⟨⟩
      simp [(h.fresh b.issued (Nat.le_refl _)).2, hheld]
    · intro _ _ _
      exact hheld
    · rintro _ ⟨⟩ hp
      rw [(h.fresh b.issued (Nat.le_refl _)).1] at hp
      cases hp
    · intro i hi
      by_cases hie : i = b.issued
      · exact .inl ⟨_, rfl, hie.symm⟩
      · rw [Function.update_of_ne hie] at hi
        obtain ⟨e', he', _⟩ | hr := h.suspended i hi
        · rw [he] at he'
          cases he'
        · exact .inr hr
    · intro i hi
      have hi' : b.issued + 1 ≤ i := hi
      rw [Function.update_of_ne (by omega)]
      exact h.fresh i (by omega)
    · -- no earlier `SUBSCRIBE` is outstanding: it would have an entry
      have hnone : ∀ j, .subscribe j ∉ b.queue := by
        intro j hj
        obtain ⟨_, ⟨e', he', _⟩, _⟩ := h.outstanding j hj
        rw [he] at he'
        cases he'
      intro i hi
      simp only [List.mem_append, List.mem_singleton, Command.subscribe.injEq] at hi
      obtain hi | rfl := hi
      · exact absurd hi (hnone i)
      · exact ⟨(h.fresh _ (Nat.le_refl _)).1, ⟨_, rfl, rfl⟩, b.queue, rfl, hnone⟩

/-- **A viewer whose `SUBSCRIBE` succeeded is held.** -/
theorem Consistent.letIn (h : Consistent b waiting held) {i : ℕ} (hi : 0 < waiting i)
    (hp : b.promise i = .fulfilled) :
    Consistent b (Function.update waiting i (waiting i - 1)) (held + 1) := by
  obtain ⟨e, he, rfl⟩ | hr := h.suspended i hi
  · obtain ⟨hc, hpos, hlt⟩ := h.counted e he
    constructor
    · simp [he]
    · intro e' he'
      rw [he] at he'
      cases he'
      rw [Function.update_self]
      omega
    · intro e' he' hne
      rw [he] at he'
      cases he'
      exact absurd hp hne
    · exact h.resolved
    · intro j hj
      by_cases hje : j = e.subscribing
      · exact .inl ⟨e, he, hje.symm⟩
      · rw [Function.update_of_ne hje] at hj
        exact h.suspended j hj
    · intro j hj
      have := h.fresh j hj
      rw [Function.update_of_ne (by omega)]
      exact this
    · exact h.outstanding
  · rw [hp] at hr
    cases hr

/-- **A viewer whose `SUBSCRIBE` failed leaves no entry behind and takes no newer one with it.** -/
theorem Consistent.dropFailed (h : Consistent b waiting held) {i : ℕ} (hi : 0 < waiting i)
    (hp : b.promise i = .rejected) :
    Consistent (b.dropFailed i) (Function.update waiting i (waiting i - 1)) held := by
  have hsusp : ∀ j, 0 < Function.update waiting i (waiting i - 1) j → 0 < waiting j := by
    intro j hj
    by_cases hji : j = i
    · exact hji ▸ hi
    · rwa [Function.update_of_ne hji] at hj
  have hfresh : ∀ j, b.issued ≤ j →
      b.promise j = .pending ∧ Function.update waiting i (waiting i - 1) j = 0 := by
    intro j hj
    have hf := h.fresh j hj
    by_cases hji : j = i
    · subst hji
      omega
    · rw [Function.update_of_ne hji]
      exact hf
  have hne : ∀ j, b.promise j ≠ .rejected → j ≠ i := fun j hj hji => hj (hji ▸ hp)
  cases he : b.entry with
  | none =>
    simp only [CarBus.dropFailed, he]
    exact ⟨h.absent, fun e' he' => by simp [he] at he', h.unresolved, h.resolved,
      fun j hj => h.suspended j (hsusp j hj), hfresh, h.outstanding⟩
  | some e =>
    by_cases hei : e.subscribing = i
    · have hheld : held = 0 := h.unresolved e he (by simp [hei, hp])
      simp only [CarBus.dropFailed, he, hei, if_true]
      refine ⟨fun _ => hheld, by simp, by simp, by simp, ?_, hfresh, ?_⟩
      · intro j hj
        obtain ⟨e', he', rfl⟩ | hr := h.suspended j (hsusp j hj)
        · rw [he] at he'
          cases he'
          exact .inr (hei ▸ hp)
        · exact .inr hr
      · intro j hj
        obtain ⟨hpj, ⟨e', he', rfl⟩, _⟩ := h.outstanding j hj
        rw [he] at he'
        cases he'
        rw [hei, hp] at hpj
        cases hpj
    · simp only [CarBus.dropFailed, he, hei, if_false]
      refine ⟨fun hn => by simp [he] at hn, ?_, h.unresolved, h.resolved,
        fun j hj => h.suspended j (hsusp j hj), hfresh, h.outstanding⟩
      intro e' he'
      rw [he] at he'
      cases he'
      rw [Function.update_of_ne hei]
      exact h.counted e he

/-- **A held viewer leaving releases exactly its own slot**, and the subscription with the last. -/
theorem Consistent.removeViewer (h : Consistent b waiting held) (hpos : 0 < held) :
    Consistent b.removeViewer waiting (held - 1) := by
  cases he : b.entry with
  | none => exact absurd (h.absent he) (by omega)
  | some e =>
    have hful : b.promise e.subscribing = .fulfilled := by
      by_contra hne
      exact absurd (h.unresolved e he hne) (by omega)
    obtain ⟨hc, _, hlt⟩ := h.counted e he
    obtain ⟨hq, hs⟩ := h.resolved e he hful
    by_cases hle : e.count ≤ 1
    · have hw : waiting e.subscribing = 0 := by omega
      simp only [CarBus.removeViewer, release, he, hle, if_true]
      refine ⟨fun _ => by omega, by simp, by simp, by simp, ?_, h.fresh, ?_⟩
      · intro j hj
        obtain ⟨e', he', rfl⟩ | hr := h.suspended j hj
        · rw [he] at he'
          cases he'
          omega
        · exact .inr hr
      · intro j hj
        simp [hq] at hj
    · simp only [CarBus.removeViewer, release, he, hle, if_false, Bool.false_eq_true]
      refine ⟨by simp, ?_, ?_, ?_, ?_, h.fresh, ?_⟩
      · rintro _ ⟨⟩
        simp only
        omega
      · rintro _ ⟨⟩ hne
        exact absurd hful hne
      · rintro _ ⟨⟩ _
        exact ⟨hq, hs⟩
      · intro j hj
        obtain ⟨e', he', rfl⟩ | hr := h.suspended j hj
        · rw [he] at he'
          cases he'
          exact .inl ⟨_, rfl, rfl⟩
        · exact .inr hr
      · intro j hj
        simp [hq] at hj

/-- **Redis answering a command keeps the books.** -/
theorem Consistent.reply (h : Consistent b waiting held) {ok : Bool} {b' : CarBus}
    (hr : b.reply ok = some b') : Consistent b' waiting held := by
  cases hq : b.queue with
  | nil => simp [CarBus.reply, hq] at hr
  | cons cmd rest =>
    cases cmd with
    | subscribe i =>
      obtain ⟨hpi, ⟨e, he, rfl⟩, pre, hpre, hno⟩ := h.outstanding i (by simp [hq])
      -- the answered command is the first and the last `SUBSCRIBE`, so nothing is left behind it
      have hrest : rest = [] := by
        rw [hq] at hpre
        cases pre with
        | nil => simpa using hpre
        | cons p ps =>
          rw [List.cons_append, List.cons.injEq] at hpre
          exact absurd (by simp [← hpre.1]) (hno e.subscribing)
      have hlt := (h.counted e he).2.2
      simp only [CarBus.reply, hq, Option.some.injEq] at hr
      subst hr hrest
      refine ⟨h.absent, h.counted, ?_, ?_, ?_, ?_, ?_⟩
      · intro e' he' _
        have he'' : b.entry = some e' := he'
        rw [he] at he''
        cases he''
        exact h.unresolved e he (by simp [hpi])
      · intro e' he' hful
        have he'' : b.entry = some e' := he'
        rw [he] at he''
        cases he''
        cases ok with
        | false => simp at hful
        | true => simp
      · intro j hj
        obtain ⟨e', he', rfl⟩ | hrej := h.suspended j hj
        · exact .inl ⟨e', he', rfl⟩
        · refine .inr ?_
          have hne : j ≠ e.subscribing := by
            rintro rfl
            rw [hpi] at hrej
            cases hrej
          simp only [Function.update_of_ne hne]
          exact hrej
      · intro j hj
        have hj' : b.issued ≤ j := hj
        have hne : j ≠ e.subscribing := by omega
        simp only [Function.update_of_ne hne]
        exact h.fresh j hj'
      · intro j hj
        cases hj
    | unsubscribe =>
      simp only [CarBus.reply, hq, Option.some.injEq] at hr
      subst hr
      refine ⟨h.absent, h.counted, h.unresolved, ?_, h.suspended, h.fresh, ?_⟩
      · intro e he hful
        exact absurd (h.resolved e he hful).1 (by simp [hq])
      · intro j hj
        obtain ⟨hp, hen, pre, hpre, hno⟩ := h.outstanding j (by simp [hq, show _ ∈ rest from hj])
        rw [hq] at hpre
        cases pre with
        | nil => simp at hpre
        | cons p ps =>
          rw [List.cons_append, List.cons.injEq] at hpre
          exact ⟨hp, hen, ps, hpre.2, fun k hk => hno k (List.mem_cons_of_mem _ hk)⟩

end CarBus

end TelemetryCloud.LiveBus
