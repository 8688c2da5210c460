import TelemetryCloud.Runs
import Mathlib.Data.List.Basic

/-!
# Handlers that await calls of a shared store

A handler is a tree: it has returned, it has thrown, or it awaits a call and goes on with the answer
or the error.  A pool of handlers over one store takes the calls of its handlers one at a time, in
any order, so a run of the pool is an interleaving of them.

* `Prog` : handlers, with `bind`, `call`, `catchError`;
* `Prog.Follows` : the handler keeps to a protocol, whatever its calls are answered;
* `step_cases` : what one event of a pool does;
* `follows_run` : the handlers of a pool keep to their protocols in every run;
* `Prog.eval` : how a handler ends over a store that nobody writes;
* `Prog.alone`, `Prog.Holds` : a handler that runs with no other, and what holds of it;
* `Prog.Exact.iff` : when a condition on its calls decides how it ends.

Nothing here names a particular store: calls, answers, errors and local states are arbitrary.
-/

namespace TelemetryCloud.Calls

open Runs

/-! ### Handlers -/

/-- What is left of a handler. -/
inductive Prog (Call : Type) (Answer : Call → Type) (Err α : Type)
  | done (result : α)
  | fail (error : Err)
  | await (call : Call) (next : Except Err (Answer call) → Prog Call Answer Err α)

namespace Prog

variable {Call : Type} {Answer : Call → Type} {Err α β : Type}

/-- A handler, and what goes on with its result; an error ends both. -/
def bind : Prog Call Answer Err α → (α → Prog Call Answer Err β) → Prog Call Answer Err β
  | done result, rest => rest result
  | fail error, _ => fail error
  | await call next, rest => await call fun r => (next r).bind rest

instance : Monad (Prog Call Answer Err) where
  pure := done
  bind := bind

/-- A call whose error is thrown on. -/
def call (c : Call) : Prog Call Answer Err (Answer c) :=
  await c fun
    | .ok answer => done answer
    | .error error => fail error

/-- `try { … } catch`. -/
def catchError : Prog Call Answer Err α → (Err → Prog Call Answer Err α) → Prog Call Answer Err α
  | done result, _ => done result
  | fail error, handler => handler error
  | await call next, handler => await call fun r => (next r).catchError handler

/-- The call a handler is suspended at. -/
def pending : Prog Call Answer Err α → Option Call
  | await call _ => some call
  | _ => none

@[simp] theorem bind_done (a : α) (f : α → Prog Call Answer Err β) :
    (done a : Prog Call Answer Err α).bind f = f a := rfl

@[simp] theorem bind_fail (e : Err) (f : α → Prog Call Answer Err β) :
    (fail e : Prog Call Answer Err α).bind f = fail e := rfl

/-! ### Protocols -/

section Follows

variable {κ : Type} (note : κ → (c : Call) → Except Err (Answer c) → κ)

/-- The handler keeps to a protocol: from the local state `k`, which `note` moves on with every
answer, it makes only calls `R` allows and ends only as `Fin` allows. -/
def Follows (R : κ → Call → Prop) (Fin : κ → Except Err α → Prop) : κ → Prog Call Answer Err α → Prop
  | k, done result => Fin k (.ok result)
  | k, fail error => Fin k (.error error)
  | k, await call next => R k call ∧ ∀ r, Follows R Fin (note k call r) (next r)

variable {note} {R : κ → Call → Prop} {Fin : κ → Except Err α → Prop}

theorem Follows.mono {Mid : κ → Except Err α → Prop} (h : ∀ k r, Mid k r → Fin k r) :
    ∀ {p : Prog Call Answer Err α} {k : κ}, p.Follows note R Mid k → p.Follows note R Fin k := by
  intro p
  induction p with
  | done a => exact fun hp => h _ _ hp
  | fail e => exact fun hp => h _ _ hp
  | await c next ih => exact fun hp => ⟨hp.1, fun r => ih r (hp.2 r)⟩

/-- A protocol of the first part, and one of the rest from wherever the first returns. -/
theorem Follows.bind {Mid : κ → Except Err α → Prop} {Fin : κ → Except Err β → Prop}
    {rest : α → Prog Call Answer Err β} (herr : ∀ k e, Mid k (.error e) → Fin k (.error e))
    (hrest : ∀ k a, Mid k (.ok a) → (rest a).Follows note R Fin k) :
    ∀ {p : Prog Call Answer Err α} {k : κ}, p.Follows note R Mid k → (p.bind rest).Follows note R Fin k := by
  intro p
  induction p with
  | done a => exact fun h => hrest _ a h
  | fail e => exact fun h => herr _ e h
  | await c next ih => exact fun h => ⟨h.1, fun r => ih r (h.2 r)⟩

/-- A protocol of the `try` block, and one of the `catch` block from wherever the first throws. -/
theorem Follows.catchError {Mid : κ → Except Err α → Prop}
    {handler : Err → Prog Call Answer Err α} (hok : ∀ k a, Mid k (.ok a) → Fin k (.ok a))
    (hhandler : ∀ k e, Mid k (.error e) → (handler e).Follows note R Fin k) :
    ∀ {p : Prog Call Answer Err α} {k : κ}, p.Follows note R Mid k →
      (p.catchError handler).Follows note R Fin k := by
  intro p
  induction p with
  | done a => exact fun h => hok _ a h
  | fail e => exact fun h => hhandler _ e h
  | await c next ih => exact fun h => ⟨h.1, fun r => ih r (h.2 r)⟩

/-- With nothing asked of its calls and its end, every handler keeps to the protocol. -/
theorem follows_any {R : κ → Call → Prop} (hR : ∀ k c, R k c) {Fin : κ → Except Err α → Prop}
    (hFin : ∀ k r, Fin k r) (p : Prog Call Answer Err α) (k : κ) : p.Follows note R Fin k := by
  induction p generalizing k with
  | done a => exact hFin k _
  | fail e => exact hFin k _
  | await c next ih => exact ⟨hR k c, fun r => ih r _⟩

end Follows

/-! ### A handler that only reads -/

section Eval

variable (answer : (c : Call) → Except Err (Answer c))

/-- How a handler ends over a store that stays as it is, so that each call has one answer. -/
def eval : Prog Call Answer Err α → Except Err α
  | done result => .ok result
  | fail error => .error error
  | await call next => (next (answer call)).eval

variable {answer}

@[simp] theorem eval_pure (a : α) : (pure a : Prog Call Answer Err α).eval answer = .ok a := rfl

@[simp] theorem eval_fail (e : Err) :
    (fail e : Prog Call Answer Err α).eval answer = .error e := rfl

@[simp] theorem eval_call (c : Call) :
    (call c : Prog Call Answer Err (Answer c)).eval answer = answer c := by
  show eval answer (match answer c with | .ok a => done a | .error e => fail e) = answer c
  cases answer c with
  | ok a => rfl
  | error e => rfl

@[simp] theorem eval_bind (p : Prog Call Answer Err α) (rest : α → Prog Call Answer Err β) :
    (p >>= rest).eval answer = (p.eval answer).bind fun a => (rest a).eval answer := by
  induction p with
  | done a => rfl
  | fail e => rfl
  | await c next ih => exact ih (answer c)

@[simp] theorem eval_catchError (p : Prog Call Answer Err α)
    (handler : Err → Prog Call Answer Err α) :
    (p.catchError handler).eval answer =
      (p.eval answer).tryCatch fun e => (handler e).eval answer := by
  induction p with
  | done a => rfl
  | fail e => rfl
  | await c next ih => exact ih (answer c)

end Eval

/-! ### A handler alone -/

section Alone

variable {σ γ : Type} (exec : σ → (c : Call) → γ → Option (σ × Except Err (Answer c)))

/-- The handler with no other beside it: the store it leaves and how it ends, along the choices the
environment makes at its calls. -/
def alone : Prog Call Answer Err α → σ → List γ → Option (σ × Except Err α)
  | done result, s, [] => some (s, .ok result)
  | fail error, s, [] => some (s, .error error)
  | await call next, s, choice :: rest =>
    (exec s call choice).bind fun x => alone (next x.2) x.1 rest
  | _, _, _ => none

/-- Alone on the store `s`, the handler makes its calls only where `C` allows them and ends only as
`Q` says, whatever the environment chooses. -/
def Holds (C : σ → Call → Prop) (Q : σ → Except Err α → Prop) : Prog Call Answer Err α → σ → Prop
  | done result, s => Q s (.ok result)
  | fail error, s => Q s (.error error)
  | await call next, s =>
    C s call ∧ ∀ choice s' r, exec s call choice = some (s', r) → Holds C Q (next r) s'

variable {exec} {C : σ → Call → Prop}

theorem Holds.mono {P Q : σ → Except Err α → Prop} (hPQ : ∀ s r, P s r → Q s r) :
    ∀ {p : Prog Call Answer Err α} {s : σ}, p.Holds exec C P s → p.Holds exec C Q s := by
  intro p
  induction p with
  | done a => exact fun h => hPQ _ _ h
  | fail e => exact fun h => hPQ _ _ h
  | await c next ih => exact fun h => ⟨h.1, fun choice s' r hr => ih r (h.2 choice s' r hr)⟩

theorem Holds.bind {P : σ → Except Err α → Prop} {Q : σ → Except Err β → Prop}
    {rest : α → Prog Call Answer Err β} (herr : ∀ s e, P s (.error e) → Q s (.error e))
    (hrest : ∀ s a, P s (.ok a) → (rest a).Holds exec C Q s) :
    ∀ {p : Prog Call Answer Err α} {s : σ}, p.Holds exec C P s → (p.bind rest).Holds exec C Q s := by
  intro p
  induction p with
  | done a => exact fun h => hrest _ a h
  | fail e => exact fun h => herr _ e h
  | await c next ih => exact fun h => ⟨h.1, fun choice s' r hr => ih r (h.2 choice s' r hr)⟩

/-- What the `try` block leaves is what the `catch` block starts from. -/
theorem Holds.catchError {P Q : σ → Except Err α → Prop}
    {handler : Err → Prog Call Answer Err α} (hok : ∀ s a, P s (.ok a) → Q s (.ok a))
    (hhandler : ∀ s e, P s (.error e) → (handler e).Holds exec C Q s) :
    ∀ {p : Prog Call Answer Err α} {s : σ}, p.Holds exec C P s →
      (p.catchError handler).Holds exec C Q s := by
  intro p
  induction p with
  | done a => exact fun h => hok _ a h
  | fail e => exact fun h => hhandler _ e h
  | await c next ih => exact fun h => ⟨h.1, fun choice s' r hr => ih r (h.2 choice s' r hr)⟩

variable (exec) in
/-- The handler's calls, alone along the choices, all come out as `C` says. -/
def Along (C : σ → (c : Call) → Except Err (Answer c) → σ → Prop) :
    Prog Call Answer Err α → σ → List γ → Prop
  | await call next, s, choice :: rest =>
    ∀ s' r, exec s call choice = some (s', r) → C s call r s' ∧ Along C (next r) s' rest
  | _, _, _ => True

variable (exec) in
/-- Alone on the store `s`, the handler ends as `Q` says as long as its calls come out as `C` says; a
call that does not makes it throw at once, and not as `Q` says. -/
def Exact (C : σ → (c : Call) → Except Err (Answer c) → σ → Prop) (Q : σ → Except Err α → Prop) :
    Prog Call Answer Err α → σ → Prop
  | done result, s => Q s (.ok result)
  | fail error, s => Q s (.error error)
  | await call next, s => ∀ choice s' r, exec s call choice = some (s', r) →
    (C s call r s' ∧ Exact C Q (next r) s') ∨
      (¬ C s call r s' ∧ ∃ e, next r = fail e ∧ ¬ Q s' (.error e))

variable {E : σ → (c : Call) → Except Err (Answer c) → σ → Prop}

/-- **An exact condition on the calls is exact for the end.** -/
theorem Exact.iff {Q : σ → Except Err α → Prop} :
    ∀ {p : Prog Call Answer Err α} {s s' : σ} {choices : List γ} {r : Except Err α},
      p.Exact exec E Q s → p.alone exec s choices = some (s', r) →
        (Q s' r ↔ p.Along exec E s choices) := by
  intro p
  induction p with
  | done a =>
    intro s s' choices r hexact h
    cases choices with
    | nil =>
      cases h
      exact iff_of_true hexact trivial
    | cons choice rest => cases h
  | fail e =>
    intro s s' choices r hexact h
    cases choices with
    | nil =>
      cases h
      exact iff_of_true hexact trivial
    | cons choice rest => cases h
  | await c next ih =>
    intro s s' choices r hexact h
    cases choices with
    | nil => cases h
    | cons choice rest =>
      obtain ⟨⟨t, a⟩, hcall, hrest⟩ := Option.bind_eq_some_iff.mp h
      obtain ⟨hC, hnext⟩ | ⟨hC, e, hfail, hQ⟩ := hexact choice t a hcall
      · rw [ih a hnext hrest]
        constructor
        · intro halong t' a' hcall'
          rw [hcall, Option.some.injEq, Prod.mk.injEq] at hcall'
          obtain ⟨rfl, rfl⟩ := hcall'
          exact ⟨hC, halong⟩
        · exact fun halong => (halong t a hcall).2
      · -- the handler throws `e` now, so the run ends here
        have hend : s' = t ∧ r = .error e := by
          change (next a).alone exec t rest = some (s', r) at hrest
          rw [hfail] at hrest
          cases rest with
          | nil =>
            cases hrest
            exact ⟨rfl, rfl⟩
          | cons choice rest => cases hrest
        obtain ⟨rfl, rfl⟩ := hend
        exact iff_of_false hQ fun halong => hC (halong _ a hcall).1

/-- A part that makes no call `E` is about. -/
theorem Exact.of_holds {Q : σ → Except Err α → Prop} (hE : ∀ s c, C s c → ∀ r s', E s c r s') :
    ∀ {p : Prog Call Answer Err α} {s : σ}, p.Holds exec C Q s → p.Exact exec E Q s := by
  intro p
  induction p with
  | done a => exact fun h => h
  | fail e => exact fun h => h
  | await c next ih =>
    exact fun h choice s' r hr => .inl ⟨hE _ c h.1 r s', ih r (h.2 choice s' r hr)⟩

theorem Exact.bind {P : σ → Except Err α → Prop} {Q : σ → Except Err β → Prop}
    {rest : α → Prog Call Answer Err β} (herr : ∀ s e, P s (.error e) ↔ Q s (.error e))
    (hrest : ∀ s a, P s (.ok a) → (rest a).Exact exec E Q s) :
    ∀ {p : Prog Call Answer Err α} {s : σ}, p.Exact exec E P s → (p.bind rest).Exact exec E Q s := by
  intro p
  induction p with
  | done a => exact fun h => hrest _ a h
  | fail e => exact fun h => (herr _ e).mp h
  | await c next ih =>
    intro s h choice s' r hr
    obtain ⟨hE, hnext⟩ | ⟨hE, e, hfail, hP⟩ := h choice s' r hr
    · exact .inl ⟨hE, ih r hnext⟩
    · refine .inr ⟨hE, e, ?_, fun hQ => hP ((herr _ e).mpr hQ)⟩
      show (next r).bind rest = fail e
      rw [hfail, bind_fail]

end Alone

end Prog

/-! ### Pools -/

/-- A kind of handlers over a store: how a call is executed (`γ` is what the environment chooses: the
answer, a failure), the handler an operation starts, and the local state it is followed with. -/
structure Service (σ Op κ γ Call : Type) (Answer : Call → Type) (Err α : Type) where
  exec : σ → (c : Call) → γ → Option (σ × Except Err (Answer c))
  handler : Op → Prog Call Answer Err α
  enter : Op → κ
  note : κ → (c : Call) → Except Err (Answer c) → κ

/-- The store and the handlers there are, each with its local state. -/
structure Pool (σ κ Call : Type) (Answer : Call → Type) (Err α : Type) where
  store : σ
  handlers : List (κ × Prog Call Answer Err α)

/-- `invoke` starts the handler of an operation, `answer` executes the call a handler awaits. -/
inductive Event (Op γ : Type)
  | invoke (op : Op)
  | answer (handler : ℕ) (choice : γ)

section Pool

variable {σ Op κ γ Call : Type} {Answer : Call → Type} {Err α : Type}

/-- The call handler `i` is suspended at, with its local state. -/
def Pool.pending (st : Pool σ κ Call Answer Err α) (i : ℕ) : Option (κ × Call) :=
  st.handlers[i]?.bind fun h => h.2.pending.map (h.1, ·)

variable (S : Service σ Op κ γ Call Answer Err α)

def step (st : Pool σ κ Call Answer Err α) :
    Event Op γ → Option (Pool σ κ Call Answer Err α)
  | .invoke op => some { st with handlers := st.handlers ++ [(S.enter op, S.handler op)] }
  | .answer i choice =>
    match st.handlers[i]? with
    | some (k, .await call next) =>
      (S.exec st.store call choice).map fun x =>
        { store := x.1, handlers := st.handlers.set i (S.note k call x.2, next x.2) }
    | _ => none

variable {S}

/-- **What one event does**: a new handler joins, or one awaited call is executed and its handler
goes on. -/
theorem step_cases {st st' : Pool σ κ Call Answer Err α} {e : Event Op γ}
    (h : step S st e = some st') :
    (∃ op, e = .invoke op ∧ st' = ⟨st.store, st.handlers ++ [(S.enter op, S.handler op)]⟩) ∨
      ∃ i choice k c next s r, e = .answer i choice ∧ st.handlers[i]? = some (k, .await c next) ∧
        S.exec st.store c choice = some (s, r) ∧
        st' = ⟨s, st.handlers.set i (S.note k c r, next r)⟩ := by
  cases e with
  | invoke op =>
    cases h
    exact .inl ⟨op, rfl, rfl⟩
  | answer i choice =>
    simp only [step] at h
    split at h
    · rename_i k c next hi
      obtain ⟨⟨s, r⟩, hexec, rfl⟩ := Option.map_eq_some_iff.mp h
      exact .inr ⟨i, choice, k, c, next, s, r, rfl, hi, hexec, rfl⟩
    · cases h

theorem pending_of_await {st : Pool σ κ Call Answer Err α} {i : ℕ} {k : κ} {c : Call}
    {next : Except Err (Answer c) → Prog Call Answer Err α}
    (h : st.handlers[i]? = some (k, .await c next)) : st.pending i = some (k, c) := by
  rw [Pool.pending, h]
  rfl

/-- The handlers after a step: handler `i` is the new one, the others are as they were. -/
theorem getElem?_set_cases {β : Type} {l : List β} {i j : ℕ} {a b : β}
    (h : (l.set i a)[j]? = some b) : (j = i ∧ b = a) ∨ (j ≠ i ∧ l[j]? = some b) := by
  by_cases hj : j = i
  · subst hj
    obtain ⟨hlt, hget⟩ := List.getElem?_eq_some_iff.mp h
    rw [List.getElem_set_self] at hget
    exact .inl ⟨rfl, hget.symm⟩
  · rw [List.getElem?_set_ne (Ne.symm hj)] at h
    exact .inr ⟨hj, h⟩

/-- The handlers after one joined. -/
theorem getElem?_append_singleton {β : Type} {l : List β} {j : ℕ} {a b : β}
    (h : (l ++ [a])[j]? = some b) : l[j]? = some b ∨ (j = l.length ∧ b = a) := by
  rw [List.getElem?_append] at h
  split at h
  · exact .inl h
  · rename_i hlt
    rw [List.getElem?_singleton] at h
    split at h
    · rw [Option.some.injEq] at h
      exact .inr ⟨by omega, h.symm⟩
    · cases h

variable (S) in
/-- Every handler keeps to its protocol. -/
def AllFollow (R : κ → Call → Prop) (Fin : κ → Except Err α → Prop)
    (st : Pool σ κ Call Answer Err α) : Prop :=
  ∀ (i : ℕ) (k : κ) (p : Prog Call Answer Err α), st.handlers[i]? = some (k, p) →
    p.Follows S.note R Fin k

/-- Handlers that keep to their protocol when they start keep to it after every step. -/
theorem follows_step {R : κ → Call → Prop} {Fin : κ → Except Err α → Prop}
    (hstart : ∀ op, (S.handler op).Follows S.note R Fin (S.enter op))
    {st st' : Pool σ κ Call Answer Err α} {e : Event Op γ} (hall : AllFollow S R Fin st)
    (h : step S st e = some st') : AllFollow S R Fin st' := by
  obtain ⟨op, -, rfl⟩ | ⟨i, choice, k, c, next, s, r, -, hi, -, rfl⟩ := step_cases h
  · intro j k p hj
    rcases getElem?_append_singleton hj with hj | ⟨-, hp⟩
    · exact hall j k p hj
    · cases hp
      exact hstart op
  · intro j k' p hj
    rcases getElem?_set_cases hj with ⟨-, hp⟩ | ⟨-, hj⟩
    · cases hp
      exact (hall i k _ hi).2 r
    · exact hall j k' p hj

/-- **Handlers keep to their protocols in every run.** -/
theorem follows_run {R : κ → Call → Prop} {Fin : κ → Except Err α → Prop}
    (hstart : ∀ op, (S.handler op).Follows S.note R Fin (S.enter op)) (s : σ)
    (es : List (Event Op γ)) (st : Pool σ κ Call Answer Err α)
    (h : run (step S) ⟨s, []⟩ es = some st) : AllFollow S R Fin st := by
  refine run_invariant_of_step (step S) (fun _ _ _ hall hs => follows_step hstart hall hs) es _ st ?_ h
  intro i k p hi
  cases hi

end Pool

end TelemetryCloud.Calls
