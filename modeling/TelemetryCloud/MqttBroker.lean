import TelemetryCloud.MqttAdmin
import TelemetryCloud.Runs
import Mathlib.Data.List.Induction
import Mathlib.Data.List.Nodup

/-!
# The admin channel and the broker: whose answer is it?

The broker answers the commands that reach it in the order they were published, one response a
command, under the command's name.  The protocol has no request id, so a response says nothing else
about the command it answers; the model keeps that on the side, in `broker` (published and not yet
answered) and `answered` (which command was settled by the answer to which).

A command or its answer may be lost, an answer may be late, and timeouts, publish callbacks and
disconnections come at any time.

* `inv_run` : what holds of the tokens in flight, at the broker and settled, in every run;
* `correlated_iff` : **in which runs every command is settled by its own answer**: those in which no
  answer to an abandoned command arrives while a command of the same name is in flight.
-/

namespace TelemetryCloud.MqttBroker

open MqttAdmin Runs

structure System where
  admin : Admin
  broker : List (ℕ × Command)
  answered : List (ℕ × ℕ)

def init : System := ⟨Admin.init, [], []⟩

/-- `answer` is the broker's response to the oldest command it has, `lose` a command (or the answer
to it) that never arrives, `published` a publish callback. -/
inductive Event
  | call (caller : ℕ) (op : Operation)
  | dispatch
  | answer (error : Option String) (roles : Option (List String))
  | lose (token : ℕ)
  | timeout
  | published (token : ℕ) (failed : Bool)
  | connection (up : Bool)
  deriving DecidableEq, Repr

def step (s : System) : Event → Option System
  | .call caller op => some { s with admin := s.admin.perform caller op.prog }
  | .dispatch =>
    s.admin.dispatch.map fun (admin, sent) =>
      { s with admin := admin, broker := s.broker ++ sent.toList }
  | .answer error roles =>
    match s.broker with
    | [] => none
    | (token, command) :: rest =>
      let response : Response := ⟨command.name, error, roles⟩
      some {
        admin := s.admin.onResponse (some response)
        broker := rest
        answered := s.answered ++ ((s.admin.settles (some response)).map (·, token)).toList }
  | .lose token => some { s with broker := s.broker.filter (·.1 ≠ token) }
  | .timeout => s.admin.onTimeout.map ({ s with admin := · })
  | .published token failed => some { s with admin := s.admin.onPublished token failed }
  | .connection up => some { s with admin := { s.admin with connected := up } }

/-- Every command settled by a response was settled by the broker's answer to that command. -/
def Correlated (s : System) : Prop := ∀ p ∈ s.answered, p.1 = p.2

/-- The command was given up before it was answered. -/
def Abandoned (s : System) (token : ℕ) : Prop :=
  (token, Cause.timeout) ∈ s.admin.settled ∨ (token, Cause.unreachable) ∈ s.admin.settled

/-- An answer that arrives for an abandoned command finds no command of the same name in flight. -/
def NoLateNamesake (s : System) : Event → Prop
  | .answer _ _ => ∀ token command rest, s.broker = (token, command) :: rest →
      Abandoned s token → ∀ f ∈ s.admin.inFlight, f.request.command.name ≠ command.name
  | _ => True

/-! ### The books over tokens -/

/-- The tokens the broker still owes an answer are distinct and were published; one that is no
longer in flight has been settled, and not by the answer that is still owed. -/
structure Books (next : ℕ) (flying : Option ℕ) (settled : List (ℕ × Cause)) (owed : List ℕ)
    (answered : List (ℕ × ℕ)) : Prop where
  distinct : owed.Nodup
  owed_le : ∀ t ∈ owed, t ≤ next
  flying_le : ∀ t ∈ flying, t ≤ next ∧ ∀ cause, (t, cause) ∉ settled
  settled_le : ∀ p ∈ settled, p.1 ≤ next
  owed_settled : ∀ t ∈ owed, flying = some t ∨ ∃ cause, (t, cause) ∈ settled
  byResponse : ∀ t, (t, Cause.response) ∈ settled → ∃ p ∈ answered, p.1 = t
  answered_not_owed : ∀ p ∈ answered, p.2 ≤ next ∧ p.2 ∉ owed

namespace Books

variable {next : ℕ} {flying : Option ℕ} {settled : List (ℕ × Cause)} {owed : List ℕ}
  {answered : List (ℕ × ℕ)}

/-- An answer is lost, or ignored. -/
theorem sublist (h : Books next flying settled owed answered) {owed' : List ℕ}
    (hsub : owed'.Sublist owed) : Books next flying settled owed' answered where
  distinct := h.distinct.sublist hsub
  owed_le t ht := h.owed_le t (hsub.subset ht)
  flying_le := h.flying_le
  settled_le := h.settled_le
  owed_settled t ht := h.owed_settled t (hsub.subset ht)
  byResponse := h.byResponse
  answered_not_owed p hp :=
    ⟨(h.answered_not_owed p hp).1, fun ht => (h.answered_not_owed p hp).2 (hsub.subset ht)⟩

/-- The next command is published. -/
theorem publish (h : Books next none settled owed answered) :
    Books (next + 1) (some (next + 1)) settled (owed ++ [next + 1]) answered := by
  have hfresh : ∀ n, n ≤ next → n ≠ next + 1 := fun n hn => by omega
  refine ⟨?_, ?_, ?_, ?_, ?_, h.byResponse, ?_⟩
  · rw [List.nodup_append]
    refine ⟨h.distinct, List.nodup_singleton _, ?_⟩
    intro t ht b hb
    rw [List.mem_singleton.mp hb]
    exact hfresh t (h.owed_le t ht)
  · intro t ht
    rcases List.mem_append.mp ht with ht | ht
    · exact Nat.le_succ_of_le (h.owed_le t ht)
    · rw [List.mem_singleton.mp ht]
  · intro t ht
    rw [Option.mem_some_iff] at ht
    subst ht
    exact ⟨le_rfl, fun cause hc => hfresh _ (h.settled_le _ hc) rfl⟩
  · intro p hp
    exact Nat.le_succ_of_le (h.settled_le p hp)
  · intro t ht
    rcases List.mem_append.mp ht with ht | ht
    · rcases h.owed_settled t ht with hflying | hsettled
      · cases hflying
      · exact .inr hsettled
    · rw [List.mem_singleton.mp ht]
      exact .inl rfl
  · intro p hp
    obtain ⟨hle, hnot⟩ := h.answered_not_owed p hp
    refine ⟨Nat.le_succ_of_le hle, ?_⟩
    rw [List.mem_append, List.mem_singleton]
    rintro (hold | hnew)
    · exact hnot hold
    · exact hfresh _ hle hnew

/-- The command in flight is given up. -/
theorem giveUp {t : ℕ} (h : Books next (some t) settled owed answered) {cause : Cause}
    (hcause : cause ≠ .response) : Books next none (settled ++ [(t, cause)]) owed answered := by
  refine ⟨h.distinct, h.owed_le, ?_, ?_, ?_, ?_, h.answered_not_owed⟩
  · intro _ ht
    cases ht
  · intro p hp
    rcases List.mem_append.mp hp with hp | hp
    · exact h.settled_le p hp
    · rw [List.mem_singleton.mp hp]
      exact (h.flying_le t rfl).1
  · intro u hu
    refine .inr ?_
    rcases h.owed_settled u hu with hflying | ⟨c, hc⟩
    · rw [Option.some.injEq] at hflying
      subst hflying
      exact ⟨cause, List.mem_append_right _ List.mem_cons_self⟩
    · exact ⟨c, List.mem_append_left _ hc⟩
  · intro u hu
    rcases List.mem_append.mp hu with hu | hu
    · exact h.byResponse u hu
    · rw [List.mem_singleton, Prod.mk.injEq] at hu
      exact absurd hu.2.symm hcause

/-- The answer to `t` settles the command in flight. -/
theorem answer {f t : ℕ} (h : Books next (some f) settled (t :: owed) answered) :
    Books next none (settled ++ [(f, .response)]) owed (answered ++ [(f, t)]) := by
  have hrest := h.sublist (List.sublist_cons_self t owed)
  refine ⟨hrest.distinct, hrest.owed_le, ?_, ?_, ?_, ?_, ?_⟩
  · intro _ ht
    cases ht
  · intro p hp
    rcases List.mem_append.mp hp with hp | hp
    · exact h.settled_le p hp
    · rw [List.mem_singleton.mp hp]
      exact (h.flying_le f rfl).1
  · intro u hu
    refine .inr ?_
    rcases hrest.owed_settled u hu with hflying | ⟨c, hc⟩
    · rw [Option.some.injEq] at hflying
      subst hflying
      exact ⟨.response, List.mem_append_right _ List.mem_cons_self⟩
    · exact ⟨c, List.mem_append_left _ hc⟩
  · intro u hu
    rcases List.mem_append.mp hu with hu | hu
    · obtain ⟨p, hp, hpu⟩ := h.byResponse u hu
      exact ⟨p, List.mem_append_left _ hp, hpu⟩
    · rw [List.mem_singleton, Prod.mk.injEq] at hu
      exact ⟨(f, t), List.mem_append_right _ List.mem_cons_self, hu.1.symm⟩
  · intro p hp
    rcases List.mem_append.mp hp with hp | hp
    · exact hrest.answered_not_owed p hp
    · rw [List.mem_singleton.mp hp]
      exact ⟨h.owed_le t List.mem_cons_self, (List.nodup_cons.mp h.distinct).1⟩

/-- While every command was settled by its own answer, an answer that is not for the command in
flight is for one that was given up. -/
theorem abandoned (h : Books next flying settled owed answered)
    (hcorr : ∀ p ∈ answered, p.1 = p.2) {t : ℕ} (ht : t ∈ owed) (hne : flying ≠ some t) :
    (t, Cause.timeout) ∈ settled ∨ (t, Cause.unreachable) ∈ settled := by
  rcases h.owed_settled t ht with hflying | ⟨cause, hcause⟩
  · exact absurd hflying hne
  · cases cause with
    | timeout => exact .inl hcause
    | unreachable => exact .inr hcause
    | response =>
      -- then its own answer has arrived, and is not owed any more
      obtain ⟨p, hp, hpt⟩ := h.byResponse t hcause
      have := (h.answered_not_owed p hp).2
      rw [← hcorr p hp, hpt] at this
      exact absurd ht this

end Books

/-! ### The invariant -/

def Inv (s : System) : Prop :=
  Books s.admin.nextToken (s.admin.inFlight.map InFlight.token) s.admin.settled
    (s.broker.map Prod.fst) s.answered

theorem inv_init : Inv init := by
  constructor <;> simp [init, Admin.init]

/-- A timer or a publish callback, which may be for an abandoned command. -/
theorem inv_settle {s : System} (hi : Inv s) (token : ℕ) {cause : Cause}
    (hcause : cause ≠ .response) (result : Except String Response) :
    Inv { s with admin := s.admin.settle token cause result } := by
  by_cases h : ∃ f ∈ s.admin.inFlight, f.token = token
  · obtain ⟨f, hf, rfl⟩ := h
    obtain ⟨hin, htoken, hsettled⟩ := Admin.settle_inFlight hf cause result
    unfold Inv at hi ⊢
    rw [hf, Option.map_some] at hi
    simp only [hin, htoken, hsettled, Option.map_none]
    exact hi.giveUp hcause
  · rw [Admin.settle_inFlight_ne fun f hf heq => h ⟨f, hf, heq⟩]
    exact hi

theorem inv_dispatch {s : System} (hi : Inv s) {a : Admin} {sent : Option (ℕ × Command)}
    (h : s.admin.dispatch = some (a, sent)) :
    Inv { s with admin := a, broker := s.broker ++ sent.toList } := by
  unfold Inv at hi ⊢
  obtain ⟨hidle, hsettled, ⟨r, rfl, htoken, hin⟩ | ⟨rfl, htoken, hin⟩⟩ := Admin.dispatch_cases h
  · rw [hidle, Option.map_none] at hi
    simp only [htoken, hin, hsettled, Option.map_some, List.map_append, Option.toList_some]
    exact hi.publish
  · simp only [htoken, hin, hsettled, Option.toList_none, List.append_nil]
    rw [← hidle]
    exact hi

theorem inv_step {s s' : System} {e : Event} (hi : Inv s) (h : step s e = some s') : Inv s' := by
  cases e with
  | call caller op =>
    cases h
    obtain ⟨hin, htoken, hsettled, -⟩ := s.admin.perform_frame caller op.prog
    unfold Inv at hi ⊢
    simp only [hin, htoken, hsettled]
    exact hi
  | dispatch =>
    obtain ⟨⟨a, sent⟩, hd, rfl⟩ := Option.map_eq_some_iff.mp h
    exact inv_dispatch hi hd
  | answer error roles =>
    simp only [step] at h
    split at h
    · cases h
    · rename_i token command rest hbroker
      cases h
      unfold Inv at hi ⊢
      rw [hbroker, List.map_cons] at hi
      rcases s.admin.onResponse_eq (some ⟨command.name, error, roles⟩) with
        ⟨hnone, hsame⟩ | ⟨f, result, hf, hsettles, hstep⟩
      · simp only [hnone, hsame, Option.map_none, Option.toList_none, List.append_nil]
        exact hi.sublist (List.sublist_cons_self _ _)
      · obtain ⟨hin, htoken, hsettled⟩ := Admin.settle_inFlight hf .response result
        rw [hf, Option.map_some] at hi
        simp only [hsettles, hstep, hin, htoken, hsettled, Option.map_some, Option.map_none,
          Option.toList_some]
        exact hi.answer
  | lose token =>
    cases h
    exact Books.sublist hi (List.filter_sublist.map Prod.fst)
  | timeout =>
    obtain ⟨a, ha, rfl⟩ := Option.map_eq_some_iff.mp h
    obtain ⟨f, hf, rfl⟩ := Option.map_eq_some_iff.mp ha
    exact inv_settle hi f.token (by simp) _
  | published token failed =>
    cases h
    cases failed with
    | false => exact hi
    | true => exact inv_settle hi token (by simp) _
  | connection up =>
    cases h
    exact hi

/-- The books are kept in every run. -/
theorem inv_run (es : List Event) (s : System) (h : run step init es = some s) : Inv s :=
  run_invariant_of_step step (fun _ _ _ hi hs => inv_step hi hs) es init s inv_init h

/-! ### Correlation -/

/-- One step keeps every command with its own answer exactly when no late namesake arrives. -/
theorem step_correlated_iff {s s' : System} {e : Event} (hi : Inv s) (h : step s e = some s') :
    Correlated s' ↔ Correlated s ∧ NoLateNamesake s e := by
  cases e with
  | answer error roles =>
    simp only [step] at h
    split at h
    · cases h
    · rename_i token command rest hbroker
      cases h
      unfold Inv at hi
      rw [hbroker, List.map_cons] at hi
      simp only [Correlated, List.mem_append, NoLateNamesake, hbroker, List.cons.injEq,
        Prod.mk.injEq]
      constructor
      · intro hcorr
        refine ⟨fun p hp => hcorr p (.inl hp), ?_⟩
        rintro _ _ _ ⟨⟨rfl, rfl⟩, rfl⟩ habandoned f hf hname
        have hsettles : s.admin.settles (some ⟨command.name, error, roles⟩) = some f.token := by
          simp only [Admin.settles, Option.mem_def.mp hf, hname, if_true]
        have hsame := hcorr (f.token, token) (.inr (by simp [hsettles]))
        -- the command in flight has not been settled, the abandoned one has
        have hflying := (hi.flying_le f.token (by rw [Option.mem_def.mp hf]; rfl)).2
        rw [show f.token = token from hsame] at hflying
        rcases habandoned with ha | ha
        · exact hflying _ ha
        · exact hflying _ ha
      · rintro ⟨hcorr, hlate⟩ p (hp | hp)
        · exact hcorr p hp
        · rcases s.admin.onResponse_eq (some ⟨command.name, error, roles⟩) with
            ⟨hnone, -⟩ | ⟨f, result, hf, hsettles, -⟩
          · simp [hnone] at hp
          · simp only [hsettles, Option.map_some, Option.toList_some, List.mem_singleton] at hp
            rw [hp]
            by_contra hne
            have hname : f.request.command.name = command.name := by
              by_contra hname
              simp only [Admin.settles, hf, if_neg (Ne.symm hname), reduceCtorEq] at hsettles
            have habandoned := hi.abandoned hcorr List.mem_cons_self (by
              rw [hf, Option.map_some, ne_eq, Option.some.injEq]
              exact hne)
            exact hlate token command rest ⟨⟨rfl, rfl⟩, rfl⟩ habandoned f hf hname
  | dispatch =>
    obtain ⟨⟨a, sent⟩, -, rfl⟩ := Option.map_eq_some_iff.mp h
    simp [Correlated, NoLateNamesake]
  | timeout =>
    obtain ⟨a, -, rfl⟩ := Option.map_eq_some_iff.mp h
    simp [Correlated, NoLateNamesake]
  | _ =>
    cases h
    simp [Correlated, NoLateNamesake]

/-- **In which runs every command is settled by its own answer**: those in which no answer to a
command that timed out, or whose publish failed, arrives while a command of the same name is in
flight. -/
theorem correlated_iff (es : List Event) (s : System) (h : run step init es = some s) :
    Correlated s ↔ Meets step NoLateNamesake init es := by
  induction es using List.reverseRecOn generalizing s with
  | nil =>
    cases h
    simp [Correlated, Meets, init]
  | append_singleton es e ih =>
    obtain ⟨mid, hmid, hstep⟩ := (run_snoc_eq_some _).mp h
    rw [step_correlated_iff (inv_run es mid hmid) hstep, ih mid hmid, meets_snoc _ hmid]

section Example

/-- Two cars are removed one after the other; the first `deleteClient` times out and its answer
arrives while the second is in flight. -/
def lateDelete : List Event :=
  [.call 0 (.removeCar "car-7"), .dispatch, .timeout, .call 1 (.removeCar "car-8"), .dispatch,
    .answer none none]

/-- The removal of the second car is settled by the answer to the removal of the first. -/
theorem lateDelete_ran : ∃ s, run step init lateDelete = some s ∧ ¬ Correlated s := by
  have hrun : (run step init lateDelete).map System.answered = some [(2, 1)] := by decide
  obtain ⟨s, hs, hanswered⟩ := Option.map_eq_some_iff.mp hrun
  refine ⟨s, hs, fun hsame => ?_⟩
  cases hsame (2, 1) (by rw [hanswered]; exact List.mem_cons_self)

theorem correlated_iff_lateDelete : ¬ Meets step NoLateNamesake init lateDelete := by
  obtain ⟨s, hs, hnot⟩ := lateDelete_ran
  exact fun hmeets => hnot ((correlated_iff lateDelete s hs).mpr hmeets)

theorem lateDelete_mismatched :
    ¬ ∀ (es : List Event) (s : System), run step init es = some s → Correlated s := by
  intro h
  obtain ⟨s, hs, hnot⟩ := lateDelete_ran
  exact hnot (h lateDelete s hs)

end Example

end TelemetryCloud.MqttBroker
