import TelemetryCloud.LiveBus
import TelemetryCloud.Runs

/-!
# Viewers of the live bus: who holds a car's subscription

Any number of viewers of any number of cars call `LiveTelemetryBusService`, and every `SUBSCRIBE`
and `UNSUBSCRIBE` succeeds, fails or takes its time.  A viewer leaves once, after its `addViewer` has
resolved: the one thing the service takes on trust.

* `Viewer` : one `addViewer` and the `removeViewer` paired with it;
* `inv_step` : the entry of a car counts its viewers, and the last command issued for a car that has
  an entry is the `SUBSCRIBE` the entry holds the promise of;
* `viewers_accounted` : **the refcount, the subscription and the failures**, in every run.
-/

namespace TelemetryCloud.LiveViewers

open LiveBus Runs

/-- How far a viewer is: `waiting` on a `SUBSCRIBE` of its car, `joined` once `addViewer` resolved,
`rejected` with the `SUBSCRIBE` it waited on, or gone. -/
inductive Status
  | waiting (promise : ℕ)
  | joined
  | rejected (promise : ℕ)
  | left
  deriving DecidableEq, Repr

structure Viewer (Car : Type) where
  car : Car
  status : Status
  deriving DecidableEq, Repr

/-- The bus, car by car, every command ever issued for a car, and the viewers. -/
structure State (Car : Type) where
  bus : Car → CarBus
  issued : Car → List Command
  viewers : List (Viewer Car)

variable {Car : Type} [DecidableEq Car]

def init : State Car := ⟨fun _ => .init, fun _ => [], []⟩

/-- The bus of a car after one of its operations, and the commands the operation issued. -/
def State.put (s : State Car) (c : Car) (b : CarBus) : State Car :=
  { s with
    bus := Function.update s.bus c b
    issued := Function.update s.issued c
      (s.issued c ++ b.queue.drop (s.bus c).queue.length) }

/-- `resume` is the rest of an `addViewer` whose promise has settled. -/
inductive Event (Car : Type)
  | addViewer (c : Car)
  | resume (i : ℕ)
  | removeViewer (i : ℕ)
  | reply (c : Car) (ok : Bool)

def resume (s : State Car) (i : ℕ) : Option (State Car) :=
  match s.viewers[i]? with
  | some ⟨c, .waiting p⟩ =>
    match (s.bus c).promise p with
    | .pending => none
    | .fulfilled => some { s with viewers := s.viewers.set i ⟨c, .joined⟩ }
    | .rejected =>
      some { s.put c ((s.bus c).dropFailed p) with viewers := s.viewers.set i ⟨c, .rejected p⟩ }
  | _ => none

def step (s : State Car) : Event Car → Option (State Car)
  | .addViewer c =>
    some { s.put c (s.bus c).addViewer.1 with
      viewers := s.viewers ++ [⟨c, .waiting (s.bus c).addViewer.2⟩] }
  | .resume i => resume s i
  | .removeViewer i =>
    match s.viewers[i]? with
    | some ⟨c, .joined⟩ =>
      some { s.put c (s.bus c).removeViewer with viewers := s.viewers.set i ⟨c, .left⟩ }
    | _ => none
  | .reply c ok =>
    ((s.bus c).reply ok).map fun b => { s with bus := Function.update s.bus c b }

/-! ### Counting viewers -/

/-- The viewers of a car that wait on its `SUBSCRIBE` number `p`. -/
def waitingFor (viewers : List (Viewer Car)) (c : Car) (p : ℕ) : ℕ :=
  viewers.count ⟨c, .waiting p⟩

/-- The viewers of a car that have joined and not left. -/
def joined (viewers : List (Viewer Car)) (c : Car) : ℕ := viewers.count ⟨c, .joined⟩

section Counting

variable {viewers : List (Viewer Car)} {i : ℕ} {v w : Viewer Car}

theorem count_pos_of_at (hv : viewers[i]? = some v) : 0 < viewers.count v :=
  List.count_pos_iff.mpr (List.mem_of_getElem? hv)

theorem count_concat (x : Viewer Car) :
    (viewers ++ [w]).count x = viewers.count x + if x = w then 1 else 0 := by
  rw [List.count_append, List.count_singleton]
  by_cases hx : x = w
  · rw [if_pos hx, hx, if_pos (beq_self_eq_true _)]
  · rw [if_neg hx, if_neg (fun h => hx (eq_of_beq h).symm)]

/-- One viewer moves on. -/
theorem count_set (hv : viewers[i]? = some v) (hvw : v ≠ w) (x : Viewer Car) :
    (viewers.set i w).count x =
      if x = v then viewers.count v - 1 else if x = w then viewers.count w + 1
      else viewers.count x := by
  obtain ⟨hlt, hget⟩ := List.getElem?_eq_some_iff.mp hv
  rw [List.count_set hlt, hget]
  by_cases hxv : x = v
  · subst hxv
    rw [if_pos rfl, if_pos (beq_self_eq_true x), if_neg (by simp [Ne.symm hvw]), Nat.add_zero]
  · rw [if_neg hxv, if_neg (by simp [Ne.symm hxv]), Nat.sub_zero]
    by_cases hxw : x = w
    · subst hxw
      rw [if_pos rfl, if_pos (beq_self_eq_true x)]
    · rw [if_neg hxw, if_neg (by simp [Ne.symm hxw]), Nat.add_zero]

end Counting

/-! ### The last command, and the entries that are gone -/

/-- The last command issued for a car that has an entry is the `SUBSCRIBE` of the entry. -/
def Tracks (issued : List Command) (b : CarBus) : Prop :=
  ∀ e, b.entry = some e → issued.getLast? = some (.subscribe e.subscribing)

/-- The entry of the `SUBSCRIBE` number `p` is gone for good. -/
def Gone (b : CarBus) (p : ℕ) : Prop :=
  p < b.issued ∧ ∀ e, b.entry = some e → e.subscribing ≠ p

section Bus

variable {b : CarBus} {issued : List Command} {p : ℕ}

theorem tracks_addViewer (h : Tracks issued b) :
    Tracks (issued ++ b.addViewer.1.queue.drop b.queue.length) b.addViewer.1 := by
  unfold CarBus.addViewer
  split
  · rename_i e he
    rw [List.drop_length, List.append_nil]
    rintro _ ⟨⟩
    exact h e he
  · rintro _ ⟨⟩
    rw [List.drop_left, List.getLast?_concat]

theorem tracks_dropFailed (h : Tracks issued b) (i : ℕ) :
    Tracks (issued ++ (b.dropFailed i).queue.drop b.queue.length) (b.dropFailed i) := by
  unfold CarBus.dropFailed
  split
  · split
    · rintro _ ⟨⟩
    · rw [List.drop_length, List.append_nil]
      exact h
  · rw [List.drop_length, List.append_nil]
    exact h

theorem tracks_removeViewer (h : Tracks issued b) :
    Tracks (issued ++ b.removeViewer.queue.drop b.queue.length) b.removeViewer := by
  cases he : b.entry with
  | none =>
    simp only [CarBus.removeViewer, CarBus.release, he, Bool.false_eq_true, if_false,
      List.drop_length, List.append_nil]
    exact h
  | some e =>
    by_cases hle : e.count ≤ 1
    · simp only [CarBus.removeViewer, CarBus.release, he, hle, if_true]
      rintro _ ⟨⟩
    · simp only [CarBus.removeViewer, CarBus.release, he, hle, if_false, Bool.false_eq_true,
        List.drop_length, List.append_nil]
      rintro _ ⟨⟩
      exact h e he

theorem reply_frame {b' : CarBus} {ok : Bool} (h : b.reply ok = some b') :
    b'.entry = b.entry ∧ b'.issued = b.issued := by
  unfold CarBus.reply at h
  split at h
  · cases h
  · cases h
    exact ⟨rfl, rfl⟩
  · cases h
    exact ⟨rfl, rfl⟩

theorem gone_addViewer (h : Gone b p) : Gone b.addViewer.1 p := by
  unfold CarBus.addViewer
  split
  · rename_i e he
    refine ⟨h.1, ?_⟩
    rintro _ ⟨⟩
    exact h.2 e he
  · refine ⟨Nat.lt_succ_of_lt h.1, ?_⟩
    rintro _ ⟨⟩
    exact Nat.ne_of_gt h.1

theorem gone_dropFailed (h : Gone b p) (i : ℕ) : Gone (b.dropFailed i) p := by
  unfold CarBus.dropFailed
  split
  · split
    · exact ⟨h.1, by rintro _ ⟨⟩⟩
    · exact h
  · exact h

/-- The viewer that hears of a failure leaves no entry of that `SUBSCRIBE` behind. -/
theorem gone_dropFailed_self (hp : p < b.issued) : Gone (b.dropFailed p) p := by
  unfold CarBus.dropFailed
  split
  · split
    · exact ⟨hp, by rintro _ ⟨⟩⟩
    · rename_i e he hne
      refine ⟨hp, ?_⟩
      intro e' he'
      rw [he] at he'
      cases he'
      exact hne
  · rename_i hnone
    refine ⟨hp, ?_⟩
    intro e he
    rw [hnone] at he
    cases he

theorem gone_removeViewer (h : Gone b p) : Gone b.removeViewer p := by
  cases he : b.entry with
  | none =>
    simp only [CarBus.removeViewer, CarBus.release, he, Bool.false_eq_true, if_false]
    exact h
  | some e =>
    by_cases hle : e.count ≤ 1
    · simp only [CarBus.removeViewer, CarBus.release, he, hle, if_true]
      exact ⟨h.1, by rintro _ ⟨⟩⟩
    · simp only [CarBus.removeViewer, CarBus.release, he, hle, if_false, Bool.false_eq_true]
      refine ⟨h.1, ?_⟩
      rintro _ ⟨⟩
      exact h.2 e he

end Bus

/-! ### The invariant -/

structure Inv (s : State Car) : Prop where
  bus : ∀ c, (s.bus c).Consistent (waitingFor s.viewers c) (joined s.viewers c)
  last : ∀ c, Tracks (s.issued c) (s.bus c)
  gone : ∀ c p, ⟨c, .rejected p⟩ ∈ s.viewers → Gone (s.bus c) p

theorem inv_init : Inv (init : State Car) where
  bus := fun _ => CarBus.consistent_init
  last := fun _ _ h => by cases h
  gone := fun _ _ h => by cases h

/-- One car changes, and only viewers of that car move. -/
theorem inv_update {s : State Car} (hi : Inv s) {c : Car} {b : CarBus} {issued : List Command}
    {viewers : List (Viewer Car)}
    (hb : b.Consistent (waitingFor viewers c) (joined viewers c)) (hlast : Tracks issued b)
    (hgone : ∀ p, ⟨c, .rejected p⟩ ∈ viewers → Gone b p)
    (hother : ∀ v : Viewer Car, v.car ≠ c → viewers.count v = s.viewers.count v) :
    Inv ⟨Function.update s.bus c b, Function.update s.issued c issued, viewers⟩ := by
  refine ⟨?_, ?_, ?_⟩
  · intro d
    show (Function.update s.bus c b d).Consistent (waitingFor viewers d) (joined viewers d)
    by_cases hd : d = c
    · subst hd
      rw [Function.update_self]
      exact hb
    · have hwait : waitingFor viewers d = waitingFor s.viewers d :=
        funext fun p => hother ⟨d, .waiting p⟩ hd
      rw [Function.update_of_ne hd, hwait, joined, hother ⟨d, .joined⟩ hd]
      exact hi.bus d
  · intro d
    show Tracks (Function.update s.issued c issued d) (Function.update s.bus c b d)
    by_cases hd : d = c
    · subst hd
      rw [Function.update_self, Function.update_self]
      exact hlast
    · rw [Function.update_of_ne hd, Function.update_of_ne hd]
      exact hi.last d
  · intro d p hmem
    show Gone (Function.update s.bus c b d) p
    by_cases hd : d = c
    · subst hd
      rw [Function.update_self]
      exact hgone p hmem
    · rw [Function.update_of_ne hd]
      apply hi.gone d p
      rw [← List.count_pos_iff, ← hother ⟨d, .rejected p⟩ hd]
      exact List.count_pos_iff.mpr hmem

theorem inv_addViewer {s : State Car} (hi : Inv s) (c : Car) :
    Inv { s.put c (s.bus c).addViewer.1 with
      viewers := s.viewers ++ [⟨c, .waiting (s.bus c).addViewer.2⟩] } := by
  apply inv_update hi
  · have hwait : waitingFor (s.viewers ++ [⟨c, .waiting (s.bus c).addViewer.2⟩]) c =
        Function.update (waitingFor s.viewers c) (s.bus c).addViewer.2
          (waitingFor s.viewers c (s.bus c).addViewer.2 + 1) := by
      funext p
      rw [waitingFor, count_concat]
      by_cases hp : p = (s.bus c).addViewer.2
      · subst hp
        rw [if_pos rfl, Function.update_self]
        rfl
      · rw [if_neg (by simp [hp]), Function.update_of_ne hp]
        rfl
    have hjoined : joined (s.viewers ++ [⟨c, .waiting (s.bus c).addViewer.2⟩]) c =
        joined s.viewers c := by
      rw [joined, count_concat, if_neg (by simp)]
      rfl
    rw [hwait, hjoined]
    exact (hi.bus c).addViewer
  · exact tracks_addViewer (hi.last c)
  · intro p hp
    rcases List.mem_append.mp hp with hp | hp
    · exact gone_addViewer (hi.gone c p hp)
    · rw [List.mem_singleton, Viewer.mk.injEq] at hp
      cases hp.2
  · intro v hv
    rw [count_concat, if_neg (fun h => hv (congrArg Viewer.car h)), Nat.add_zero]

section Move

variable {s : State Car} {i : ℕ} {c : Car} {p : ℕ} {status : Status}

/-- A viewer of car `c` moves on: nothing changes for the other cars. -/
theorem count_other {v : Viewer Car} (hv : s.viewers[i]? = some v) (hcar : v.car = c)
    (hne : v ≠ ⟨c, status⟩) (x : Viewer Car) (hx : x.car ≠ c) :
    (s.viewers.set i ⟨c, status⟩).count x = s.viewers.count x := by
  rw [count_set hv hne, if_neg, if_neg]
  · rintro rfl
    exact hx rfl
  · rintro rfl
    exact hx hcar

/-- A viewer that waited on `p` no longer does. -/
theorem waitingFor_set (hv : s.viewers[i]? = some ⟨c, .waiting p⟩)
    (hstatus : ∀ q, status ≠ .waiting q) :
    waitingFor (s.viewers.set i ⟨c, status⟩) c =
      Function.update (waitingFor s.viewers c) p (waitingFor s.viewers c p - 1) := by
  funext q
  rw [waitingFor, count_set hv (by simp [Ne.symm (hstatus p)])]
  by_cases hq : q = p
  · subst hq
    rw [if_pos rfl, Function.update_self]
    rfl
  · rw [if_neg (by simp [hq]), if_neg (by simp [Ne.symm (hstatus q)]), Function.update_of_ne hq]
    rfl

end Move

/-- **What a settled promise does to a viewer that waits on it.** -/
theorem resume_cases {s s' : State Car} {i : ℕ} (h : resume s i = some s') :
    ∃ c p, s.viewers[i]? = some ⟨c, .waiting p⟩ ∧
      (((s.bus c).promise p = .fulfilled ∧
          s' = { s with viewers := s.viewers.set i ⟨c, .joined⟩ }) ∨
        ((s.bus c).promise p = .rejected ∧
          s' = { s.put c ((s.bus c).dropFailed p) with
            viewers := s.viewers.set i ⟨c, .rejected p⟩ })) := by
  unfold resume at h
  split at h
  · rename_i c p hv
    split at h
    · cases h
    · rename_i hp
      cases h
      exact ⟨c, p, hv, .inl ⟨hp, rfl⟩⟩
    · rename_i hp
      cases h
      exact ⟨c, p, hv, .inr ⟨hp, rfl⟩⟩
  · cases h

theorem inv_resume {s s' : State Car} (hi : Inv s) {i : ℕ} (h : resume s i = some s') :
    Inv s' := by
  obtain ⟨c, p, hv, ⟨hp, rfl⟩ | ⟨hp, rfl⟩⟩ := resume_cases h
  · have hpos : 0 < waitingFor s.viewers c p := count_pos_of_at hv
    have hsame : (⟨s.bus, s.issued, s.viewers.set i ⟨c, .joined⟩⟩ : State Car) =
        ⟨Function.update s.bus c (s.bus c), Function.update s.issued c (s.issued c),
          s.viewers.set i ⟨c, .joined⟩⟩ := by
      rw [Function.update_eq_self, Function.update_eq_self]
    rw [hsame]
    apply inv_update hi
    · have hjoined : joined (s.viewers.set i ⟨c, .joined⟩) c = joined s.viewers c + 1 := by
        rw [joined, count_set hv (by simp), if_neg (by simp), if_pos rfl]
        rfl
      rw [waitingFor_set hv (by simp), hjoined]
      exact (hi.bus c).letIn hpos hp
    · exact hi.last c
    · intro q hq
      rcases List.mem_or_eq_of_mem_set hq with hq | hq
      · exact hi.gone c q hq
      · rw [Viewer.mk.injEq] at hq
        cases hq.2
    · exact count_other hv rfl (by simp)
  · have hpos : 0 < waitingFor s.viewers c p := count_pos_of_at hv
    have hlt : p < (s.bus c).issued := by
      by_contra hge
      have := (hi.bus c).fresh p (Nat.le_of_not_lt hge)
      omega
    apply inv_update hi
    · have hjoined : joined (s.viewers.set i ⟨c, .rejected p⟩) c = joined s.viewers c := by
        rw [joined, count_set hv (by simp), if_neg (by simp), if_neg (by simp)]
        rfl
      rw [waitingFor_set hv (by simp), hjoined]
      exact (hi.bus c).dropFailed hpos hp
    · exact tracks_dropFailed (hi.last c) p
    · intro q hq
      rcases List.mem_or_eq_of_mem_set hq with hq | hq
      · exact gone_dropFailed (hi.gone c q hq) p
      · rw [Viewer.mk.injEq, Status.rejected.injEq] at hq
        rw [hq.2]
        exact gone_dropFailed_self hlt
    · exact count_other hv rfl (by simp)

theorem inv_removeViewer {s : State Car} (hi : Inv s) {i : ℕ} {c : Car}
    (hv : s.viewers[i]? = some ⟨c, .joined⟩) :
    Inv { s.put c (s.bus c).removeViewer with viewers := s.viewers.set i ⟨c, .left⟩ } := by
  have hpos : 0 < joined s.viewers c := count_pos_of_at hv
  apply inv_update hi
  · have hwait : waitingFor (s.viewers.set i ⟨c, .left⟩) c = waitingFor s.viewers c := by
      funext q
      rw [waitingFor, count_set hv (by simp), if_neg (by simp), if_neg (by simp)]
      rfl
    have hjoined : joined (s.viewers.set i ⟨c, .left⟩) c = joined s.viewers c - 1 := by
      rw [joined, count_set hv (by simp), if_pos rfl]
      rfl
    rw [hwait, hjoined]
    exact (hi.bus c).removeViewer hpos
  · exact tracks_removeViewer (hi.last c)
  · intro q hq
    rcases List.mem_or_eq_of_mem_set hq with hq | hq
    · exact gone_removeViewer (hi.gone c q hq)
    · rw [Viewer.mk.injEq] at hq
      cases hq.2
  · exact count_other hv rfl (by simp)

theorem inv_step {s s' : State Car} {e : Event Car} (hi : Inv s) (h : step s e = some s') :
    Inv s' := by
  cases e with
  | addViewer c =>
    cases h
    exact inv_addViewer hi c
  | resume i => exact inv_resume hi h
  | removeViewer i =>
    simp only [step] at h
    split at h
    · rename_i c hv
      cases h
      exact inv_removeViewer hi hv
    · cases h
  | reply c ok =>
    obtain ⟨b, hb, rfl⟩ := Option.map_eq_some_iff.mp h
    obtain ⟨hentry, hissued⟩ := reply_frame hb
    have hsame : s.issued = Function.update s.issued c (s.issued c) :=
      (Function.update_eq_self c s.issued).symm
    rw [hsame]
    apply inv_update hi ((hi.bus c).reply hb)
    · intro e he
      rw [hentry] at he
      exact hi.last c e he
    · intro p hp
      obtain ⟨hlt, hne⟩ := hi.gone c p hp
      exact ⟨by rwa [hissued], by rwa [hentry]⟩
    · intro v _
      rfl

theorem inv_run {es : List (Event Car)} {s : State Car} (h : run step init es = some s) : Inv s :=
  run_invariant_of_step step (fun _ _ _ hi hs => inv_step hi hs) es init s inv_init h

/-! ### Accounting -/

/-- The `SUBSCRIBE` the viewer waits on has failed: its `addViewer` rejects, the entry of that
`SUBSCRIBE` is gone for good, and a newer entry is left alone. -/
theorem resume_rejected {s : State Car} (hi : Inv s) {i : ℕ} {c : Car} {p : ℕ}
    (hv : s.viewers[i]? = some ⟨c, .waiting p⟩) (hp : (s.bus c).promise p = .rejected) :
    ∃ t, step s (.resume i) = some t ∧ t.viewers[i]? = some ⟨c, .rejected p⟩ ∧
      (∀ e, (t.bus c).entry = some e → e.subscribing ≠ p) ∧
      (∀ e, (s.bus c).entry = some e → e.subscribing ≠ p → (t.bus c).entry = some e) ∧
      ∀ d, d ≠ c → t.bus d = s.bus d := by
  have hstep : step s (.resume i) = some { s.put c ((s.bus c).dropFailed p) with
      viewers := s.viewers.set i ⟨c, .rejected p⟩ } := by
    simp only [step, resume, hv, hp]
  have hlt := (List.getElem?_eq_some_iff.mp hv).1
  have ht := inv_step hi hstep
  refine ⟨_, hstep, List.getElem?_set_self hlt, ?_, ?_, ?_⟩
  · have hmem : (⟨c, .rejected p⟩ : Viewer Car) ∈ s.viewers.set i ⟨c, .rejected p⟩ :=
      List.mem_of_getElem? (List.getElem?_set_self hlt)
    exact (ht.gone c p hmem).2
  · intro e he hne
    show (Function.update s.bus c ((s.bus c).dropFailed p) c).entry = some e
    rw [Function.update_self, CarBus.dropFailed, he]
    simp only [if_neg hne, he]
  · intro d hd
    exact Function.update_of_ne hd _ _

/-- **Refcounts and subscriptions agree.**  In every run in which a viewer leaves only after its
`addViewer` resolved: the count of a car is the number of its viewers that have joined and not left,
plus those that wait on the `SUBSCRIBE` of its entry; while one of them is there, the last command
issued for the car is a `SUBSCRIBE` that succeeded, and Redis holds the subscription; and a viewer
that waits on a failed `SUBSCRIBE` rejects, leaves no entry of it behind, then or later, and leaves
a newer entry alone. -/
theorem viewers_accounted (es : List (Event Car)) (s : State Car)
    (h : run step init es = some s) :
    (∀ c, ((s.bus c).entry = none → joined s.viewers c = 0) ∧ ∀ e, (s.bus c).entry = some e →
        e.count = joined s.viewers c + waitingFor s.viewers c e.subscribing) ∧
      (∀ (i : ℕ) (c : Car), s.viewers[i]? = some ⟨c, .joined⟩ → (∃ p,
        (s.issued c).getLast? = some (.subscribe p) ∧ (s.bus c).promise p = .fulfilled) ∧
        (s.bus c).subscribed = true) ∧
      (∀ (i : ℕ) (c : Car) (p : ℕ), s.viewers[i]? = some ⟨c, .waiting p⟩ →
        (s.bus c).promise p = .rejected →
        ∃ t, step s (.resume i) = some t ∧ t.viewers[i]? = some ⟨c, .rejected p⟩ ∧
          (∀ e, (t.bus c).entry = some e → e.subscribing ≠ p) ∧
          (∀ e, (s.bus c).entry = some e → e.subscribing ≠ p → (t.bus c).entry = some e) ∧
          ∀ d, d ≠ c → t.bus d = s.bus d) ∧
      ∀ (i : ℕ) (c : Car) (p : ℕ), s.viewers[i]? = some ⟨c, .rejected p⟩ →
        ∀ e, (s.bus c).entry = some e → e.subscribing ≠ p := by
  have hi := inv_run h
  refine ⟨?_, ?_, ?_, ?_⟩
  · intro c
    refine ⟨(hi.bus c).absent, ?_⟩
    intro e he
    rw [((hi.bus c).counted e he).1, Nat.add_comm]
  · intro i c hv
    have hheld : 0 < joined s.viewers c := count_pos_of_at hv
    -- a held viewer means an entry, and an entry whose `SUBSCRIBE` succeeded
    obtain ⟨e, he⟩ : ∃ e, (s.bus c).entry = some e := by
      apply Option.ne_none_iff_exists'.mp
      intro hnone
      have := (hi.bus c).absent hnone
      omega
    have hp : (s.bus c).promise e.subscribing = .fulfilled := by
      by_contra hne
      have := (hi.bus c).unresolved e he hne
      omega
    exact ⟨⟨e.subscribing, hi.last c e he, hp⟩, ((hi.bus c).resolved e he hp).2⟩
  · intro i c p hv hp
    exact resume_rejected hi hv hp
  · intro i c p hv
    exact (hi.gone c p (List.mem_of_getElem? hv)).2

section Example

/-- The first `SUBSCRIBE` of car 5 fails for two viewers.  One of them hears of it, a third viewer
starts a new `SUBSCRIBE`, which succeeds, and then the second viewer hears of the failure. -/
def lateRejection : List (Event ℕ) :=
  [.addViewer 5, .addViewer 5, .reply 5 false, .resume 0, .addViewer 5, .reply 5 true, .resume 2,
    .resume 1]

theorem viewers_accounted_lateRejection : ∃ s, run step init lateRejection = some s ∧
    (s.bus 5).subscribed = true := by
  have hrun : ((run step init lateRejection).any fun s =>
      decide (s.viewers[2]? = some ⟨5, .joined⟩)) = true := by decide +kernel
  obtain ⟨s, hs, hjoined⟩ := (Option.any_eq_true _ _).mp hrun
  have hv := of_decide_eq_true hjoined
  exact ⟨s, hs, ((viewers_accounted lateRejection s hs).2.1 2 5 hv).2⟩

end Example

end TelemetryCloud.LiveViewers
