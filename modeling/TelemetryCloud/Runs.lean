import Mathlib.Data.List.Basic

/-!
# Runs of event-driven systems

A system is a partial step function `step : σ → ε → Option σ`: the event carries every choice the
environment makes (who runs next, how a call it awaits turns out), so a run is a list of events and
`run` computes the state it leads to.  An event that cannot happen in a state gives `none`.

* `run_append`, `run_snoc` — runs compose.
* `Meets` — every step of a run meets a condition on the state before it and the event.
* `run_invariant` — what one step keeps, under the condition, every run keeps.
* `meets_of_check` — the condition, computed along a run.
* `exists_run_to_zero` — a measure that can always be brought down can be brought to zero.
* `meets_iff_prefixes` — the condition that is exact for one step is exact for runs.
* `stable_iff` — when a property, once it holds, holds for good.
* `history`, `run_withHistory` — a value read off a run along the way, beside the state.

Nothing here names a particular system: state, events and condition are arbitrary.
-/

namespace TelemetryCloud.Runs

variable {σ ε : Type*} (step : σ → ε → Option σ)

/-- The state a list of events leads to, `none` when one of them cannot happen. -/
def run : σ → List ε → Option σ
  | s, [] => some s
  | s, e :: es => (step s e).bind fun t => run t es

@[simp] theorem run_nil (s : σ) : run step s [] = some s := rfl

theorem run_cons (s : σ) (e : ε) (es : List ε) :
    run step s (e :: es) = (step s e).bind fun t => run step t es := rfl

theorem run_append (s : σ) (es fs : List ε) :
    run step s (es ++ fs) = (run step s es).bind fun t => run step t fs := by
  induction es generalizing s with
  | nil => rfl
  | cons e es ih =>
    rw [List.cons_append, run_cons, run_cons, Option.bind_assoc]
    exact congrArg _ (funext fun t => ih t)

theorem run_snoc (s : σ) (es : List ε) (e : ε) :
    run step s (es ++ [e]) = (run step s es).bind fun t => step t e := by
  rw [run_append]
  refine congrArg _ (funext fun t => ?_)
  rw [run_cons]
  cases step t e <;> rfl

/-- A run of one more event splits into the run before it and its last step. -/
theorem run_snoc_eq_some {s u : σ} {es : List ε} {e : ε} :
    run step s (es ++ [e]) = some u ↔ ∃ t, run step s es = some t ∧ step t e = some u := by
  rw [run_snoc, Option.bind_eq_some_iff]

/-- Every step of the run meets the condition `C`, read on the state before the step. -/
def Meets (C : σ → ε → Prop) : σ → List ε → Prop
  | _, [] => True
  | s, e :: es => C s e ∧ ∀ t, step s e = some t → Meets C t es

theorem meets_snoc {C : σ → ε → Prop} {es : List ε} {e : ε} :
    ∀ {s t : σ}, run step s es = some t →
      (Meets step C s (es ++ [e]) ↔ Meets step C s es ∧ C t e) := by
  induction es with
  | nil =>
    intro s t h
    cases h
    simp [Meets]
  | cons e' es ih =>
    intro s t h
    rw [run_cons, Option.bind_eq_some_iff] at h
    obtain ⟨u, hu, hrun⟩ := h
    simp only [List.cons_append, Meets, hu, Option.some.injEq, forall_eq', ih hrun, and_assoc]

theorem meets_append_left {C : σ → ε → Prop} {es fs : List ε} :
    ∀ {s : σ}, Meets step C s (es ++ fs) → Meets step C s es := by
  induction es with
  | nil => intro _ _; trivial
  | cons e es ih => exact fun h => ⟨h.1, fun t ht => ih (h.2 t ht)⟩

/-- The rest of a run meets the condition from wherever its first part leads. -/
theorem meets_append_right {C : σ → ε → Prop} {es fs : List ε} :
    ∀ {s t : σ}, Meets step C s (es ++ fs) → run step s es = some t → Meets step C t fs := by
  induction es with
  | nil =>
    intro s t h ht
    cases ht
    exact h
  | cons e es ih =>
    intro s t h ht
    rw [run_cons, Option.bind_eq_some_iff] at ht
    obtain ⟨u, hu, hrun⟩ := ht
    exact ih (h.2 u hu) hrun

/-- A test made before every step of a run. -/
def check (c : σ → ε → Bool) : σ → List ε → Bool
  | _, [] => true
  | s, e :: es => c s e && (step s e).all fun t => check c t es

/-- A run that passes a test of the condition meets it. -/
theorem meets_of_check {C : σ → ε → Prop} {c : σ → ε → Bool} (hc : ∀ s e, c s e = true → C s e) :
    ∀ {es : List ε} {s : σ}, check step c s es = true → Meets step C s es := by
  intro es
  induction es with
  | nil =>
    intro s _
    trivial
  | cons e es ih =>
    intro s h
    rw [check, Bool.and_eq_true] at h
    refine ⟨hc s e h.1, fun t ht => ih ?_⟩
    rw [ht, Option.all_some] at h
    exact h.2

/-- A condition on the events alone. -/
theorem meets_of_forall {P : ε → Prop} {es : List ε} (h : ∀ e ∈ es, P e) :
    ∀ s : σ, Meets step (fun _ e => P e) s es := by
  induction es with
  | nil => exact fun _ => trivial
  | cons e es ih =>
    intro s
    refine ⟨h e List.mem_cons_self, fun t _ => ?_⟩
    exact ih (fun e' he' => h e' (List.mem_cons_of_mem e he')) t

/-- Two conditions that a run meets, it meets together. -/
theorem meets_and {C D : σ → ε → Prop} {es : List ε} :
    ∀ {s : σ}, Meets step C s es → Meets step D s es → Meets step (fun s e => C s e ∧ D s e) s es := by
  induction es with
  | nil => exact fun _ _ => trivial
  | cons e es ih => exact fun hC hD => ⟨⟨hC.1, hD.1⟩, fun t ht => ih (hC.2 t ht) (hD.2 t ht)⟩

/-- **The induction of every run.**  An invariant that each step meeting `C` keeps holds at the end
of every run whose steps meet `C`. -/
theorem run_invariant {C : σ → ε → Prop} {I : σ → Prop}
    (hstep : ∀ s e t, I s → C s e → step s e = some t → I t) :
    ∀ (es : List ε) (s t : σ), I s → Meets step C s es → run step s es = some t → I t := by
  intro es
  induction es with
  | nil =>
    intro s t hs _ h
    cases h
    exact hs
  | cons e es ih =>
    intro s t hs hm h
    rw [run_cons, Option.bind_eq_some_iff] at h
    obtain ⟨u, hu, hrun⟩ := h
    exact ih u t (hstep s e u hs hm.1 hu) (hm.2 u hu) hrun

theorem meets_true (s : σ) (es : List ε) : Meets step (fun _ _ => True) s es := by
  induction es generalizing s with
  | nil => trivial
  | cons e es ih => exact ⟨trivial, fun t _ => ih t⟩

/-- The same without a condition: an invariant every step keeps holds at the end of every run. -/
theorem run_invariant_of_step {I : σ → Prop}
    (hstep : ∀ s e t, I s → step s e = some t → I t) (es : List ε) (s t : σ)
    (hs : I s) (h : run step s es = some t) : I t :=
  run_invariant step (C := fun _ _ => True) (fun s e t hs _ ht => hstep s e t hs ht) es s t hs
    (meets_true step s es) h

/-- **Progress**: when a measure that is not zero can always be brought down by a step meeting `C`,
steps meeting `C` bring it to zero. -/
theorem exists_run_to_zero {C : σ → ε → Prop} {I : σ → Prop} {μ : σ → ℕ}
    (hI : ∀ s e t, I s → step s e = some t → I t)
    (hμ : ∀ s, I s → 0 < μ s → ∃ e t, C s e ∧ step s e = some t ∧ μ t < μ s) (s : σ) (hs : I s) :
    ∃ es t, Meets step C s es ∧ run step s es = some t ∧ μ t = 0 := by
  induction hn : μ s using Nat.strongRecOn generalizing s with
  | ind n ih =>
    rcases Nat.eq_zero_or_pos n with hzero | hpos
    · exact ⟨[], s, trivial, rfl, hn.trans hzero⟩
    · obtain ⟨e, t, hC, ht, hlt⟩ := hμ s hs (hn ▸ hpos)
      obtain ⟨es, u, hm, hrun, hu⟩ := ih (μ t) (hn ▸ hlt) t (hI s e t hs ht) rfl
      refine ⟨e :: es, u, ⟨hC, fun t' ht' => ?_⟩, ?_, hu⟩
      · rw [ht] at ht'
        cases ht'
        exact hm
      · rw [run_cons, ht]
        exact hrun

/-- **When an invariant holds all along a run.**  If one step keeps `J` exactly when it meets `C`,
given what every step keeps anyway, then `J` holds in every state of a run exactly when every step of
the run meets `C`. -/
theorem meets_iff_prefixes {C : σ → ε → Prop} {I J : σ → Prop}
    (hI : ∀ s e t, I s → step s e = some t → I t)
    (hJ : ∀ s e t, I s → J s → step s e = some t → (J t ↔ C s e)) :
    ∀ (es : List ε) (s t : σ), I s → J s → run step s es = some t →
      (Meets step C s es ↔ ∀ pre u, pre <+: es → run step s pre = some u → J u) := by
  intro es
  induction es with
  | nil =>
    intro s t _ hs _
    refine ⟨fun _ pre u hpre hu => ?_, fun _ => trivial⟩
    obtain rfl := List.prefix_nil.mp hpre
    cases hu
    exact hs
  | cons e es ih =>
    intro s t hi hs h
    rw [run_cons, Option.bind_eq_some_iff] at h
    obtain ⟨m, hm, hrun⟩ := h
    have hmid := hJ s e m hi hs hm
    constructor
    · intro hmeets pre u hpre hu
      cases pre with
      | nil =>
        cases hu
        exact hs
      | cons e' pre =>
        obtain ⟨rfl, hrest⟩ := List.cons_prefix_cons.mp hpre
        rw [run_cons, hm] at hu
        exact (ih m t (hI s e' m hi hm) (hmid.mpr hmeets.1) hrun).mp (hmeets.2 m hm) pre u hrest hu
    · intro hall
      have hJm : J m := hall [e] m (List.cons_prefix_cons.mpr ⟨rfl, List.nil_prefix⟩) (by
        rw [run_cons, hm]
        rfl)
      refine ⟨hmid.mp hJm, fun m' hm' => ?_⟩
      obtain rfl : m = m' := Option.some.inj (hm.symm.trans hm')
      apply (ih m t (hI s e m hi hm) hJm hrun).mpr
      intro pre u hpre hu
      apply hall (e :: pre) u (List.cons_prefix_cons.mpr ⟨rfl, hpre⟩)
      rw [run_cons, hm]
      exact hu

/-- **When a property, once it holds, holds for good**: in the runs none of whose steps loses it. -/
theorem stable_iff {α : Type*} {P : α → σ → Prop} {C : σ → ε → Prop} {I : σ → Prop}
    (hI : ∀ s e t, I s → step s e = some t → I t)
    (hC : ∀ s e t, I s → step s e = some t → ((∀ a, P a s → P a t) ↔ C s e)) :
    ∀ (es : List ε) (s t : σ), I s → run step s es = some t →
      (Meets step C s es ↔ ∀ pre post u v a, pre ++ post <+: es → run step s pre = some u →
        run step u post = some v → P a u → P a v) := by
  intro es
  induction es with
  | nil =>
    intro s t _ h
    refine ⟨fun _ pre post u v a hpre hu hv hP => ?_, fun _ => trivial⟩
    obtain ⟨rfl, rfl⟩ := List.append_eq_nil_iff.mp (List.prefix_nil.mp hpre)
    cases hu
    cases hv
    exact hP
  | cons e es ih =>
    intro s t hi h
    rw [run_cons, Option.bind_eq_some_iff] at h
    obtain ⟨m, hm, hrun⟩ := h
    have hone := hC s e m hi hm
    have hrest := ih m t (hI s e m hi hm) hrun
    constructor
    · intro hmeets pre post u v a hpre hu hv hP
      have htail := hrest.mp (hmeets.2 m hm)
      cases pre with
      | nil =>
        cases hu
        cases post with
        | nil =>
          cases hv
          exact hP
        | cons e' post =>
          obtain ⟨rfl, hpost⟩ := List.cons_prefix_cons.mp hpre
          rw [run_cons, hm] at hv
          exact htail [] post m v a hpost rfl hv (hone.mpr hmeets.1 a hP)
      | cons e' pre =>
        obtain ⟨rfl, hpost⟩ := List.cons_prefix_cons.mp hpre
        rw [run_cons, hm] at hu
        exact htail pre post u v a hpost hu hv hP
    · intro hall
      refine ⟨hone.mp fun a hP => ?_, fun m' hm' => ?_⟩
      · apply hall [] [e] s m a (List.cons_prefix_cons.mpr ⟨rfl, List.nil_prefix⟩) rfl ?_ hP
        rw [run_cons, hm]
        rfl
      · obtain rfl : m = m' := Option.some.inj (hm.symm.trans hm')
        apply hrest.mpr
        intro pre post u v a hpre hu hv hP
        apply hall (e :: pre) post u v a (List.cons_prefix_cons.mpr ⟨rfl, hpre⟩) ?_ hv hP
        rw [run_cons, hm]
        exact hu

/-! ### Histories -/

section History

variable {γ : Type*} (upd : σ → ε → γ → γ)

/-- A value carried along a run and updated at every step, which no step reads. -/
def history : σ → γ → List ε → γ
  | _, g, [] => g
  | s, g, e :: es =>
    match step s e with
    | none => g
    | some t => history t (upd s e g) es

/-- One more event is recorded in the state the run has led to. -/
theorem history_snoc {es : List ε} {e : ε} :
    ∀ {s t u : σ} (g : γ), run step s es = some t → step t e = some u →
      history step upd s g (es ++ [e]) = upd t e (history step upd s g es) := by
  induction es with
  | nil =>
    intro s t u g h hu
    cases h
    simp only [List.nil_append, history, hu]
  | cons first rest ih =>
    intro s t u g h hu
    rw [run_cons, Option.bind_eq_some_iff] at h
    obtain ⟨m, hm, hrest⟩ := h
    rw [List.cons_append, history, history, hm]
    exact ih (upd s first g) hrest hu

/-- The system with the history beside its state. -/
def withHistory (x : σ × γ) (e : ε) : Option (σ × γ) :=
  (step x.1 e).map fun t => (t, upd x.1 e x.2)

theorem withHistory_eq_some {x y : σ × γ} {e : ε} :
    withHistory step upd x e = some y ↔ step x.1 e = some y.1 ∧ y.2 = upd x.1 e x.2 := by
  rw [withHistory, Option.map_eq_some_iff]
  constructor
  · rintro ⟨t, ht, rfl⟩
    exact ⟨ht, rfl⟩
  · rintro ⟨ht, hy⟩
    exact ⟨y.1, ht, by rw [← hy]⟩

/-- A run meets a condition on the history when its first step does, and the rest of it does. -/
theorem meets_withHistory_cons {C : σ × γ → ε → Prop} {s t : σ} {g : γ} {e : ε} {es : List ε}
    (hC : C (s, g) e) (hstep : step s e = some t)
    (h : Meets (withHistory step upd) C (t, upd s e g) es) :
    Meets (withHistory step upd) C (s, g) (e :: es) := by
  refine ⟨hC, fun y hy => ?_⟩
  rw [withHistory, hstep, Option.map_some, Option.some.injEq] at hy
  rwa [← hy]

/-- A history changes nothing about the run it is read off. -/
theorem run_withHistory (s : σ) (g : γ) (es : List ε) :
    run (withHistory step upd) (s, g) es =
      (run step s es).map fun t => (t, history step upd s g es) := by
  induction es generalizing s g with
  | nil => rfl
  | cons e es ih =>
    rw [run_cons, run_cons, withHistory, history]
    cases step s e with
    | none => rfl
    | some t => exact ih t (upd s e g)

/-- An invariant of the state and the history holds at the end of every run. -/
theorem history_invariant {I : σ → γ → Prop}
    (hstep : ∀ s g e t, I s g → step s e = some t → I t (upd s e g)) (es : List ε) (s t : σ)
    (g : γ) (hs : I s g) (h : run step s es = some t) : I t (history step upd s g es) := by
  refine run_invariant_of_step (withHistory step upd) (I := fun x => I x.1 x.2) ?_ es (s, g)
    (t, history step upd s g es) hs ?_
  · intro x e y hx hy
    obtain ⟨ht, hg⟩ := (withHistory_eq_some step upd).mp hy
    rw [hg]
    exact hstep x.1 x.2 e y.1 hx ht
  · rw [run_withHistory, h, Option.map_some]

end History

end TelemetryCloud.Runs
