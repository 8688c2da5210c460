import TelemetryCloud.LiveTelemetry

/-!
# The buffers of the live view

Whose samples the trace and the channel history hold, and since when: the open session, the origin
of its time axis and the two capped buffers are kept in step over every order of the messages.

* `appendCapped_rtake` : a capped buffer is the end of an uncapped one;
* `Holds` : what the buffers hold, given the frames; one lemma for each handler;
* `buffers_recent` : **the buffers hold one session's recent history**, in every run.
-/

namespace TelemetryCloud.LiveBuffers

open LiveTelemetry

/-! ### Capped buffers -/

section Capped

variable {T : Type}

theorem drop_rtake_append {cap : ℕ} (hcap : 0 < cap) (l : List T) (x : T) :
    (l.rtake cap).drop ((l.rtake cap).length + 1 - cap) ++ [x] = (l ++ [x]).rtake cap := by
  have hlen : (l.rtake cap).length = min cap l.length := by
    rw [List.rtake, List.length_drop]
    omega
  rw [hlen, List.rtake, List.rtake, List.drop_drop, List.length_append, List.length_singleton,
    List.drop_append_of_le_length (by omega)]
  congr 2
  omega

/-- **A capped buffer is the end of an uncapped one.** -/
theorem appendCapped_rtake (l : List T) (x : T) :
    appendCapped (l.rtake MAX_LIVE_POINTS) x = (l ++ [x]).rtake MAX_LIVE_POINTS :=
  drop_rtake_append (by rw [MAX_LIVE_POINTS]; omega) l x

end Capped

/-! ### What the buffers hold -/

/-- The buffers hold the end of `frames`, all of one session, on a time axis from `startT`. -/
structure Holds (s : Service) (sessionId : String) (startT : ℚ) (frames : List LiveFrame) :
    Prop where
  isOpen : s.openSessionId = some sessionId
  origin : s.sessionStartT = some startT
  own : ∀ frame ∈ frames, frame.sessionId = sessionId
  channelPoints : s.channelPoints = (frames.map (channelPoint startT)).rtake MAX_LIVE_POINTS
  points : s.points = (frames.filterMap position).rtake MAX_LIVE_POINTS

/-- Nothing is open and nothing is held. -/
structure Empty (s : Service) : Prop where
  isOpen : s.openSessionId = none
  channelPoints : s.channelPoints = []
  points : s.points = []

/-- The fields the buffers are about are the same. -/
def SameBuffers (s s' : Service) : Prop :=
  s'.openSessionId = s.openSessionId ∧ s'.sessionStartT = s.sessionStartT ∧
    s'.channelPoints = s.channelPoints ∧ s'.points = s.points

section Handlers

variable {s s' : Service} {sessionId : String} {startT : ℚ} {frames : List LiveFrame}

theorem Holds.same (h : Holds s sessionId startT frames) (hsame : SameBuffers s s') :
    Holds s' sessionId startT frames := by
  obtain ⟨hopen, horigin, hchannels, hpoints⟩ := hsame
  exact ⟨hopen.trans h.isOpen, horigin.trans h.origin, h.own, hchannels.trans h.channelPoints,
    hpoints.trans h.points⟩

theorem Empty.same (h : Empty s) (hsame : SameBuffers s s') : Empty s' := by
  obtain ⟨hopen, -, hchannels, hpoints⟩ := hsame
  exact ⟨hopen.trans h.isOpen, hchannels.trans h.channelPoints, hpoints.trans h.points⟩

theorem empty_disconnect (s : Service) : Empty (disconnect s) := ⟨rfl, rfl, rfl⟩

/-- A session that is not the open one starts with empty buffers. -/
theorem holds_begin (h : s.openSessionId ≠ some sessionId) (startT : ℚ) :
    Holds (beginSessionIfNew s sessionId startT) sessionId startT [] := by
  unfold beginSessionIfNew
  rw [if_neg h]
  exact ⟨rfl, rfl, fun _ hf => absurd hf List.not_mem_nil, (List.rtake_nil _).symm,
    (List.rtake_nil _).symm⟩

theorem begin_of_open (h : s.openSessionId = some sessionId) (startT : ℚ) :
    beginSessionIfNew s sessionId startT = s := if_pos h

/-- **A frame goes to the end of its own session's history.** -/
theorem Holds.frame {payload : LiveFrame}
    (h : Holds (beginSessionIfNew s payload.sessionId payload.t) payload.sessionId startT frames) :
    Holds (onFrame s payload) payload.sessionId startT (frames ++ [payload]) := by
  have hown : ∀ frame ∈ frames ++ [payload], frame.sessionId = payload.sessionId := by
    intro frame hframe
    rcases List.mem_append.mp hframe with hold | hnew
    · exact h.own frame hold
    · rw [List.mem_singleton.mp hnew]
  have hchannels : appendCapped (beginSessionIfNew s payload.sessionId payload.t).channelPoints
      (channelPoint ((beginSessionIfNew s payload.sessionId payload.t).sessionStartT.getD 0)
        payload) = ((frames ++ [payload]).map (channelPoint startT)).rtake MAX_LIVE_POINTS := by
    rw [h.channelPoints, h.origin, Option.getD_some, appendCapped_rtake, List.map_append,
      List.map_singleton]
  unfold onFrame
  dsimp only
  split
  · rename_i point hpoint
    refine ⟨h.isOpen, h.origin, hown, hchannels, ?_⟩
    show appendCapped (beginSessionIfNew s payload.sessionId payload.t).points point = _
    rw [h.points, appendCapped_rtake, List.filterMap_append, List.filterMap_cons_some hpoint,
      List.filterMap_nil]
  · rename_i hpoint
    refine ⟨h.isOpen, h.origin, hown, hchannels, ?_⟩
    show (beginSessionIfNew s payload.sessionId payload.t).points = _
    rw [h.points, List.filterMap_append, List.filterMap_cons_none hpoint, List.filterMap_nil,
      List.append_nil]

end Handlers

/-! ### One input -/

/-- The frame an input delivers. -/
def frameOf (s : Service) (e : Input) : Option LiveFrame :=
  match delivered s e with
  | some (.frame payload) => some payload
  | _ => none

/-- The instant a frame or a `start` carries. -/
def anchor (s : Service) (e : Input) : Option ℚ :=
  match delivered s e with
  | some (.frame payload) => some payload.t
  | some (.event ⟨_, _, .start, t⟩) => some t
  | _ => none

/-- **What one input does to the buffers**: it empties them, leaves them, opens a session in them,
or brings a frame of the open one. -/
theorem buffers_step (s : Service) (e : Input) :
    (frameOf s e = none ∧ (Empty (step s e) ∨ SameBuffers s (step s e))) ∨
      (∃ sessionId startT, announced s e = some sessionId ∧ anchor s e = some startT ∧
        s.openSessionId ≠ some sessionId ∧
        Holds (step s e) sessionId startT (frameOf s e).toList) ∨
      ∃ payload, frameOf s e = some payload ∧ s.openSessionId = some payload.sessionId ∧
        step s e = onFrame s payload := by
  obtain ⟨m, hm, hstep⟩ | ⟨hnone, hstep⟩ := step_delivered s e
  · rw [hstep, frameOf, announced, anchor, hm]
    cases m with
    | frame payload =>
      by_cases hopen : s.openSessionId = some payload.sessionId
      · exact .inr (.inr ⟨payload, rfl, hopen, rfl⟩)
      · exact .inr (.inl ⟨_, _, rfl, rfl, hopen, (holds_begin hopen payload.t).frame⟩)
    | event payload =>
      obtain ⟨carId, sessionId, event, t⟩ := payload
      cases event with
      | start =>
        by_cases hopen : s.openSessionId = some sessionId
        · refine .inl ⟨rfl, .inr ?_⟩
          show SameBuffers s { beginSessionIfNew s sessionId t with session := some sessionId }
          rw [begin_of_open hopen]
          exact ⟨rfl, rfl, rfl, rfl⟩
        · exact .inr (.inl ⟨_, _, rfl, rfl, hopen,
            (holds_begin hopen t).same ⟨rfl, rfl, rfl, rfl⟩⟩)
      | stop => exact .inl ⟨rfl, .inr ⟨rfl, rfl, rfl, rfl⟩⟩
    | disconnect =>
      refine .inl ⟨rfl, .inr ?_⟩
      show SameBuffers s (if s.status = .error then s else _)
      split <;> exact ⟨rfl, rfl, rfl, rfl⟩
    | connect => exact .inl ⟨rfl, .inr ⟨rfl, rfl, rfl, rfl⟩⟩
    | error message => exact .inl ⟨rfl, .inr ⟨rfl, rfl, rfl, rfl⟩⟩
    | connectError => exact .inl ⟨rfl, .inr ⟨rfl, rfl, rfl, rfl⟩⟩
  · refine .inl ⟨by rw [frameOf, hnone], ?_⟩
    obtain hsame | ⟨carId, hconnect⟩ | hdisconnect := hstep
    · rw [hsame]
      exact .inr ⟨rfl, rfl, rfl, rfl⟩
    · rw [hconnect]
      unfold connect
      split
      · exact .inr ⟨rfl, rfl, rfl, rfl⟩
      · exact .inl ((empty_disconnect s).same ⟨rfl, rfl, rfl, rfl⟩)
    · rw [hdisconnect]
      exact .inl (empty_disconnect s)

/-! ### Runs -/

/-- The frames a service receives along a list of inputs. -/
def received (s : Service) : List Input → List LiveFrame
  | [] => []
  | e :: es => (frameOf s e).toList ++ received (step s e) es

theorem received_snoc (s : Service) (es : List Input) (e : Input) :
    received s (es ++ [e]) = received s es ++ (frameOf (es.foldl step s) e).toList := by
  induction es generalizing s with
  | nil => simp [received]
  | cons e' es ih =>
    rw [List.cons_append, received, ih, received, List.foldl_cons, List.append_assoc]

/-- The session was opened by a frame or a `start` at `startT` and has been the open one since;
`frames` are the frames received from then on. -/
def SinceOpened (es : List Input) (sessionId : String) (startT : ℚ) (frames : List LiveFrame) :
    Prop :=
  ∃ pre opening post, es = pre ++ opening :: post ∧
    (run pre).openSessionId ≠ some sessionId ∧
    announced (run pre) opening = some sessionId ∧ anchor (run pre) opening = some startT ∧
    (∀ mid, mid <+: post → (run (pre ++ opening :: mid)).openSessionId = some sessionId) ∧
    frames = received (run pre) (opening :: post)

section Runs

variable {es : List Input} {e : Input} {sessionId : String} {startT : ℚ} {frames : List LiveFrame}

theorem sinceOpened_now (hnew : (run es).openSessionId ≠ some sessionId)
    (hsession : announced (run es) e = some sessionId) (hanchor : anchor (run es) e = some startT)
    (hopen : (run (es ++ [e])).openSessionId = some sessionId) :
    SinceOpened (es ++ [e]) sessionId startT (frameOf (run es) e).toList := by
  refine ⟨es, e, [], rfl, hnew, hsession, hanchor, ?_, ?_⟩
  · intro mid hmid
    rw [List.prefix_nil.mp hmid]
    exact hopen
  · rw [received, received, List.append_nil]

theorem SinceOpened.snoc (h : SinceOpened es sessionId startT frames)
    (hopen : (run (es ++ [e])).openSessionId = some sessionId) :
    SinceOpened (es ++ [e]) sessionId startT (frames ++ (frameOf (run es) e).toList) := by
  obtain ⟨pre, opening, post, hes, hnew, hsession, hanchor, hsince, hframes⟩ := h
  have hes' : es ++ [e] = pre ++ opening :: (post ++ [e]) := by
    rw [hes, List.append_assoc, List.cons_append]
  refine ⟨pre, opening, post ++ [e], hes', hnew, hsession, hanchor, ?_, ?_⟩
  · intro mid hmid
    rcases List.prefix_concat_iff.mp hmid with heq | hmid
    · rw [heq, ← hes']
      exact hopen
    · exact hsince mid hmid
  · rw [← List.cons_append, received_snoc, hframes, hes, run, run, List.foldl_append]

/-- What the buffers hold after a run. -/
def Inv (es : List Input) : Prop :=
  Empty (run es) ∨ ∃ sessionId startT frames, SinceOpened es sessionId startT frames ∧
    Holds (run es) sessionId startT frames

theorem inv_run (es : List Input) : Inv es := by
  induction es using List.reverseRecOn with
  | nil => exact .inl ⟨rfl, rfl, rfl⟩
  | append_singleton es e ih =>
    unfold Inv
    obtain ⟨hnone, hempty | hsame⟩ | ⟨sessionId, startT, hsession, hanchor, hnew, hholds⟩ |
      ⟨payload, hframe, hopen, hstep⟩ := buffers_step (run es) e
    · rw [run_snoc]
      exact .inl hempty
    · rcases ih with hempty | ⟨sessionId, startT, frames, hsince, hholds⟩
      · rw [run_snoc]
        exact .inl (hempty.same hsame)
      · have hnext := hholds.same hsame
        rw [← run_snoc] at hnext
        have hlater := hsince.snoc hnext.isOpen
        rw [hnone, Option.toList_none, List.append_nil] at hlater
        exact .inr ⟨sessionId, startT, frames, hlater, hnext⟩
    · rw [← run_snoc] at hholds
      exact .inr ⟨sessionId, startT, _, sinceOpened_now hnew hsession hanchor hholds.isOpen, hholds⟩
    · rcases ih with hempty | ⟨sessionId, startT, frames, hsince, hholds⟩
      · rw [hempty.isOpen] at hopen
        cases hopen
      · have hown : payload.sessionId = sessionId := by
          rw [hholds.isOpen] at hopen
          exact (Option.some.inj hopen).symm
        subst hown
        have hnext : Holds (run (es ++ [e])) payload.sessionId startT (frames ++ [payload]) := by
          rw [run_snoc, hstep]
          apply Holds.frame
          rwa [begin_of_open hopen]
        have hlater := hsince.snoc hnext.isOpen
        rw [hframe, Option.toList_some] at hlater
        exact .inr ⟨_, startT, _, hlater, hnext⟩

end Runs

/-- A repeated `start` of the open session, or a `stop`, leaves the buffers. -/
theorem sameBuffers_event {s : Service} {e : Input} {payload : LiveSessionEvent}
    (he : delivered s e = some (.event payload))
    (h : payload.event = .stop ∨ s.openSessionId = some payload.sessionId) :
    SameBuffers s (step s e) := by
  obtain ⟨m, hm, hstep⟩ | ⟨hnone, -⟩ := step_delivered s e
  · rw [he] at hm
    cases hm
    rw [hstep]
    show SameBuffers s (onEvent s payload)
    unfold onEvent
    cases hevent : payload.event with
    | stop => exact ⟨rfl, rfl, rfl, rfl⟩
    | start =>
      rcases h with hstop | hopen
      · rw [hevent] at hstop
        cases hstop
      · dsimp only
        rw [begin_of_open hopen]
        exact ⟨rfl, rfl, rfl, rfl⟩
  · rw [he] at hnone
    cases hnone

/-- **The buffers hold one session's recent history.**  In every run, with no session open they are
empty, and else they are the last `MAX_LIVE_POINTS` of the frames received since the open session
was opened, all its own, in arrival order and on the time axis fixed when it was; a repeated `start`
of the open session, or a `stop`, changes neither. -/
theorem buffers_recent (es : List Input) :
    ((run es).openSessionId = none → (run es).points = [] ∧ (run es).channelPoints = []) ∧
      (∀ sessionId, (run es).openSessionId = some sessionId → ∃ startT frames,
        SinceOpened es sessionId startT frames ∧
          (∀ frame ∈ frames, frame.sessionId = sessionId) ∧
          (run es).channelPoints = (frames.map (channelPoint startT)).rtake MAX_LIVE_POINTS ∧
          (run es).points = (frames.filterMap position).rtake MAX_LIVE_POINTS) ∧
      ∀ e payload, delivered (run es) e = some (.event payload) →
        payload.event = .stop ∨ (run es).openSessionId = some payload.sessionId →
        (run (es ++ [e])).points = (run es).points ∧
          (run (es ++ [e])).channelPoints = (run es).channelPoints := by
  refine ⟨?_, ?_, ?_⟩
  · intro hclosed
    rcases inv_run es with hempty | ⟨sessionId, startT, frames, -, hholds⟩
    · exact ⟨hempty.points, hempty.channelPoints⟩
    · rw [hholds.isOpen] at hclosed
      cases hclosed
  · intro sessionId hopen
    rcases inv_run es with hempty | ⟨sessionId', startT, frames, hsince, hholds⟩
    · rw [hempty.isOpen] at hopen
      cases hopen
    · rw [hholds.isOpen] at hopen
      cases hopen
      exact ⟨startT, frames, hsince, hholds.own, hholds.channelPoints, hholds.points⟩
  · intro e payload he h
    obtain ⟨-, -, hchannels, hpoints⟩ := sameBuffers_event he h
    rw [run_snoc]
    exact ⟨hpoints, hchannels⟩

section Example

/-- Session `a` runs, and a frame of the next session beats its `start`. -/
def mixed : List Input :=
  [.connect "c", .message 0 (.event ⟨"c", "a", .start, 0⟩), .message 0 (.frame (frameOfA 0)),
    .message 0 (.frame { frameOfA 900 with sessionId := "b" })]

theorem buffers_recent_mixed :
    (∃ startT frames, SinceOpened mixed "b" startT frames ∧
      (run mixed).channelPoints = (frames.map (channelPoint startT)).rtake MAX_LIVE_POINTS) ∧
      (run (mixed ++ [.message 0 (.event ⟨"c", "b", .start, 800⟩)])).channelPoints =
        (run mixed).channelPoints := by
  have hopen : (run mixed).openSessionId = some "b" := by decide +kernel
  have he : delivered (run mixed) (.message 0 (.event ⟨"c", "b", .start, 800⟩)) =
      some (.event ⟨"c", "b", .start, 800⟩) := by decide +kernel
  obtain ⟨-, hheld, hrepeated⟩ := buffers_recent mixed
  obtain ⟨startT, frames, hsince, -, hchannels, -⟩ := hheld "b" hopen
  exact ⟨⟨startT, frames, hsince, hchannels⟩, (hrepeated _ _ he (.inr hopen)).2⟩

end Example

end TelemetryCloud.LiveBuffers
