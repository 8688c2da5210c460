import TelemetryCloud.Segments

/-!
# Channels of the live view

`telemetry-ingest` publishes frames and session events of a car on two Redis channels, and the API
reads the car back out of the channel's name.

* `liveCarChannel`, `liveCarEventsChannel`, `lkvCarKey` : the names; `parseLiveChannel` : their
  reader; `dispatch` : what the bus makes of a message;
* `parseLiveChannel_eq_some_iff` : **what the reader takes for a channel** of a car;
* `parseLiveChannel_exact` : **a name stands for one car and one kind**, and any other name for none;
* `dispatch_eq_some_iff` : the car of a message is that of the channel it came by.
-/

namespace TelemetryCloud.LiveChannels

open TelemetryCloud.Segments

def liveCarChannel (carId : String) : String := "live:car:" ++ carId
def liveCarEventsChannel (carId : String) : String := "live:car:" ++ carId ++ ":events"
def lkvCarKey (carId : String) : String := "lkv:car:" ++ carId

inductive LiveChannelKind
  | frame
  | event
  deriving DecidableEq, Repr

structure ParsedLiveChannel where
  carId : String
  kind : LiveChannelKind
  deriving DecidableEq, Repr

def parseLiveChannel (channel : String) : Option ParsedLiveChannel :=
  match segments ':' channel with
  | live :: car :: carId :: rest =>
    if live ≠ "live" ∨ car ≠ "car" ∨ carId = "" then none
    else match rest with
      | [] => some ⟨carId, .frame⟩
      | [events] => if events = "events" then some ⟨carId, .event⟩ else none
      | _ => none
  | _ => none

/-- The channel of a car for a kind of message. -/
def channelOf (carId : String) : LiveChannelKind → String
  | .frame => liveCarChannel carId
  | .event => liveCarEventsChannel carId

/-- The segments of that channel. -/
def partsOf (carId : String) : LiveChannelKind → List String
  | .frame => ["live", "car", carId]
  | .event => ["live", "car", carId, "events"]

/-- What can stand for a car in a name. -/
structure IsCarId (carId : String) : Prop where
  nonempty : carId ≠ ""
  whole : ':' ∉ carId.toList

section Names

variable {carId channel : String}

theorem channelOf_eq (carId : String) (kind : LiveChannelKind) :
    channelOf carId kind = joined ':' (partsOf carId kind) := by
  apply String.toList_inj.mp
  rw [toList_joined]
  cases kind with
  | frame => simp [channelOf, liveCarChannel, partsOf, String.toList_append]
  | event => simp [channelOf, liveCarEventsChannel, partsOf, String.toList_append]

theorem not_mem_partsOf (hcar : ':' ∉ carId.toList) (kind : LiveChannelKind) :
    ∀ part ∈ partsOf carId kind, ':' ∉ part.toList := by
  cases kind with
  | frame => simpa [partsOf] using hcar
  | event => simpa [partsOf] using hcar

theorem segments_channelOf (hcar : ':' ∉ carId.toList) (kind : LiveChannelKind) :
    segments ':' (channelOf carId kind) = partsOf carId kind := by
  rw [channelOf_eq]
  refine segments_joined ?_ (not_mem_partsOf hcar kind)
  cases kind <;> exact List.cons_ne_nil _ _

/-- What the reader asks of the segments. -/
theorem parse_iff_segments {kind : LiveChannelKind} :
    parseLiveChannel channel = some ⟨carId, kind⟩ ↔
      carId ≠ "" ∧ segments ':' channel = partsOf carId kind := by
  unfold parseLiveChannel
  constructor
  · intro h
    split at h
    · next live car name rest hsegments =>
      split at h
      · cases h
      · next hcar =>
        push Not at hcar
        obtain ⟨rfl, rfl, hname⟩ := hcar
        split at h
        · cases h
          exact ⟨hname, hsegments⟩
        · next events =>
          split at h
          · next hevents =>
            subst hevents
            cases h
            exact ⟨hname, hsegments⟩
          · cases h
        · cases h
    · cases h
  · rintro ⟨hcar, hsegments⟩
    rw [hsegments]
    cases kind <;> simp [partsOf, hcar]

/-- **What the reader takes for the channel of a car.** -/
theorem parseLiveChannel_eq_some_iff {kind : LiveChannelKind} :
    parseLiveChannel channel = some ⟨carId, kind⟩ ↔ IsCarId carId ∧ channel = channelOf carId kind := by
  rw [parse_iff_segments]
  constructor
  · rintro ⟨hcar, hsegments⟩
    obtain ⟨-, hparts, hchannel⟩ := segments_eq_iff.mp hsegments
    have hmem : carId ∈ partsOf carId kind := by cases kind <;> simp [partsOf]
    exact ⟨⟨hcar, hparts carId hmem⟩, hchannel.trans (channelOf_eq carId kind).symm⟩
  · rintro ⟨hcar, rfl⟩
    exact ⟨hcar.nonempty, segments_channelOf hcar.whole kind⟩

end Names

/-- **A name stands for one car and one kind of message**: the reader finds the car of a channel, and
nothing in any other name, a key of a last known value among them. -/
theorem parseLiveChannel_exact (channel : String) :
    (∀ carId, parseLiveChannel channel = some ⟨carId, .frame⟩ ↔
      IsCarId carId ∧ channel = liveCarChannel carId) ∧
    (∀ carId, parseLiveChannel channel = some ⟨carId, .event⟩ ↔
      IsCarId carId ∧ channel = liveCarEventsChannel carId) ∧
    (parseLiveChannel channel = none ↔ ∀ carId, IsCarId carId →
      channel ≠ liveCarChannel carId ∧ channel ≠ liveCarEventsChannel carId) ∧
    (∀ carId, parseLiveChannel (lkvCarKey carId) = none) ∧
    (∀ carId carId' kind kind', IsCarId carId → IsCarId carId' →
      channelOf carId kind = channelOf carId' kind' → carId = carId' ∧ kind = kind') := by
  refine ⟨fun carId => parseLiveChannel_eq_some_iff, fun carId => parseLiveChannel_eq_some_iff,
    ?_, ?_, ?_⟩
  · constructor
    · intro hnone carId hcar
      refine ⟨fun h => ?_, fun h => ?_⟩
      · have hparsed : parseLiveChannel channel = some ⟨carId, .frame⟩ :=
          parseLiveChannel_eq_some_iff.mpr ⟨hcar, h⟩
        exact Option.some_ne_none _ (hparsed.symm.trans hnone)
      · have hparsed : parseLiveChannel channel = some ⟨carId, .event⟩ :=
          parseLiveChannel_eq_some_iff.mpr ⟨hcar, h⟩
        exact Option.some_ne_none _ (hparsed.symm.trans hnone)
    · intro hall
      by_contra hsome
      obtain ⟨⟨carId, kind⟩, hparsed⟩ := Option.ne_none_iff_exists'.mp hsome
      obtain ⟨hcar, hchannel⟩ := parseLiveChannel_eq_some_iff.mp hparsed
      cases kind with
      | frame => exact (hall carId hcar).1 hchannel
      | event => exact (hall carId hcar).2 hchannel
  · intro carId
    by_contra hsome
    obtain ⟨⟨car, kind⟩, hparsed⟩ := Option.ne_none_iff_exists'.mp hsome
    obtain ⟨-, hchannel⟩ := parseLiveChannel_eq_some_iff.mp hparsed
    -- the names differ in their second letter
    have hletter := congrArg (·.toList[1]?) hchannel
    cases kind <;> simp [lkvCarKey, channelOf, liveCarChannel, liveCarEventsChannel,
      String.toList_append] at hletter
  · intro carId carId' kind kind' hcar hcar' hchannel
    have hparsed : parseLiveChannel (channelOf carId kind) = some ⟨carId, kind⟩ :=
      parseLiveChannel_eq_some_iff.mpr ⟨hcar, rfl⟩
    have hparsed' : parseLiveChannel (channelOf carId kind) = some ⟨carId', kind'⟩ :=
      parseLiveChannel_eq_some_iff.mpr ⟨hcar', hchannel⟩
    cases hparsed.symm.trans hparsed'
    exact ⟨rfl, rfl⟩

/-- A car called `events` keeps its frames apart from the events of another. -/
theorem parseLiveChannel_exact_events :
    parseLiveChannel "live:car:events" = some ⟨"events", .frame⟩ ∧
      parseLiveChannel "live:car::events" = none ∧
      channelOf "events" .frame ≠ channelOf "gt3" .event :=
  ⟨((parseLiveChannel_exact "live:car:events").1 "events").mpr ⟨⟨by decide, by decide +kernel⟩, rfl⟩,
    by decide +kernel,
    fun h => absurd ((parseLiveChannel_exact "live:car:events").2.2.2.2 "events" "gt3" .frame .event
      ⟨by decide, by decide +kernel⟩ ⟨by decide, by decide +kernel⟩ h).1 (by decide)⟩

/-! ### The bus -/

structure LiveTelemetryBusMessage (P : Type) where
  carId : String
  kind : LiveChannelKind
  payload : P

/-- `dispatch`: the message the handler gets, if the gateway has installed one. The body is read by
`parseLiveMessage`. -/
def dispatch {P : Type} (parseLiveMessage : String → Option P) (handler : Bool)
    (channel raw : String) : Option (LiveTelemetryBusMessage P) :=
  match parseLiveChannel channel with
  | none => none
  | some parsed =>
    if !handler then none
    else (parseLiveMessage raw).map fun payload => ⟨parsed.carId, parsed.kind, payload⟩

/-- **The car of a message is that of the channel it came by**, whatever the body says. -/
theorem dispatch_eq_some_iff {P : Type} {parseLiveMessage : String → Option P} {handler : Bool}
    {channel raw : String} {message : LiveTelemetryBusMessage P} :
    dispatch parseLiveMessage handler channel raw = some message ↔
      handler = true ∧ parseLiveMessage raw = some message.payload ∧ IsCarId message.carId ∧
        channel = channelOf message.carId message.kind := by
  rw [← parseLiveChannel_eq_some_iff]
  unfold dispatch
  constructor
  · intro h
    split at h
    · cases h
    · next parsed hparsed =>
      split at h
      · cases h
      · next hhandler =>
        obtain ⟨payload, hpayload, rfl⟩ := Option.map_eq_some_iff.mp h
        rw [Bool.not_eq_true', Bool.not_eq_false] at hhandler
        exact ⟨hhandler, hpayload, hparsed⟩
  · rintro ⟨rfl, hpayload, hparsed⟩
    rw [hparsed]
    show (parseLiveMessage raw).map _ = some message
    rw [hpayload]
    rfl

end TelemetryCloud.LiveChannels
