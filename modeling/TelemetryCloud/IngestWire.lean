import Mathlib.Data.Rat.Defs
import Mathlib.Algebra.Order.Ring.Rat

/-!
# The wire contract of ingest: payloads and what validation admits

A message body is a JSON value.  `parse` is `TelemetryService.parse`: it looks at the schema version
first and at the shape second, and says why it drops what it drops.  The three DTO classes are
decoders, one check for each decorator, and what they give carries the bounds the decorators enforce
in its type.

`isUUID` stands for class-validator's `@IsUUID()`.
-/

namespace TelemetryCloud.IngestWire

/-- A JSON value as `JSON.parse` reads it.  A literal beyond the range of a double is an infinity. -/
inductive Json
  | null
  | bool (b : Bool)
  | num (q : ℚ)
  | infinity (negative : Bool)
  | str (s : String)
  | arr (elems : List Json)
  | obj (fields : List (String × Json))

/-- A property of an object: of two fields of one name the last one counts. -/
def Json.get : Json → String → Option Json
  | .obj fields, key => fields.reverse.lookup key
  | _, _ => none

/-- The wire schema version this build understands. -/
def TELEMETRY_SCHEMA_VERSION : ℚ := 1

inductive DropReason
  | unknownDevice
  | malformedFrame
  | unsupportedSchemaVersion
  deriving DecidableEq, Repr

def DropReason.message : DropReason → String
  | .unknownDevice => "unknown device"
  | .malformedFrame => "malformed frame"
  | .unsupportedSchemaVersion => "unsupported schema version"

/-! ### The decorators -/

/-- A value the `@Min` and `@Max` decorators let through. -/
abbrev Within {α : Type} [LE α] (lo hi : α) : Type := {a : α // lo ≤ a ∧ a ≤ hi}

/-- `@IsInt()`. -/
def isInt : Json → Option ℤ
  | .num q => if q.den = 1 then some q.num else none
  | _ => none

/-- `@IsInt() @Min(0)`. -/
def isCount (j : Json) : Option ℕ :=
  (isInt j).bind fun n => if 0 ≤ n then some n.toNat else none

/-- `@IsNumber()`: finite. -/
def isNumber : Json → Option ℚ
  | .num q => some q
  | _ => none

/-- `@IsNumber() @Min(0)`. -/
def isNonneg (j : Json) : Option {q : ℚ // 0 ≤ q} :=
  (isNumber j).bind fun q => if h : 0 ≤ q then some ⟨q, h⟩ else none

/-- `@Min(lo) @Max(hi)` on top of another check. -/
def within {α : Type} [LE α] [DecidableLE α] (lo hi : α) (check : Json → Option α) (j : Json) :
    Option (Within lo hi) :=
  (check j).bind fun a => if h : lo ≤ a ∧ a ≤ hi then some ⟨a, h⟩ else none

/-- `@IsString() @MaxLength(n)`. -/
def isString (n : ℕ) : Json → Option String
  | .str s => if s.length ≤ n then some s else none
  | _ => none

/-- `@IsObject()`: an array or `null` is none. -/
def isObject : Json → Option (List (String × Json))
  | .obj fields => some fields
  | _ => none

/-- `@IsArray() @ArrayMaxSize(n)`. -/
def isArray (n : ℕ) : Json → Option (List Json)
  | .arr elems => if elems.length ≤ n then some elems else none
  | _ => none

/-- A property without `@IsOptional()`. -/
def required {α : Type} (check : Json → Option α) (value : Option Json) : Option α :=
  value.bind check

/-- `@IsOptional()`: `null` and `undefined` skip the other checks. -/
def optional {α : Type} (check : Json → Option α) : Option Json → Option (Option α)
  | none => some none
  | some .null => some none
  | some j => (check j).map some

/-! ### The DTO classes -/

structure TelemetryFrame where
  v : ℤ
  sid : String
  seq : ℕ
  ts : Option ℤ
  mono : ℕ
  rpm : Option (Within (0 : ℤ) 20000)
  coolant : Option ℚ
  oil : Option ℚ
  speed : Option {q : ℚ // 0 ≤ q}
  lat : Option (Within (-90 : ℚ) 90)
  lon : Option (Within (-180 : ℚ) 180)
  gx : Option ℚ
  gy : Option ℚ
  gz : Option ℚ
  lap : Option ℕ
  lapMs : Option ℕ
  fix : Option ℤ
  sats : Option ℤ
  ext : Option (List (String × Json))

/-- An element of `frames` as `@ValidateNested({ each: true })` lets it through: an object is checked as
a frame, an array has its elements checked in turn, and `null` is skipped. -/
inductive BatchElement
  | null
  | array
  | frame (frame : TelemetryFrame)

namespace BatchElement

def isNull : BatchElement → Bool
  | null => true
  | _ => false

def frame? : BatchElement → Option TelemetryFrame
  | frame f => some f
  | _ => none

/-- `frame.mono`: of `null` it cannot be read, and an array has none. -/
def mono : BatchElement → Option (Option ℕ)
  | null => none
  | array => some none
  | frame f => some (some f.mono)

end BatchElement

structure BackfillBatch where
  v : ℤ
  sid : String
  frames : List BatchElement
  size : 1 ≤ frames.length ∧ frames.length ≤ 1000

namespace BackfillBatch

variable (batch : BackfillBatch)

/-- `batch.frames[0]`. -/
def first : BatchElement := batch.frames.get ⟨0, batch.size.1⟩

/-- The elements that carry the `sid` of the batch: an array has none. -/
def runFrames : List TelemetryFrame :=
  (batch.frames.filterMap (·.frame?)).filter (·.sid = batch.sid)

/-- `batch.frames.filter((frame) => frame.sid === batch.sid)`, which throws at a `null`: then nothing
is enqueued. -/
def ownFrames : List TelemetryFrame :=
  if batch.frames.any (·.isNull) then [] else batch.runFrames

end BackfillBatch

inductive SessionEventName
  | start
  | stop
  deriving DecidableEq, Repr

structure SessionEvent where
  v : ℤ
  sid : String
  event : SessionEventName
  clock : Option ℤ
  mono : ℕ
  track : Option String
  trackName : Option String
  laps : Option (List Json)
  topSpeedKmh : Option ℚ

section Decoders

variable (isUUID : String → Bool)

/-- `@IsUUID()`. -/
def isSid : Json → Option String
  | .str s => if isUUID s then some s else none
  | _ => none

/-- `@IsIn(['start', 'stop'])`. -/
def isEventName : Json → Option SessionEventName
  | .str s => if s = "start" then some .start else if s = "stop" then some .stop else none
  | _ => none

/-- `TelemetryFrameDto`. -/
def decodeFrame (j : Json) : Option TelemetryFrame := do
  let v ← required isInt (j.get "v")
  let sid ← required (isSid isUUID) (j.get "sid")
  let seq ← required isCount (j.get "seq")
  let ts ← optional isInt (j.get "ts")
  let mono ← required isCount (j.get "mono")
  let rpm ← optional (within 0 20000 isInt) (j.get "rpm")
  let coolant ← optional isNumber (j.get "coolant")
  let oil ← optional isNumber (j.get "oil")
  let speed ← optional isNonneg (j.get "speed")
  let lat ← optional (within (-90) 90 isNumber) (j.get "lat")
  let lon ← optional (within (-180) 180 isNumber) (j.get "lon")
  let gx ← optional isNumber (j.get "gx")
  let gy ← optional isNumber (j.get "gy")
  let gz ← optional isNumber (j.get "gz")
  let lap ← optional isCount (j.get "lap")
  let lapMs ← optional isCount (j.get "lapMs")
  let fix ← optional isInt (j.get "fix")
  let sats ← optional isInt (j.get "sats")
  let ext ← optional isObject (j.get "ext")
  return { v, sid, seq, ts, mono, rpm, coolant, oil, speed, lat, lon, gx, gy, gz, lap, lapMs, fix,
           sats, ext }

mutual

/-- `@ValidateNested({ each: true })` on one element. -/
def decodeElement : Json → Option BatchElement
  | .null => some .null
  | .arr elems => if decodeAll elems then some .array else none
  | elem => (decodeFrame isUUID elem).map .frame

def decodeAll : List Json → Bool
  | [] => true
  | elem :: elems => (decodeElement elem).isSome && decodeAll elems

end

/-- `@IsArray() @ArrayMinSize(1) @ArrayMaxSize(1000) @ValidateNested({ each: true })`. -/
def isFrames (j : Json) :
    Option {frames : List BatchElement // 1 ≤ frames.length ∧ frames.length ≤ 1000} := do
  let elems ← isArray 1000 j
  let frames ← elems.mapM (decodeElement isUUID)
  if h : 1 ≤ frames.length ∧ frames.length ≤ 1000 then some ⟨frames, h⟩ else none

/-- `BackfillBatchDto`. -/
def decodeBatch (j : Json) : Option BackfillBatch := do
  let v ← required isInt (j.get "v")
  let sid ← required (isSid isUUID) (j.get "sid")
  let frames ← required (isFrames isUUID) (j.get "frames")
  return ⟨v, sid, frames.1, frames.2⟩

/-- `SessionEventDto`. -/
def decodeSessionEvent (j : Json) : Option SessionEvent := do
  let v ← required isInt (j.get "v")
  let sid ← required (isSid isUUID) (j.get "sid")
  let event ← required isEventName (j.get "event")
  let clock ← optional isInt (j.get "at")
  let mono ← required isCount (j.get "mono")
  let track ← optional (isString 120) (j.get "track")
  let trackName ← optional (isString 200) (j.get "trackName")
  let laps ← optional (isArray 500) (j.get "laps")
  let topSpeedKmh ← optional isNumber (j.get "topSpeedKmh")
  return { v, sid, event, clock, mono, track, trackName, laps, topSpeedKmh }

end Decoders

/-- `payload.v !== TELEMETRY_SCHEMA_VERSION`, the other way round. -/
def versionOk (payload : Json) : Bool :=
  match payload.get "v" with
  | some (.num q) => q = TELEMETRY_SCHEMA_VERSION
  | _ => false

/-- `TelemetryService.parse`. -/
def parse {α : Type} (decode : Json → Option α) (payload : Json) : Except DropReason α :=
  match payload with
  | .obj _ | .arr _ =>
    if versionOk payload then
      match decode payload with
      | some a => .ok a
      | none => .error .malformedFrame
    else .error .unsupportedSchemaVersion
  | _ => .error .malformedFrame

/-- **What `parse` admits**: the version of this build and a body the decoder takes. -/
theorem parse_eq_ok {α : Type} {decode : Json → Option α} {payload : Json} {a : α} :
    parse decode payload = .ok a ↔ versionOk payload = true ∧ decode payload = some a := by
  have hobj : ∀ fields, payload = .obj fields → (parse decode payload = .ok a ↔
      versionOk payload = true ∧ decode payload = some a) := by
    rintro fields rfl
    simp only [parse]
    cases versionOk (.obj fields) <;> cases decode (.obj fields) <;> simp
  cases payload with
  | obj fields => exact hobj fields rfl
  | _ => simp [parse, versionOk, Json.get]

/-! ### A batch of frames -/

namespace BackfillBatch

variable {batch : BackfillBatch} {frames : List TelemetryFrame}

theorem ownFrames_subset : batch.ownFrames ⊆ batch.runFrames := by
  unfold ownFrames
  split
  · exact List.nil_subset _
  · exact fun _ h => h

theorem sid_of_mem_ownFrames {frame : TelemetryFrame} (h : frame ∈ batch.ownFrames) :
    frame.sid = batch.sid :=
  of_decide_eq_true (List.mem_filter.mp (ownFrames_subset h)).2

/-- Of a batch of nothing but frames, those with its `sid`. -/
theorem ownFrames_eq (h : batch.frames = frames.map .frame) :
    batch.ownFrames = frames.filter (·.sid = batch.sid) := by
  have hframes : frames.filterMap (fun frame => (BatchElement.frame frame).frame?) = frames := by
    simp [BatchElement.frame?]
  have hnull : batch.frames.any (·.isNull) = false := by simp [h, BatchElement.isNull]
  rw [ownFrames, hnull, if_neg Bool.false_ne_true, runFrames, h, List.filterMap_map]
  exact congrArg _ hframes

theorem first_eq (h : batch.frames = frames.map .frame) :
    ∃ frame ∈ frames.head?, batch.first = .frame frame := by
  have hfirst : some batch.first = (frames.map BatchElement.frame).head? := by
    rw [← h, List.head?_eq_getElem?]
    exact (List.getElem?_eq_getElem batch.size.1).symm
  rw [List.head?_map] at hfirst
  obtain ⟨frame, hframe, heq⟩ := Option.map_eq_some_iff.mp hfirst.symm
  exact ⟨frame, hframe, heq.symm⟩

end BackfillBatch

section Decoded

variable {isUUID : String → Bool}

/-- A value `@IsUUID()` takes is the string itself. -/
theorem required_isSid_eq_some {j : Json} {sid : String}
    (h : required (isSid isUUID) (j.get "sid") = some sid) : j.get "sid" = some (.str sid) := by
  obtain ⟨value, hvalue, hsid⟩ := Option.bind_eq_some_iff.mp h
  rw [hvalue]
  cases value with
  | str s =>
    simp only [isSid] at hsid
    split at hsid
    · cases hsid
      rfl
    · cases hsid
  | _ => simp only [isSid, reduceCtorEq] at hsid

/-- A decoded frame carries the `sid` of its body. -/
theorem decodeFrame_sid {j : Json} {f : TelemetryFrame} (h : decodeFrame isUUID j = some f) :
    j.get "sid" = some (.str f.sid) := by
  unfold decodeFrame at h
  obtain ⟨v, _, h⟩ := Option.bind_eq_some_iff.mp h
  obtain ⟨sid, hsid, h⟩ := Option.bind_eq_some_iff.mp h
  have hf : f.sid = sid := by
    iterate 17 obtain ⟨_, _, h⟩ := Option.bind_eq_some_iff.mp h
    cases h
    rfl
  rw [hf]
  exact required_isSid_eq_some hsid

/-- An element with a `sid` is an object, which is checked as a frame. -/
theorem decodeElement_of_sid {elem sid : Json} (h : elem.get "sid" = some sid) :
    decodeElement isUUID elem = (decodeFrame isUUID elem).map .frame := by
  cases elem with
  | obj fields => rfl
  | _ => cases h

theorem mapM_decodeElement {elems : List Json} {sid : Json}
    (h : ∀ elem ∈ elems, elem.get "sid" = some sid) :
    elems.mapM (decodeElement isUUID) =
      (elems.mapM (decodeFrame isUUID)).map (List.map .frame) := by
  induction elems with
  | nil => rfl
  | cons elem elems ih =>
    have hrest := ih fun e he => h e (List.mem_cons_of_mem _ he)
    rw [List.mapM_cons, List.mapM_cons, decodeElement_of_sid (h elem List.mem_cons_self), hrest]
    cases decodeFrame isUUID elem with
    | none => rfl
    | some frame => cases elems.mapM (decodeFrame isUUID) <;> rfl

/-- A batch decodes when its `sid` does and its `frames` are a list of the right length whose
elements all decode. -/
theorem decodeBatch_eq_some {j : Json} {b : BackfillBatch} (h : decodeBatch isUUID j = some b) :
    j.get "sid" = some (.str b.sid) ∧ ∃ elems, j.get "frames" = some (.arr elems) ∧
      elems.mapM (decodeElement isUUID) = some b.frames := by
  unfold decodeBatch at h
  obtain ⟨v, _, h⟩ := Option.bind_eq_some_iff.mp h
  obtain ⟨sid, hsid, h⟩ := Option.bind_eq_some_iff.mp h
  obtain ⟨frames, hframes, h⟩ := Option.bind_eq_some_iff.mp h
  cases h
  refine ⟨required_isSid_eq_some hsid, ?_⟩
  obtain ⟨value, hvalue, hframes⟩ := Option.bind_eq_some_iff.mp hframes
  obtain ⟨elems, helems, hframes⟩ := Option.bind_eq_some_iff.mp hframes
  obtain ⟨decoded, hdecoded, hsize⟩ := Option.bind_eq_some_iff.mp hframes
  have hvalue' : value = .arr elems := by
    cases value with
    | arr l =>
      simp only [isArray] at helems
      split at helems
      · cases helems
        rfl
      · cases helems
    | _ => simp only [isArray, reduceCtorEq] at helems
  split at hsize
  · cases hsize
    exact ⟨elems, hvalue' ▸ hvalue, hdecoded⟩
  · cases hsize

end Decoded

end TelemetryCloud.IngestWire
