import TelemetryCloud.MqttAdmin
import TelemetryCloud.Segments

/-!
# A car's topics

Which topics a car may publish to, which subscription of the ingest service they reach, and whose
they are read to be.

* `levelsMatch`, `filterMatches` : the matching of topic filters, as MQTT defines it;
  `filterMatches_literal` : **a filter without wildcards matches itself alone**;
* `deviceIdFromTopic_eq_some_iff` : **the topics that are read as a device's**;
* `acceptsDeviceId` : what `CreateCarDto` takes for a `deviceId`; `grants_iff` : **the ACLs
  `ensureCar` adds**;
* `grants_isolated` : **a car is granted its own topics and nobody else's**.
-/

namespace TelemetryCloud.MqttTopics

open TelemetryCloud.Segments MqttAdmin

/-! ### Topic filters -/

section Filters

/-- The levels of a filter against those of a topic: `#` stands for what is left, the level before it
included, and `+` for one level. -/
def levelsMatch : List String → List String → Bool
  | [], [] => true
  | [], _ :: _ => false
  | pattern :: _, [] => pattern = "#"
  | pattern :: patterns, level :: levels =>
    pattern = "#" || ((pattern = "+" || pattern = level) && levelsMatch patterns levels)

/-- A topic whose name starts with `$` is kept from the filters that start with a wildcard. -/
def filterMatches (pattern topic : String) : Bool :=
  let patterns := segments '/' pattern
  !(topic.toList.head? = some '$' && (patterns.head? = some "+" || patterns.head? = some "#")) &&
    levelsMatch patterns (segments '/' topic)

variable {patterns levels : List String} {pattern topic : String}

theorem levelsMatch_literal (hpatterns : ∀ part ∈ patterns, part ≠ "+" ∧ part ≠ "#") :
    levelsMatch patterns levels = true ↔ patterns = levels := by
  induction patterns generalizing levels with
  | nil => cases levels <;> simp [levelsMatch]
  | cons part patterns ih =>
    obtain ⟨hplus, hhash⟩ := hpatterns part List.mem_cons_self
    cases levels with
    | nil => simp [levelsMatch, hhash]
    | cons level levels =>
      have htail : levelsMatch patterns levels = true ↔ patterns = levels :=
        ih fun part hpart => hpatterns part (List.mem_cons_of_mem _ hpart)
      simp [levelsMatch, hplus, hhash, htail]

/-- **A filter without wildcards matches itself alone.** -/
theorem filterMatches_literal (hpattern : ∀ part ∈ segments '/' pattern, part ≠ "+" ∧ part ≠ "#") :
    filterMatches pattern topic = true ↔ topic = pattern := by
  have hhead : ∀ part, (segments '/' pattern).head? = some part → part ≠ "+" ∧ part ≠ "#" :=
    fun part hpart => hpattern part (List.mem_of_head? hpart)
  have hplus : (segments '/' pattern).head? ≠ some "+" := fun h => (hhead "+" h).1 rfl
  have hhash : (segments '/' pattern).head? ≠ some "#" := fun h => (hhead "#" h).2 rfl
  unfold filterMatches
  simp only [hplus, hhash, decide_false, Bool.or_false, Bool.and_false, Bool.not_false,
    Bool.true_and, levelsMatch_literal hpattern]
  constructor
  · intro h
    rw [← joined_segments '/' topic, ← h, joined_segments]
  · rintro rfl
    rfl

end Filters

/-! ### Devices and their topics -/

def TELEMETRY_TOPIC_WILDCARD : String := "cars/+/telemetry"
def SESSION_TOPIC_WILDCARD : String := "cars/+/session"
def BACKFILL_TOPIC_WILDCARD : String := "cars/+/backfill"

/-- What the ingest service subscribes to. -/
def ingestWildcards : List String :=
  [TELEMETRY_TOPIC_WILDCARD, SESSION_TOPIC_WILDCARD, BACKFILL_TOPIC_WILDCARD]

def DYNSEC_COMMAND_TOPIC : String := "$CONTROL/dynamic-security/v1"
def DYNSEC_RESPONSE_TOPIC : String := "$CONTROL/dynamic-security/v1/response"

def deviceIdFromTopic (topic : String) : Option String :=
  match segments '/' topic with
  | [cars, deviceId, _] => if cars = "cars" ∧ deviceId ≠ "" then some deviceId else none
  | _ => none

/-- The characters of `[A-Za-z0-9_-]`. -/
def isDeviceIdChar (c : Char) : Bool :=
  ('A' ≤ c ∧ c ≤ 'Z') ∨ ('a' ≤ c ∧ c ≤ 'z') ∨ ('0' ≤ c ∧ c ≤ '9') ∨ c = '_' ∨ c = '-'

/-- `IsNotEmpty`, `MaxLength(64)` and `Matches` of `CreateCarDto.deviceId`. -/
def acceptsDeviceId (deviceId : String) : Bool :=
  deviceId ≠ "" ∧ deviceId.toList.length ≤ 64 ∧
    (deviceId.toList ≠ [] ∧ deviceId.toList.all isDeviceIdChar)

/-- Some run of the call sends the command. -/
def MaySend (command : Command) : Prog → Prop
  | .request sent _ next => sent = command ∨ ∃ response, MaySend command (next response)
  | _ => False

/-- A topic that `ensureCar` lets the car publish to. -/
def Grants (deviceId topic : String) : Prop :=
  ∃ secret rolename, MaySend (.addRoleACL rolename topic) (ensureCar deviceId secret)

section Topics

variable {deviceId other topic : String}

theorem not_mem_of_accepts {c : Char} (haccepts : acceptsDeviceId deviceId = true)
    (hc : isDeviceIdChar c = false) : c ∉ deviceId.toList := by
  intro hmem
  have hall := (of_decide_eq_true haccepts).2.2.2
  exact absurd (List.all_eq_true.mp hall c hmem) (by simp [hc])

/-- The topic of a device with a given last level. -/
def carTopic (deviceId level : String) : String := "cars/" ++ deviceId ++ "/" ++ level

def carLevels : List String := ["telemetry", "session", "backfill"]

theorem ingestWildcards_eq : ingestWildcards = carLevels.map (carTopic "+") := by
  simp [ingestWildcards, TELEMETRY_TOPIC_WILDCARD, SESSION_TOPIC_WILDCARD, BACKFILL_TOPIC_WILDCARD,
    carLevels, carTopic]

/-- A last level is one segment, and no wildcard. -/
theorem carLevels_plain :
    ∀ level ∈ carLevels, '/' ∉ level.toList ∧ level ≠ "+" ∧ level ≠ "#" := by
  simp [carLevels]

theorem wildcards_not_accepted :
    acceptsDeviceId "+" = false ∧ acceptsDeviceId "#" = false := by
  simp [acceptsDeviceId, isDeviceIdChar]

theorem carPublishTopics_eq (deviceId : String) :
    carPublishTopics deviceId = carLevels.map (carTopic deviceId) := by
  simp only [carPublishTopics, carTelemetryTopic, carSessionTopic, carBackfillTopic, carLevels,
    carTopic, List.map_cons, List.map_nil, String.append_assoc]
  rfl

theorem segments_carTopic (hdevice : '/' ∉ deviceId.toList) {level : String}
    (hlevel : '/' ∉ level.toList) :
    segments '/' (carTopic deviceId level) = ["cars", deviceId, level] := by
  have hjoined : carTopic deviceId level = joined '/' ["cars", deviceId, level] := by
    apply String.toList_inj.mp
    rw [toList_joined]
    simp [carTopic, String.toList_append]
  rw [hjoined]
  refine segments_joined (List.cons_ne_nil _ _) fun part hpart => ?_
  simp only [List.mem_cons, List.not_mem_nil, or_false] at hpart
  rcases hpart with rfl | rfl | rfl
  · simp
  · exact hdevice
  · exact hlevel

/-- The topics a car may publish to, by their segments. -/
theorem mem_carPublishTopics_iff (hdevice : '/' ∉ deviceId.toList) :
    topic ∈ carPublishTopics deviceId ↔
      ∃ level ∈ carLevels, segments '/' topic = ["cars", deviceId, level] := by
  rw [carPublishTopics_eq, List.mem_map]
  refine exists_congr fun level => and_congr_right fun hlevel => ?_
  have hsegments := segments_carTopic hdevice (carLevels_plain level hlevel).1
  constructor
  · rintro rfl
    exact hsegments
  · intro h
    rw [← joined_segments '/' (carTopic deviceId level), hsegments, ← h, joined_segments]

/-- **The topics that are read as a device's.** -/
theorem deviceIdFromTopic_eq_some_iff :
    deviceIdFromTopic topic = some deviceId ↔
      deviceId ≠ "" ∧ ∃ level, segments '/' topic = ["cars", deviceId, level] := by
  unfold deviceIdFromTopic
  constructor
  · intro h
    split at h
    · next cars name level hsegments =>
      split at h
      · next hcars =>
        obtain ⟨rfl, hname⟩ := hcars
        cases h
        exact ⟨hname, level, hsegments⟩
      · cases h
    · cases h
  · rintro ⟨hdevice, level, hsegments⟩
    rw [hsegments]
    exact if_pos ⟨rfl, hdevice⟩

/-- The ACLs in front of the rest of a call. -/
theorem maySend_acls {rolename role : String} {rest : Prog} (topics : List String) :
    MaySend (.addRoleACL rolename topic) (topics.foldr (fun topic rest =>
        .request (.addRoleACL role topic) ALREADY_PRESENT fun _ => rest) rest) ↔
      (rolename = role ∧ topic ∈ topics) ∨ MaySend (.addRoleACL rolename topic) rest := by
  induction topics with
  | nil => simp
  | cons first topics ih =>
    rw [List.foldr_cons, MaySend, exists_const, ih, Command.addRoleACL.injEq, List.mem_cons]
    constructor
    · rintro (⟨rfl, rfl⟩ | ⟨rfl, hmem⟩ | hrest)
      · exact Or.inl ⟨rfl, Or.inl rfl⟩
      · exact Or.inl ⟨rfl, Or.inr hmem⟩
      · exact Or.inr hrest
    · rintro (⟨rfl, rfl | hmem⟩ | hrest)
      · exact Or.inl ⟨rfl, rfl⟩
      · exact Or.inr (Or.inl ⟨rfl, hmem⟩)
      · exact Or.inr (Or.inr hrest)

/-- **The ACLs `ensureCar` adds** are those of the car's role and topics. -/
theorem maySend_ensureCar_iff {secret rolename : String} :
    MaySend (.addRoleACL rolename topic) (ensureCar deviceId secret) ↔
      rolename = carRoleName deviceId ∧ topic ∈ carPublishTopics deviceId := by
  rw [ensureCar, ensureCarThen, MaySend, exists_const, maySend_acls]
  constructor
  · rintro (h | h | h)
    · cases h
    · exact h
    · -- what comes after the ACLs adds none
      rw [MaySend] at h
      obtain h | ⟨_, h⟩ := h
      · cases h
      · rw [MaySend] at h
        obtain h | ⟨response, h⟩ := h
        · cases h
        · split at h
          · exact h.elim
          · rw [MaySend] at h
            obtain h | ⟨_, h⟩ := h
            · cases h
            · exact h.elim
  · exact fun h => Or.inr (Or.inl h)

theorem grants_iff : Grants deviceId topic ↔ topic ∈ carPublishTopics deviceId := by
  constructor
  · rintro ⟨secret, rolename, h⟩
    exact (maySend_ensureCar_iff.mp h).2
  · exact fun h => ⟨"", carRoleName deviceId, maySend_ensureCar_iff.mpr ⟨rfl, h⟩⟩

/-- A wildcard of the ingest service reaches the topics with its last level. -/
theorem filterMatches_wildcard {level : String} (hlevel : level ∈ carLevels) :
    filterMatches (carTopic "+" level) topic = true ↔
      ∃ name, segments '/' topic = ["cars", name, level] := by
  obtain ⟨hslash, hhash⟩ := carLevels_plain level hlevel
  have hpatterns := segments_carTopic (show '/' ∉ "+".toList by simp) hslash
  unfold filterMatches
  rw [hpatterns]
  generalize segments '/' topic = levels
  match levels with
  | [] => simp [levelsMatch]
  | [_] => simp [levelsMatch]
  | [_, _] => simp [levelsMatch, hhash]
  | [_, _, _] => simp [levelsMatch, hhash, @eq_comm _ "cars", @eq_comm _ level]
  | _ :: _ :: _ :: _ :: _ => simp [levelsMatch, hhash]

/-- An ACL of an accepted device is no wildcard: it matches itself alone. -/
theorem filterMatches_granted (haccepts : acceptsDeviceId deviceId = true) {granted : String}
    (hgranted : granted ∈ carPublishTopics deviceId) :
    filterMatches granted topic = true ↔ topic = granted := by
  obtain ⟨level, hlevel, hsegments⟩ :=
    (mem_carPublishTopics_iff (not_mem_of_accepts haccepts (by decide))).mp hgranted
  have hplus : deviceId ≠ "+" := by
    rintro rfl
    exact absurd haccepts (Bool.eq_false_iff.mp wildcards_not_accepted.1)
  have hhash : deviceId ≠ "#" := by
    rintro rfl
    exact absurd haccepts (Bool.eq_false_iff.mp wildcards_not_accepted.2)
  refine filterMatches_literal fun part hpart => ?_
  rw [hsegments] at hpart
  simp only [List.mem_cons, List.not_mem_nil, or_false] at hpart
  rcases hpart with rfl | rfl | rfl
  · decide
  · exact ⟨hplus, hhash⟩
  · exact (carLevels_plain part hlevel).2

end Topics

/-- **A car is granted its own topics and nobody else's.** -/
theorem grants_isolated {deviceId other : String} (haccepts : acceptsDeviceId deviceId = true)
    (hother : acceptsDeviceId other = true) :
    (∀ topic ∈ carPublishTopics deviceId, deviceIdFromTopic topic = some deviceId) ∧
    (∀ topic ∈ carPublishTopics deviceId, ∃! wildcard,
      wildcard ∈ ingestWildcards ∧ filterMatches wildcard topic = true) ∧
    (∀ topic ∈ carPublishTopics deviceId, ∀ topic' ∈ carPublishTopics deviceId,
      ∀ wildcard ∈ ingestWildcards, filterMatches wildcard topic = true →
        filterMatches wildcard topic' = true → topic = topic') ∧
    Function.Injective carRoleName ∧
    (∀ topic ∈ carPublishTopics deviceId, ∃ granted,
      Grants deviceId granted ∧ filterMatches granted topic = true) ∧
    (deviceId ≠ other → ∀ granted, Grants deviceId granted →
      (∀ topic ∈ carPublishTopics other, filterMatches granted topic = false) ∧
      filterMatches granted DYNSEC_COMMAND_TOPIC = false ∧
      filterMatches granted DYNSEC_RESPONSE_TOPIC = false) := by
  have hslash : '/' ∉ deviceId.toList := not_mem_of_accepts haccepts (by decide +kernel)
  have hslash' : '/' ∉ other.toList := not_mem_of_accepts hother (by decide +kernel)
  have hread : ∀ {device : String}, acceptsDeviceId device = true → '/' ∉ device.toList →
      ∀ topic ∈ carPublishTopics device, deviceIdFromTopic topic = some device := by
    intro device hdevice hdevice' topic htopic
    obtain ⟨level, -, hsegments⟩ := (mem_carPublishTopics_iff hdevice').mp htopic
    exact deviceIdFromTopic_eq_some_iff.mpr ⟨(of_decide_eq_true hdevice).1, level, hsegments⟩
  refine ⟨hread haccepts hslash, ?_, ?_, ?_, ?_, ?_⟩
  · intro topic htopic
    obtain ⟨level, hlevel, hsegments⟩ := (mem_carPublishTopics_iff hslash).mp htopic
    rw [ingestWildcards_eq]
    refine ⟨carTopic "+" level, ⟨List.mem_map_of_mem hlevel,
      (filterMatches_wildcard hlevel).mpr ⟨deviceId, hsegments⟩⟩, ?_⟩
    rintro wildcard ⟨hwildcard, hmatches⟩
    obtain ⟨level', hlevel', rfl⟩ := List.mem_map.mp hwildcard
    obtain ⟨name, hname⟩ := (filterMatches_wildcard hlevel').mp hmatches
    cases hsegments.symm.trans hname
    rfl
  · intro topic htopic topic' htopic' wildcard hwildcard hmatches hmatches'
    obtain ⟨level, hlevel, hsegments⟩ := (mem_carPublishTopics_iff hslash).mp htopic
    obtain ⟨level', hlevel', hsegments'⟩ := (mem_carPublishTopics_iff hslash).mp htopic'
    rw [ingestWildcards_eq] at hwildcard
    obtain ⟨last, hlast, rfl⟩ := List.mem_map.mp hwildcard
    obtain ⟨name, hname⟩ := (filterMatches_wildcard hlast).mp hmatches
    obtain ⟨name', hname'⟩ := (filterMatches_wildcard hlast).mp hmatches'
    cases hsegments.symm.trans hname
    cases hsegments'.symm.trans hname'
    rw [← joined_segments '/' topic, hsegments, ← hsegments', joined_segments]
  · exact fun _ _ h => (String.append_right_inj "car-").mp h
  · exact fun topic htopic =>
      ⟨topic, grants_iff.mpr htopic, (filterMatches_granted haccepts htopic).mpr rfl⟩
  · intro hne granted hgrants
    have hgranted := grants_iff.mp hgrants
    have hdevice := hread haccepts hslash granted hgranted
    have hmiss : ∀ topic, deviceIdFromTopic topic ≠ some deviceId →
        filterMatches granted topic = false := by
      intro topic htopic
      refine Bool.eq_false_iff.mpr fun hmatches => htopic ?_
      rw [(filterMatches_granted haccepts hgranted).mp hmatches, hdevice]
    refine ⟨fun topic htopic => hmiss topic fun h => hne ?_, hmiss _ ?_, hmiss _ ?_⟩
    · exact Option.some.inj (h.symm.trans (hread hother hslash' topic htopic))
    · rw [show deviceIdFromTopic DYNSEC_COMMAND_TOPIC = none by decide +kernel]
      exact Option.some_ne_none deviceId ∘ Eq.symm
    · rw [show deviceIdFromTopic DYNSEC_RESPONSE_TOPIC = none by decide +kernel]
      exact Option.some_ne_none deviceId ∘ Eq.symm

theorem grants_isolated_twoCars :
    deviceIdFromTopic "cars/gt3-01/session" = some "gt3-01" ∧
      Grants "gt3-01" "cars/gt3-01/backfill" ∧
      filterMatches "cars/gt3-01/backfill" "cars/gt3-010/backfill" = false := by
  obtain ⟨hread, -, -, -, -, hisolated⟩ := grants_isolated
    (show acceptsDeviceId "gt3-01" = true by decide +kernel)
    (show acceptsDeviceId "gt3-010" = true by decide +kernel)
  have hgrants : Grants "gt3-01" "cars/gt3-01/backfill" := grants_iff.mpr (by decide +kernel)
  exact ⟨hread _ (by decide +kernel), hgrants,
    (hisolated (by decide +kernel) _ hgrants).1 _ (by decide +kernel)⟩

end TelemetryCloud.MqttTopics
