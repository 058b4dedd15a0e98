import SecureTelemetryGateway.Ingestion.Numbers
import SecureTelemetryGateway.Lib.Binary32

/-!
# What is published

`publish_ros_messages` of `gateway_node.cpp`, against the document the frame
came from. The topic follows from the members there are, the reading from the
members that are numbers.
-/

namespace SecureTelemetryGateway.Ros

open Models (TelemetryData PayloadMap)
open Ingestion
open Lib (Binary32)

-- ---------------------------------------------------------------------------
-- Messages
-- ---------------------------------------------------------------------------

structure Header where
  stamp : Int64
  frameId : String
  deriving DecidableEq

structure BatteryState where
  header : Header
  percentage : Binary32 := .zero
  deriving DecidableEq

structure Temperature where
  header : Header
  temperature : Double := .zero false
  deriving DecidableEq

/-- `linearX` is `twist.linear.x`. -/
structure TwistStamped where
  header : Header
  linearX : Double := .zero false
  deriving DecidableEq

inductive RosMessage
  | battery (msg : BatteryState)
  | temperature (msg : Temperature)
  | velocity (msg : TwistStamped)
  deriving DecidableEq

/-- `count` and `at` of a key are one lookup. -/
def publishRosMessages (now : Int64) (data : TelemetryData) : Option RosMessage :=
  let header : Header := { stamp := now, frameId := data.robotId }
  if data.sensorType = "battery" then
    let batteryMsg : BatteryState := { header }
    match data.payloadValues.lookup "battery" with
    | some value => some (.battery { batteryMsg with percentage := .ofBinary64 value })
    | none => some (.battery batteryMsg)
  else if data.sensorType = "temperature" then
    let tempMsg : Temperature := { header }
    match data.payloadValues.lookup "temperature" with
    | some value => some (.temperature { tempMsg with temperature := value })
    | none => some (.temperature tempMsg)
  else if data.sensorType = "velocity" then
    let twistMsg : TwistStamped := { header }
    match data.payloadValues.lookup "velocity_x" with
    | some value => some (.velocity { twistMsg with linearX := value })
    | none => some (.velocity twistMsg)
  else none

-- ---------------------------------------------------------------------------
-- The payload of a document
-- ---------------------------------------------------------------------------

/-- An object is a `std::map`. -/
def DistinctKeys : Json → Prop
  | .object members => (members.map Prod.fst).Nodup
  | _ => True

theorem lookup_numbersInto (h : (items.map Prod.fst).Nodup) (m : PayloadMap) (key : String) :
    (Json.numbersInto m items).lookup key =
      ((items.lookup key).bind Json.number?).or (m.lookup key) := by
  induction items generalizing m with
  | nil => simp [Json.numbersInto]
  | cons item rest ih =>
    obtain ⟨key', value⟩ := item
    obtain ⟨hnotMem, hrest⟩ := List.nodup_cons.mp h
    by_cases heq : key = key'
    · subst heq
      have hnone : rest.lookup key = none := by
        rw [List.lookup_eq_none_iff]
        intro item hitem
        have hmem := List.mem_map_of_mem (f := Prod.fst) hitem
        simpa using fun hkey : key = item.1 => hnotMem (hkey ▸ hmem)
      cases hv : value.number? <;> simp [Json.numbersInto, hv, ih hrest, hnone]
    · have hbeq : (key == key') = false := beq_eq_false_iff_ne.mpr heq
      have hlookup : ((key', value) :: rest).lookup key = rest.lookup key := by
        simp only [List.lookup_cons, hbeq]
      cases hv : value.number? with
      | none => simp [Json.numbersInto, hv, ih hrest, hlookup]
      | some d => simp [Json.numbersInto, hv, ih hrest, hlookup, Finmap.lookup_insert_of_ne m heq]

theorem lookup_payload (h : DistinctKeys parsed) (hmember : parsed.member? key = some value) :
    (Json.numbersInto ∅ parsed.items).lookup key = value.number? := by
  cases parsed with
  | object members =>
    have hlookup : members.lookup key = some value := hmember
    simp [Json.items, lookup_numbersInto h, hlookup]
  | _ => cases hmember

-- ---------------------------------------------------------------------------
-- The message of a document
-- ---------------------------------------------------------------------------

theorem publish_battery (hk : DistinctKeys parsed)
    (hb : parsed.member? "battery" = some value) (stamp : Int64) (robotId : String)
    (sequenceId timestampNs : UInt64) :
    publishRosMessages stamp (parsed.frame robotId sequenceId timestampNs) =
      some (.battery
        { header := { stamp, frameId := robotId }
          percentage := (value.number?.map Binary32.ofBinary64).getD .zero }) := by
  have htype : parsed.sensorType = "battery" := by simp [Json.sensorType, Json.contains_of_some hb]
  simp only [publishRosMessages, Json.frame, htype, lookup_payload hk hb, ↓reduceIte]
  cases value.number? <;> rfl

theorem publish_temperature (hk : DistinctKeys parsed) (hb : parsed.member? "battery" = none)
    (ht : parsed.member? "temperature" = some value) (stamp : Int64) (robotId : String)
    (sequenceId timestampNs : UInt64) :
    publishRosMessages stamp (parsed.frame robotId sequenceId timestampNs) =
      some (.temperature
        { header := { stamp, frameId := robotId }
          temperature := value.number?.getD (.zero false) }) := by
  have htype : parsed.sensorType = "temperature" := by
    simp [Json.sensorType, Json.contains_of_none hb, Json.contains_of_some ht]
  simp only [publishRosMessages, Json.frame, htype, lookup_payload hk ht, ↓reduceIte]
  cases value.number? <;> rfl

theorem publish_velocity (hk : DistinctKeys parsed) (hb : parsed.member? "battery" = none)
    (ht : parsed.member? "temperature" = none) (hv : parsed.member? "velocity_x" = some value)
    (stamp : Int64) (robotId : String) (sequenceId timestampNs : UInt64) :
    publishRosMessages stamp (parsed.frame robotId sequenceId timestampNs) =
      some (.velocity
        { header := { stamp, frameId := robotId }
          linearX := value.number?.getD (.zero false) }) := by
  have htype : parsed.sensorType = "velocity" := by
    simp [Json.sensorType, Json.contains_of_none hb, Json.contains_of_none ht,
      Json.contains_of_some hv]
  simp only [publishRosMessages, Json.frame, htype, lookup_payload hk hv, ↓reduceIte]
  cases value.number? <;> rfl

theorem publish_generic (hb : Json.member? parsed "battery" = none)
    (ht : parsed.member? "temperature" = none) (hv : parsed.member? "velocity_x" = none)
    (stamp : Int64) (robotId : String) (sequenceId timestampNs : UInt64) :
    publishRosMessages stamp (parsed.frame robotId sequenceId timestampNs) = none := by
  have htype : parsed.sensorType = "generic" := by
    simp [Json.sensorType, Json.contains_of_none hb, Json.contains_of_none ht,
      Json.contains_of_none hv]
  simp [publishRosMessages, Json.frame, htype]

-- ---------------------------------------------------------------------------
-- Against the document
-- ---------------------------------------------------------------------------

def Carries (parsed : Json) : RosMessage → Prop
  | .battery msg => ∃ value d, parsed.member? "battery" = some value ∧ value.number? = some d ∧
      msg.percentage = .ofBinary64 d
  | .temperature msg => parsed.numberAt? "temperature" = some msg.temperature.value
  | .velocity msg => parsed.numberAt? "velocity_x" = some msg.linearX.value

def Measured (parsed : Json) : Prop :=
  ∀ (nl : Nlohmann) (now : UInt64) (rawJson : Bytes) (before data : TelemetryData) (stamp : Int64),
    nl.parse rawJson = .ok parsed →
    (parseAndValidate nl now rawJson).run before = (.ok .success, data) →
    ∀ msg, publishRosMessages stamp data = some msg → Carries parsed msg

/-- The member that decides the topic is a number, and one that a double holds
where it is not going to be a float. -/
def Measurable (parsed : Json) : Prop :=
  match parsed.member? "battery" with
  | some value => value.isNumber
  | none =>
    match parsed.member? "temperature" with
    | some value => value.HeldByDouble
    | none => ∀ value, parsed.member? "velocity_x" = some value → value.HeldByDouble

theorem Measured.carries (hm : Measured parsed) (hw : parsed.WellTyped) :
    ∃ robotId sequenceId timestampNs, ∀ msg,
      publishRosMessages 0 (parsed.frame robotId sequenceId timestampNs) = some msg →
        Carries parsed msg := by
  obtain ⟨robotId, sequenceId, timestampNs, hrun⟩ := exists_run hw
  exact ⟨robotId, sequenceId, timestampNs, hm (.always parsed) 0 [] {} _ 0 rfl hrun⟩

theorem isNumber_iff {value : Json} : value.isNumber ↔ ∃ d, value.number? = some d := by
  cases value <;> simp [Json.isNumber, Json.number?, Json.getDouble, Except.toOption]

theorem numberValue?_eq_getD_iff {value : Json} :
    value.numberValue? = some (value.number?.getD (.zero false)).value ↔ value.HeldByDouble := by
  rw [Json.heldByDouble_iff]
  cases hd : value.number? with
  | some d => simp
  | none =>
    have hnone : value.numberValue? = none := by
      cases value with
      | numberInteger i => cases hd
      | numberUnsigned u => cases hd
      | numberFloat d => cases hd
      | _ => rfl
    simp [hnone]

theorem carries_iff (hk : DistinctKeys parsed) (stamp : Int64) (robotId : String)
    (sequenceId timestampNs : UInt64) :
    (∀ msg, publishRosMessages stamp (parsed.frame robotId sequenceId timestampNs) = some msg →
      Carries parsed msg) ↔ Measurable parsed := by
  unfold Measurable
  cases hb : parsed.member? "battery" with
  | some value =>
    rw [publish_battery hk hb]
    simp only [Option.some.injEq, forall_eq', Carries, hb]
    rw [isNumber_iff]
    constructor
    · rintro ⟨_, d, rfl, hd, -⟩
      exact ⟨d, hd⟩
    · rintro ⟨d, hd⟩
      exact ⟨value, d, rfl, hd, by rw [hd]; rfl⟩
  | none =>
    cases ht : parsed.member? "temperature" with
    | some value =>
      rw [publish_temperature hk hb ht]
      simp only [Option.some.injEq, forall_eq', Carries, Json.numberAt?, ht, Option.bind_some]
      exact numberValue?_eq_getD_iff
    | none =>
      cases hv : parsed.member? "velocity_x" with
      | some value =>
        rw [publish_velocity hk hb ht hv]
        simp only [Option.some.injEq, forall_eq', Carries, Json.numberAt?, hv, Option.bind_some]
        exact numberValue?_eq_getD_iff
      | none =>
        rw [publish_generic hb ht hv]
        simp

theorem measured_iff (hk : DistinctKeys parsed) :
    Measured parsed ↔ (parsed.WellTyped → Measurable parsed) := by
  constructor
  · intro hm hw
    obtain ⟨robotId, sequenceId, timestampNs, hcarries⟩ := hm.carries hw
    exact (carries_iff hk 0 robotId sequenceId timestampNs).mp hcarries
  · intro h nl now rawJson before data stamp hparse hrun
    obtain ⟨hw, robotId, sequenceId, timestampNs, rfl⟩ := frame_of_run hparse hrun
    exact (carries_iff hk stamp robotId sequenceId timestampNs).mpr (h hw)

theorem measured_number : Measured (.object [("battery", .numberUnsigned 87)]) := by
  have hk : DistinctKeys (.object [("battery", .numberUnsigned 87)]) := List.nodup_singleton _
  exact (measured_iff hk).mpr fun _ => rfl

/-- A text where the charge should be is published as no charge. -/
theorem measured_fails : ¬Measured (.object [("battery", .string "full")]) := by
  intro hm
  obtain ⟨robotId, sequenceId, timestampNs, hcarries⟩ := hm.carries ⟨nofun, nofun, nofun⟩
  obtain ⟨value, d, hmember, hd, -⟩ := hcarries _ rfl
  cases hmember
  cases hd

end SecureTelemetryGateway.Ros
