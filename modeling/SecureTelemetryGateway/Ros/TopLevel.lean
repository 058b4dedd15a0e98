import SecureTelemetryGateway.Lib.JsonText
import SecureTelemetryGateway.Ros.Publishing

/-!
# Documents that are not objects

The ingestion engine never asks what stands at the top level of a document.
Only objects have members, so in any other document nothing is missing: every
member is optional.
-/

namespace SecureTelemetryGateway.Ros

open Models (TelemetryData)
open Containers (ConcurrentQueue)
open Ingestion

def isObject : Json → Bool
  | .object _ => true
  | _ => false

/-- A text that is valid JSON, with an object at its top level or not. The
library gives the document, an object as a `std::map`, or refuses a number that
no double holds. -/
inductive ValidText (nl : Nlohmann) (rawJson : Bytes) (object : Bool) : Prop
  | document (h : nl.parse rawJson = .ok parsed) (hk : DistinctKeys parsed)
      (ho : isObject parsed = object)
  | numberTooLarge (text : Lib.JsonText.Text) (htext : rawJson = (String.ofList text).toUTF8.toList)
      (ho : object = true ↔ ∃ members, Lib.JsonText.IsObject text members)
      (h : nl.parse rawJson = .error .outOfRange)

def sensorTypeOf (members : List (String × Json)) : String :=
  match ["battery", "temperature", "velocity_x"].find? (· ∈ members.map Prod.fst) with
  | some "velocity_x" => "velocity"
  | some key => key
  | none => "generic"

structure FrameOf (members : List (String × Json)) (data : TelemetryData) : Prop where
  payload : ∀ key, data.payloadValues.lookup key = (members.lookup key).bind Json.number?
  sensorType : data.sensorType = sensorTypeOf members

structure OnlyObjects (nl : Nlohmann) (now : UInt64) (rawJson : Bytes) (object : Bool) : Prop where
  frame : ∀ before data, (parseAndValidate nl now rawJson).run before = (.ok .success, data) →
    ∃ members, nl.parse rawJson = .ok (.object members) ∧ FrameOf members data
  status : object = false → ∀ before, ∃ status,
    ((parseAndValidate nl now rawJson).run before).1 = .ok status ∧ status ≠ .success
  queue : object = false → ∀ targetQueue,
    (processPayload nl now rawJson targetQueue).2 = targetQueue

-- ---------------------------------------------------------------------------
-- Objects
-- ---------------------------------------------------------------------------

theorem contains_object {members : List (String × Json)} {key : String} :
    (Json.object members).contains key = true ↔ key ∈ members.map Prod.fst := by
  show (members.lookup key).isSome = true ↔ _
  rw [List.lookup_isSome_iff, List.mem_map]
  constructor
  · rintro ⟨⟨key', value⟩, hmem, heq⟩
    exact ⟨_, hmem, (eq_of_beq heq).symm⟩
  · rintro ⟨⟨key', value⟩, hmem, rfl⟩
    exact ⟨_, hmem, beq_self_eq_true _⟩

theorem sensorType_object (members : List (String × Json)) :
    (Json.object members).sensorType = sensorTypeOf members := by
  unfold Json.sensorType sensorTypeOf
  simp only [contains_object]
  by_cases hb : "battery" ∈ members.map Prod.fst
  · simp [hb]
  · by_cases ht : "temperature" ∈ members.map Prod.fst
    · simp [hb, ht]
    · by_cases hv : "velocity_x" ∈ members.map Prod.fst <;> simp [hb, ht, hv]

theorem frameOf_object (hk : DistinctKeys (.object members)) (robotId : String)
    (sequenceId timestampNs : UInt64) :
    FrameOf members ((Json.object members).frame robotId sequenceId timestampNs) where
  payload key := by
    have hlookup := lookup_numbersInto hk ∅ key
    simpa [Json.frame, Json.items] using hlookup
  sensorType := sensorType_object members

theorem isObject_iff {parsed : Json} :
    isObject parsed = true ↔ ∃ members, parsed = .object members := by
  cases parsed <;> simp [isObject]

-- ---------------------------------------------------------------------------
-- Other documents
-- ---------------------------------------------------------------------------

theorem not_contains (h : isObject parsed = false) (key : String) :
    parsed.contains key = false := by
  cases parsed with
  | object members => cases h
  | _ => rfl

theorem wellTyped_of_not_isObject (h : isObject parsed = false) : parsed.WellTyped where
  identity := by
    simp [Json.IdentityTyped, not_contains h]
  sequenceId hc := by
    rw [not_contains h] at hc
    cases hc
  timestampNs hc := by
    rw [not_contains h] at hc
    cases hc

/-- Nothing is missing where nothing is required. -/
theorem run_of_not_isObject (now : UInt64) (h : nl.parse rawJson = .ok parsed)
    (ho : isObject parsed = false) :
    ∃ data, ∀ before, (parseAndValidate nl now rawJson).run before = (.ok .success, data) := by
  obtain ⟨_, _, _, -, -, hrun⟩ := run_wellTyped now h (wellTyped_of_not_isObject ho)
  exact ⟨_, hrun⟩

theorem onlyObjects_iff (hvalid : ValidText nl rawJson object) (now : UInt64) :
    OnlyObjects nl now rawJson object ↔ object = true := by
  constructor
  · intro h
    by_contra hother
    obtain ⟨status, hrun, hne⟩ := h.status (by simpa using hother) {}
    cases hvalid with
    | document hparse hk ho =>
      obtain ⟨data, hsuccess⟩ := run_of_not_isObject now hparse (ho.trans (by simpa using hother))
      rw [hsuccess] at hrun
      exact hne (Except.ok.inj hrun).symm
    | numberTooLarge _ _ _ hparse =>
      rw [run_refused hparse] at hrun
      cases hrun
  · rintro rfl
    refine ⟨fun before data hrun => ?_, nofun, nofun⟩
    cases hvalid with
    | document hparse hk ho =>
      obtain ⟨members, rfl⟩ := isObject_iff.mp ho
      obtain ⟨-, robotId, sequenceId, timestampNs, rfl⟩ := frame_of_run hparse hrun
      exact ⟨members, hparse, frameOf_object hk robotId sequenceId timestampNs⟩
    | numberTooLarge _ _ _ hparse =>
      rw [run_refused hparse] at hrun
      cases hrun

def batteryText : String := "\x7b\"battery\":91\x7d"

theorem onlyObjects_battery :
    OnlyObjects (.ofText batteryText (.object [("battery", .numberUnsigned 91)])) 0
      batteryText.toUTF8.toList true := by
  refine (onlyObjects_iff (.document (Nlohmann.parse_ofText _ _) ?_ rfl) 0).mpr rfl
  simp [DistinctKeys]

def arrayText : String := "[1,2]"

/-- The array is a frame of an unknown robot with the keys `0` and `1`. -/
theorem onlyObjects_fails :
    ¬OnlyObjects (.ofText arrayText (.array [.numberUnsigned 1, .numberUnsigned 2])) 0
      arrayText.toUTF8.toList false := by
  intro h
  have hparse := Nlohmann.parse_ofText arrayText (.array [.numberUnsigned 1, .numberUnsigned 2])
  obtain ⟨data, hrun⟩ := run_of_not_isObject 0 hparse rfl
  obtain ⟨status, hstatus, hne⟩ := h.status rfl {}
  rw [hrun] at hstatus
  exact hne (Except.ok.inj hstatus).symm

end SecureTelemetryGateway.Ros
