import SecureTelemetryGateway.Ros.Publishing

/-!
# What is left unpublished

A frame has one sensor type and gets one message. A document that measures
more than one thing is published as the first of them.
-/

namespace SecureTelemetryGateway.Ros

open Models (TelemetryData)
open Ingestion

/-- The members that have a topic, in the order in which they are looked for. -/
def supported : List String := ["battery", "temperature", "velocity_x"]

def RosMessage.member : RosMessage → String
  | .battery _ => "battery"
  | .temperature _ => "temperature"
  | .velocity _ => "velocity_x"

/-- The frame that has been parsed from the document sends one message for each
supported member that is a number, and the message carries it. -/
def AllPublished (parsed : Json) : Prop :=
  ∀ (nl : Nlohmann) (now : UInt64) (rawJson : Bytes) (before data : TelemetryData) (stamp : Int64),
    nl.parse rawJson = .ok parsed →
    (parseAndValidate nl now rawJson).run before = (.ok .success, data) →
    ∀ key ∈ supported, ∀ value, parsed.member? key = some value → value.isNumber →
      ∃ msg, (publishRosMessages stamp data).toList.filter (·.member = key) = [msg] ∧
        Carries parsed msg

/-- A supported member that is a number is the first supported member, and one
that a double holds where it is not going to be a float. -/
def OnlyFirst (parsed : Json) : Prop :=
  ∀ key ∈ supported, ∀ value, parsed.member? key = some value → value.isNumber →
    supported.find? parsed.contains = some key ∧ (key = "battery" ∨ value.HeldByDouble)

theorem publish_member (hk : DistinctKeys parsed) (stamp : Int64) (robotId : String)
    (sequenceId timestampNs : UInt64) :
    (publishRosMessages stamp (parsed.frame robotId sequenceId timestampNs)).map (·.member) =
      supported.find? parsed.contains := by
  cases hb : parsed.member? "battery" with
  | some value =>
    rw [publish_battery hk hb]
    simp [supported, Json.contains_of_some hb, RosMessage.member]
  | none =>
    cases ht : parsed.member? "temperature" with
    | some value =>
      rw [publish_temperature hk hb ht]
      simp [supported, Json.contains_of_none hb, Json.contains_of_some ht, RosMessage.member]
    | none =>
      cases hv : parsed.member? "velocity_x" with
      | some value =>
        rw [publish_velocity hk hb ht hv]
        simp [supported, Json.contains_of_none hb, Json.contains_of_none ht,
          Json.contains_of_some hv, RosMessage.member]
      | none =>
        rw [publish_generic hb ht hv]
        simp [supported, Json.contains_of_none hb, Json.contains_of_none ht,
          Json.contains_of_none hv]

theorem measurable_iff (hfirst : supported.find? parsed.contains = some key)
    (hmember : parsed.member? key = some value) (hn : value.isNumber) :
    Measurable parsed ↔ key = "battery" ∨ value.HeldByDouble := by
  unfold Measurable
  cases hb : parsed.member? "battery" with
  | some value' =>
    obtain rfl : "battery" = key := by
      simpa [supported, Json.contains_of_some hb] using hfirst
    obtain rfl : value' = value := Option.some.inj (hb.symm.trans hmember)
    simp [hn]
  | none =>
    cases ht : parsed.member? "temperature" with
    | some value' =>
      obtain rfl : "temperature" = key := by
        simpa [supported, Json.contains_of_none hb, Json.contains_of_some ht] using hfirst
      obtain rfl : value' = value := Option.some.inj (ht.symm.trans hmember)
      simp
    | none =>
      cases hv : parsed.member? "velocity_x" with
      | some value' =>
        obtain rfl : "velocity_x" = key := by
          simpa [supported, Json.contains_of_none hb, Json.contains_of_none ht,
            Json.contains_of_some hv] using hfirst
        obtain rfl : value' = value := Option.some.inj (hv.symm.trans hmember)
        simp
      | none =>
        simp [supported, Json.contains_of_none hb, Json.contains_of_none ht,
          Json.contains_of_none hv] at hfirst

theorem published_iff (hk : DistinctKeys parsed) (hmember : parsed.member? key = some value)
    (hn : value.isNumber) (stamp : Int64) (robotId : String) (sequenceId timestampNs : UInt64) :
    (∃ msg, (publishRosMessages stamp
        (parsed.frame robotId sequenceId timestampNs)).toList.filter (·.member = key) = [msg] ∧
      Carries parsed msg) ↔
      supported.find? parsed.contains = some key ∧ (key = "battery" ∨ value.HeldByDouble) := by
  have hpublish := publish_member hk stamp robotId sequenceId timestampNs
  have hcarries := carries_iff hk stamp robotId sequenceId timestampNs
  cases hmsg : publishRosMessages stamp (parsed.frame robotId sequenceId timestampNs) with
  | none =>
    rw [hmsg] at hpublish
    simp [← hpublish]
  | some msg =>
    rw [hmsg] at hpublish hcarries
    simp only [Option.some.injEq, forall_eq'] at hcarries
    by_cases heq : msg.member = key
    · have hfirst : supported.find? parsed.contains = some key := by rw [← hpublish, ← heq]; rfl
      simp [heq, hfirst, hcarries, measurable_iff hfirst hmember hn]
    · have hfirst : supported.find? parsed.contains ≠ some key := by
        rw [← hpublish]
        simpa using heq
      simp [heq, hfirst]

theorem allPublished_iff (hk : DistinctKeys parsed) :
    AllPublished parsed ↔ (parsed.WellTyped → OnlyFirst parsed) := by
  constructor
  · intro hp hw key hkey value hmember hn
    obtain ⟨robotId, sequenceId, timestampNs, hrun⟩ := exists_run hw
    exact (published_iff hk hmember hn 0 robotId sequenceId timestampNs).mp
      (hp _ 0 [] {} _ 0 rfl hrun key hkey value hmember hn)
  · intro h nl now rawJson before data stamp hparse hrun key hkey value hmember hn
    obtain ⟨hw, robotId, sequenceId, timestampNs, rfl⟩ := frame_of_run hparse hrun
    exact (published_iff hk hmember hn stamp robotId sequenceId timestampNs).mpr
      (h hw key hkey value hmember hn)

theorem allPublished_velocity :
    AllPublished (.object [("client_id", .string "amr_robot_01"),
      ("velocity_x", .numberUnsigned 2)]) := by
  have hk : DistinctKeys (.object [("client_id", .string "amr_robot_01"),
      ("velocity_x", .numberUnsigned 2)]) := by
    simp [DistinctKeys]
  refine (allPublished_iff hk).mpr fun _ key hkey value hmember _ => ?_
  obtain rfl | rfl | rfl : key = "battery" ∨ key = "temperature" ∨ key = "velocity_x" := by
    simpa [supported] using hkey
  · cases hmember
  · cases hmember
  · cases hmember
    have hexact : Lib.Binary64.Exact 2 := by decide
    exact ⟨rfl, .inr hexact⟩

/-- The temperature is in the frame and in no message. -/
theorem allPublished_fails :
    ¬AllPublished (.object [("battery", .numberUnsigned 91),
      ("temperature", .numberUnsigned 38)]) := by
  intro hp
  have hw : Json.WellTyped (.object [("battery", .numberUnsigned 91),
      ("temperature", .numberUnsigned 38)]) := ⟨nofun, nofun, nofun⟩
  obtain ⟨robotId, sequenceId, timestampNs, hrun⟩ := exists_run hw
  obtain ⟨msg, hmsg, -⟩ := hp _ 0 [] {} _ 0 rfl hrun "temperature" (by simp [supported]) _ rfl rfl
  cases hmsg

end SecureTelemetryGateway.Ros
