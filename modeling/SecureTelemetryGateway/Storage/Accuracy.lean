import SecureTelemetryGateway.Ros.Publishing
import SecureTelemetryGateway.Storage.Resolution

/-!
# From the document to the column

A number of the document goes through a double and six decimals on its way
into the payload's text. It arrives as the nearest millionth, if a double
holds it, and larger numbers do not arrive as smaller ones.
-/

namespace SecureTelemetryGateway.Storage

open Models (TelemetryData PayloadMap)
open Ingestion
open Lib (nearestEven)
open Lib.Binary64 (decimalValue)
open Lib.JsonText

structure Accurate (parsed : Json) (text : Text) (members : List (Text × Text)) : Prop where
  object : IsObject text members
  distinct : (members.map Prod.fst).Nodup
  /-- Nothing is stored but numbers of the document, each as the nearest
  millionth of its double. -/
  stored : ∀ name number, (name, number) ∈ members →
    ∃ key value d, name = key.toList ∧ parsed.member? key = some value ∧
      value.number? = some d ∧ decimalValue number = nearestEven (d.value * 10 ^ 6) / 10 ^ 6
  near : ∀ key value q, parsed.member? key = some value → value.numberValue? = some q →
    value.HeldByDouble →
      ∃ number, (key.toList, number) ∈ members ∧ |decimalValue number - q| ≤ 1 / 2 / 10 ^ 6
  /-- The order of two numbers is kept, though they may come out equal. -/
  ordered : ∀ key value q number key' value' q' number',
    parsed.member? key = some value → value.numberValue? = some q → value.HeldByDouble →
    parsed.member? key' = some value' → value'.numberValue? = some q' → value'.HeldByDouble →
    (key.toList, number) ∈ members → (key'.toList, number') ∈ members →
      q ≤ q' → decimalValue number ≤ decimalValue number'

variable {document : List (String × Json)} {data : TelemetryData}

theorem lookup_frame (hk : (document.map Prod.fst).Nodup) (robotId : String)
    (sequenceId timestampNs : UInt64) (key : String) :
    ((Json.object document).frame robotId sequenceId timestampNs).payloadValues.lookup key =
      ((Json.object document).member? key).bind Json.number? := by
  simp only [Json.frame, Json.items, Ros.lookup_numbersInto hk, Finmap.lookup_empty, Option.or_none]
  rfl

theorem mem_members {name number : Text} (hk : (document.map Prod.fst).Nodup)
    (order : IterationOrder) (robotId : String) (sequenceId timestampNs : UInt64) :
    (name, number) ∈ (order.entries ((Json.object document).frame robotId sequenceId
        timestampNs).payloadValues).map entryText ↔
      ∃ key value d, name = key.toList ∧ (Json.object document).member? key = some value ∧
        value.number? = some d ∧ number = d.toText.toList := by
  rw [mem_map_entryText]
  constructor
  · rintro ⟨key, d, hlookup, rfl, rfl⟩
    rw [lookup_frame hk] at hlookup
    obtain ⟨value, hmember, hd⟩ := Option.bind_eq_some_iff.mp hlookup
    exact ⟨key, value, d, rfl, hmember, hd, rfl⟩
  · rintro ⟨key, value, d, rfl, hmember, hd, rfl⟩
    refine ⟨key, d, ?_, rfl, rfl⟩
    rw [lookup_frame hk, hmember]
    exact hd

theorem number_of_mem {order : IterationOrder} {key : String} {number : Text}
    (hk : (document.map Prod.fst).Nodup)
    (hmember : (Json.object document).member? key = some value)
    (hq : value.numberValue? = some q) (hheld : value.HeldByDouble)
    (hmem : (key.toList, number) ∈ (order.entries ((Json.object document).frame robotId sequenceId
      timestampNs).payloadValues).map entryText) :
    ∃ d : Double, d.value = q ∧ number = d.toText.toList := by
  obtain ⟨key', value', d', hkey, hmember', hd', rfl⟩ := (mem_members hk ..).mp hmem
  obtain rfl : key = key' := String.toList_inj.mp hkey
  obtain rfl : value = value' := Option.some.inj (hmember.symm.trans hmember')
  obtain ⟨d, hd, hvalue⟩ := Json.heldByDouble_iff.mp hheld
  obtain rfl : d = d' := Option.some.inj (hd.symm.trans hd')
  exact ⟨d, Option.some.inj (hvalue.symm.trans hq), rfl⟩

theorem storedAccurately (hk : (document.map Prod.fst).Nodup)
    (hparse : nl.parse rawJson = .ok (.object document))
    (hrun : (parseAndValidate nl now rawJson).run before = (.ok .success, data))
    (hplain : PlainKeys data.payloadValues) (order : IterationOrder) :
    ∃ members, Accurate (.object document) (payloadJson order data).toList members := by
  obtain ⟨-, robotId, sequenceId, timestampNs, rfl⟩ := frame_of_run hparse hrun
  refine ⟨_, isObject_payloadJson order hplain, nodup_names order _, ?_, ?_, ?_⟩
  · intro name number hmem
    obtain ⟨key, value, d, hname, hmember, hd, rfl⟩ := (mem_members hk ..).mp hmem
    exact ⟨key, value, d, hname, hmember, hd, Lib.Binary64.decimalValue_toText d⟩
  · intro key value q hmember hq hheld
    obtain ⟨d, hd, hvalue⟩ := Json.heldByDouble_iff.mp hheld
    obtain rfl : d.value = q := Option.some.inj (hvalue.symm.trans hq)
    exact ⟨_, (mem_members hk ..).mpr ⟨key, value, d, rfl, hmember, hd, rfl⟩,
      Lib.Binary64.abs_decimalValue_sub_le d⟩
  · intro key value q number key' value' q' number' hmember hq hheld hmember' hq' hheld' hmem hmem'
      hle
    obtain ⟨d, rfl, rfl⟩ := number_of_mem hk hmember hq hheld hmem
    obtain ⟨d', rfl, rfl⟩ := number_of_mem hk hmember' hq' hheld' hmem'
    exact Lib.Binary64.decimalValue_mono hle

theorem plainKeys_frame (hk : (document.map Prod.fst).Nodup)
    (h : ∀ m ∈ document, ∀ c ∈ m.1.toList, IsPlain c) (robotId : String)
    (sequenceId timestampNs : UInt64) :
    PlainKeys ((Json.object document).frame robotId sequenceId timestampNs).payloadValues := by
  intro key hkey
  obtain ⟨d, hlookup⟩ := Option.isSome_iff_exists.mp (Finmap.lookup_isSome.mpr hkey)
  rw [lookup_frame hk] at hlookup
  obtain ⟨value, hmember, -⟩ := Option.bind_eq_some_iff.mp hlookup
  obtain ⟨before, after, rfl, -⟩ := List.lookup_eq_some_iff.mp hmember
  exact h (key, value) (by simp)

def drifting : List (String × Json) :=
  [("battery", .numberUnsigned 91), ("drift", .numberFloat billionth)]

theorem storedAccurately_drifting :
    ∃ data members, (parseAndValidate (.always (.object drifting)) 0 []).run {} =
      (.ok .success, data) ∧
        Accurate (.object drifting) (payloadJson .byKey data).toList members := by
  have hk : (drifting.map Prod.fst).Nodup := by simp [drifting]
  have hplain : ∀ m ∈ drifting, ∀ c ∈ m.1.toList, IsPlain c := by simp [drifting, IsPlain]
  have hrun : (parseAndValidate (.always (.object drifting)) 0 []).run {} =
      (.ok .success, (Json.object drifting).frame "unknown_robot" 0 0) := rfl
  obtain ⟨members, h⟩ := storedAccurately hk rfl hrun (plainKeys_frame hk hplain _ _ _) .byKey
  exact ⟨_, members, hrun, h⟩

end SecureTelemetryGateway.Storage
