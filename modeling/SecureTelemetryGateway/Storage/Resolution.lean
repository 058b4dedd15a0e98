import SecureTelemetryGateway.Lib.Decimal
import SecureTelemetryGateway.Storage.PayloadText

/-!
# What the text of a payload tells

A value is written with six decimals. Two texts of one payload with different
values for a key differ exactly where the six decimals or the signs do.
-/

namespace SecureTelemetryGateway.Storage

open Models (TelemetryData PayloadMap)
open Lib (nearestEven)
open Lib.JsonText (memberText)

def withValue (data : TelemetryData) (key : String) (value : Double) : TelemetryData :=
  { data with payloadValues := data.payloadValues.insert key value }

def SameOrder (order : IterationOrder) (data : TelemetryData) (key : String) (v w : Double) :
    Prop :=
  (order.entries (withValue data key v).payloadValues).map Prod.fst =
    (order.entries (withValue data key w).payloadValues).map Prod.fst

-- ---------------------------------------------------------------------------
-- Entries in the order of their keys
-- ---------------------------------------------------------------------------

def entriesOf (m : PayloadMap) (keys : List String) : List (String × Double) :=
  keys.filterMap fun key => (m.lookup key).map (key, ·)

theorem entries_eq (order : IterationOrder) (m : PayloadMap) :
    order.entries m = entriesOf m ((order.entries m).map Prod.fst) := by
  have hlookup : ∀ entry ∈ order.entries m, m.lookup entry.1 = some entry.2 :=
    fun entry hmem => (order.mem_entries m entry.1 entry.2).mp hmem
  generalize order.entries m = entries at hlookup ⊢
  induction entries with
  | nil => rfl
  | cons entry rest ih =>
    simp only [entriesOf, List.map_cons, List.filterMap_cons, hlookup entry List.mem_cons_self,
      Option.map_some]
    rw [← entriesOf, ← ih fun entry' hmem => hlookup entry' (List.mem_cons_of_mem _ hmem)]

variable {key : String}

theorem entriesOf_insert (m : PayloadMap) (value : Double) (h : key ∉ keys) :
    entriesOf (m.insert key value) keys = entriesOf m keys := by
  refine List.filterMap_congr fun key' hmem => ?_
  rw [Finmap.lookup_insert_of_ne _ (ne_of_mem_of_not_mem hmem h)]

theorem exists_entries (h : SameOrder order data key v w) :
    ∃ before after,
      order.entries (withValue data key v).payloadValues = before ++ (key, v) :: after ∧
      order.entries (withValue data key w).payloadValues = before ++ (key, w) :: after := by
  have hmem : key ∈ (order.entries (withValue data key v).payloadValues).map Prod.fst :=
    List.mem_map_of_mem (f := Prod.fst)
      ((order.mem_entries _ key v).mpr (Finmap.lookup_insert _))
  have hnodup := nodup_keys order (withValue data key v).payloadValues
  have hv := entries_eq order (withValue data key v).payloadValues
  have hw := entries_eq order (withValue data key w).payloadValues
  rw [← h] at hw
  obtain ⟨keys, keys', hkeys⟩ := List.append_of_mem hmem
  rw [hkeys] at hv hw hnodup
  obtain ⟨hnotMem', hnotMem⟩ : key ∉ keys ∧ key ∉ keys' := by
    rw [List.nodup_middle, List.nodup_cons, List.mem_append, not_or] at hnodup
    exact hnodup.1
  have hsplit : ∀ x, entriesOf (withValue data key x).payloadValues (keys ++ key :: keys') =
      entriesOf data.payloadValues keys ++ (key, x) :: entriesOf data.payloadValues keys' := by
    intro x
    rw [← entriesOf_insert data.payloadValues x hnotMem,
      ← entriesOf_insert data.payloadValues x hnotMem']
    simp [entriesOf, withValue]
  exact ⟨_, _, hv.trans (hsplit v), hw.trans (hsplit w)⟩

-- ---------------------------------------------------------------------------
-- The text around one value
-- ---------------------------------------------------------------------------

theorem exists_context (order : IterationOrder) (before after : List (String × Double))
    (key : String) :
    ∃ a b, ∀ (data : TelemetryData) (value : Double),
      order.entries data.payloadValues = before ++ (key, value) :: after →
      (payloadJson order data).toList = a ++ value.toText.toList ++ b := by
  cases before with
  | nil =>
    refine ⟨'\x7b' :: '\x22' :: key.toList ++ ['\x22', ':'],
      ((after.map entryText).flatMap fun m => ',' :: memberText m) ++ ['\x7d'], ?_⟩
    intro data value h
    rw [payloadJson_cons h]
    simp [memberText, entryText]
  | cons entry before =>
    refine ⟨'\x7b' :: memberText (entryText entry) ++
        ((before.map entryText).flatMap fun m => ',' :: memberText m) ++
        ',' :: '\x22' :: key.toList ++ ['\x22', ':'],
      ((after.map entryText).flatMap fun m => ',' :: memberText m) ++ ['\x7d'], ?_⟩
    intro data value h
    rw [payloadJson_cons h]
    simp [memberText, entryText]

/-- The texts differ where the values have different signs, or magnitudes that
round to different six decimals. -/
theorem distinguishable_iff (h : SameOrder order data key v w) :
    payloadJson order (withValue data key v) ≠ payloadJson order (withValue data key w) ↔
      v.negative ≠ w.negative ∨
        nearestEven (|v.value| * 10 ^ 6) ≠ nearestEven (|w.value| * 10 ^ 6) := by
  obtain ⟨before, after, hv, hw⟩ := exists_entries h
  obtain ⟨a, b, htext⟩ := exists_context order before after key
  have htexts : payloadJson order (withValue data key v) =
      payloadJson order (withValue data key w) ↔ v.toText = w.toText := by
    rw [← String.toList_inj, htext _ v hv, htext _ w hw, List.append_left_inj,
      List.append_right_inj, String.toList_inj]
  rw [← Lib.Binary64.millionths_eq, ← Lib.Binary64.millionths_eq, Ne, htexts,
    Lib.Binary64.toText_inj, Ne, Ne, Nat.cast_inj]
  exact Classical.not_and_iff_not_or_not

theorem entries_one (order : IterationOrder) (key : String) (value : Double) :
    order.entries (withValue {} key value).payloadValues = [(key, value)] :=
  entries_singleton order key value

theorem sameOrder_one (order : IterationOrder) (key : String) (v w : Double) :
    SameOrder order {} key v w := by
  rw [SameOrder, entries_one, entries_one]
  rfl

theorem distinguishable_integers :
    payloadJson .byKey (withValue {} "battery" (Lib.Binary64.ofUInt64 24)) ≠
      payloadJson .byKey (withValue {} "battery" (Lib.Binary64.ofUInt64 25)) := by
  refine (distinguishable_iff (sameOrder_one .byKey "battery" _ _)).mpr (.inr ?_)
  rw [← Lib.Binary64.millionths_eq, ← Lib.Binary64.millionths_eq]
  decide

/-- 2 to the power of -30. -/
def billionth : Double where
  negative := false
  significand := 0x10000000000000
  exponent := -82
  fits := by decide
  range := by decide
  normal := by decide

def halfBillionth : Double :=
  { billionth with exponent := -83, range := by decide, normal := by decide }

theorem distinguishable_fails :
    billionth.value ≠ halfBillionth.value ∧
      SameOrder .byKey {} "battery" billionth halfBillionth ∧
      payloadJson .byKey (withValue {} "battery" billionth) =
        payloadJson .byKey (withValue {} "battery" halfBillionth) := by
  refine ⟨?_, sameOrder_one .byKey "battery" _ _, ?_⟩
  · norm_num [Lib.Binary64.value, billionth, halfBillionth]
  · rw [payloadJson, payloadJson, entries_one, entries_one]
    rfl

end SecureTelemetryGateway.Storage
