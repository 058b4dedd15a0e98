import SecureTelemetryGateway.Storage.StorageEngine
import SecureTelemetryGateway.Lib.JsonText

/-!
# The text of a payload as JSON

The loop writes keys as they are. It gives a JSON object, and the right one,
as long as no key has a character that a JSON string has to escape.
-/

namespace SecureTelemetryGateway.Storage

open Models (TelemetryData PayloadMap)
open Lib.JsonText

-- ---------------------------------------------------------------------------
-- Numbers
-- ---------------------------------------------------------------------------

theorem isDigit_sixDigits (k : Nat) : IsDigits (Lib.Binary64.sixDigits k).toList := by
  simp only [Lib.Binary64.sixDigits, String.toList_ofList]
  refine ⟨by simp, fun c hc => ?_⟩
  obtain ⟨i, -, rfl⟩ := List.mem_map.mp hc
  simpa using Nat.mod_lt _ (by decide)

theorem isNumber_toText (d : Double) : IsNumber d.toText.toList := by
  refine ⟨if d.negative then ['-'] else [], Nat.toDigits 10 (d.millionths / 10 ^ 6),
    '.' :: (Lib.Binary64.sixDigits (d.millionths % 10 ^ 6)).toList, [], ?_, ?_,
    isInt_toDigits _, .inr ⟨_, rfl, isDigit_sixDigits _⟩, .inl rfl⟩
  · cases hn : d.negative <;> simp [Lib.Binary64.toText, hn]
  · cases d.negative <;> simp

-- ---------------------------------------------------------------------------
-- The loop
-- ---------------------------------------------------------------------------

def entryText (entry : String × Double) : Text × Text := (entry.1.toList, entry.2.toText.toList)

theorem appendMembers_rest (payloadJson : String) (entries : List (String × Double)) :
    (appendMembers false payloadJson entries).toList =
      payloadJson.toList ++ (entries.map entryText).flatMap fun m => ',' :: memberText m := by
  induction entries generalizing payloadJson with
  | nil => simp [appendMembers]
  | cons entry rest ih =>
    obtain ⟨key, value⟩ := entry
    simp [appendMembers, ih, entryText, memberText]

theorem appendMembers_first (payloadJson : String) (entry : String × Double)
    (entries : List (String × Double)) :
    (appendMembers true payloadJson (entry :: entries)).toList =
      payloadJson.toList ++ (memberText (entryText entry) ++
        (entries.map entryText).flatMap fun m => ',' :: memberText m) := by
  obtain ⟨key, value⟩ := entry
  simp [appendMembers, appendMembers_rest, entryText, memberText]

theorem payloadJson_nil (h : order.entries data.payloadValues = []) :
    (payloadJson order data).toList = ['\x7b', '\x7d'] := by
  simp [payloadJson, h, appendMembers]

theorem payloadJson_cons (h : order.entries data.payloadValues = entry :: entries) :
    (payloadJson order data).toList =
      '\x7b' :: (memberText (entryText entry) ++
        (entries.map entryText).flatMap fun m => ',' :: memberText m) ++ ['\x7d'] := by
  simp [payloadJson, h, appendMembers_first]

theorem length_payloadJson (h : order.entries data.payloadValues ≠ []) :
    (payloadJson order data).toList.length =
      weight ((order.entries data.payloadValues).map entryText) + 1 := by
  obtain ⟨entry, entries, hentries⟩ := List.exists_cons_of_ne_nil h
  rw [payloadJson_cons hentries, hentries, List.map_cons, weight_cons]
  simp only [List.length_append, List.length_cons, List.length_nil, length_memberText,
    length_flatMap_memberText]
  omega

-- ---------------------------------------------------------------------------
-- The object that is written
-- ---------------------------------------------------------------------------

theorem mem_map_entryText (order : IterationOrder) (m : PayloadMap) :
    (name, text) ∈ (order.entries m).map entryText ↔
      ∃ key value, m.lookup key = some value ∧ name = key.toList ∧ text = value.toText.toList := by
  simp only [List.mem_map, Prod.exists, order.mem_entries, entryText, Prod.mk.injEq,
    eq_comm (a := name), eq_comm (a := text)]

theorem nodup_keys (order : IterationOrder) (m : PayloadMap) :
    ((order.entries m).map Prod.fst).Nodup := by
  refine (order.nodup m).map_on ?_
  rintro ⟨key, value⟩ hmem ⟨key', value'⟩ hmem' hkey
  obtain rfl : key = key' := hkey
  have hvalue := ((order.mem_entries m key value).mp hmem).symm.trans
    ((order.mem_entries m key value').mp hmem')
  rw [Option.some.inj hvalue]

theorem nodup_names (order : IterationOrder) (m : PayloadMap) :
    (((order.entries m).map entryText).map Prod.fst).Nodup := by
  have hnames : ((order.entries m).map entryText).map Prod.fst =
      ((order.entries m).map Prod.fst).map String.toList := by
    rw [List.map_map, List.map_map]
    rfl
  rw [hnames]
  exact (nodup_keys order m).map fun _ _ h => String.toList_inj.mp h

def FaithfulPayload (order : IterationOrder) (data : TelemetryData) : Prop :=
  ∃ members, IsObject (payloadJson order data).toList members ∧ (members.map Prod.fst).Nodup ∧
    ∀ name text, (name, text) ∈ members ↔ ∃ key value,
      data.payloadValues.lookup key = some value ∧ name = key.toList ∧ text = value.toText.toList

def PlainKeys (m : PayloadMap) : Prop := ∀ key ∈ m, ∀ c ∈ key.toList, IsPlain c

theorem FaithfulPayload.plainKeys (h : FaithfulPayload order data) :
    PlainKeys data.payloadValues := by
  obtain ⟨members, hobject, hnodup, hmem⟩ := h
  have hperm : members.Perm ((order.entries data.payloadValues).map entryText) := by
    refine (List.perm_ext_iff_of_nodup hnodup.of_map (nodup_names _ _).of_map).mpr ?_
    rintro ⟨name, text⟩
    rw [hmem, mem_map_entryText]
  intro key hkey
  obtain ⟨value, hvalue⟩ := Option.isSome_iff_exists.mp (Finmap.lookup_isSome.mpr hkey)
  have hentry := (order.mem_entries _ key value).mpr hvalue
  have hlength := length_payloadJson (List.ne_nil_of_mem hentry)
  rw [← weight_perm hperm] at hlength
  exact hobject.plain hlength.le _ ((hmem key.toList value.toText.toList).mpr
    ⟨key, value, hvalue, rfl, rfl⟩)

theorem isObject_payloadJson (order : IterationOrder) (h : PlainKeys data.payloadValues) :
    IsObject (payloadJson order data).toList
      ((order.entries data.payloadValues).map entryText) := by
  have hplain : ∀ m ∈ (order.entries data.payloadValues).map entryText,
      (∀ c ∈ m.1, IsPlain c) ∧ IsValue m.2 := by
    intro m hm
    obtain ⟨⟨key, value⟩, hentry, rfl⟩ := List.mem_map.mp hm
    have hlookup := (order.mem_entries _ key value).mp hentry
    exact ⟨h key (Finmap.lookup_isSome.mp (by simp [hlookup])), .number (isNumber_toText value)⟩
  cases hentries : order.entries data.payloadValues with
  | nil =>
    exact ⟨[], [], [], payloadJson_nil hentries, isWhitespace_nil, isWhitespace_nil,
      .inl ⟨isWhitespace_nil, rfl⟩⟩
  | cons entry entries =>
    rw [hentries] at hplain
    exact ⟨[], _, [], payloadJson_cons hentries, isWhitespace_nil, isWhitespace_nil,
      .inr (Members.of_plain hplain)⟩

theorem faithfulPayload_iff (order : IterationOrder) (data : TelemetryData) :
    FaithfulPayload order data ↔ PlainKeys data.payloadValues := by
  constructor
  · exact FaithfulPayload.plainKeys
  · intro h
    exact ⟨_, isObject_payloadJson order h, nodup_names order _,
      fun _ _ => mem_map_entryText order _⟩

theorem entries_singleton (order : IterationOrder) (key : String) (value : Double) :
    order.entries (Finmap.singleton key value) = [(key, value)] := by
  refine List.perm_singleton.mp ((List.perm_ext_iff_of_nodup (order.nodup _)
    (List.nodup_singleton _)).mpr ?_)
  rintro ⟨key', value'⟩
  rw [order.mem_entries, List.mem_singleton, Prod.mk.injEq]
  constructor
  · intro h
    have hmem : key' ∈ (Finmap.singleton key value : PayloadMap) :=
      Finmap.lookup_isSome.mp (by rw [h]; rfl)
    obtain rfl := (Finmap.mem_singleton _ _ _).mp hmem
    exact ⟨rfl, (Option.some.inj (Finmap.lookup_singleton_eq.symm.trans h)).symm⟩
  · rintro ⟨rfl, rfl⟩
    exact Finmap.lookup_singleton_eq

def forgedFrame : TelemetryData where
  robotId := "unknown_robot"
  sensorType := "generic"
  payloadValues := Finmap.singleton "x\":1,\"battery" (Lib.Binary64.ofUInt64 5)

/-- The stored object has a battery reading, and an `x`, that no sender gave. -/
theorem faithfulPayload_fails :
    payloadJson .byKey forgedFrame = "\x7b\"x\":1,\"battery\":5.000000\x7d" ∧
      ¬FaithfulPayload .byKey forgedFrame := by
  constructor
  · rw [payloadJson, forgedFrame, entries_singleton]
    rfl
  · intro h
    have hplain := h.plainKeys "x\":1,\"battery" ((Finmap.mem_singleton _ _ _).mpr rfl) '\x22'
      (by decide)
    exact absurd hplain (by decide)

end SecureTelemetryGateway.Storage
