import SecureTelemetryGateway.Storage.Columns
import SecureTelemetryGateway.Storage.PayloadText
import Mathlib.Data.List.TakeWhile

/-!
# The text columns

Texts are bound as C strings. A JSON document can put a NUL into an identity or
into a key, and the column ends there.
-/

namespace SecureTelemetryGateway.Storage

open Models (TelemetryData)
open Ingestion (Json Nlohmann parseAndValidate)
open StorageEngine
open Lib.JsonText (memberText)

-- ---------------------------------------------------------------------------
-- Texts without a NUL
-- ---------------------------------------------------------------------------

def NulFree (s : String) : Prop := ∀ c ∈ s.toList, c ≠ '\x00'

instance (s : String) : Decidable (NulFree s) := List.decidableBAll (· ≠ '\x00') s.toList

theorem cText_eq_self_iff : cText s = s ↔ NulFree s := by
  rw [cText, ← String.toList_inj, String.toList_ofList, List.takeWhile_eq_self_iff]
  simp [NulFree]

theorem nulFree_toText (d : Double) : NulFree d.toText := by
  intro c hc
  have hdigit : ∀ c : Char, c.isDigit → c ≠ '\x00' := by
    rintro c h rfl
    cases h
  simp only [Lib.Binary64.toText, String.toList_append, List.mem_append] at hc
  rcases hc with ((hc | hc) | hc) | hc
  · cases hn : d.negative <;> simp [hn] at hc
    simp [hc]
  · have hmem : c ∈ Nat.toDigits 10 (d.millionths / 10 ^ 6) := by simpa using hc
    exact hdigit c (Nat.isDigit_of_mem_toDigits (by decide) (by decide) hmem)
  · obtain rfl : c = '.' := by simpa using hc
    decide
  · exact hdigit c ((isDigit_sixDigits _).2 c hc)

theorem nulFree_memberText (entry : String × Double) :
    (∀ c ∈ memberText (entryText entry), c ≠ '\x00') ↔ NulFree entry.1 := by
  simp only [memberText, entryText, List.cons_append, List.forall_mem_cons,
    List.forall_mem_append]
  constructor
  · exact fun h => h.2.1
  · exact fun h => ⟨by decide, h, by decide, by decide, nulFree_toText entry.2⟩

theorem forall_entries_iff (order : IterationOrder) (m : Models.PayloadMap) (P : String → Prop) :
    (∀ entry ∈ order.entries m, P entry.1) ↔ ∀ key ∈ m, P key := by
  constructor
  · intro h key hkey
    obtain ⟨value, hvalue⟩ := Option.isSome_iff_exists.mp (Finmap.lookup_isSome.mpr hkey)
    exact h (key, value) ((order.mem_entries _ key value).mpr hvalue)
  · rintro h ⟨key, value⟩ hentry
    have hlookup := (order.mem_entries m key value).mp hentry
    exact h key (Finmap.lookup_isSome.mp (by rw [hlookup]; rfl))

theorem nulFree_payloadJson_iff (order : IterationOrder) (data : TelemetryData) :
    NulFree (payloadJson order data) ↔ ∀ key ∈ data.payloadValues, NulFree key := by
  rw [← forall_entries_iff order]
  cases hentries : order.entries data.payloadValues with
  | nil => simp [NulFree, payloadJson_nil hentries]
  | cons entry entries =>
    rw [NulFree, payloadJson_cons hentries]
    simp only [List.cons_append, List.forall_mem_cons, List.forall_mem_append,
      List.forall_mem_flatMap, List.forall_mem_map, nulFree_memberText]
    constructor
    · exact fun h => ⟨h.2.1.1, fun entry hmem => (h.2.1.2 entry hmem).2⟩
    · exact fun h => ⟨by decide, ⟨h.1, fun entry hmem => ⟨by decide, h.2 entry hmem⟩⟩, by simp⟩

-- ---------------------------------------------------------------------------
-- The columns of a frame
-- ---------------------------------------------------------------------------

def Produced (data : TelemetryData) : Prop :=
  ∃ (nl : Nlohmann) (now : UInt64) (rawJson : Bytes) (before : TelemetryData),
    (parseAndValidate nl now rawJson).run before = (.ok .success, data)

structure KeepsText (order : IterationOrder) (data : TelemetryData) (row : Row) : Prop where
  robotId : row.robotId = data.robotId
  sensorType : row.sensorType = data.sensorType
  payloadJson : row.payloadJson = payloadJson order data

structure TextKept (order : IterationOrder) (data : TelemetryData) : Prop where
  alone : ∀ o e e', StorageEngine.insertTelemetry order o data e = some (true, e') →
    ∃ row, e'.insertedRows = (e.ensureInitialized o).insertedRows ++ [row] ∧
      KeepsText order data row
  batch : ∀ o e e' before after,
    StorageEngine.insertBatch order o (before ++ data :: after) e = some (true, e') →
    ∃ rows row rows', e'.table = e.table ++ rows ++ row :: rows' ∧ rows.length = before.length ∧
      rows'.length = after.length ∧ KeepsText order data row

theorem keepsText_rowOf_iff : KeepsText order data (rowOf order data) ↔
    NulFree data.robotId ∧ NulFree data.sensorType ∧ NulFree (payloadJson order data) := by
  simp only [← cText_eq_self_iff]
  exact ⟨fun h => ⟨h.robotId, h.sensorType, h.payloadJson⟩, fun h => ⟨h.1, h.2.1, h.2.2⟩⟩

theorem textKept_iff_rowOf : TextKept order data ↔ KeepsText order data (rowOf order data) := by
  constructor
  · intro h
    have hinsert : ({} : StorageEngine).insertTelemetry order {} data = some (true, _) := rfl
    obtain ⟨row, hrows, hrow⟩ := h.alone _ _ _ hinsert
    rw [insertedRows_insertTelemetry hinsert] at hrows
    obtain rfl : rowOf order data = row := (List.cons.inj (List.append_inj_right' hrows rfl)).1
    exact hrow
  · intro h
    constructor
    · intro o e e' hinsert
      exact ⟨_, insertedRows_insertTelemetry hinsert, h⟩
    · intro o e e' before after hinsert
      refine ⟨before.map (rowOf order), _, after.map (rowOf order), ?_, List.length_map ..,
        List.length_map .., h⟩
      rw [insertBatch_spec hinsert, List.map_append, List.map_cons, List.append_assoc]

theorem nulFree_sensorType (parsed : Json) : NulFree parsed.sensorType := by
  unfold Json.sensorType
  split
  · decide
  · split
    · decide
    · split <;> decide

/-- The columns keep the texts of a frame that was parsed where neither its
identity nor a key has a NUL, and identities kept are kept apart. -/
theorem textKept_iff (order : IterationOrder) (h : Produced data) :
    (TextKept order data ↔
      NulFree data.robotId ∧ ∀ key ∈ data.payloadValues, NulFree key) ∧
    (NulFree data.robotId → ∀ data', Produced data' → NulFree data'.robotId →
      data.robotId ≠ data'.robotId → ∀ row row', StoredAs data row → StoredAs data' row' →
        row.robotId ≠ row'.robotId) := by
  constructor
  · obtain ⟨nl, now, rawJson, before, hrun⟩ := h
    obtain ⟨parsed, -, -, robotId, sequenceId, timestampNs, -, -, rfl⟩ :=
      Ingestion.run_success hrun
    have htype : NulFree (parsed.frame robotId sequenceId timestampNs).sensorType :=
      nulFree_sensorType parsed
    rw [textKept_iff_rowOf, keepsText_rowOf_iff, nulFree_payloadJson_iff]
    simp [htype]
  · intro hfree data' _ hfree' hne row row' hrow hrow' heq
    obtain ⟨_, rfl⟩ := hrow.eq_rowOf
    obtain ⟨_, rfl⟩ := hrow'.eq_rowOf
    rw [rowOf, rowOf, cText_eq_self_iff.mpr hfree, cText_eq_self_iff.mpr hfree'] at heq
    exact hne heq

def identified (robotId : String) : TelemetryData where
  robotId
  sensorType := "generic"

theorem produced_identified (robotId : String) : Produced (identified robotId) :=
  ⟨.always (.object [("client_id", .string robotId)]), 0, [], {}, rfl⟩

theorem textKept_amr : TextKept .byKey (identified "amr_robot_01") :=
  (textKept_iff .byKey (produced_identified "amr_robot_01")).1.mpr
    ⟨by decide, fun key hkey => absurd hkey (Finmap.notMem_empty)⟩

theorem textKept_fails :
    Produced (identified "amr\x00a") ∧ Produced (identified "amr\x00b") ∧
      ¬TextKept .byKey (identified "amr\x00a") ∧
      ∃ row row', StoredAs (identified "amr\x00a") row ∧ StoredAs (identified "amr\x00b") row' ∧
        row.robotId = row'.robotId := by
  refine ⟨produced_identified _, produced_identified _, fun h => ?_, _, _, storedAs_rowOf _,
    storedAs_rowOf _, by decide⟩
  have hrow := textKept_iff_rowOf.mp h
  exact absurd (keepsText_rowOf_iff.mp hrow).1 (by decide)

end SecureTelemetryGateway.Storage
