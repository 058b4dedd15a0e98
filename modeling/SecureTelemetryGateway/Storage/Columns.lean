import SecureTelemetryGateway.Ingestion.Numbers
import SecureTelemetryGateway.Storage.Insertion

/-!
# The integer columns

A timestamp and a sequence number pass through `uint64_t` into signed columns.
Neither step checks its range, and the parser checks none before.
-/

namespace SecureTelemetryGateway.Storage

open Models (TelemetryData)
open Ingestion (Json JsonError Nlohmann parseAndValidate)

-- ---------------------------------------------------------------------------
-- The rows of a frame
-- ---------------------------------------------------------------------------

namespace StorageEngine

def insertedRows (e : StorageEngine) : List Row := e.table ++ e.transaction.getD []

variable {e e' : StorageEngine} {order : IterationOrder}

theorem insertedRows_writeRow (h : e.writeRow order o data = some (true, e')) :
    e'.insertedRows = e.insertedRows ++ [rowOf order data] := by
  obtain ⟨-, -, hnone, hsome⟩ := writeRow_spec h
  cases ht : e.transaction with
  | none =>
    obtain ⟨ht', htable⟩ := hnone ht
    simp [insertedRows, ht, ht', htable]
  | some pending =>
    obtain ⟨htable, ht'⟩ := hsome pending ht
    simp [insertedRows, ht, ht' rfl, htable]

theorem insertedRows_insertTelemetry (h : e.insertTelemetry order o data = some (true, e')) :
    e'.insertedRows = (e.ensureInitialized o).insertedRows ++ [rowOf order data] := by
  rcases insertTelemetry_cases h with ⟨hfalse, -⟩ | hw
  · cases hfalse
  · exact insertedRows_writeRow hw

end StorageEngine

open StorageEngine

/-- The row that an insertion, alone or in a batch, puts in the frame's
place. -/
inductive StoredAs (data : TelemetryData) : Row → Prop
  | alone {e e' : StorageEngine} : e.insertTelemetry order o data = some (true, e') →
      e'.insertedRows = rest ++ [row] → StoredAs data row
  | batch {e e' : StorageEngine} :
      e.insertBatch order o (before ++ data :: after) = some (true, e') →
      e'.table = rest ++ rows ++ row :: rows' → rows.length = before.length →
      rows'.length = after.length → StoredAs data row

theorem StoredAs.eq_rowOf (h : StoredAs data row) : ∃ order, row = rowOf order data := by
  cases h with
  | @alone order o rest row e e' hinsert hrow =>
    rw [insertedRows_insertTelemetry hinsert] at hrow
    have hlast := List.append_inj_right' hrow rfl
    exact ⟨order, (List.cons.inj hlast).1.symm⟩
  | @batch order o before after rest rows row rows' e e' hinsert hrow hbefore hafter =>
    rw [insertBatch_spec hinsert, List.map_append, List.map_cons, ← List.append_assoc] at hrow
    have hlast := List.append_inj_right' hrow (by simp [hafter])
    exact ⟨order, (List.cons.inj hlast).1.symm⟩

theorem storedAs_rowOf (data : TelemetryData) : StoredAs data (rowOf .byKey data) := by
  have hinsert : ({} : StorageEngine).insertTelemetry .byKey {} data = some (true, _) := rfl
  exact .alone hinsert (insertedRows_insertTelemetry hinsert)

-- ---------------------------------------------------------------------------
-- Against the document
-- ---------------------------------------------------------------------------

structure Keeps (parsed : Json) (row : Row) : Prop where
  timestampNs : ∀ q, parsed.numberAt? "timestamp_ns" = some q → (row.timestampNs.toInt : ℚ) = q
  sequenceId : ∀ q, parsed.numberAt? "sequence_id" = some q → (row.sequenceId.toInt : ℚ) = q

/-- The row is what becomes of the document: of a text of it, at any time, with
any library and from any output. -/
def RowOfDocument (parsed : Json) (row : Row) : Prop :=
  ∃ (nl : Nlohmann) (now : UInt64) (rawJson : Bytes) (before data : TelemetryData),
    nl.parse rawJson = .ok parsed ∧
      (parseAndValidate nl now rawJson).run before = (.ok .success, data) ∧ StoredAs data row

def ColumnsKept (parsed : Json) : Prop := ∀ row, RowOfDocument parsed row → Keeps parsed row

def OrderKept (parsed parsed' : Json) : Prop :=
  ∀ row row' q q', RowOfDocument parsed row → RowOfDocument parsed' row' →
    parsed.numberAt? "timestamp_ns" = some q → parsed'.numberAt? "timestamp_ns" = some q' →
    (row.timestampNs < row'.timestampNs ↔ q < q')

def FitsColumns (parsed : Json) : Prop :=
  parsed.WellTyped → parsed.FitsAt "timestamp_ns" ∧ parsed.FitsAt "sequence_id"

variable {parsed parsed' : Json}

theorem RowOfDocument.columns (h : RowOfDocument parsed row) :
    ∃ nl now sequenceId timestampNs, parsed.WellTyped ∧
      parsed.uint64Or nl "sequence_id" 0 = .ok sequenceId ∧
      parsed.uint64Or nl "timestamp_ns" now = .ok timestampNs ∧
      row.sequenceId = sequenceId.toInt64 ∧ row.timestampNs = timestampNs.toInt64 := by
  obtain ⟨nl, now, rawJson, before, data, hparse, hrun, hstored⟩ := h
  obtain ⟨hw, robotId, sequenceId, timestampNs, hseq, hts, rfl⟩ := Ingestion.read_of_run hparse hrun
  obtain ⟨order, rfl⟩ := hstored.eq_rowOf
  exact ⟨nl, now, sequenceId, timestampNs, hw, hseq, hts, rfl, rfl⟩

theorem exists_row (hw : parsed.WellTyped) :
    ∃ (parse : Bytes → Except JsonError Json) (row : Row) (sequenceId timestampNs : UInt64),
      RowOfDocument parsed row ∧
      parsed.uint64Or ⟨parse, fun _ => 0⟩ "sequence_id" 0 = .ok sequenceId ∧
      parsed.uint64Or ⟨parse, fun _ => 0⟩ "timestamp_ns" 0 = .ok timestampNs ∧
      row.sequenceId = sequenceId.toInt64 ∧ row.timestampNs = timestampNs.toInt64 := by
  let nl := Nlohmann.always parsed
  have hparse : nl.parse [] = .ok parsed := rfl
  obtain ⟨robotId, sequenceId, timestampNs, hseq, hts, hrun⟩ := Ingestion.run_wellTyped 0 hparse hw
  exact ⟨nl.parse, _, sequenceId, timestampNs,
    ⟨nl, 0, [], {}, _, hparse, hrun {}, storedAs_rowOf _⟩, hseq, hts, rfl, rfl⟩

theorem columnsKept_of_fits (hf : FitsColumns parsed) : ColumnsKept parsed := by
  intro row hrow
  obtain ⟨nl, now, sequenceId, timestampNs, hw, hseq, hts, hcol, hcol'⟩ := hrow.columns
  obtain ⟨hfits, hfits'⟩ := hf hw
  constructor
  · intro q hq
    rw [hcol']
    exact hfits.kept hts hq
  · intro q hq
    rw [hcol]
    exact hfits'.kept hseq hq

theorem fits_of_columnsKept (hk : ColumnsKept parsed) : FitsColumns parsed := by
  intro hw
  obtain ⟨parse, row, sequenceId, timestampNs, hrow, hseq, hts, hcol, hcol'⟩ := exists_row hw
  obtain ⟨htimestamp, hsequence⟩ := hk row hrow
  rw [hcol'] at htimestamp
  rw [hcol] at hsequence
  exact ⟨Json.fitsAt_of_kept hw.timestampNs hts htimestamp,
    Json.fitsAt_of_kept hw.sequenceId hseq hsequence⟩

theorem orderKept_of_kept (hk : ColumnsKept parsed) (hk' : ColumnsKept parsed') :
    OrderKept parsed parsed' := by
  intro row row' q q' hrow hrow' hq hq'
  rw [Int64.lt_iff_toInt_lt, ← Int.cast_lt (R := ℚ), (hk row hrow).timestampNs q hq,
    (hk' row' hrow').timestampNs q' hq']

theorem columnsKept_iff (parsed : Json) :
    (ColumnsKept parsed ↔ FitsColumns parsed) ∧
      (FitsColumns parsed → ∀ parsed', FitsColumns parsed' → OrderKept parsed parsed') :=
  ⟨⟨fits_of_columnsKept, columnsKept_of_fits⟩,
    fun hf _ hf' => orderKept_of_kept (columnsKept_of_fits hf) (columnsKept_of_fits hf')⟩

def onlyTimestamp (u : UInt64) : Json := .object [("timestamp_ns", .numberUnsigned u)]

theorem exists_row_onlyTimestamp (u : UInt64) :
    ∃ row, RowOfDocument (onlyTimestamp u) row ∧ row.timestampNs = u.toInt64 := by
  have hw : (onlyTimestamp u).WellTyped := ⟨nofun, nofun, fun _ => rfl⟩
  obtain ⟨parse, row, sequenceId, timestampNs, hrow, -, hts, -, hcol⟩ := exists_row hw
  cases hts
  exact ⟨row, hrow, hcol⟩

/-- 2 to the 63rd is stored as a negative number, before 0. -/
theorem columnsKept_fails :
    ¬ColumnsKept (onlyTimestamp 9223372036854775808) ∧
      ¬OrderKept (onlyTimestamp 0) (onlyTimestamp 9223372036854775808) := by
  obtain ⟨row, hrow, hcol⟩ := exists_row_onlyTimestamp 0
  obtain ⟨row', hrow', hcol'⟩ := exists_row_onlyTimestamp 9223372036854775808
  constructor
  · intro hk
    have h := (hk row' hrow').timestampNs _ rfl
    rw [hcol'] at h
    exact absurd h (by decide)
  · intro ho
    have h := (ho row row' _ _ hrow hrow' rfl rfl).mpr (by decide)
    rw [hcol, hcol'] at h
    exact absurd h (by decide)

end SecureTelemetryGateway.Storage
