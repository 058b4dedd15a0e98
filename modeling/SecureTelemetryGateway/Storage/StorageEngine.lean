import SecureTelemetryGateway.Storage.Sqlite
import Mathlib.Data.Finset.Sort
import Mathlib.Data.String.Basic

/-!
# The storage engine

`storage_engine.cpp`. Each public function is given whole, for one caller, and
its critical section apart, for interleavings. `none` is a crash:
`sqlite3_clear_bindings` of a null statement. The parent directory is created
before the open, whose outcome is an argument; log lines are left out.
-/

namespace SecureTelemetryGateway.Storage

open Models (TelemetryData PayloadMap)

/-- An order in which a loop may visit the entries of an `unordered_map`. -/
structure IterationOrder where
  entries : PayloadMap → List (String × Double)
  nodup : ∀ m, (entries m).Nodup
  mem_entries : ∀ m key value, (key, value) ∈ entries m ↔ m.lookup key = some value

def IterationOrder.byKey : IterationOrder where
  entries m := (m.keys.sort (· ≤ ·)).filterMap fun key => (m.lookup key).map (key, ·)
  nodup m := by
    refine (Finset.sort_nodup _ _).filterMap ?_
    intro key key' entry h h'
    obtain ⟨_, -, rfl⟩ := Option.map_eq_some_iff.mp (Option.mem_def.mp h)
    obtain ⟨_, -, heq⟩ := Option.map_eq_some_iff.mp (Option.mem_def.mp h')
    exact (congrArg Prod.fst heq).symm
  mem_entries m key value := by
    have hkey : m.lookup key = some value → key ∈ m := fun h => by
      rw [← Finmap.lookup_isSome, h]; rfl
    simp only [List.mem_filterMap, Finset.mem_sort, Finmap.mem_keys, Option.map_eq_some_iff,
      Prod.mk.injEq]
    constructor
    · rintro ⟨_, -, _, h, rfl, rfl⟩
      exact h
    · intro h
      exact ⟨key, hkey h, value, h, rfl, rfl⟩

inductive HandleCall
  | opened (connection : Nat)
  | prepared (connection : Nat)
  | finalized (connection : Nat)
  | closed (connection : Nat)
  deriving DecidableEq

/-- The engine with the table it writes to. `opened` counts the connections
handed out so far, `handleCalls` is what was done with them. -/
structure StorageEngine where
  table : List Row := []
  opened : Nat := 0
  handleCalls : List HandleCall := []
  db : Option Connection := none
  insertStmt : Option Statement := none
  initFlag : Bool := false
  isInitialized : Bool := false
  initFailed : Bool := false

-- ---------------------------------------------------------------------------
-- The text of a payload
-- ---------------------------------------------------------------------------

/-- The loop over the entries; `first` says that none has been written. -/
def appendMembers (first : Bool) (payloadJson : String) : List (String × Double) → String
  | [] => payloadJson
  | (key, value) :: rest =>
    let payloadJson := if first then payloadJson else payloadJson ++ ","
    appendMembers false (payloadJson ++ ("\"" ++ key ++ "\":" ++ value.toText)) rest

def payloadJson (order : IterationOrder) (data : TelemetryData) : String :=
  appendMembers true "\x7b" (order.entries data.payloadValues) ++ "\x7d"

def bindFrame (order : IterationOrder) (data : TelemetryData) (stmt : Statement) : Statement :=
  stmt.clearBindings
    |>.bindText 1 data.robotId
    |>.bindText 2 data.sensorType
    |>.bindInt64 3 data.timestampNs.toInt64
    |>.bindInt64 4 data.sequenceId.toInt64
    |>.bindText 5 (payloadJson order data)

def rowOf (order : IterationOrder) (data : TelemetryData) : Row where
  robotId := cText data.robotId
  sensorType := cText data.sensorType
  timestampNs := data.timestampNs.toInt64
  sequenceId := data.sequenceId.toInt64
  payloadJson := cText (payloadJson order data)

namespace StorageEngine

-- ---------------------------------------------------------------------------
-- Opening and closing
-- ---------------------------------------------------------------------------

def openDb (o : SqliteOutcomes) (e : StorageEngine) : Bool × StorageEngine :=
  if o.openOk || o.openHandle then
    (o.openOk, { e with
      db := some { id := e.opened }
      opened := e.opened + 1
      handleCalls := e.handleCalls ++ [.opened e.opened] })
  else (false, { e with db := none })

/-- `sqlite3_prepare_v2` into `insert_stmt_`, which a failure sets to null. -/
def prepareInsert (o : SqliteOutcomes) (e : StorageEngine) : Bool × StorageEngine :=
  match e.db, o.prepare with
  | some c, true =>
    (true, { e with
      insertStmt := some { connection := c.id }
      handleCalls := e.handleCalls ++ [.prepared c.id] })
  | _, _ => (false, { e with insertStmt := none })

def enableWalMode (o : SqliteOutcomes) (e : StorageEngine) : Bool :=
  e.db.isSome && o.journalMode && o.synchronous

def createSchema (o : SqliteOutcomes) (e : StorageEngine) : Bool := e.db.isSome && o.schema

def finalizeInsert (e : StorageEngine) : StorageEngine :=
  match e.insertStmt with
  | some stmt =>
    { e with
      insertStmt := none
      handleCalls := e.handleCalls ++ [HandleCall.finalized stmt.connection] }
  | none => e

/-- Closing a connection drops what its transaction has not committed. -/
def closeDb (e : StorageEngine) : StorageEngine :=
  match e.db with
  | some c => { e with db := none, handleCalls := e.handleCalls ++ [HandleCall.closed c.id] }
  | none => e

def closeInternal (e : StorageEngine) : StorageEngine :=
  { e.finalizeInsert.closeDb with isInitialized := false }

def initInternal (o : SqliteOutcomes) (e : StorageEngine) : Bool × StorageEngine :=
  if e.isInitialized then (true, e)
  else
    let e := { e with initFailed := false }
    let (ok, e) := e.openDb o
    if !ok then (false, { e with initFailed := true }.closeInternal)
    else if !e.enableWalMode o || !e.createSchema o then
      (false, { e with initFailed := true }.closeInternal)
    else
      let (ok, e) := e.prepareInsert o
      if !ok then (false, { e with initFailed := true }.closeInternal)
      else (true, { e with isInitialized := true })

def ensureInitialized (o : SqliteOutcomes) (e : StorageEngine) : StorageEngine :=
  if e.initFlag then e else { (e.initInternal o).2 with initFlag := true }

def init (o : SqliteOutcomes) (e : StorageEngine) : Bool × StorageEngine :=
  let e := e.ensureInitialized o
  (e.isInitialized, e)

def isReady (e : StorageEngine) : Bool := e.isInitialized

def close (e : StorageEngine) : StorageEngine := { e.closeInternal with initFailed := false }

-- ---------------------------------------------------------------------------
-- Inserting
-- ---------------------------------------------------------------------------

/-- Reset, clear, bind and step, as both insertions do it: whether the step is
done. -/
def writeRow (order : IterationOrder) (o : StepOutcome) (data : TelemetryData)
    (e : StorageEngine) : Option (Bool × StorageEngine) :=
  match e.insertStmt, e.db with
  | some stmt, some c =>
    let stmt := bindFrame order data stmt
    let (ok, table, c) := c.step o stmt.bindings e.table
    some (ok, { e with table, db := some c, insertStmt := some stmt })
  | _, _ => none

def insertTelemetrySection (order : IterationOrder) (o : SqliteOutcomes) (data : TelemetryData)
    (e : StorageEngine) : Option (Bool × StorageEngine) :=
  e.writeRow order (o.step 0) data

def insertTelemetry (order : IterationOrder) (o : SqliteOutcomes) (data : TelemetryData)
    (e : StorageEngine) : Option (Bool × StorageEngine) :=
  let e := e.ensureInitialized o
  if !e.isInitialized then some (false, e)
  else e.insertTelemetrySection order o data

/-- The loop over the batch, left at the first step that fails; `i` is the
position in the batch. -/
def insertRows (order : IterationOrder) (step : Nat → StepOutcome) (i : Nat) :
    List TelemetryData → StorageEngine → Option (Bool × StorageEngine)
  | [], e => some (true, e)
  | data :: rest, e => do
    let (ok, e) ← e.writeRow order (step i) data
    if ok then insertRows order step (i + 1) rest e else some (false, e)

/-- `BEGIN TRANSACTION` on `db_`, refused on null. -/
def execBegin (o : SqliteOutcomes) (e : StorageEngine) : Bool × StorageEngine :=
  match e.db with
  | some c =>
    let (ok, c) := c.begin_ o.beginTransaction
    (ok, { e with db := some c })
  | none => (false, e)

def execCommit (o : SqliteOutcomes) (e : StorageEngine) : Bool × StorageEngine :=
  match e.db with
  | some c =>
    let (ok, table, c) := c.commit o.commit e.table
    (ok, { e with table, db := some c })
  | none => (false, e)

def execRollback (e : StorageEngine) : StorageEngine := { e with db := e.db.map (·.rollback) }

def insertBatchSection (order : IterationOrder) (o : SqliteOutcomes) (batch : List TelemetryData)
    (e : StorageEngine) : Option (Bool × StorageEngine) := do
  let (ok, e) := e.execBegin o
  if !ok then some (false, e)
  else
    let (success, e) ← insertRows order o.step 0 batch e
    if success then some (e.execCommit o)
    else some (success, e.execRollback)

def insertBatch (order : IterationOrder) (o : SqliteOutcomes) (batch : List TelemetryData)
    (e : StorageEngine) : Option (Bool × StorageEngine) :=
  let e := e.ensureInitialized o
  if !e.isInitialized then some (false, e)
  else if batch.isEmpty then some (true, e)
  else e.insertBatchSection order o batch

-- ---------------------------------------------------------------------------
-- Querying and purging
-- ---------------------------------------------------------------------------

/-- A stub in the source: nothing is read. -/
def queryTelemetry (o : SqliteOutcomes) (_robotId : String) (_limit : UInt64)
    (e : StorageEngine) : List TelemetryData × StorageEngine := ([], e.ensureInitialized o)

/-- A stub in the source: nothing is deleted. -/
def purgeOlderThan (o : SqliteOutcomes) (_timestampNs : UInt64) (e : StorageEngine) :
    Bool × StorageEngine :=
  let e := e.ensureInitialized o
  (e.isInitialized, e)

-- ---------------------------------------------------------------------------
-- The handles
-- ---------------------------------------------------------------------------

def Live (e : StorageEngine) : Prop :=
  ∃ c stmt, e.db = some c ∧ e.insertStmt = some stmt ∧ stmt.connection = c.id

def Closed (e : StorageEngine) : Prop := e.db = none ∧ e.insertStmt = none

def transaction (e : StorageEngine) : Option (List Row) := e.db.bind (·.transaction)

theorem Closed.transaction (h : Closed e) : e.transaction = none := by
  simp [StorageEngine.transaction, h.1]

theorem Closed.not_live (h : Closed e) : ¬Live e := by
  rintro ⟨c, stmt, hc, -, -⟩
  rw [h.1] at hc
  cases hc

theorem closed_closeInternal (e : StorageEngine) : Closed e.closeInternal := by
  unfold Closed closeInternal closeDb finalizeInsert
  constructor
  · cases hs : e.insertStmt <;> cases hd : e.db <;> simp [hd]
  · cases hs : e.insertStmt <;> cases hd : e.db <;> simp [hs]

@[simp] theorem isInitialized_closeInternal (e : StorageEngine) :
    e.closeInternal.isInitialized = false := rfl

@[simp] theorem table_closeInternal (e : StorageEngine) : e.closeInternal.table = e.table := by
  unfold closeInternal closeDb finalizeInsert
  cases hs : e.insertStmt <;> cases hd : e.db <;> simp

@[simp] theorem initFlag_closeInternal (e : StorageEngine) :
    e.closeInternal.initFlag = e.initFlag := by
  unfold closeInternal closeDb finalizeInsert
  cases hs : e.insertStmt <;> cases hd : e.db <;> simp

end StorageEngine

end SecureTelemetryGateway.Storage
