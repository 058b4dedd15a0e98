import SecureTelemetryGateway.Models.TelemetryData

/-!
# The SQLite calls

What the engine uses of the library: one connection, one prepared `INSERT`, and
a transaction that may be open on the connection. Whether a call succeeds is an
argument. The table is what the file holds, in the order of the rows' keys;
what an open transaction has inserted is kept apart until it commits.
-/

namespace SecureTelemetryGateway.Storage

/-- A row of `telemetry_records`, less the key and the time SQLite adds. -/
structure Row where
  robotId : String
  sensorType : String
  timestampNs : Int64
  sequenceId : Int64
  payloadJson : String
  deriving DecidableEq

/-- `id` tells the connections of one engine apart. -/
structure Connection where
  id : Nat
  transaction : Option (List Row) := none

structure Bindings where
  robotId : Option String := none
  sensorType : Option String := none
  timestampNs : Option Int64 := none
  sequenceId : Option Int64 := none
  payloadJson : Option String := none

structure Statement where
  connection : Nat
  bindings : Bindings := {}

inductive StepOutcome
  | done
  | failed (rolledBack : Bool)
  deriving DecidableEq

/-- A `COMMIT` that fails may leave the transaction open (`SQLITE_BUSY`). -/
inductive CommitOutcome
  | ok
  | failedOpen
  | failedRolledBack
  deriving DecidableEq

/-- How the library's calls turn out during one operation of the engine; `step`
is indexed by the position in the batch. A failed open may still hand a
connection back. By default every call succeeds. -/
structure SqliteOutcomes where
  openOk : Bool := true
  openHandle : Bool := true
  journalMode : Bool := true
  synchronous : Bool := true
  schema : Bool := true
  prepare : Bool := true
  beginTransaction : Bool := true
  step : Nat → StepOutcome := fun _ => .done
  commit : CommitOutcome := .ok

-- ---------------------------------------------------------------------------
-- The statement
-- ---------------------------------------------------------------------------

/-- A text bound with length -1 ends at its first NUL. -/
def cText (s : String) : String := String.ofList (s.toList.takeWhile (· ≠ '\x00'))

namespace Statement

def clearBindings (stmt : Statement) : Statement := { stmt with bindings := {} }

def bindText (parameter : Nat) (text : String) (stmt : Statement) : Statement :=
  let text := some (cText text)
  match parameter with
  | 1 => { stmt with bindings.robotId := text }
  | 2 => { stmt with bindings.sensorType := text }
  | 5 => { stmt with bindings.payloadJson := text }
  | _ => stmt

def bindInt64 (parameter : Nat) (value : Int64) (stmt : Statement) : Statement :=
  match parameter with
  | 3 => { stmt with bindings.timestampNs := some value }
  | 4 => { stmt with bindings.sequenceId := some value }
  | _ => stmt

end Statement

/-- The row to insert. Every column is declared `NOT NULL`. -/
def Bindings.row? (b : Bindings) : Option Row :=
  match b with
  | ⟨some robotId, some sensorType, some timestampNs, some sequenceId, some payloadJson⟩ =>
    some { robotId, sensorType, timestampNs, sequenceId, payloadJson }
  | _ => none

-- ---------------------------------------------------------------------------
-- Transactions
-- ---------------------------------------------------------------------------

namespace Connection

/-- Without a transaction the row is committed at once. -/
def insert (row : Row) (table : List Row) (c : Connection) : List Row × Connection :=
  match c.transaction with
  | none => (table ++ [row], c)
  | some pending => (table, { c with transaction := some (pending ++ [row]) })

/-- `sqlite3_step` on the statement with bindings `b`: whether it answers
`SQLITE_DONE`. -/
def step (o : StepOutcome) (b : Bindings) (table : List Row) (c : Connection) :
    Bool × List Row × Connection :=
  match o, b.row? with
  | .done, some row => (true, c.insert row table)
  | .failed true, _ => (false, table, { c with transaction := none })
  | _, _ => (false, table, c)

/-- `BEGIN TRANSACTION`, an error inside a transaction. -/
def begin_ (ok : Bool) (c : Connection) : Bool × Connection :=
  match ok, c.transaction with
  | true, none => (true, { c with transaction := some [] })
  | _, _ => (false, c)

def commit (o : CommitOutcome) (table : List Row) (c : Connection) : Bool × List Row × Connection :=
  match c.transaction, o with
  | none, _ => (false, table, c)
  | some pending, .ok => (true, table ++ pending, { c with transaction := none })
  | some _, .failedOpen => (false, table, c)
  | some _, .failedRolledBack => (false, table, { c with transaction := none })

def rollback (c : Connection) : Connection := { c with transaction := none }

@[simp] theorem id_rollback (c : Connection) : c.rollback.id = c.id := rfl
@[simp] theorem transaction_rollback (c : Connection) : c.rollback.transaction = none := rfl

@[simp] theorem id_insert (row : Row) (table : List Row) (c : Connection) :
    (c.insert row table).2.id = c.id := by
  unfold insert; split <;> rfl

@[simp] theorem id_step (o : StepOutcome) (b : Bindings) (table : List Row) (c : Connection) :
    (c.step o b table).2.2.id = c.id := by
  unfold step; split <;> simp

@[simp] theorem id_begin (ok : Bool) (c : Connection) : (c.begin_ ok).2.id = c.id := by
  unfold begin_; split <;> rfl

@[simp] theorem id_commit (o : CommitOutcome) (table : List Row) (c : Connection) :
    (c.commit o table).2.2.id = c.id := by
  unfold commit; split <;> rfl

theorem begin_eq_true {c : Connection} :
    (c.begin_ ok).1 = true ↔ ok = true ∧ c.transaction = none := by
  unfold begin_; split <;> simp_all

end Connection

end SecureTelemetryGateway.Storage
