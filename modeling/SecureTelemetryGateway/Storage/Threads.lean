import SecureTelemetryGateway.Lib.Lts
import SecureTelemetryGateway.Storage.Insertion
import Mathlib.Logic.Function.Basic

/-!
# The storage engine under any number of threads

The atomic steps are the ones the source has: the `call_once`, the load of
`is_initialized_` outside the mutex, and the critical section under
`db_mutex_`. Nothing orders the load of one thread against the sections of the
others.
-/

namespace SecureTelemetryGateway.Storage

open Models (TelemetryData)
open Lib (Lts)

inductive Section
  | insertTelemetry (data : TelemetryData)
  | insertBatch (batch : List TelemetryData)
  | queryTelemetry (robotId : String) (limit : UInt64)
  | purgeOlderThan (timestampNs : UInt64)
  | close

/-- The public functions: `init`, and the ones that may come to a section. -/
inductive Operation
  | init
  | locking (s : Section)

inductive Answer
  | returned (ok : Bool)
  | frames (found : List TelemetryData)
  | void

/-- The section on the engine, `none` being a crash. -/
def Section.run (order : IterationOrder) (o : SqliteOutcomes) (e : StorageEngine) :
    Section → Option (Answer × StorageEngine)
  | .insertTelemetry data =>
    (e.insertTelemetrySection order o data).map fun (ok, e) => (.returned ok, e)
  | .insertBatch batch =>
    (e.insertBatchSection order o batch).map fun (ok, e) => (.returned ok, e)
  | .queryTelemetry _ _ => some (.frames [], e)
  | .purgeOlderThan _ => some (.returned true, e)
  | .close => some (.void, e.close)

/-- What follows the load of `is_initialized_`: an answer, or the section. -/
def Operation.afterLoad (ready : Bool) : Operation → Answer ⊕ Section
  | .init => .inl (.returned ready)
  | .locking (.queryTelemetry robotId limit) =>
    if ready then .inr (.queryTelemetry robotId limit) else .inl (.frames [])
  | .locking (.insertBatch batch) =>
    if !ready then .inl (.returned false)
    else if batch.isEmpty then .inl (.returned true)
    else .inr (.insertBatch batch)
  | .locking s => if ready then .inr s else .inl (.returned false)

inductive Pc
  | idle
  | once (op : Operation)
  | load (op : Operation)
  | lock (s : Section)

/-- `close` neither initialises nor looks at the flag. -/
def Operation.start : Operation → Pc
  | .locking .close => .lock .close
  | op => .once op

def Pc.ofAnswer : Answer ⊕ Section → Pc
  | .inl _ => .idle
  | .inr s => .lock s

structure State (τ : Type u) where
  engine : StorageEngine := {}
  pc : τ → Pc := fun _ => .idle
  crashed : Bool := false

inductive Event (τ : Type u)
  | call (thread : τ) (op : Operation)
  | once (thread : τ) (o : SqliteOutcomes)
  | load (thread : τ) (ready : Bool)
  | locked (thread : τ) (s : Section) (o : SqliteOutcomes) (answer : Answer)
  | crash (thread : τ) (s : Section) (o : SqliteOutcomes)

variable {τ : Type u} {order : IterationOrder} {rows : List Row}

inductive Step [DecidableEq τ] (order : IterationOrder) : State τ → Event τ → State τ → Prop
  | call (s : State τ) (t : τ) (op : Operation) : s.crashed = false → s.pc t = .idle →
      Step order s (.call t op) { s with pc := Function.update s.pc t op.start }
  | once (s : State τ) (t : τ) (op : Operation) (o : SqliteOutcomes) : s.crashed = false →
      s.pc t = .once op →
      Step order s (.once t o)
        { s with engine := s.engine.ensureInitialized o, pc := Function.update s.pc t (.load op) }
  | load (s : State τ) (t : τ) (op : Operation) : s.crashed = false → s.pc t = .load op →
      Step order s (.load t s.engine.isInitialized)
        { s with
          pc := Function.update s.pc t (.ofAnswer (op.afterLoad s.engine.isInitialized)) }
  | locked (s : State τ) (t : τ) (sec : Section) (o : SqliteOutcomes) : s.crashed = false →
      s.pc t = .lock sec → sec.run order o s.engine = some (answer, e) →
      Step order s (.locked t sec o answer)
        { s with engine := e, pc := Function.update s.pc t .idle }
  | crash (s : State τ) (t : τ) (sec : Section) (o : SqliteOutcomes) : s.crashed = false →
      s.pc t = .lock sec → sec.run order o s.engine = none →
      Step order s (.crash t sec o) { s with crashed := true }

/-- `rows` is what the database file has in it. -/
def threads (τ : Type u) [DecidableEq τ] (order : IterationOrder) (rows : List Row) :
    Lts (State τ) (Event τ) where
  init s := s = { engine := { table := rows } }
  step := Step order

namespace StorageEngine

theorem consistent_close (e : StorageEngine) : Consistent e.close := by
  have h : Closed e.closeInternal := closed_closeInternal e
  rw [Consistent, if_neg (by simp [close])]
  exact h

theorem run_handles {sec : Section} (h : sec.run order o e = some (a, e')) :
    KeepsHandles e e' ∨ (e' = e.close ∧ sec = .close) := by
  cases sec with
  | insertTelemetry data =>
    simp only [Section.run, Option.map_eq_some_iff, Prod.exists, Prod.mk.injEq] at h
    obtain ⟨ok, e₁, h, -, rfl⟩ := h
    exact .inl (writeRow_spec h).1
  | insertBatch batch =>
    simp only [Section.run, Option.map_eq_some_iff, Prod.exists, Prod.mk.injEq] at h
    obtain ⟨ok, e₁, h, -, rfl⟩ := h
    exact .inl (keepsHandles_insertBatchSection h)
  | queryTelemetry robotId limit =>
    simp only [Section.run, Option.some.injEq, Prod.mk.injEq] at h
    exact .inl (h.2 ▸ .refl e)
  | purgeOlderThan timestampNs =>
    simp only [Section.run, Option.some.injEq, Prod.mk.injEq] at h
    exact .inl (h.2 ▸ .refl e)
  | close =>
    simp only [Section.run, Option.some.injEq, Prod.mk.injEq] at h
    exact .inr ⟨h.2.symm, rfl⟩

theorem consistent_ensureInitialized (h : Consistent e)
    (hf : e.initFlag = false → e.isInitialized = false) :
    Consistent (e.ensureInitialized o) := by
  cases hflag : e.initFlag with
  | true => rwa [ensureInitialized_of_initFlag hflag]
  | false =>
    rw [ensureInitialized_of_not_initFlag hflag]
    exact (initInternal_spec (hf hflag)).1

end StorageEngine

open StorageEngine

def Pc.beforeOnce : Pc → Prop
  | .idle | .once _ | .lock .close => True
  | _ => False

structure Inv (s : State τ) : Prop where
  consistent : Consistent s.engine
  fresh : s.engine.initFlag = false → s.engine.isInitialized = false ∧ ∀ t, (s.pc t).beforeOnce

theorem Inv.init : Inv ({ engine := { table := rows } } : State τ) where
  consistent := ⟨rfl, rfl⟩
  fresh _ := ⟨rfl, fun _ => trivial⟩

theorem beforeOnce_start (op : Operation) : op.start.beforeOnce := by
  cases op with
  | init => trivial
  | locking sec => cases sec <;> trivial

variable [DecidableEq τ]

theorem beforeOnce_update {pc : τ → Pc} (h : ∀ t, (pc t).beforeOnce) (hp : p.beforeOnce) (t : τ) :
    ∀ u, (Function.update pc t p u).beforeOnce :=
  (Function.forall_update_iff pc fun _ q => q.beforeOnce).mpr ⟨hp, fun u _ => h u⟩

theorem Inv.step {s s' : State τ} (h : Inv s) (hs : Step order s ev s') : Inv s' := by
  cases hs with
  | call _ t op =>
    refine ⟨h.consistent, fun hf => ⟨(h.fresh hf).1, ?_⟩⟩
    exact beforeOnce_update (h.fresh hf).2 (beforeOnce_start op) t
  | once _ t op o =>
    exact ⟨consistent_ensureInitialized h.consistent fun hf => (h.fresh hf).1,
      fun hf => by simp at hf⟩
  | load _ t op _ hp =>
    refine ⟨h.consistent, fun hf => absurd ((h.fresh hf).2 t) ?_⟩
    simp [hp, Pc.beforeOnce]
  | locked _ t sec o _ hp hr =>
    rcases run_handles hr with hk | ⟨rfl, rfl⟩
    · refine ⟨hk.consistent.mpr h.consistent, fun hf => ?_⟩
      have hf : s.engine.initFlag = false := hk.initFlag ▸ hf
      refine ⟨hk.isInitialized.trans (h.fresh hf).1, ?_⟩
      exact beforeOnce_update (p := .idle) (h.fresh hf).2 trivial t
    · refine ⟨consistent_close _, fun hf => ⟨rfl, ?_⟩⟩
      have hf : s.engine.initFlag = false := by simpa [close] using hf
      exact beforeOnce_update (p := .idle) (h.fresh hf).2 trivial t
  | crash _ t sec o => exact ⟨h.consistent, h.fresh⟩

theorem inv_of_reachable (h : (threads τ order rows).Reachable s) : Inv s := by
  refine h.invariant ?_ fun _ _ _ hi hs => hi.step hs
  rintro _ rfl
  exact .init

end SecureTelemetryGateway.Storage
