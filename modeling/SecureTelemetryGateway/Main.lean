import SecureTelemetryGateway.Lib.Simulation
import SecureTelemetryGateway.Storage.Callers
import SecureTelemetryGateway.Storage.Handles
import Mathlib.Algebra.BigOperators.Group.Finset.Basic
import Mathlib.Algebra.Order.BigOperators.Group.Finset

/-!
# The startup program

`main.cpp`: the storage engine is initialised before any thread is started,
four threads insert a sample each, and the engine is destroyed when all have
been joined. The lines written to the terminal are left out, and those logged
but for the first: `init_internal` logs one on each of its ways out, and where
the log file cannot be opened it does so through a null pointer.
-/

namespace SecureTelemetryGateway.Main

open Models (TelemetryData)
open Storage (IterationOrder Operation Row rowOf)
open Lib (Lts)

-- ---------------------------------------------------------------------------
-- The program
-- ---------------------------------------------------------------------------

def sampleData : TelemetryData where
  robotId := "robot_1"
  sensorType := "lidar"
  timestampNs := 1700000000000000000
  sequenceId := 101

/-- `i` is the variable of the two loops. The engine is a local variable, so
every `return` destroys it. -/
inductive MainPc
  | init
  | spawn (i : Nat)
  | join (i : Nat)
  | destroy (code : Nat)
  | exited (code : Nat)
  | died

inductive WorkerPc
  | notStarted
  | inserting
  | finished
  deriving DecidableEq

/-- The main thread is `none`, and `workerThreadFunction` runs in `some i`. -/
abbrev Thread := Option Nat

def MainPc.operation : MainPc → Option Operation
  | .init => some .init
  | .destroy _ => some (.locking .close)
  | _ => none

/-- The call it is in. A program that has died has not come back from its. -/
def MainPc.call : MainPc → Option Operation
  | .died => some .init
  | pc => pc.operation

def MainPc.afterCall : MainPc → Storage.Event Thread → MainPc
  | .init, .load _ ready => if ready then .spawn 0 else .destroy 1
  | .destroy code, _ => .exited code
  | pc, _ => pc

def WorkerPc.operation : WorkerPc → Option Operation
  | .inserting => some (.locking (.insertTelemetry sampleData))
  | _ => none

structure State where
  storage : Storage.State Thread := {}
  main : MainPc := .init
  workers : Nat → WorkerPc := fun _ => .notStarted

inductive Event
  | callEngine (ev : Storage.Event Thread)
  | spawn (i : Nat)
  | spawned
  | insertTelemetry (i : Nat) (ev : Storage.Event Thread)
  | join (i : Nat)
  | joined
  | die

/-- `logFile` says whether the logger can be made. -/
inductive Step (order : IterationOrder) (logFile : Bool) : State → Event → State → Prop
  | callEngine (s : State) (op : Operation) (ev : Storage.Event Thread)
      (storage : Storage.State Thread) :
      s.main.operation = some op → ev.thread = none → ev.KeepsTo op →
      Storage.Step order s.storage ev storage → (∀ t o, ev = .once t o → logFile = true) →
      Step order logFile s (.callEngine ev)
        { s with
          storage
          main := if (storage.pc none).isIdle then s.main.afterCall ev else s.main }
  | spawn (s : State) (i : Nat) : s.storage.crashed = false → s.main = .spawn i → i < 4 →
      Step order logFile s (.spawn i)
        { s with main := .spawn (i + 1), workers := Function.update s.workers i .inserting }
  | spawned (s : State) : s.storage.crashed = false → s.main = .spawn 4 →
      Step order logFile s .spawned { s with main := .join 0 }
  | insertTelemetry (s : State) (i : Nat) (ev : Storage.Event Thread)
      (storage : Storage.State Thread) :
      s.workers i = .inserting → ev.thread = some i →
      ev.KeepsTo (.locking (.insertTelemetry sampleData)) →
      Storage.Step order s.storage ev storage →
      Step order logFile s (.insertTelemetry i ev)
        { s with
          storage
          workers := Function.update s.workers i
            (if (storage.pc (some i)).isIdle then .finished else .inserting) }
  | join (s : State) (i : Nat) : s.storage.crashed = false → s.main = .join i → i < 4 →
      s.workers i = .finished →
      Step order logFile s (.join i) { s with main := .join (i + 1) }
  | joined (s : State) : s.storage.crashed = false → s.main = .join 4 →
      Step order logFile s .joined { s with main := .destroy 0 }
  | die (s : State) : s.storage.crashed = false → s.main = .init →
      s.storage.pc none = .once .init → logFile = false →
      Step order logFile s .die { s with main := .died }

/-- `rows` is what the database file has in it. -/
def program (order : IterationOrder) (rows : List Row) (logFile : Bool) : Lts State Event where
  init s := s = { storage := { engine := { table := rows } } }
  step := Step order logFile

def Event.answers : Event → List (Nat × Bool)
  | .insertTelemetry i (.load _ false) => [(i, false)]
  | .insertTelemetry i (.locked _ _ _ (.returned ok)) => [(i, ok)]
  | _ => []

def answers (es : List Event) : List (Nat × Bool) := es.flatMap (·.answers)

@[simp] theorem answers_snoc (es : List Event) (ev : Event) :
    answers (es ++ [ev]) = answers es ++ ev.answers := by simp [answers]

-- ---------------------------------------------------------------------------
-- The invariant
-- ---------------------------------------------------------------------------

def MainPc.spawned : MainPc → Nat
  | .init | .died => 0
  | .spawn i => i
  | .join _ => 4
  | .destroy code | .exited code => if code = 0 then 4 else 0

def MainPc.joined : MainPc → Nat
  | .join i => i
  | .destroy code | .exited code => if code = 0 then 4 else 0
  | _ => 0

def MainPc.InRange : MainPc → Prop
  | .spawn i | .join i => i ≤ 4
  | .destroy code | .exited code => code = 0 ∨ code = 1
  | .init | .died => True

/-- Where main is says which threads have been started, and which joined. -/
structure Shape (pc : MainPc) (workers : Nat → WorkerPc) : Prop where
  inRange : pc.InRange
  spawned : ∀ i, workers i = .notStarted ↔ pc.spawned ≤ i
  joined : ∀ i < pc.joined, workers i = .finished

theorem Shape.init : Shape .init fun _ => .notStarted where
  inRange := trivial
  spawned i := by simp [MainPc.spawned]
  joined i hi := absurd hi (Nat.not_lt_zero i)

theorem Shape.afterCall (h : Shape pc workers) (ev : Storage.Event Thread) :
    Shape (pc.afterCall ev) workers := by
  cases pc with
  | init =>
    cases ev with
    | load t ready =>
      cases ready with
      | true => exact ⟨Nat.zero_le 4, h.spawned, h.joined⟩
      | false => exact ⟨.inr rfl, h.spawned, h.joined⟩
    | _ => exact h
  | destroy code => exact ⟨h.inRange, h.spawned, h.joined⟩
  | _ => exact h

theorem Shape.spawn (h : Shape (.spawn i) workers) (hi : i < 4) :
    Shape (.spawn (i + 1)) (Function.update workers i .inserting) where
  inRange := hi
  spawned j := by
    have hj := h.spawned j
    simp only [MainPc.spawned] at hj ⊢
    rcases eq_or_ne j i with rfl | hne
    · simp
    · rw [Function.update_of_ne hne, hj]
      omega
  joined j hj := absurd hj (Nat.not_lt_zero j)

theorem Shape.spawned_all (h : Shape (.spawn 4) workers) : Shape (.join 0) workers where
  inRange := Nat.zero_le 4
  spawned := h.spawned
  joined i hi := absurd hi (Nat.not_lt_zero i)

theorem Shape.work (h : Shape pc workers) (hw : workers i = .inserting) (hw' : w ≠ .notStarted) :
    Shape pc (Function.update workers i w) where
  inRange := h.inRange
  spawned j := by
    rcases eq_or_ne j i with rfl | hne
    · rw [Function.update_self, ← h.spawned j, hw]
      simp [hw']
    · rw [Function.update_of_ne hne, h.spawned j]
  joined j hj := by
    rcases eq_or_ne j i with rfl | hne
    · exact absurd (hw.symm.trans (h.joined j hj)) (by simp)
    · rw [Function.update_of_ne hne, h.joined j hj]

theorem Shape.join (h : Shape (.join i) workers) (hi : i < 4) (hw : workers i = .finished) :
    Shape (.join (i + 1)) workers where
  inRange := hi
  spawned := h.spawned
  joined j hj := by
    rcases Nat.lt_succ_iff_lt_or_eq.mp hj with hlt | rfl
    · exact h.joined j hlt
    · exact hw

theorem Shape.joined_all (h : Shape (.join 4) workers) : Shape (.destroy 0) workers where
  inRange := .inl rfl
  spawned := h.spawned
  joined := h.joined

theorem Shape.quiet (h : Shape pc workers) (hall : pc.joined = pc.spawned) (i : Nat) :
    (workers i).operation = none := by
  rcases Nat.lt_or_ge i pc.spawned with hi | hi
  · rw [h.joined i (hall ▸ hi)]
    rfl
  · rw [(h.spawned i).mpr hi]
    rfl

/-- Where the log file cannot be opened, main does not get past `init`. -/
structure Logged (logFile : Bool) (s : State) : Prop where
  initFlag : s.storage.engine.initFlag = true → logFile = true
  died : s.main = .died → logFile = false
  past : s.main ≠ .init → s.main ≠ .died → logFile = true

structure Running (s : State) : Prop where
  checked : Storage.Checked s.storage
  transaction : s.storage.engine.transaction = none
  mainCall : (s.storage.pc none).Within s.main.call
  workerCall : ∀ i, (s.storage.pc (some i)).Within (s.workers i).operation
  shape : Shape s.main s.workers

theorem MainPc.afterCall_ne_died {pc : MainPc} (h : pc ≠ .died) (ev : Storage.Event Thread) :
    pc.afterCall ev ≠ .died := by
  cases pc with
  | init =>
    cases ev with
    | load t ready => cases ready <;> simp [afterCall]
    | _ => simp [afterCall]
  | died => exact absurd rfl h
  | _ => simp [afterCall]

theorem MainPc.call_of_operation {pc : MainPc} (h : pc.operation = some op) :
    pc.call = some op := by
  cases pc with
  | died => cases h
  | _ => exact h

theorem Running.init : Running { storage := { engine := { table := rows } } } where
  checked := ⟨.init, fun _ => trivial, rfl⟩
  transaction := rfl
  mainCall := .idle
  workerCall _ := .idle
  shape := .init

theorem Running.noInsertion {s : State} (h : Running s)
    (hop : s.main.operation = some (.locking .close)) (u : Thread) (data : TelemetryData) :
    s.storage.pc u ≠ .lock (.insertTelemetry data) := by
  intro hpc
  cases u with
  | none =>
    have hmain := hpc ▸ h.mainCall
    rw [MainPc.call_of_operation hop] at hmain
    exact absurd hmain.lock_inv (by simp)
  | some i =>
    have hall : s.main.joined = s.main.spawned := by
      cases hp : s.main with
      | destroy code => rfl
      | _ => simp [hp, MainPc.operation] at hop
    have hquiet := h.shape.quiet hall i
    have hworker := hpc ▸ h.workerCall i
    rw [hquiet] at hworker
    cases hworker.eq_idle

theorem Running.mainStep {s : State} (h : Running s) (hop : s.main.operation = some op)
    (ht : ev.thread = none) (hs : Storage.Step order s.storage ev storage) :
    Storage.EngineStep order s.storage ev storage := by
  have hpc := h.mainCall.of_thread (MainPc.call_of_operation hop) ht
  refine Storage.engineStep_of_within hs h.transaction hpc ?_
    fun hclose => h.noInsertion (hclose ▸ hop)
  rintro batch rfl
  cases hp : s.main <;> simp [hp, MainPc.operation] at hop

theorem Running.workerStep {s : State} (h : Running s) (hw : s.workers i = .inserting)
    (ht : ev.thread = some i) (hs : Storage.Step order s.storage ev storage) :
    Storage.EngineStep order s.storage ev storage := by
  have hop : (s.workers i).operation = some (.locking (.insertTelemetry sampleData)) := by
    rw [hw]
    rfl
  exact Storage.engineStep_of_within hs h.transaction ((h.workerCall i).of_thread hop ht)
    (by simp) (by simp)

theorem Running.quiet {s : State} (h : Running s) (hw : (s.workers i).operation = none)
    (op? : Option Operation) : (s.storage.pc (some i)).Within op? := by
  have hidle := h.workerCall i
  rw [hw] at hidle
  exact hidle.eq_idle ▸ .idle

theorem Running.step {s s' : State} (h : Running s) (hs : Step order logFile s ev s') :
    Running s' := by
  cases hs with
  | callEngine op ev storage hop ht hkeeps hstep =>
    obtain ⟨⟨-, hno⟩, htrans, -⟩ := h.mainStep hop ht hstep
    have hcall := MainPc.call_of_operation hop
    have hmain : (storage.pc none).Within (some op) := h.mainCall.step hcall ht hkeeps hstep
    have hworkers : ∀ i, storage.pc (some i) = s.storage.pc (some i) :=
      fun i => Storage.pc_step_of_ne hstep (by simp [ht])
    refine ⟨h.checked.step hstep hno, htrans, ?_, fun i => hworkers i ▸ h.workerCall i, ?_⟩
    · dsimp only
      split
      · next hidle => exact .of_isIdle hidle
      · exact hcall ▸ hmain
    · dsimp only
      split
      · exact h.shape.afterCall ev
      · exact h.shape
  | spawn i hcr hp hi =>
    have hmain := h.mainCall
    have hshape := h.shape
    rw [hp] at hmain hshape
    have hnew : s.workers i = .notStarted := (hshape.spawned i).mpr le_rfl
    refine ⟨h.checked, h.transaction, hmain.eq_idle ▸ .idle, fun j => ?_, hshape.spawn hi⟩
    rcases eq_or_ne j i with rfl | hne
    · exact h.quiet (by rw [hnew]; rfl) _
    · simpa [Function.update_of_ne hne] using h.workerCall j
  | spawned hcr hp =>
    have hmain := h.mainCall
    have hshape := h.shape
    rw [hp] at hmain hshape
    exact ⟨h.checked, h.transaction, hmain.eq_idle ▸ .idle, h.workerCall, hshape.spawned_all⟩
  | insertTelemetry i ev storage hw ht hkeeps hstep =>
    obtain ⟨⟨-, hno⟩, htrans, -⟩ := h.workerStep hw ht hstep
    have hop : (s.workers i).operation = some (.locking (.insertTelemetry sampleData)) := by
      rw [hw]
      rfl
    have hworker := (h.workerCall i).step hop ht hkeeps hstep
    have hothers : ∀ t, t ≠ some i → storage.pc t = s.storage.pc t :=
      fun t hne => Storage.pc_step_of_ne hstep (by simpa [ht] using hne)
    refine ⟨h.checked.step hstep hno, htrans, hothers none (by simp) ▸ h.mainCall, fun j => ?_,
      h.shape.work hw (by split <;> simp)⟩
    rcases eq_or_ne j i with rfl | hne
    · simp only [Function.update_self]
      split
      · next hidle => exact .of_isIdle hidle
      · exact hworker
    · simp only [Function.update_of_ne hne]
      exact hothers (some j) (by simpa using hne) ▸ h.workerCall j
  | join i hcr hp hi hfinished =>
    have hmain := h.mainCall
    have hshape := h.shape
    rw [hp] at hmain hshape
    exact ⟨h.checked, h.transaction, hmain.eq_idle ▸ .idle, h.workerCall,
      hshape.join hi hfinished⟩
  | joined hcr hp =>
    have hmain := h.mainCall
    have hshape := h.shape
    rw [hp] at hmain hshape
    exact ⟨h.checked, h.transaction, hmain.eq_idle ▸ .idle, h.workerCall, hshape.joined_all⟩
  | die hcr hp =>
    have hmain := h.mainCall
    have hshape := h.shape
    rw [hp] at hmain hshape
    exact ⟨h.checked, h.transaction, hmain, h.workerCall,
      ⟨trivial, hshape.spawned, hshape.joined⟩⟩

theorem Logged.step {s s' : State} (hr : Running s) (h : Logged logFile s)
    (hs : Step order logFile s ev s') : Logged logFile s' := by
  cases hs with
  | callEngine op ev storage hop ht hkeeps hstep honce =>
    have hne : s.main ≠ .died := by
      rintro hp
      simp [hp, MainPc.operation] at hop
    refine ⟨fun hflag => ?_, fun hdied => ?_, fun hinit hdied => ?_⟩
    · rcases Storage.initFlag_step hstep hflag with hflag | ⟨t, o, hev⟩
      · exact h.initFlag hflag
      · exact honce t o hev
    · dsimp only at hdied
      split at hdied
      · exact absurd hdied (MainPc.afterCall_ne_died hne ev)
      · exact absurd hdied hne
    · by_cases hp : s.main = .init
      · obtain rfl : op = .init := by simpa [hp, MainPc.operation, eq_comm] using hop
        have hpc := hr.mainCall.of_thread (MainPc.call_of_operation hop) ht
        rcases Storage.step_init_cases hstep hpc hkeeps with hnot | ⟨t, rfl⟩
        · rw [ht] at hnot
          exact absurd (by simp [hnot, hp]) hinit
        · exact h.initFlag (Storage.initFlag_of_load hr.checked.inv hstep)
      · exact h.past hp hne
  | spawn i hcr hp => exact ⟨h.initFlag, nofun, fun _ _ => h.past (by simp [hp]) (by simp [hp])⟩
  | spawned hcr hp => exact ⟨h.initFlag, nofun, fun _ _ => h.past (by simp [hp]) (by simp [hp])⟩
  | insertTelemetry i ev storage hw =>
    have hlog : logFile = true := by
      have hshape := hr.shape
      refine h.past (fun hp => ?_) fun hp => ?_
      · rw [hp] at hshape
        simpa [hw] using (hshape.spawned i).mpr (Nat.zero_le i)
      · rw [hp] at hshape
        simpa [hw] using (hshape.spawned i).mpr (Nat.zero_le i)
    exact ⟨fun _ => hlog, h.died, fun _ _ => hlog⟩
  | join i hcr hp => exact ⟨h.initFlag, nofun, fun _ _ => h.past (by simp [hp]) (by simp [hp])⟩
  | joined hcr hp => exact ⟨h.initFlag, nofun, fun _ _ => h.past (by simp [hp]) (by simp [hp])⟩
  | die hcr hp hpc hlog => exact ⟨h.initFlag, fun _ => hlog, fun _ hne => absurd rfl hne⟩

-- ---------------------------------------------------------------------------
-- What the program does
-- ---------------------------------------------------------------------------

structure Accounted (order : IterationOrder) (rows : List Row) (es : List Event) (s : State) :
    Prop where
  nodup : ((answers es).map Prod.fst).Nodup
  mem_iff : ∀ i, i ∈ (answers es).map Prod.fst ↔ s.workers i = .finished
  table : s.storage.engine.table =
    rows ++ List.replicate ((answers es).countP (·.2)) (rowOf order sampleData)

theorem Accounted.init (order : IterationOrder) :
    Accounted order rows [] { storage := { engine := { table := rows } } } where
  nodup := List.nodup_nil
  mem_iff i := by simp [answers]
  table := (List.append_nil _).symm

theorem Accounted.answers_eq_nil {s : State} (h : Accounted order rows es s)
    (hshape : Shape s.main s.workers) (hnone : s.main.spawned = 0) : answers es = [] := by
  have hempty : (answers es).map Prod.fst = [] := by
    refine List.eq_nil_iff_forall_not_mem.mpr fun i hi => ?_
    rw [h.mem_iff, (hshape.spawned i).mpr (hnone ▸ Nat.zero_le i)] at hi
    cases hi
  exact List.map_eq_nil_iff.mp hempty

theorem Accounted.frame {s s' : State} (h : Accounted order rows es s) (hev : ev.answers = [])
    (hworkers : ∀ i, s'.workers i = .finished ↔ s.workers i = .finished)
    (htable : s'.storage.engine.table = s.storage.engine.table) :
    Accounted order rows (es ++ [ev]) s' := by
  have hanswers : answers (es ++ [ev]) = answers es := by rw [answers_snoc, hev, List.append_nil]
  exact ⟨hanswers ▸ h.nodup, fun i => by rw [hanswers, h.mem_iff, hworkers],
    by rw [htable, h.table, hanswers]⟩

theorem Accounted.answer {s s' : State} (h : Accounted order rows es s)
    (hev : ev.answers = [(i, ok)]) (hw : s.workers i = .inserting)
    (hworkers : s'.workers = Function.update s.workers i .finished)
    (htable : s'.storage.engine.table =
      s.storage.engine.table ++ if ok then [rowOf order sampleData] else []) :
    Accounted order rows (es ++ [ev]) s' := by
  have hfresh : i ∉ (answers es).map Prod.fst := fun hmem => by
    rw [h.mem_iff, hw] at hmem
    cases hmem
  refine ⟨?_, fun j => ?_, ?_⟩
  · rw [answers_snoc, hev, List.map_append]
    exact List.nodup_append.mpr
      ⟨h.nodup, List.nodup_singleton i, fun a ha b hb hab => by simp_all⟩
  · rw [answers_snoc, hev, List.map_append, List.mem_append, h.mem_iff, hworkers]
    rcases eq_or_ne j i with rfl | hne
    · simp
    · simp [hne]
  · rw [answers_snoc, hev, htable, h.table, List.countP_append, List.replicate_add,
      List.append_assoc]
    cases ok <;> rfl

theorem Accounted.step {s s' : State} (hr : Running s) (h : Accounted order rows es s)
    (hs : Step order logFile s ev s') : Accounted order rows (es ++ [ev]) s' := by
  cases hs with
  | callEngine op ev storage hop ht hkeeps hstep =>
    have hpc := hr.mainCall.of_thread (MainPc.call_of_operation hop) ht
    have hcall : op = .init ∨ op = .locking .close := by
      cases hp : s.main <;> simp_all [MainPc.operation]
    have htable := (hr.mainStep hop ht hstep).table
    rw [Storage.rows_of_within hstep hpc hcall, List.append_nil] at htable
    exact h.frame rfl (fun _ => Iff.rfl) htable
  | spawn i hcr hp hi =>
    have hshape := hr.shape
    rw [hp] at hshape
    have hnew : s.workers i = .notStarted := (hshape.spawned i).mpr le_rfl
    refine h.frame rfl (fun j => ?_) rfl
    rcases eq_or_ne j i with rfl | hne
    · simp [hnew]
    · simp [Function.update_of_ne hne]
  | spawned => exact h.frame rfl (fun _ => Iff.rfl) rfl
  | insertTelemetry i ev storage hw ht hkeeps hstep =>
    have htable := (hr.workerStep hw ht hstep).table
    have hpc := hr.workerCall i
    rw [hw, ← ht] at hpc
    rcases Storage.step_insertTelemetry_cases hstep hpc hkeeps with
      ⟨hidle, ⟨t, rfl⟩ | ⟨t, o, ok, rfl⟩⟩ | ⟨hidle, hload, hlocked⟩
    · rw [ht] at hidle
      have hanswer : Event.answers (.insertTelemetry i (.load t false)) = [(i, false)] := rfl
      exact h.answer hanswer hw (by simp [hidle]) htable
    · rw [ht] at hidle
      exact h.answer rfl hw (by simp [hidle]) (by cases ok <;> exact htable)
    · rw [ht] at hidle
      obtain ⟨hanswers, hrows⟩ : Event.answers (.insertTelemetry i ev) = [] ∧
          ev.rows order = [] := by
        cases ev with
        | load t ready =>
          cases ready with
          | false => exact absurd rfl (hload t)
          | true => exact ⟨rfl, rfl⟩
        | locked t sec o a => exact absurd rfl (hlocked t sec o a)
        | _ => exact ⟨rfl, rfl⟩
      refine h.frame hanswers (fun j => ?_) (by simpa [hrows] using htable)
      rcases eq_or_ne j i with rfl | hne
      · simp [hidle, hw]
      · simp [Function.update_of_ne hne]
  | join => exact h.frame rfl (fun _ => Iff.rfl) rfl
  | joined => exact h.frame rfl (fun _ => Iff.rfl) rfl
  | die => exact h.frame rfl (fun _ => Iff.rfl) rfl

theorem running_of_trace {s : State} (h : (program order rows logFile).Trace es s) :
    Running s := by
  refine h.reachable.invariant ?_ fun _ _ _ hi hs => hi.step hs
  rintro _ rfl
  exact .init

theorem logged_of_trace {s : State} (h : (program order rows logFile).Trace es s) :
    Logged logFile s := by
  have hboth : Running s ∧ Logged logFile s := by
    refine h.reachable.invariant (I := fun s => Running s ∧ Logged logFile s) ?_ ?_
    · rintro _ rfl
      exact ⟨.init, nofun, nofun, fun hne => absurd rfl hne⟩
    · exact fun _ _ _ hi hs => ⟨hi.1.step hs, hi.2.step hi.1 hs⟩
  exact hboth.2

theorem accounted_of_trace {s : State} (h : (program order rows logFile).Trace es s) :
    Accounted order rows es s := by
  have hboth : Running s ∧ Accounted order rows es s := by
    refine h.invariant (I := fun es s => Running s ∧ Accounted order rows es s) ?_ ?_
    · rintro _ rfl
      exact ⟨.init, .init order⟩
    · exact fun _ _ _ _ hi hs => ⟨hi.1.step hs, hi.2.step hi.1 hs⟩
  exact hboth.2

def engineView (order : IterationOrder) (rows : List Row) (logFile : Bool) :
    Lib.Simulation (program order rows logFile) (Storage.threads Thread order rows) where
  label
    | .callEngine ev | .insertTelemetry _ ev => [ev]
    | _ => []
  Rel s st := st = s.storage
  init := by
    rintro _ rfl
    exact ⟨_, rfl, rfl⟩
  step := by
    rintro s ev t _ rfl hs
    refine ⟨t.storage, ?_, rfl⟩
    cases hs with
    | callEngine _ _ _ _ _ _ hstep _ => exact .single hstep
    | insertTelemetry _ _ _ _ _ _ hstep => exact .single hstep
    | _ => exact .nil

theorem closed_of_exited {s : State} (h : (program order rows logFile).Trace es s)
    (hexited : s.main = .exited code) : s.storage.engine.Closed := by
  have hboth : Running s ∧ ∀ code, s.main = .exited code → s.storage.engine.Closed := by
    refine h.reachable.invariant
      (I := fun s => Running s ∧ ∀ code, s.main = .exited code → s.storage.engine.Closed) ?_ ?_
    · rintro _ rfl
      exact ⟨.init, by simp⟩
    rintro s ev t ⟨hr, hc⟩ hs
    refine ⟨hr.step hs, fun code hcode => ?_⟩
    cases hs with
    | callEngine op ev storage hop ht hkeeps hstep =>
      have hpc := hr.mainCall.of_thread (MainPc.call_of_operation hop) ht
      dsimp only at hcode
      cases hp : s.main with
      | init =>
        rw [hp] at hcode
        split at hcode
        · cases ev with
          | load t ready => cases ready <;> simp [MainPc.afterCall] at hcode
          | _ => simp [MainPc.afterCall] at hcode
        · cases hcode
      | destroy code' =>
        obtain rfl : op = .locking .close := by simpa [hp, MainPc.operation, eq_comm] using hop
        rcases Storage.engine_step_close hstep hpc hkeeps with ⟨-, hclose, -⟩ | ⟨hnot, -, -⟩
        · dsimp only
          rw [hclose]
          exact Storage.StorageEngine.closed_closeInternal _
        · rw [ht] at hnot
          simp [hnot, hp] at hcode
      | _ => simp [hp, MainPc.operation] at hop
    | insertTelemetry i ev storage hw =>
      have hcode : s.main = .exited code := hcode
      have hquiet := hr.shape.quiet (by rw [hcode]; rfl) i
      simp [hw, WorkerPc.operation] at hquiet
    | spawn => cases hcode
    | spawned => cases hcode
    | join => cases hcode
    | joined => cases hcode
    | die => cases hcode
  exact hboth.2 code hexited

/-- In every run of the program, whatever SQLite answers and however its
threads interleave: no section is entered on an engine that is not ready; one
row of the sample is added to the table for each insertion answered true, and a
thread is answered once. Where main has returned, the engine is closed and each of its
connections too, once; and main returns 1 before any thread is started, or 0
after all four have been answered. -/
theorem mainCorrect {s : State} (h : (program order rows logFile).Trace es s) :
    s.storage.crashed = false ∧ Storage.StatementsLive order s.storage ∧
      ((answers es).map Prod.fst).Nodup ∧
      s.storage.engine.table =
        rows ++ List.replicate ((answers es).countP (·.2)) (rowOf order sampleData) ∧
      ∀ code, s.main = .exited code →
        s.storage.engine.Closed ∧
        (∀ n, .opened n ∈ s.storage.engine.handleCalls →
          s.storage.engine.handleCalls.count (.closed n) = 1) ∧
        ((code = 1 ∧ answers es = []) ∨
          (code = 0 ∧ ((answers es).map Prod.fst).Perm (List.range 4))) := by
  have hr := running_of_trace h
  have ha := accounted_of_trace h
  refine ⟨hr.checked.running, hr.checked.statementsLive, ha.nodup, ha.table, fun code hexited => ?_⟩
  have hclosed := closed_of_exited h hexited
  obtain ⟨_, htrace, rfl⟩ := (engineView order rows logFile).trace h
  have hhandles : Storage.StorageEngine.HandlesOk s.storage.engine :=
    Storage.handlesOk_of_reachable htrace.reachable
  have hledger : Storage.Ledger s.storage.engine.opened s.storage.engine.handleCalls none none := by
    simpa [Storage.StorageEngine.HandlesOk, hclosed.1, hclosed.2] using hhandles
  refine ⟨hclosed, fun n hn => hledger.allClosed hn, ?_⟩
  have hshape := hr.shape
  rw [hexited] at hshape
  rcases hshape.inRange with rfl | rfl
  · right
    refine ⟨rfl, (List.perm_ext_iff_of_nodup ha.nodup List.nodup_range).mpr fun i => ?_⟩
    rw [ha.mem_iff, List.mem_range]
    constructor
    · intro hfinished
      by_contra hi
      exact absurd (hfinished.symm.trans ((hshape.spawned i).mpr (not_lt.mp hi))) (by simp)
    · exact hshape.joined i
  · exact .inl ⟨rfl, ha.answers_eq_nil hr.shape (by rw [hexited]; rfl)⟩

def oneFails : Storage.SqliteOutcomes where
  step _ := .failed false

/-- On a file with a row in it, the second thread's insertion fails. -/
theorem trace_threeInserted : ∃ es s,
    (program .byKey [rowOf .byKey sampleData] true).Trace es s ∧ s.main = .exited 0 ∧
      answers es = [(0, true), (1, false), (2, true), (3, true)] :=
  ⟨_, _, ⟨_, rfl,
    .cons (.callEngine _ .init (.call none .init) _ rfl rfl (by simp)
      (.call _ _ _ rfl rfl) (by simp)) <|
    .cons (.callEngine _ .init (.once none {}) _ rfl rfl (by simp)
      (.once _ _ _ _ rfl rfl) (by simp)) <|
    .cons (.callEngine _ .init (.load none true) _ rfl rfl (by simp)
      (.load _ _ _ rfl rfl) (by simp)) <|
    .cons (.spawn _ 0 rfl rfl (by simp)) <| .cons (.spawn _ 1 rfl rfl (by simp)) <|
    .cons (.spawn _ 2 rfl rfl (by simp)) <| .cons (.spawn _ 3 rfl rfl (by simp)) <|
    .cons (.spawned _ rfl rfl) <|
    .cons (.insertTelemetry _ 0 (.call (some 0) (.locking (.insertTelemetry sampleData))) _ rfl rfl
      (by simp) (.call _ _ _ rfl rfl)) <|
    .cons (.insertTelemetry _ 0 (.once (some 0) {}) _ rfl rfl (by simp) (.once _ _ _ _ rfl rfl)) <|
    .cons (.insertTelemetry _ 0 (.load (some 0) true) _ rfl rfl (by simp) (.load _ _ _ rfl rfl)) <|
    .cons (.insertTelemetry _ 0
      (.locked (some 0) (.insertTelemetry sampleData) {} (.returned true)) _ rfl rfl
      (by simp) (.locked _ _ _ _ rfl rfl rfl)) <|
    .cons (.insertTelemetry _ 1 (.call (some 1) (.locking (.insertTelemetry sampleData))) _ rfl rfl
      (by simp) (.call _ _ _ rfl rfl)) <|
    .cons (.insertTelemetry _ 1 (.once (some 1) {}) _ rfl rfl (by simp) (.once _ _ _ _ rfl rfl)) <|
    .cons (.insertTelemetry _ 1 (.load (some 1) true) _ rfl rfl (by simp) (.load _ _ _ rfl rfl)) <|
    .cons (.insertTelemetry _ 1
      (.locked (some 1) (.insertTelemetry sampleData) oneFails (.returned false)) _ rfl rfl
      (by simp) (.locked _ _ _ _ rfl rfl rfl)) <|
    .cons (.insertTelemetry _ 2 (.call (some 2) (.locking (.insertTelemetry sampleData))) _ rfl rfl
      (by simp) (.call _ _ _ rfl rfl)) <|
    .cons (.insertTelemetry _ 2 (.once (some 2) {}) _ rfl rfl (by simp) (.once _ _ _ _ rfl rfl)) <|
    .cons (.insertTelemetry _ 2 (.load (some 2) true) _ rfl rfl (by simp) (.load _ _ _ rfl rfl)) <|
    .cons (.insertTelemetry _ 2
      (.locked (some 2) (.insertTelemetry sampleData) {} (.returned true)) _ rfl rfl
      (by simp) (.locked _ _ _ _ rfl rfl rfl)) <|
    .cons (.insertTelemetry _ 3 (.call (some 3) (.locking (.insertTelemetry sampleData))) _ rfl rfl
      (by simp) (.call _ _ _ rfl rfl)) <|
    .cons (.insertTelemetry _ 3 (.once (some 3) {}) _ rfl rfl (by simp) (.once _ _ _ _ rfl rfl)) <|
    .cons (.insertTelemetry _ 3 (.load (some 3) true) _ rfl rfl (by simp) (.load _ _ _ rfl rfl)) <|
    .cons (.insertTelemetry _ 3
      (.locked (some 3) (.insertTelemetry sampleData) {} (.returned true)) _ rfl rfl
      (by simp) (.locked _ _ _ _ rfl rfl rfl)) <|
    .cons (.join _ 0 rfl rfl (by simp) rfl) <| .cons (.join _ 1 rfl rfl (by simp) rfl) <|
    .cons (.join _ 2 rfl rfl (by simp) rfl) <| .cons (.join _ 3 rfl rfl (by simp) rfl) <|
    .cons (.joined _ rfl rfl) <|
    .cons (.callEngine _ (.locking .close) (.call none (.locking .close)) _ rfl rfl (by simp)
      (.call _ _ _ rfl rfl) (by simp)) <|
    .single (.callEngine _ (.locking .close) (.locked none .close {} .void) _ rfl rfl (by simp)
      (.locked _ _ _ _ rfl rfl rfl) (by simp))⟩, rfl, rfl⟩

theorem mainCorrect_threeInserted : ∃ s : State, s.main = .exited 0 ∧
    s.storage.engine.table = List.replicate 4 (rowOf .byKey sampleData) ∧
    s.storage.engine.Closed := by
  obtain ⟨es, s, h, hexited, hanswers⟩ := trace_threeInserted
  obtain ⟨-, -, -, htable, hends⟩ := mainCorrect h
  exact ⟨s, hexited, by rw [htable, hanswers]; rfl, (hends 0 hexited).1⟩

-- ---------------------------------------------------------------------------
-- The program ends
-- ---------------------------------------------------------------------------

def MainPc.stepsLeft : MainPc → Nat
  | .init => 14
  | .spawn i => 10 + (4 - i)
  | .join i => 5 + (4 - i)
  | .destroy _ => 0
  | .exited _ | .died => 0

def State.mainSteps (s : State) : Nat :=
  match s.main.operation with
  | some _ => s.main.stepsLeft + (s.storage.pc none).callSteps
  | none => s.main.stepsLeft

def State.workerSteps (s : State) (i : Nat) : Nat :=
  match s.workers i with
  | .notStarted => 4
  | .inserting => (s.storage.pc (some i)).callSteps
  | .finished => 0

def State.stepsLeft (s : State) : Nat := s.mainSteps + ∑ i ∈ Finset.range 4, s.workerSteps i

theorem callSteps_pos (pc : Storage.Pc) : 0 < pc.callSteps := by
  cases pc <;> simp [Storage.Pc.callSteps]

theorem stepsLeft_lt {s s' : State} (hmain : s'.mainSteps < s.mainSteps)
    (hworkers : ∀ i, s'.workerSteps i = s.workerSteps i) : s'.stepsLeft < s.stepsLeft := by
  rw [State.stepsLeft, State.stepsLeft, Finset.sum_congr rfl fun i _ => hworkers i]
  exact Nat.add_lt_add_right hmain _

theorem MainPc.spawned_le {pc : MainPc} (h : pc.InRange) : pc.spawned ≤ 4 := by
  cases pc with
  | init | died => exact Nat.zero_le 4
  | spawn i => exact h
  | join i => exact Nat.le_refl 4
  | destroy code | exited code => rcases h with rfl | rfl <;> simp [MainPc.spawned]

theorem Shape.lt_of_started (h : Shape pc workers) (hw : workers i ≠ .notStarted) : i < 4 := by
  have hlt : i < pc.spawned := Nat.lt_of_not_le fun hle => hw ((h.spawned i).mpr hle)
  exact hlt.trans_le (MainPc.spawned_le h.inRange)

theorem Running.mainSteps_callEngine {s : State} (h : Running s)
    (hop : s.main.operation = some op) (ht : ev.thread = none) (hkeeps : ev.KeepsTo op)
    (hs : Storage.Step order s.storage ev storage) (hcrashed : storage.crashed = false) :
    State.mainSteps
        { s with
          storage
          main := if (storage.pc none).isIdle then s.main.afterCall ev else s.main } <
      s.mainSteps := by
  have hcall := Storage.callSteps_step hs hcrashed
  have hpos := callSteps_pos (s.storage.pc none)
  have hpc := h.mainCall.of_thread (MainPc.call_of_operation hop) ht
  rw [ht] at hcall
  cases hidle : (storage.pc none).isIdle with
  | false =>
    have hlt := hcall.resolve_left (by simp [hidle])
    simpa [State.mainSteps, hop, hidle] using hlt
  | true =>
    cases hp : s.main with
    | init =>
      obtain rfl : op = .init := by simpa [hp, MainPc.operation, eq_comm] using hop
      rcases Storage.step_init_cases hs hpc hkeeps with hnot | ⟨t, rfl⟩
      · rw [ht, hidle] at hnot
        cases hnot
      · have hback : (storage.pc none).callSteps = 4 := by
          rw [Storage.Pc.isIdle_iff.mp hidle]
          rfl
        cases s.storage.engine.isInitialized with
        | true =>
          simpa [State.mainSteps, hp, hidle, MainPc.operation, MainPc.afterCall,
            MainPc.stepsLeft] using hpos
        | false =>
          simp only [State.mainSteps, hp, hback, MainPc.operation, MainPc.afterCall,
            MainPc.stepsLeft, if_true, Bool.false_eq_true, if_false]
          omega
    | destroy code =>
      simpa [State.mainSteps, hp, hidle, MainPc.operation, MainPc.afterCall,
        MainPc.stepsLeft] using hpos
    | _ => simp [hp, MainPc.operation] at hop

theorem workerSteps_insertTelemetry {s : State} (hw : s.workers i = .inserting)
    (ht : ev.thread = some i) (hs : Storage.Step order s.storage ev storage)
    (hcrashed : storage.crashed = false) :
    State.workerSteps
        { s with
          storage
          workers := Function.update s.workers i
            (if (storage.pc (some i)).isIdle then .finished else .inserting) } i <
      s.workerSteps i := by
  have hcall := Storage.callSteps_step hs hcrashed
  rw [ht] at hcall
  cases hidle : (storage.pc (some i)).isIdle with
  | true => simpa [State.workerSteps, hw] using callSteps_pos (s.storage.pc (some i))
  | false => simpa [State.workerSteps, hw] using hcall.resolve_left (by simp [hidle])

theorem Running.stepsLeft_step {s s' : State} (h : Running s)
    (hs : Step order logFile s ev s') : s'.stepsLeft < s.stepsLeft := by
  have h' := h.step hs
  cases hs with
  | callEngine op ev storage hop ht hkeeps hstep =>
    have hworkers : ∀ i, storage.pc (some i) = s.storage.pc (some i) :=
      fun i => Storage.pc_step_of_ne hstep (by simp [ht])
    refine stepsLeft_lt ?_ fun i => by simp only [State.workerSteps, hworkers]
    exact h.mainSteps_callEngine hop ht hkeeps hstep h'.checked.running
  | spawn i hcr hp hi =>
    have hshape := h.shape
    rw [hp] at hshape
    have hnew : s.workers i = .notStarted := (hshape.spawned i).mpr le_rfl
    have hidle : s.storage.pc (some i) = .idle :=
      (h.quiet (by rw [hnew]; rfl) none).eq_idle
    refine stepsLeft_lt ?_ fun j => ?_
    · simp only [State.mainSteps, hp, MainPc.operation, MainPc.stepsLeft]
      omega
    · rcases eq_or_ne j i with rfl | hne
      · simp [State.workerSteps, hnew, hidle, Storage.Pc.callSteps]
      · simp [State.workerSteps, Function.update_of_ne hne]
  | spawned hcr hp =>
    refine stepsLeft_lt ?_ fun _ => rfl
    simp [State.mainSteps, hp, MainPc.operation, MainPc.stepsLeft]
  | insertTelemetry i ev storage hw ht hkeeps hstep =>
    have hothers : ∀ t, t ≠ some i → storage.pc t = s.storage.pc t :=
      fun t hne => Storage.pc_step_of_ne hstep (by simpa [ht] using hne)
    have hstarted : i < 4 := h.shape.lt_of_started (by simp [hw])
    have hworker := workerSteps_insertTelemetry hw ht hstep h'.checked.running
    refine Nat.add_lt_add_of_le_of_lt (le_of_eq ?_) (Finset.sum_lt_sum (fun j _ => ?_)
      ⟨i, Finset.mem_range.mpr hstarted, ?_⟩)
    · simp only [State.mainSteps, hothers none (by simp)]
    · rcases eq_or_ne j i with rfl | hne
      · exact hworker.le
      · simp [State.workerSteps, Function.update_of_ne hne, hothers (some j) (by simpa using hne)]
    · exact hworker
  | join i hcr hp hi hfinished =>
    refine stepsLeft_lt ?_ fun _ => rfl
    simp only [State.mainSteps, hp, MainPc.operation, MainPc.stepsLeft]
    omega
  | joined hcr hp =>
    refine stepsLeft_lt ?_ fun _ => rfl
    have hmain := h.mainCall
    rw [hp] at hmain
    simp [State.mainSteps, hp, hmain.eq_idle, MainPc.operation, MainPc.stepsLeft,
      Storage.Pc.callSteps]
  | die hcr hp =>
    refine stepsLeft_lt ?_ fun _ => rfl
    simp [State.mainSteps, hp, MainPc.operation, MainPc.stepsLeft]

def Ended (logFile : Bool) (s : State) : Prop :=
  if logFile then ∃ code, s.main = .exited code else s.main = .died

theorem Running.exists_step {s : State} (h : Running s) (hlog : Logged logFile s)
    (hended : ¬Ended logFile s) : ∃ ev s', Step order logFile s ev s' := by
  have hrange := h.shape.inRange
  have hshape := h.shape
  cases hp : s.main with
  | init =>
    obtain ⟨ev, storage, hstep, ht, hkeeps⟩ : ∃ ev st, Storage.Step order s.storage ev st ∧
      ev.thread = none ∧ ev.KeepsTo .init := Storage.exists_step_of_checked h.checked none .init
    have hcall : (∀ t o, ev = .once t o → logFile = true) → ∃ ev s', Step order logFile s ev s' :=
      fun honce => ⟨_, _, .callEngine s .init ev storage (by rw [hp]; rfl) ht hkeeps hstep honce⟩
    cases hstep with
    | once _ t op o _ hpc =>
      obtain rfl : t = none := ht
      cases hfile : logFile with
      | true => exact hfile ▸ hcall fun _ _ _ => hfile
      | false =>
        have hmain := h.mainCall
        rw [hpc, hp] at hmain
        cases hmain with
        | once => exact ⟨_, _, .die s h.checked.running hp hpc rfl⟩
    | _ => exact hcall (by simp)
  | spawn i =>
    rw [hp] at hrange
    rcases Nat.lt_or_eq_of_le hrange with hi | rfl
    · exact ⟨_, _, .spawn s i h.checked.running hp hi⟩
    · exact ⟨_, _, .spawned s h.checked.running hp⟩
  | join i =>
    rw [hp] at hrange hshape
    rcases Nat.lt_or_eq_of_le hrange with hi | rfl
    · cases hw : s.workers i with
      | notStarted => exact absurd ((hshape.spawned i).mp hw) (not_le.mpr hi)
      | inserting =>
        obtain ⟨ev, storage, hstep, ht, hkeeps⟩ : ∃ ev st, Storage.Step order s.storage ev st ∧
            ev.thread = some i ∧ ev.KeepsTo (.locking (.insertTelemetry sampleData)) :=
          Storage.exists_step_of_checked h.checked (some i) _
        exact ⟨_, _, .insertTelemetry s i ev storage hw ht hkeeps hstep⟩
      | finished => exact ⟨_, _, .join s i h.checked.running hp hi hw⟩
    · exact ⟨_, _, .joined s h.checked.running hp⟩
  | destroy code =>
    obtain ⟨ev, storage, hstep, ht, hkeeps⟩ : ∃ ev st, Storage.Step order s.storage ev st ∧
        ev.thread = none ∧ ev.KeepsTo (.locking .close) :=
      Storage.exists_step_of_checked h.checked none _
    have hfile := hlog.past (by simp [hp]) (by simp [hp])
    exact ⟨_, _, .callEngine s (.locking .close) ev storage (by rw [hp]; rfl) ht hkeeps hstep
      fun _ _ _ => hfile⟩
  | exited code =>
    have hfile := hlog.past (by simp [hp]) (by simp [hp])
    simp [Ended, hfile, hp] at hended
  | died => simp [Ended, hlog.died hp, hp] at hended

theorem Running.not_step {s : State} (h : Running s) (hended : Ended logFile s) :
    ¬Step order logFile s ev s' := by
  have hstopped : (∃ code, s.main = .exited code) ∨ s.main = .died := by
    unfold Ended at hended
    split at hended
    · exact .inl hended
    · exact .inr hended
  have hquiet : ∀ i, (s.workers i).operation = none := by
    refine h.shape.quiet ?_
    rcases hstopped with ⟨code, hp⟩ | hp <;> rw [hp] <;> rfl
  intro hs
  cases hs with
  | callEngine op _ _ hop =>
    rcases hstopped with ⟨code, hp⟩ | hp <;> simp [hp, MainPc.operation] at hop
  | insertTelemetry i _ _ hw =>
    have hnone := hquiet i
    rw [hw] at hnone
    cases hnone
  | spawn i _ hp | spawned _ hp | join i _ hp | joined _ hp | die _ hp => simp [hp] at hstopped

/-- No run of the program has more than 34 steps, and where the log file can be
opened, none is stuck before main has returned, and each can be led to where it
has. Where it cannot, the same holds of the program's death in `init`. -/
theorem mainReturns {s : State} (h : (program order rows logFile).Trace es s) :
    es.length ≤ 34 ∧ ((∀ ev s', ¬Step order logFile s ev s') ↔ Ended logFile s) ∧
      (logFile = false → answers es = [] ∧ ∀ code, s.main ≠ .exited code) ∧
      ∃ rest t, (program order rows logFile).Run s rest t ∧ Ended logFile t := by
  have hr := running_of_trace h
  have hlog := logged_of_trace h
  have hends : ∀ {s : State}, Running s → Logged logFile s →
      (∀ ev s', ¬Step order logFile s ev s') → Ended logFile s := by
    intro s hr hlog hstuck
    by_contra hne
    obtain ⟨ev, s', hs⟩ : ∃ ev s', Step order logFile s ev s' := hr.exists_step hlog hne
    exact hstuck ev s' hs
  have hstep : ∀ s ev s', Running s → (program order rows logFile).step s ev s' →
      Running s' ∧ s'.stepsLeft < s.stepsLeft :=
    fun s ev s' hr hs => ⟨hr.step hs, hr.stepsLeft_step hs⟩
  refine ⟨?_, ⟨hends hr hlog, fun hended _ _ => hr.not_step hended⟩, fun hfile => ?_, ?_⟩
  · obtain ⟨_, rfl, hrun⟩ := h
    have hle := (hrun.length_add_le .init hstep).2
    exact (Nat.le_add_right _ _).trans hle
  · have hpc : s.main = .init ∨ s.main = .died := by
      by_contra hne
      obtain ⟨hinit, hdied⟩ := not_or.mp hne
      exact absurd (hlog.past hinit hdied) (by simp [hfile])
    have hspawned : s.main.spawned = 0 := by rcases hpc with hp | hp <;> rw [hp] <;> rfl
    exact ⟨(accounted_of_trace h).answers_eq_nil hr.shape hspawned,
      fun code hcode => by simp [hcode] at hpc⟩
  · obtain ⟨rest, t, hrun, hstuck⟩ := Lts.exists_run_stuck hr hstep
    have ht := h.append hrun
    exact ⟨rest, t, hrun, hends (running_of_trace ht) (logged_of_trace ht) hstuck⟩

theorem mainReturns_both : (∃ es s, es.length ≤ 34 ∧
      (program .byKey [rowOf .byKey sampleData] true).Trace es s ∧
      ∀ ev s', ¬Step .byKey true s ev s') ∧
    ∃ s rest t, s.main = .init ∧ (program .byKey [] false).Run s rest t ∧ t.main = .died := by
  obtain ⟨es, s, h, hexited, -⟩ := trace_threeInserted
  obtain ⟨hlength, hstuck, -⟩ := mainReturns h
  have hcalled : (program .byKey [] false).Trace [.callEngine (.call none .init)] _ := ⟨_, rfl,
    .single (.callEngine _ .init _ _ rfl rfl (by simp)
      (.call _ _ _ rfl rfl) (by simp))⟩
  obtain ⟨-, -, -, rest, t, hrun, hdied⟩ := mainReturns hcalled
  exact ⟨⟨es, s, hlength, h, hstuck.mpr ⟨0, hexited⟩⟩, _, rest, t, rfl, hrun, hdied⟩

end SecureTelemetryGateway.Main
