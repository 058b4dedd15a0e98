import SecureTelemetryGateway.Lib.Lts
import SecureTelemetryGateway.Ros.GatewayNode
import SecureTelemetryGateway.Storage.Insertion
import Mathlib.Logic.Function.Basic

/-!
# Callbacks, worker and destructor

The node in operation: any number of callback threads in
`process_incoming_raw_payload`, the thread in `worker_thread_loop`, and at the
end `~GatewayNode`. A callback shares nothing but its push; the worker loads
`running_` and asks `rclcpp::ok()` between any two pops. Once the destructor
has started no callback is inside the node any more.
-/

namespace SecureTelemetryGateway.Ros

open Models (TelemetryData)
open Containers (ConcurrentQueue)
open Ingestion (JsonError Nlohmann)
open Storage (IterationOrder Row rowOf)
open Lib (Lts)

/-- What the node runs in: the JSON library, the decryptor, the order of the
payload loop, and the rows its table has to begin with. -/
structure Environment where
  nl : Nlohmann
  decrypt : Decryptor
  order : IterationOrder
  rows : List Row := []

inductive WorkerPc
  | testRunning
  | testOk
  | pop
  | insert (data : TelemetryData)
  | publish (data : TelemetryData)
  | sleep
  | exited

inductive DestructorPc
  | notStarted
  | started
  | stopped
  | joined
  | closed
  deriving DecidableEq

/-- `pushing` holds the frame a callback thread is about to push. -/
structure NodeState (τ : Type u) where
  telemetryQueue : ConcurrentQueue TelemetryData := .new 1000
  table : List Row
  running : Bool := true
  pushing : τ → Option TelemetryData := fun _ => none
  worker : WorkerPc := .testRunning
  destructor : DestructorPc := .notStarted

inductive NodeEvent (τ : Type u)
  | receive (thread : τ) (packet : Packet) (now : UInt64)
  | push (thread : τ) (data : TelemetryData) (ok : Bool)
  | loadRunning (running : Bool)
  | callOk (ok : Bool)
  | pop (data : Option TelemetryData)
  | insert (data : TelemetryData) (ok : Bool)
  | publish (data : TelemetryData)
  | wake
  | destroy
  | stop
  | join
  | close

def frameOf : Except JsonError (LogLine ⊕ TelemetryData) → Option TelemetryData
  | .ok (.inr data) => some data
  | _ => none

def WorkerPc.afterPop : Option TelemetryData → WorkerPc
  | some data => .insert data
  | none => .sleep

variable {τ : Type u} {env : Environment}

inductive NodeStep [DecidableEq τ] (env : Environment) :
    NodeState τ → NodeEvent τ → NodeState τ → Prop
  | receive (s : NodeState τ) (t : τ) (packet : Packet) (now : UInt64) :
      s.pushing t = none → s.destructor = .notStarted →
      NodeStep env s (.receive t packet now)
        { s with
          pushing := Function.update s.pushing t
            (frameOf (Ros.receive env.nl now env.decrypt packet)) }
  | push (s : NodeState τ) (t : τ) (data : TelemetryData) :
      s.pushing t = some data → s.destructor = .notStarted →
      NodeStep env s (.push t data (s.telemetryQueue.push data).1)
        { s with
          telemetryQueue := (s.telemetryQueue.push data).2
          pushing := Function.update s.pushing t none }
  | loadRunning (s : NodeState τ) : s.worker = .testRunning →
      NodeStep env s (.loadRunning s.running)
        { s with worker := if s.running then .testOk else .exited }
  | callOk (s : NodeState τ) (ok : Bool) : s.worker = .testOk →
      NodeStep env s (.callOk ok) { s with worker := if ok then .pop else .exited }
  | pop (s : NodeState τ) : s.worker = .pop →
      NodeStep env s (.pop s.telemetryQueue.pop.1)
        { s with
          telemetryQueue := s.telemetryQueue.pop.2
          worker := .afterPop s.telemetryQueue.pop.1 }
  -- the result of `insert_telemetry` is not looked at
  | insert (s : NodeState τ) (data : TelemetryData) (ok : Bool) : s.worker = .insert data →
      NodeStep env s (.insert data ok)
        { s with
          table := s.table ++ if ok then [rowOf env.order data] else []
          worker := .publish data }
  | publish (s : NodeState τ) (data : TelemetryData) : s.worker = .publish data →
      NodeStep env s (.publish data) { s with worker := .testRunning }
  | wake (s : NodeState τ) : s.worker = .sleep →
      NodeStep env s .wake { s with worker := .testRunning }
  | destroy (s : NodeState τ) : s.destructor = .notStarted →
      NodeStep env s .destroy { s with destructor := .started }
  | stop (s : NodeState τ) : s.destructor = .started →
      NodeStep env s .stop { s with running := false, destructor := .stopped }
  | join (s : NodeState τ) : s.destructor = .stopped → s.worker = .exited →
      NodeStep env s .join { s with destructor := .joined }
  | close (s : NodeState τ) : s.destructor = .joined →
      NodeStep env s .close { s with destructor := .closed }

def gateway (τ : Type u) [DecidableEq τ] (env : Environment) : Lts (NodeState τ) (NodeEvent τ) where
  init s := s = { table := env.rows }
  step := NodeStep env

def NodeEvent.accepted : NodeEvent τ → List TelemetryData
  | .push _ data true => [data]
  | _ => []

def accepted (es : List (NodeEvent τ)) : List TelemetryData := es.flatMap (·.accepted)

def NodeEvent.handled : NodeEvent τ → List (TelemetryData × Bool)
  | .insert data ok => [(data, ok)]
  | _ => []

def handled (es : List (NodeEvent τ)) : List (TelemetryData × Bool) := es.flatMap (·.handled)

def stored (es : List (NodeEvent τ)) : List TelemetryData :=
  ((handled es).filter (·.2)).map Prod.fst

def WorkerPc.held : WorkerPc → List TelemetryData
  | .insert data => [data]
  | _ => []

@[simp] theorem accepted_snoc (es : List (NodeEvent τ)) (ev : NodeEvent τ) :
    accepted (es ++ [ev]) = accepted es ++ ev.accepted := by simp [accepted]

@[simp] theorem handled_snoc (es : List (NodeEvent τ)) (ev : NodeEvent τ) :
    handled (es ++ [ev]) = handled es ++ ev.handled := by simp [handled]

theorem mem_handled {es : List (NodeEvent τ)} :
    (data, ok) ∈ handled es ↔ NodeEvent.insert data ok ∈ es := by
  simp only [handled, List.mem_flatMap]
  constructor
  · rintro ⟨ev, hev, h⟩
    cases ev with
    | insert =>
      simp only [NodeEvent.handled, List.mem_singleton, Prod.mk.injEq] at h
      obtain ⟨rfl, rfl⟩ := h
      exact hev
    | _ => simp [NodeEvent.handled] at h
  · exact fun h => ⟨_, h, by simp [NodeEvent.handled]⟩

variable [DecidableEq τ]

/-- A received packet and its push do to the queue what the function does. -/
theorem push_of_receive {s s₁ s₂ : NodeState τ}
    (h₁ : NodeStep env s (.receive t packet now) s₁) (h₂ : NodeStep env s₁ (.push t data ok) s₂) :
    s₂.telemetryQueue = (processIncomingRawPayload env.nl now env.decrypt packet
      { telemetryQueue := s.telemetryQueue }).2.telemetryQueue := by
  rw [queue_processIncomingRawPayload]
  cases h₁ with
  | receive =>
    cases h₂ with
    | push _ _ hp =>
      simp only [Function.update_self] at hp
      unfold frameOf at hp
      split at hp
      · rename_i hr
        obtain rfl := Option.some.inj hp
        rw [hr]
      · cases hp

/-- The worker's insertion is the storage engine's: with no transaction open,
either result of `insert_telemetry` is a step to the table it leaves. -/
theorem insert_of_insertTelemetry {s : NodeState τ} {e : Storage.StorageEngine}
    (hw : s.worker = .insert data) (htable : e.table = s.table) (ht : e.transaction = none)
    (h : e.insertTelemetry env.order o data = some (ok, e')) :
    ∃ s', NodeStep env s (.insert data ok) s' ∧ s'.table = e'.table ∧ e'.transaction = none := by
  obtain ⟨htrans, htable'⟩ := Storage.StorageEngine.insertTelemetry_spec h ht
  exact ⟨_, .insert s data ok hw, by rw [htable', htable], htrans⟩

theorem accepted_eq {s : NodeState τ} (h : (gateway τ env).Trace es s) :
    accepted es = (handled es).map Prod.fst ++ s.worker.held ++ s.telemetryQueue.queue := by
  refine h.invariant (I := fun es s => accepted es =
    (handled es).map Prod.fst ++ s.worker.held ++ s.telemetryQueue.queue) ?_ ?_
  · rintro _ rfl
    rfl
  intro es s ev s' ih hs
  rw [accepted_snoc, handled_snoc, ih]
  cases hs with
  | receive => simp [NodeEvent.accepted, NodeEvent.handled]
  | push t data =>
    have hq := ConcurrentQueue.queue_push s.telemetryQueue data
    cases hok : (s.telemetryQueue.push data).1 <;>
      simp [hq, hok, NodeEvent.accepted, NodeEvent.handled]
  | loadRunning hw =>
    cases s.running <;> simp [hw, NodeEvent.accepted, NodeEvent.handled, WorkerPc.held]
  | callOk ok hw =>
    cases ok <;> simp [hw, NodeEvent.accepted, NodeEvent.handled, WorkerPc.held]
  | pop hw =>
    have hq := ConcurrentQueue.queue_pop s.telemetryQueue
    rw [← hq]
    cases s.telemetryQueue.pop.1 <;>
      simp [hw, NodeEvent.accepted, NodeEvent.handled, WorkerPc.held, WorkerPc.afterPop]
  | insert data ok hw => simp [hw, NodeEvent.accepted, NodeEvent.handled, WorkerPc.held]
  | publish data hw => simp [hw, NodeEvent.accepted, NodeEvent.handled, WorkerPc.held]
  | wake hw => simp [hw, NodeEvent.accepted, NodeEvent.handled, WorkerPc.held]
  | destroy => simp [NodeEvent.accepted, NodeEvent.handled]
  | stop => simp [NodeEvent.accepted, NodeEvent.handled]
  | join => simp [NodeEvent.accepted, NodeEvent.handled]
  | close => simp [NodeEvent.accepted, NodeEvent.handled]

theorem table_eq {s : NodeState τ} (h : (gateway τ env).Trace es s) :
    s.table = env.rows ++ (stored es).map (rowOf env.order) := by
  refine h.invariant (I := fun es s => s.table = env.rows ++ (stored es).map (rowOf env.order))
    ?_ ?_
  · rintro _ rfl
    simp [stored, handled]
  intro es s ev s' ih hs
  cases hs with
  | insert data ok => cases ok <;> simp [ih, stored, NodeEvent.handled]
  | _ => simp [ih, stored, NodeEvent.handled]

end SecureTelemetryGateway.Ros
