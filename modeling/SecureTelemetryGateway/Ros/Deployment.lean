import SecureTelemetryGateway.Lib.Simulation
import SecureTelemetryGateway.Ros.Envelope
import SecureTelemetryGateway.Ros.Publishing
import SecureTelemetryGateway.Ros.Worker
import SecureTelemetryGateway.Storage.Callers

/-!
# The node over the storage engine

The constructor, the callbacks, the worker and the destructor of
`gateway_node.cpp`, with the storage engine they share instead of a table: a
call of the engine takes the engine's steps, and those of the other threads
come in between. The engine is called by two threads, the one that makes the
node and destroys it, and the worker. A run begins after the constructor's first
log line, where a constructor that cannot open the log file has died.
-/

namespace SecureTelemetryGateway.Ros

open Models (TelemetryData)
open Containers (ConcurrentQueue)
open Ingestion (Nlohmann)
open Storage (IterationOrder Operation)
open Lib (Lts Simulation)

-- ---------------------------------------------------------------------------
-- States and steps
-- ---------------------------------------------------------------------------

/-- `rows` is what the database file has in it. -/
structure Runtime where
  nl : Nlohmann
  conv : Conversions
  decrypt : Decryptor
  order : IterationOrder
  rows : List Storage.Row := []

inductive Caller
  | node
  | worker
  deriving DecidableEq

/-- Where the thread is that makes the node and destroys it. The last close is
that of `~StorageEngine`. -/
inductive Phase
  | initSubsystems
  | startWorker
  | operating
  | stop
  | join
  | close
  | destroyEngine
  | destroyed
  deriving DecidableEq

def Phase.operation : Phase → Option Operation
  | .initSubsystems => some .init
  | .close | .destroyEngine => some (.locking .close)
  | _ => none

/-- Where it is once the call is back. Whether `init` has failed is logged, and
not looked at any further. -/
def Phase.afterCall : Phase → Phase
  | .initSubsystems => .startWorker
  | .close => .destroyEngine
  | .destroyEngine => .destroyed
  | phase => phase

def WorkerPc.operation : WorkerPc → Option Operation
  | .insert data => some (.locking (.insertTelemetry data))
  | _ => none

/-- A `std::thread` that has not been started is `none`. -/
structure DeployedNode (τ : Type u) where
  storage : Storage.State Caller := {}
  telemetryQueue : ConcurrentQueue TelemetryData := .new 1000
  pushing : τ → Option TelemetryData := fun _ => none
  running : Bool := false
  workerThread : Option WorkerPc := none
  phase : Phase := .initSubsystems

inductive DeployedEvent (τ : Type u)
  | callEngine (phase : Phase) (ev : Storage.Event Caller)
  | startWorker
  | rawTelemetry (thread : τ) (text : Bytes) (now : UInt64)
  | push (thread : τ) (data : TelemetryData) (ok : Bool)
  | loadRunning (running : Bool)
  | callOk (ok : Bool)
  | pop (data : Option TelemetryData)
  | insertTelemetry (data : TelemetryData) (ev : Storage.Event Caller)
  | publish (data : TelemetryData) (stamp : Int64)
  | wake
  | destroy
  | stop
  | join

def rawFrame (rt : Runtime) (now : UInt64) (text : Bytes) : Option TelemetryData :=
  match decodeEnvelope rt.conv rt.nl text with
  | .ok packet => frameOf (receive rt.nl now rt.decrypt packet)
  | .error _ => none

variable {τ : Type u} {rt : Runtime}

theorem queue_rawTelemetryCallback (rt : Runtime) (now : UInt64) (text : Bytes)
    (node : GatewayNode) :
    (rawTelemetryCallback rt.conv rt.nl now rt.decrypt text node).node.telemetryQueue =
      match rawFrame rt now text with
      | some data => (node.telemetryQueue.push data).2
      | none => node.telemetryQueue := by
  unfold rawTelemetryCallback rawFrame
  cases decodeEnvelope rt.conv rt.nl text with
  | error e => rfl
  | ok packet =>
    have hqueue := queue_processIncomingRawPayload rt.nl now rt.decrypt packet node
    dsimp only
    cases hr : receive rt.nl now rt.decrypt packet with
    | error e =>
      rw [processIncomingRawPayload, hr]
      rfl
    | ok r =>
      rw [hr] at hqueue
      rw [processIncomingRawPayload, hr] at hqueue ⊢
      cases r with
      | inl line => rfl
      | inr data => exact hqueue

inductive DeployedStep [DecidableEq τ] (rt : Runtime) :
    DeployedNode τ → DeployedEvent τ → DeployedNode τ → Prop
  | callEngine (s : DeployedNode τ) (op : Operation) (ev : Storage.Event Caller)
      (storage : Storage.State Caller) :
      s.phase.operation = some op → ev.thread = .node → ev.KeepsTo op →
      Storage.Step rt.order s.storage ev storage →
      DeployedStep rt s (.callEngine s.phase ev)
        { s with storage, phase :=
            if (storage.pc .node).isIdle then s.phase.afterCall else s.phase }
  | startWorker (s : DeployedNode τ) : s.storage.crashed = false → s.phase = .startWorker →
      DeployedStep rt s .startWorker
        { s with running := true, workerThread := some .testRunning, phase := .operating }
  | rawTelemetry (s : DeployedNode τ) (t : τ) (text : Bytes) (now : UInt64) :
      s.storage.crashed = false → s.pushing t = none → s.phase = .operating →
      DeployedStep rt s (.rawTelemetry t text now)
        { s with pushing := Function.update s.pushing t (rawFrame rt now text) }
  | push (s : DeployedNode τ) (t : τ) (data : TelemetryData) :
      s.storage.crashed = false → s.pushing t = some data → s.phase = .operating →
      DeployedStep rt s (.push t data (s.telemetryQueue.push data).1)
        { s with
          telemetryQueue := (s.telemetryQueue.push data).2
          pushing := Function.update s.pushing t none }
  | loadRunning (s : DeployedNode τ) :
      s.storage.crashed = false → s.workerThread = some .testRunning →
      DeployedStep rt s (.loadRunning s.running)
        { s with workerThread := some (if s.running then .testOk else .exited) }
  | callOk (s : DeployedNode τ) (ok : Bool) :
      s.storage.crashed = false → s.workerThread = some .testOk →
      DeployedStep rt s (.callOk ok)
        { s with workerThread := some (if ok then .pop else .exited) }
  | pop (s : DeployedNode τ) : s.storage.crashed = false → s.workerThread = some .pop →
      DeployedStep rt s (.pop s.telemetryQueue.pop.1)
        { s with
          telemetryQueue := s.telemetryQueue.pop.2
          workerThread := some (.afterPop s.telemetryQueue.pop.1) }
  | insertTelemetry (s : DeployedNode τ) (data : TelemetryData) (ev : Storage.Event Caller)
      (storage : Storage.State Caller) :
      s.workerThread = some (.insert data) → ev.thread = .worker →
      ev.KeepsTo (.locking (.insertTelemetry data)) →
      Storage.Step rt.order s.storage ev storage →
      DeployedStep rt s (.insertTelemetry data ev)
        { s with
          storage
          workerThread :=
            some (if (storage.pc .worker).isIdle then .publish data else .insert data) }
  | publish (s : DeployedNode τ) (data : TelemetryData) (stamp : Int64) :
      s.storage.crashed = false → s.workerThread = some (.publish data) →
      DeployedStep rt s (.publish data stamp) { s with workerThread := some .testRunning }
  | wake (s : DeployedNode τ) : s.storage.crashed = false → s.workerThread = some .sleep →
      DeployedStep rt s .wake { s with workerThread := some .testRunning }
  | destroy (s : DeployedNode τ) : s.storage.crashed = false → s.phase = .operating →
      DeployedStep rt s .destroy { s with phase := .stop }
  | stop (s : DeployedNode τ) : s.storage.crashed = false → s.phase = .stop →
      DeployedStep rt s .stop { s with running := false, phase := .join }
  -- `joinable` is whether a thread has been started
  | join (s : DeployedNode τ) : s.storage.crashed = false → s.phase = .join →
      (∀ pc, s.workerThread = some pc → pc = .exited) →
      DeployedStep rt s .join { s with phase := .close }

def deployed (τ : Type u) [DecidableEq τ] (rt : Runtime) :
    Lts (DeployedNode τ) (DeployedEvent τ) where
  init s := s = { storage := { engine := { table := rt.rows } } }
  step := DeployedStep rt

def DeployedEvent.engineEvents : DeployedEvent τ → List (Storage.Event Caller)
  | .callEngine _ ev | .insertTelemetry _ ev => [ev]
  | _ => []

-- ---------------------------------------------------------------------------
-- The invariant
-- ---------------------------------------------------------------------------

def Phase.afterJoin : Phase → Bool
  | .close | .destroyEngine | .destroyed => true
  | _ => false

/-- Each caller is in the call its place in the code says, and the worker's
thread is there from its start to its end. -/
structure Deployment (s : DeployedNode τ) : Prop where
  checked : Storage.Checked s.storage
  transaction : s.storage.engine.transaction = none
  nodeCall : (s.storage.pc .node).Within s.phase.operation
  workerCall : (s.storage.pc .worker).Within (s.workerThread.bind WorkerPc.operation)
  started : s.phase = .initSubsystems ∨ s.phase = .startWorker ↔ s.workerThread = none
  joined : s.phase.afterJoin = true → s.workerThread = some .exited

theorem Deployment.init :
    Deployment ({ storage := { engine := { table := rows } } } : DeployedNode τ) where
  checked := ⟨.init, fun _ => trivial, rfl⟩
  transaction := rfl
  nodeCall := .idle
  workerCall := .idle
  started := by simp
  joined := nofun

theorem Deployment.noInsertion {s : DeployedNode τ} (h : Deployment s)
    (hp : s.phase.operation = some (.locking .close)) (u : Caller) (data : TelemetryData) :
    s.storage.pc u ≠ .lock (.insertTelemetry data) := by
  intro hpc
  cases u with
  | node =>
    have hnode := hpc ▸ h.nodeCall
    rw [hp] at hnode
    exact absurd hnode.lock_inv (by simp)
  | worker =>
    have hafter : s.phase.afterJoin = true := by
      cases hphase : s.phase <;> simp_all [Phase.operation, Phase.afterJoin]
    have hworker := hpc ▸ h.workerCall
    rw [h.joined hafter] at hworker
    cases hworker.eq_idle

theorem Deployment.nodeStep {s : DeployedNode τ} (h : Deployment s)
    (hop : s.phase.operation = some op) (ht : ev.thread = .node)
    (hs : Storage.Step order s.storage ev storage) :
    Storage.EngineStep order s.storage ev storage := by
  refine Storage.engineStep_of_within hs h.transaction (h.nodeCall.of_thread hop ht) ?_
    fun hclose => h.noInsertion (hclose ▸ hop)
  rintro batch rfl
  cases hphase : s.phase <;> simp [hphase, Phase.operation] at hop

theorem Deployment.workerStep {s : DeployedNode τ} (h : Deployment s)
    (hw : s.workerThread = some (.insert data)) (ht : ev.thread = .worker)
    (hs : Storage.Step order s.storage ev storage) :
    Storage.EngineStep order s.storage ev storage := by
  have hop : s.workerThread.bind WorkerPc.operation = some (.locking (.insertTelemetry data)) := by
    rw [hw]
    rfl
  exact Storage.engineStep_of_within hs h.transaction (h.workerCall.of_thread hop ht)
    (by simp) (by simp)

theorem Deployment.congr {s s' : DeployedNode τ} (h : Deployment s)
    (hstorage : s'.storage = s.storage) (hphase : s'.phase = s.phase)
    (hthread : s'.workerThread = s.workerThread) : Deployment s' := by
  obtain ⟨storage, queue, pushing, running, thread, phase⟩ := s
  obtain ⟨storage', queue', pushing', running', thread', phase'⟩ := s'
  obtain rfl : storage' = storage := hstorage
  obtain rfl : phase' = phase := hphase
  obtain rfl : thread' = thread := hthread
  exact ⟨h.checked, h.transaction, h.nodeCall, h.workerCall, h.started, h.joined⟩

theorem Deployment.goOn {s : DeployedNode τ} (h : Deployment s) {pc pc' : WorkerPc}
    (hw : s.workerThread = some pc) (hop : pc.operation = none) (hne : pc ≠ .exited) :
    Deployment { s with workerThread := some pc' } where
  checked := h.checked
  transaction := h.transaction
  nodeCall := h.nodeCall
  workerCall := by
    have hidle := h.workerCall
    rw [hw, Option.bind_some, hop] at hidle
    exact hidle.eq_idle ▸ .idle
  started := by simpa [hw] using h.started
  joined hafter := absurd (Option.some.inj (hw.symm.trans (h.joined hafter))) hne

variable [DecidableEq τ]

theorem Deployment.step {s s' : DeployedNode τ} (h : Deployment s)
    (hs : DeployedStep rt s ev s') : Deployment s' := by
  cases hs with
  | callEngine op ev storage hop ht hkeeps hstep =>
    obtain ⟨⟨-, hno⟩, htrans, -⟩ := h.nodeStep hop ht hstep
    have hnode : (storage.pc .node).Within (some op) := h.nodeCall.step hop ht hkeeps hstep
    have hworker : storage.pc .worker = s.storage.pc .worker :=
      Storage.pc_step_of_ne hstep (by simp [ht])
    refine ⟨h.checked.step hstep hno, htrans, ?_, hworker ▸ h.workerCall, ?_, ?_⟩
    · dsimp only
      split
      · next hidle => exact .of_isIdle hidle
      · exact hop ▸ hnode
    · dsimp only
      rw [← h.started]
      split
      · cases hphase : s.phase <;> simp_all [Phase.afterCall, Phase.operation]
      · rfl
    · intro hafter
      refine h.joined ?_
      dsimp only at hafter
      split at hafter
      · cases hphase : s.phase <;> simp_all [Phase.afterCall, Phase.operation, Phase.afterJoin]
      · exact hafter
  | startWorker hcr hp =>
    have hnode := h.nodeCall
    rw [hp] at hnode
    have hworker := h.workerCall
    rw [h.started.mp (.inr hp)] at hworker
    exact ⟨h.checked, h.transaction, hnode.eq_idle ▸ .idle, hworker.eq_idle ▸ .idle, by simp, nofun⟩
  | rawTelemetry t text now => exact h.congr rfl rfl rfl
  | push t data => exact h.congr rfl rfl rfl
  | loadRunning hcr hw => exact h.goOn hw rfl (by simp)
  | callOk ok hcr hw => exact h.goOn hw rfl (by simp)
  | pop hcr hw =>
    have hgo : Deployment { s with workerThread := some (.afterPop s.telemetryQueue.pop.1) } :=
      h.goOn hw rfl (by simp)
    exact hgo.congr rfl rfl rfl
  | insertTelemetry data ev storage hw ht hkeeps hstep =>
    obtain ⟨⟨-, hno⟩, htrans, -⟩ := h.workerStep hw ht hstep
    have hop :
        s.workerThread.bind WorkerPc.operation = some (.locking (.insertTelemetry data)) := by
      rw [hw]
      rfl
    have hworker := h.workerCall.step hop ht hkeeps hstep
    have hnode : storage.pc .node = s.storage.pc .node :=
      Storage.pc_step_of_ne hstep (by simp [ht])
    refine ⟨h.checked.step hstep hno, htrans, hnode ▸ h.nodeCall, ?_, ?_, ?_⟩
    · dsimp only
      split
      · next hidle => exact .of_isIdle hidle
      · exact hworker
    · simpa [hw] using h.started
    · intro hafter
      exact absurd (hw.symm.trans (h.joined hafter)) (by simp)
  | publish data stamp hcr hw => exact h.goOn hw rfl (by simp)
  | wake hcr hw => exact h.goOn hw rfl (by simp)
  | destroy hcr hp =>
    refine ⟨h.checked, h.transaction, ?_, h.workerCall, ?_, nofun⟩
    · simpa [hp, Phase.operation] using h.nodeCall
    · simpa [hp] using h.started
  | stop hcr hp =>
    refine ⟨h.checked, h.transaction, ?_, h.workerCall, ?_, nofun⟩
    · simpa [hp, Phase.operation] using h.nodeCall
    · simpa [hp] using h.started
  | join hcr hp hexited =>
    have hnode := h.nodeCall
    rw [hp] at hnode
    refine ⟨h.checked, h.transaction, hnode.eq_idle ▸ .idle, h.workerCall, ?_, fun _ => ?_⟩
    · simpa [hp] using h.started
    · cases hthread : s.workerThread with
      | none => simpa [hp] using h.started.mpr hthread
      | some pc => exact congrArg some (hexited pc hthread)

theorem deployment_of_trace {s : DeployedNode τ} (h : (deployed τ rt).Trace es s) :
    Deployment s := by
  refine h.reachable.invariant ?_ fun _ _ _ hi hs => hi.step hs
  rintro _ rfl
  exact .init

-- ---------------------------------------------------------------------------
-- What the engine sees
-- ---------------------------------------------------------------------------

/-- The engine's part of a run is a run of the engine in which no close comes
between the check and the section of an insertion. -/
def engineView (τ : Type u) [DecidableEq τ] (rt : Runtime) :
    Simulation (deployed τ rt)
      ((Storage.threads Caller rt.order rt.rows).restrict Storage.NoCloseInBetween) where
  label ev := ev.engineEvents
  Rel s st := Deployment s ∧ st = s.storage
  init := by
    rintro _ rfl
    exact ⟨_, rfl, .init, rfl⟩
  step := by
    rintro s ev t _ ⟨h, rfl⟩ hs
    refine ⟨t.storage, ?_, h.step hs, rfl⟩
    cases hs with
    | callEngine _ _ _ hop ht _ hstep => exact .single (h.nodeStep hop ht hstep).step
    | insertTelemetry _ _ _ hw ht _ hstep => exact .single (h.workerStep hw ht hstep).step
    | _ => exact .nil

def engineEvents (es : List (DeployedEvent τ)) : List (Storage.Event Caller) :=
  es.flatMap (·.engineEvents)

theorem trace_engineEvents {s : DeployedNode τ} (h : (deployed τ rt).Trace es s) :
    ((Storage.threads Caller rt.order rt.rows).restrict Storage.NoCloseInBetween).Trace
      (engineEvents es) s.storage := by
  obtain ⟨_, htrace, -, rfl⟩ := (engineView τ rt).trace h
  exact htrace

end SecureTelemetryGateway.Ros
