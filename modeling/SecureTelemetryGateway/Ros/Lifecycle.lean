import SecureTelemetryGateway.Ros.Deployment
import SecureTelemetryGateway.Ros.Integrity
import SecureTelemetryGateway.Storage.Handles

/-!
# From construction to destruction

The node over the storage engine keeps the engine's rules: no section is
entered on a closed engine, and at the end nothing is open. And it is the node
with a table, its engine's: what holds of every run of that holds of this.
-/

namespace SecureTelemetryGateway.Ros

open Models (TelemetryData)
open Containers (ConcurrentQueue)
open Storage (rowOf)
open Lib (Lts Simulation)

variable {τ : Type u} {rt : Runtime}

-- ---------------------------------------------------------------------------
-- The engine at the end
-- ---------------------------------------------------------------------------

variable [DecidableEq τ]

/-- Every text is taken for the envelope of an empty object, but for the empty
object itself. -/
def emptyObjectRuntime : Runtime where
  nl :=
    { parse text := .ok (.object (if text = [0x7b, 0x7d] then [] else
        [("client_id", .string "robot"), ("ciphertext", .array []), ("iv", .array []),
          ("tag", .array [])]))
      castOutOfRange _ := 0 }
  conv := ⟨fun _ => 0, fun _ => ""⟩
  decrypt _ _ _ _ _ := (true, [0x7b, 0x7d])
  order := .byKey
  rows := [rowOf .byKey {}]

/-- The node is made, receives one message, stores its frame, publishes it and
is destroyed. -/
def oneMessage : List (DeployedEvent Unit) :=
  [.callEngine .initSubsystems (.call .node .init), .callEngine .initSubsystems (.once .node {}),
    .callEngine .initSubsystems (.load .node true), .startWorker, .rawTelemetry () [] 0,
    .push () emptyFrame true, .loadRunning true, .callOk true, .pop (some emptyFrame),
    .insertTelemetry emptyFrame (.call .worker (.locking (.insertTelemetry emptyFrame))),
    .insertTelemetry emptyFrame (.once .worker {}),
    .insertTelemetry emptyFrame (.load .worker true),
    .insertTelemetry emptyFrame
      (.locked .worker (.insertTelemetry emptyFrame) {} (.returned true)),
    .publish emptyFrame 0, .destroy, .stop, .loadRunning false, .join,
    .callEngine .close (.call .node (.locking .close)),
    .callEngine .close (.locked .node .close {} .void),
    .callEngine .destroyEngine (.call .node (.locking .close)),
    .callEngine .destroyEngine (.locked .node .close {} .void)]

theorem trace_oneMessage : ∃ s, (deployed Unit emptyObjectRuntime).Trace oneMessage s ∧
    s.phase = .destroyed ∧ s.telemetryQueue.queue = [] ∧
    s.storage.engine.table = [rowOf .byKey {}, rowOf .byKey emptyFrame] ∧
    s.storage.engine.handleCalls = [.opened 0, .prepared 0, .finalized 0, .closed 0] := by
  refine ⟨_, ⟨_, rfl,
    .cons (.callEngine _ .init _ _ rfl rfl (by simp) (.call _ _ _ rfl rfl)) <|
    .cons (.callEngine _ .init _ _ rfl rfl (by simp) (.once _ _ _ _ rfl rfl)) <|
    .cons (.callEngine _ .init _ _ rfl rfl (by simp) (.load _ _ _ rfl rfl)) <|
    .cons (.startWorker _ rfl rfl) <| .cons (.rawTelemetry _ () [] 0 rfl rfl rfl) <|
    .cons (.push _ () emptyFrame rfl rfl rfl) <| .cons (.loadRunning _ rfl rfl) <|
    .cons (.callOk _ true rfl rfl) <| .cons (.pop _ rfl rfl) <|
    .cons (.insertTelemetry _ emptyFrame _ _ rfl rfl (by simp) (.call _ _ _ rfl rfl)) <|
    .cons (.insertTelemetry _ emptyFrame _ _ rfl rfl (by simp) (.once _ _ _ _ rfl rfl)) <|
    .cons (.insertTelemetry _ emptyFrame _ _ rfl rfl (by simp) (.load _ _ _ rfl rfl)) <|
    .cons (.insertTelemetry _ emptyFrame _ _ rfl rfl (by simp) (.locked _ _ _ _ rfl rfl rfl)) <|
    .cons (.publish _ emptyFrame 0 rfl rfl) <| .cons (.destroy _ rfl rfl) <|
    .cons (.stop _ rfl rfl) <| .cons (.loadRunning _ rfl rfl) <|
    .cons (.join _ rfl rfl (by simp)) <|
    .cons (.callEngine _ (.locking .close) _ _ rfl rfl (by simp) (.call _ _ _ rfl rfl)) <|
    .cons (.callEngine _ (.locking .close) _ _ rfl rfl (by simp) (.locked _ _ _ _ rfl rfl rfl)) <|
    .cons (.callEngine _ (.locking .close) _ _ rfl rfl (by simp) (.call _ _ _ rfl rfl)) <|
    .single (.callEngine _ (.locking .close) _ _ rfl rfl (by simp)
      (.locked _ _ _ _ rfl rfl rfl))⟩, rfl, rfl, rfl, rfl⟩

def Runtime.environment (rt : Runtime) : Environment where
  nl := rt.nl
  decrypt := rt.decrypt
  order := rt.order
  rows := rt.rows

def Phase.destructor : Phase → DestructorPc
  | .initSubsystems | .startWorker | .operating => .notStarted
  | .stop => .started
  | .join => .stopped
  | .close => .joined
  | .destroyEngine | .destroyed => .closed

/-- A worker that has not been started has yet to make its first test. -/
def DeployedNode.abstract (s : DeployedNode τ) : NodeState τ where
  telemetryQueue := s.telemetryQueue
  table := s.storage.engine.table
  running :=
    match s.workerThread with
    | none => true
    | some _ => s.running
  pushing := s.pushing
  worker := s.workerThread.getD .testRunning
  destructor := s.phase.destructor

/-- What a step of the engine's is to the node: the insertion is done with its
answer, the close with its section. -/
def DeployedEvent.abstract (rt : Runtime) : DeployedEvent τ → List (NodeEvent τ)
  | .callEngine .close (.locked _ _ _ _) => [.close]
  | .callEngine _ _ => []
  | .startWorker => []
  | .rawTelemetry t text now =>
    match decodeEnvelope rt.conv rt.nl text with
    | .ok packet => [.receive t packet now]
    | .error _ => []
  | .push t data ok => [.push t data ok]
  | .loadRunning running => [.loadRunning running]
  | .callOk ok => [.callOk ok]
  | .pop data => [.pop data]
  | .insertTelemetry data (.load _ false) => [.insert data false]
  | .insertTelemetry data (.locked _ _ _ (.returned ok)) => [.insert data ok]
  | .insertTelemetry _ _ => []
  | .publish data _ => [.publish data]
  | .wake => [.wake]
  | .destroy => [.destroy]
  | .stop => [.stop]
  | .join => [.join]

omit [DecidableEq τ] in
theorem abstract_with {s : DeployedNode τ} {storage : Storage.State Caller}
    (htable : storage.engine.table = s.storage.engine.table)
    (hphase : phase.destructor = s.phase.destructor) :
    { s with storage, phase }.abstract = s.abstract := by
  simp only [DeployedNode.abstract, htable, hphase]

omit [DecidableEq τ] in
theorem Deployment.table_callEngine {s : DeployedNode τ} (h : Deployment s)
    (hop : s.phase.operation = some op) (ht : ev.thread = .node)
    (hs : Storage.Step order s.storage ev storage) :
    storage.engine.table = s.storage.engine.table := by
  have hpc := h.nodeCall.of_thread hop ht
  have hcall : op = .init ∨ op = .locking .close := by
    cases hp : s.phase <;> simp_all [Phase.operation]
  have hrows : ev.rows order = [] := Storage.rows_of_within hs hpc hcall
  rw [(h.nodeStep hop ht hs).table, hrows, List.append_nil]

theorem abstract_callEngine {s : DeployedNode τ} (h : Deployment s)
    (hop : s.phase.operation = some op) (ht : ev.thread = .node) (hkeeps : ev.KeepsTo op)
    (hs : Storage.Step rt.order s.storage ev storage) :
    (gateway τ rt.environment).Run s.abstract
      (DeployedEvent.abstract (τ := τ) rt (.callEngine s.phase ev))
      { s with
        storage
        phase := if (storage.pc .node).isIdle then s.phase.afterCall else s.phase }.abstract := by
  have htable := h.table_callEngine hop ht hs
  have hpc := h.nodeCall.of_thread hop ht
  cases hphase : s.phase with
  | initSubsystems =>
    rw [abstract_with htable (by split <;> simp [hphase, Phase.afterCall, Phase.destructor])]
    exact .nil
  | destroyEngine =>
    rw [abstract_with htable (by split <;> simp [hphase, Phase.afterCall, Phase.destructor])]
    exact .nil
  | close =>
    obtain rfl : op = .locking .close := by simpa [hphase, Phase.operation, eq_comm] using hop
    rcases Storage.engine_step_close hs hpc hkeeps with
      ⟨hidle, -, t, o, a, rfl⟩ | ⟨hidle, -, hnot⟩
    · rw [ht] at hidle
      have hclose : NodeStep rt.environment s.abstract .close
          { s.abstract with destructor := .closed } :=
        .close s.abstract (by simp [DeployedNode.abstract, hphase, Phase.destructor])
      simp only [hidle, if_true, Phase.afterCall]
      have habs : { s with storage, phase := .destroyEngine }.abstract =
          { s.abstract with destructor := .closed } := by
        simp only [DeployedNode.abstract, htable, Phase.destructor]
      rw [habs]
      exact .single hclose
    · rw [ht] at hidle
      have hlabel : DeployedEvent.abstract (τ := τ) rt (.callEngine .close ev) = [] := by
        cases ev with
        | locked t sec o a => exact absurd rfl (hnot t sec o a)
        | _ => rfl
      rw [abstract_with htable (by simp [hidle, hphase]), hlabel]
      exact .nil
  | _ => simp [hphase, Phase.operation] at hop

theorem abstract_insertTelemetry {s : DeployedNode τ} (h : Deployment s)
    (hw : s.workerThread = some (.insert data)) (ht : ev.thread = .worker)
    (hkeeps : ev.KeepsTo (.locking (.insertTelemetry data)))
    (hs : Storage.Step rt.order s.storage ev storage) :
    (gateway τ rt.environment).Run s.abstract
      (DeployedEvent.abstract (τ := τ) rt (.insertTelemetry data ev))
      { s with
        storage
        workerThread := some (if (storage.pc .worker).isIdle then .publish data
          else .insert data) }.abstract := by
  have htable := (h.workerStep hw ht hs).table
  have hpc := h.workerCall
  rw [hw, ← ht, Option.bind_some, WorkerPc.operation] at hpc
  have hworker : s.abstract.worker = .insert data := by simp [DeployedNode.abstract, hw]
  have hback : ∀ ok, (storage.pc .worker).isIdle = true →
      ev.rows rt.order = (if ok then [rowOf rt.order data] else []) →
      (gateway τ rt.environment).Run s.abstract [.insert data ok]
        { s with storage, workerThread := some (.publish data) }.abstract := by
    intro ok hidle hrows
    have hinsert : NodeStep rt.environment s.abstract (.insert data ok) _ :=
      .insert s.abstract data ok hworker
    have habs : { s with storage, workerThread := some (.publish data) }.abstract =
        { s.abstract with
          table := s.abstract.table ++ if ok then [rowOf rt.environment.order data] else []
          worker := .publish data } := by
      simp [DeployedNode.abstract, htable, hrows, hw, Runtime.environment]
    rw [habs]
    exact .single hinsert
  rcases Storage.step_insertTelemetry_cases hs hpc hkeeps with
    ⟨hidle, ⟨t, rfl⟩ | ⟨t, o, ok, rfl⟩⟩ | ⟨hidle, hload, hlocked⟩
  · rw [ht] at hidle
    rw [if_pos hidle]
    exact hback false hidle rfl
  · rw [ht] at hidle
    rw [if_pos hidle]
    exact hback ok hidle (by cases ok <;> rfl)
  · rw [ht] at hidle
    obtain ⟨hlabel, hrows⟩ : DeployedEvent.abstract (τ := τ) rt (.insertTelemetry data ev) = [] ∧
        ev.rows rt.order = [] := by
      cases ev with
      | load t ready =>
        cases ready with
        | false => exact absurd rfl (hload t)
        | true => exact ⟨rfl, rfl⟩
      | locked t sec o a => exact absurd rfl (hlocked t sec o a)
      | _ => exact ⟨rfl, rfl⟩
    have habs : { s with storage, workerThread := some (.insert data) }.abstract = s.abstract := by
      simp [DeployedNode.abstract, htable, hrows, hw]
    rw [hlabel]
    simpa [hidle, habs] using Lts.Run.nil

theorem abstract_rawTelemetry {s : DeployedNode τ} (hpushing : s.pushing t = none)
    (hp : s.phase = .operating) (text : Bytes) (now : UInt64) :
    (gateway τ rt.environment).Run s.abstract
      (DeployedEvent.abstract rt (.rawTelemetry t text now))
      { s with pushing := Function.update s.pushing t (rawFrame rt now text) }.abstract := by
  cases hdecode : decodeEnvelope rt.conv rt.nl text with
  | ok packet =>
    have hreceive : (gateway τ rt.environment).step s.abstract (.receive t packet now) _ :=
      .receive s.abstract t packet now hpushing
        (by simp [DeployedNode.abstract, hp, Phase.destructor])
    simp only [DeployedEvent.abstract, rawFrame, hdecode]
    exact .single hreceive
  | error e =>
    simp only [DeployedEvent.abstract, rawFrame, hdecode]
    rw [← hpushing, Function.update_eq_self]
    exact .nil

def gatewayView (τ : Type u) [DecidableEq τ] (rt : Runtime) :
    Simulation (deployed τ rt) (gateway τ rt.environment) where
  label ev := ev.abstract rt
  Rel s t := Deployment s ∧ t = s.abstract
  init := by
    rintro _ rfl
    exact ⟨_, rfl, .init, rfl⟩
  step := by
    rintro s ev t _ ⟨h, rfl⟩ hs
    refine ⟨t.abstract, ?_, h.step hs, rfl⟩
    cases hs with
    | callEngine op ev storage hop ht hkeeps hstep =>
      exact abstract_callEngine h hop ht hkeeps hstep
    | startWorker hcr hp =>
      have hthread := h.started.mp (.inr hp)
      have habs :
          { s with
            running := true
            workerThread := some .testRunning
            phase := .operating }.abstract = s.abstract := by
        simp [DeployedNode.abstract, hthread, hp, Phase.destructor]
      rw [habs]
      exact .nil
    | rawTelemetry t text now hcr hpushing hp => exact abstract_rawTelemetry hpushing hp text now
    | push t data hcr hpushing hp =>
      exact .single (.push s.abstract t data hpushing
        (by simp [DeployedNode.abstract, hp, Phase.destructor]))
    | loadRunning hcr hw =>
      obtain ⟨storage, queue, pushing, running, thread, phase⟩ := s
      obtain rfl : thread = some .testRunning := hw
      exact .single (.loadRunning _ rfl)
    | callOk ok hcr hw =>
      obtain ⟨storage, queue, pushing, running, thread, phase⟩ := s
      obtain rfl : thread = some .testOk := hw
      exact .single (.callOk _ ok rfl)
    | pop hcr hw =>
      obtain ⟨storage, queue, pushing, running, thread, phase⟩ := s
      obtain rfl : thread = some .pop := hw
      exact .single (.pop _ rfl)
    | insertTelemetry data ev storage hw ht hkeeps hstep =>
      exact abstract_insertTelemetry h hw ht hkeeps hstep
    | publish data stamp hcr hw =>
      obtain ⟨storage, queue, pushing, running, thread, phase⟩ := s
      obtain rfl : thread = some (.publish data) := hw
      exact .single (.publish _ data rfl)
    | wake hcr hw =>
      obtain ⟨storage, queue, pushing, running, thread, phase⟩ := s
      obtain rfl : thread = some .sleep := hw
      exact .single (.wake _ rfl)
    | destroy hcr hp =>
      exact .single (.destroy s.abstract (by simp [DeployedNode.abstract, hp, Phase.destructor]))
    | stop hcr hp =>
      obtain ⟨storage, queue, pushing, running, thread, phase⟩ := s
      obtain rfl : phase = .stop := hp
      cases thread with
      | none => exact absurd (h.started.mpr rfl) (by simp)
      | some pc => exact .single (.stop _ rfl)
    | join hcr hp hexited =>
      obtain ⟨storage, queue, pushing, running, thread, phase⟩ := s
      obtain rfl : phase = .join := hp
      cases thread with
      | none => exact absurd (h.started.mpr rfl) (by simp)
      | some pc =>
        obtain rfl := hexited pc rfl
        exact .single (.join _ rfl rfl)

def abstractEvents (rt : Runtime) (es : List (DeployedEvent τ)) : List (NodeEvent τ) :=
  es.flatMap (·.abstract rt)

theorem trace_abstractEvents {s : DeployedNode τ} (h : (deployed τ rt).Trace es s) :
    (gateway τ rt.environment).Trace (abstractEvents rt es) s.abstract := by
  obtain ⟨_, htrace, -, rfl⟩ := (gatewayView τ rt).trace h
  exact htrace

theorem table_engineEvents {s : DeployedNode τ} (h : (deployed τ rt).Trace es s) :
    s.storage.engine.table = rt.rows ++ Storage.stored rt.order (engineEvents es) := by
  have hboth : Deployment s ∧
      s.storage.engine.table = rt.rows ++ Storage.stored rt.order (engineEvents es) := by
    refine h.invariant (I := fun es s => Deployment s ∧
      s.storage.engine.table = rt.rows ++ Storage.stored rt.order (engineEvents es)) ?_ ?_
    · rintro _ rfl
      exact ⟨.init, (List.append_nil _).symm⟩
    rintro es s ev t ⟨hd, htable⟩ hs
    refine ⟨hd.step hs, ?_⟩
    rw [engineEvents, List.flatMap_append, List.flatMap_singleton, ← engineEvents]
    cases hs with
    | callEngine op ev storage hop ht hkeeps hstep =>
      rw [(hd.nodeStep hop ht hstep).table, htable, List.append_assoc]
      exact congrArg _ (Storage.stored_snoc _ _).symm
    | insertTelemetry data ev storage hw ht hkeeps hstep =>
      rw [(hd.workerStep hw ht hstep).table, htable, List.append_assoc]
      exact congrArg _ (Storage.stored_snoc _ _).symm
    | _ => simpa [DeployedEvent.engineEvents] using htable
  exact hboth.2

/-- Every run of the node over its engine is, event for event, a run of the
node with a table, and its engine's part is a run of the engine. The two agree
on the table, and the insertions the worker has seen succeed are those the
engine has carried out, in lock order. -/
theorem deployedRefines {s : DeployedNode τ} (h : (deployed τ rt).Trace es s) :
    (gateway τ rt.environment).Trace (abstractEvents rt es) s.abstract ∧
      (Storage.threads Caller rt.order rt.rows).Trace (engineEvents es) s.storage ∧
      s.abstract.table = s.storage.engine.table ∧
      (stored (abstractEvents rt es)).map (rowOf rt.order) =
        Storage.stored rt.order (engineEvents es) := by
  have htrace := trace_abstractEvents h
  have htable : s.storage.engine.table = _ := table_eq htrace
  exact ⟨htrace, (trace_engineEvents h).of_restrict, rfl,
    List.append_cancel_left (htable.symm.trans (table_engineEvents h))⟩

theorem deployedRefines_oneMessage : ∃ (es : List (NodeEvent Unit)) (s : NodeState Unit),
    (gateway Unit emptyObjectRuntime.environment).Trace es s ∧ s.destructor = .closed ∧
      (stored es).map (rowOf .byKey) = [rowOf .byKey emptyFrame] ∧
      s.table = [rowOf .byKey {}, rowOf .byKey emptyFrame] := by
  obtain ⟨s, h, hphase, -, htable, -⟩ := trace_oneMessage
  obtain ⟨hgateway, -, hsame, hstored⟩ := deployedRefines h
  exact ⟨_, _, hgateway, by simp [DeployedNode.abstract, hphase, Phase.destructor], hstored,
    hsame.trans htable⟩

end SecureTelemetryGateway.Ros
