import SecureTelemetryGateway.Ros.Acceptance
import SecureTelemetryGateway.Ros.Worker

/-!
# What becomes of an accepted frame

Two places lose frames without a trace: an insertion that fails, for the
worker does not look at its result, and the backlog at a shutdown, for the
worker looks at `running_` before each pop.
-/

namespace SecureTelemetryGateway.Ros

open Models (TelemetryData)
open Containers (ConcurrentQueue)
open Storage (rowOf)
open Lib (Lts)

variable {τ : Type u} [DecidableEq τ] {env : Environment}

omit [DecidableEq τ] in
theorem stored_eq_iff {es : List (NodeEvent τ)} :
    stored es = (handled es).map Prod.fst ↔ ∀ data ok, .insert data ok ∈ es → ok = true := by
  constructor
  · intro h data ok hmem
    have hlen : ((handled es).filter (·.2)).length = (handled es).length := by
      simpa [stored] using congrArg List.length h
    exact List.length_filter_eq_length_iff.mp hlen _ (mem_handled.mpr hmem)
  · intro h
    have hall : (handled es).filter (·.2) = handled es :=
      List.filter_eq_self.mpr fun p hmem => h p.1 p.2 (mem_handled.mp hmem)
    rw [stored, hall]

/-- In every run, the accepted frames are those in the table, the one the
worker holds and those in the queue, exactly if no insertion has failed. -/
theorem nothingLost_iff {s : NodeState τ} (h : (gateway τ env).Trace es s) :
    (accepted es = stored es ++ s.worker.held ++ s.telemetryQueue.queue ↔
        ∀ data ok, .insert data ok ∈ es → ok = true) ∧
      s.table = env.rows ++ (stored es).map (rowOf env.order) := by
  refine ⟨?_, table_eq h⟩
  rw [accepted_eq h, ← stored_eq_iff, List.append_left_inj, List.append_left_inj]
  exact eq_comm

def emptyObjectEnvironment : Environment where
  nl := emptyObjectOnly
  decrypt _ _ _ _ _ := (true, [0x7b, 0x7d])
  order := .byKey

def deliverOne (ok : Bool) : List (NodeEvent Unit) :=
  [.receive () ⟨"robot", [], [], []⟩ 0, .push () emptyFrame true, .loadRunning true, .callOk true,
    .pop (some emptyFrame), .insert emptyFrame ok]

theorem trace_deliverOne (ok : Bool) : ∃ s,
    (gateway Unit emptyObjectEnvironment).Trace (deliverOne ok) s ∧ s.worker.held = [] ∧
      s.telemetryQueue.queue = [] :=
  ⟨_, ⟨_, rfl,
    .cons (.receive _ () ⟨"robot", [], [], []⟩ 0 rfl rfl) <|
      .cons (.push _ () emptyFrame rfl rfl) <| .cons (.loadRunning _ rfl) <| .cons (.callOk _ true rfl) <| .cons (.pop _ rfl) <|
        .single (.insert _ emptyFrame ok rfl)⟩, rfl, rfl⟩

theorem nothingLost_iff_deliverOne :
    ∃ s : NodeState Unit, accepted (deliverOne true) =
        stored (deliverOne true) ++ s.worker.held ++ s.telemetryQueue.queue ∧
      s.table = (stored (deliverOne true)).map (rowOf .byKey) := by
  obtain ⟨s, h, -, -⟩ := trace_deliverOne true
  have hiff := nothingLost_iff h
  exact ⟨s, hiff.1.mpr (by simp [deliverOne]), hiff.2⟩

theorem nothingLost_fails : ∃ s : NodeState Unit,
    (gateway Unit emptyObjectEnvironment).Trace (deliverOne false) s ∧
      accepted (deliverOne false) = [emptyFrame] ∧ stored (deliverOne false) = [] ∧
      s.worker.held = [] ∧ s.telemetryQueue.queue = [] := by
  obtain ⟨s, h, hheld, hqueue⟩ := trace_deliverOne false
  exact ⟨s, h, rfl, rfl, hheld, hqueue⟩

def ShutdownAssumptions (s : NodeState τ) (ev : NodeEvent τ) (_ : NodeState τ) : Prop :=
  (∀ data ok, ev = .insert data ok → ok = true) ∧
    (ev = .callOk false → s.destructor ≠ .notStarted)

abbrev shutdownRuns (τ : Type u) [DecidableEq τ] (env : Environment) :
    Lts (NodeState τ) (NodeEvent τ) :=
  (gateway τ env).restrict ShutdownAssumptions

def Drained (env : Environment) (es : List (NodeEvent τ)) (s : NodeState τ) : Prop :=
  stored es = accepted es ∧ s.table = env.rows ++ (accepted es).map (rowOf env.order)

def NodeEvent.okAnswer : NodeEvent τ → Option Bool
  | .callOk ok => some ok
  | _ => none

/-- The number of frames the worker still pops once `running_` is false: one if
it has passed its test by then, and `rclcpp::ok()` does not stop it. -/
def stillPopped : WorkerPc → List (NodeEvent τ) → Nat
  | .pop, _ => 1
  | .testOk, after => if (after.findSome? (·.okAnswer)).getD false then 1 else 0
  | _, _ => 0

omit [DecidableEq τ] in
theorem stillPopped_cons {ev : NodeEvent τ} (h : ev.okAnswer = none) (pc : WorkerPc)
    (es : List (NodeEvent τ)) : stillPopped pc (ev :: es) = stillPopped pc es := by
  cases pc <;> simp [stillPopped, h]

theorem queue_of_stopped {u s : NodeState τ} (h : (gateway τ env).Run u es s)
    (hrunning : u.running = false) (hdestructor : u.destructor ≠ .notStarted)
    (hexited : s.worker = .exited) :
    s.telemetryQueue.queue = u.telemetryQueue.queue.drop (stillPopped u.worker es) := by
  induction es generalizing u with
  | nil =>
    obtain rfl := h.nil_inv
    simp [hexited, stillPopped]
  | cons ev es ih =>
    obtain ⟨m, hs, hr⟩ := h.cons_inv
    cases hs with
    | receive _ _ _ _ hd => exact absurd hd hdestructor
    | push _ _ _ hd => exact absurd hd hdestructor
    | loadRunning hw =>
      rw [ih hr hrunning hdestructor]
      simp [hw, hrunning, stillPopped]
    | callOk ok hw =>
      rw [ih hr hrunning hdestructor]
      cases ok <;> simp [hw, stillPopped, NodeEvent.okAnswer]
    | pop hw =>
      rw [ih hr hrunning hdestructor]
      cases hq : u.telemetryQueue.queue with
      | nil => simp [ConcurrentQueue.pop_empty hq, hq]
      | cons front rest =>
        obtain ⟨hfront, hrest⟩ := ConcurrentQueue.pop_cons hq
        simp [hw, hfront, hrest, stillPopped, WorkerPc.afterPop]
    | insert data ok hw =>
      rw [ih hr hrunning hdestructor]
      simp [hw, stillPopped]
    | publish data hw =>
      rw [ih hr hrunning hdestructor]
      simp [hw, stillPopped]
    | wake hw =>
      rw [ih hr hrunning hdestructor]
      simp [hw, stillPopped]
    | destroy hd => exact absurd hd hdestructor
    | stop => rw [ih hr rfl (by simp), stillPopped_cons rfl]
    | join => rw [ih hr hrunning (by simp), stillPopped_cons rfl]
    | close => rw [ih hr hrunning (by simp), stillPopped_cons rfl]

structure Joined (es : List (NodeEvent τ)) (s : NodeState τ) : Prop where
  stopped : s.destructor ≠ .notStarted → s.destructor ≠ .started → .stop ∈ es
  exited : s.destructor = .joined ∨ s.destructor = .closed → s.worker = .exited

theorem joined_of_trace {s : NodeState τ} (h : (gateway τ env).Trace es s) : Joined es s := by
  refine h.invariant (I := Joined) ?_ ?_
  · rintro _ rfl
    exact ⟨fun h => absurd rfl h, fun h => by simp at h⟩
  intro es s ev s' ih hs
  have hstopped : s.destructor ≠ .notStarted → s.destructor ≠ .started → .stop ∈ es ++ [ev] :=
    fun h1 h2 => List.mem_append_left _ (ih.stopped h1 h2)
  cases hs with
  | receive => exact ⟨hstopped, ih.exited⟩
  | push => exact ⟨hstopped, ih.exited⟩
  | loadRunning hw => exact ⟨hstopped, fun hd => by simpa [hw] using ih.exited hd⟩
  | callOk ok hw => exact ⟨hstopped, fun hd => by simpa [hw] using ih.exited hd⟩
  | pop hw => exact ⟨hstopped, fun hd => by simpa [hw] using ih.exited hd⟩
  | insert data ok hw => exact ⟨hstopped, fun hd => by simpa [hw] using ih.exited hd⟩
  | publish data hw => exact ⟨hstopped, fun hd => by simpa [hw] using ih.exited hd⟩
  | wake hw => exact ⟨hstopped, fun hd => by simpa [hw] using ih.exited hd⟩
  | destroy => exact ⟨fun _ h => absurd rfl h, fun h => by simp at h⟩
  | stop => exact ⟨fun _ _ => by simp, fun h => by simp at h⟩
  | join hd hw => exact ⟨fun _ _ => hstopped (by simp [hd]) (by simp [hd]), fun _ => hw⟩
  | close hd =>
    exact ⟨fun _ _ => hstopped (by simp [hd]) (by simp [hd]), fun _ => ih.exited (.inl hd)⟩

/-- A run of the node to the end of its destructor has drained the queue
exactly if, when `running_` became false, the queue held no more than the worker
was still about to pop. -/
theorem drained_iff {s : NodeState τ} (h : (shutdownRuns τ env).Trace es s)
    (hclosed : s.destructor = .closed) :
    ∃ before m m' after, es = before ++ .stop :: after ∧ (shutdownRuns τ env).Trace before m ∧
      (shutdownRuns τ env).step m .stop m' ∧ (shutdownRuns τ env).Run m' after s ∧
      (Drained env es s ↔ m.telemetryQueue.queue.length ≤ stillPopped m.worker after) := by
  have htrace := h.of_restrict
  have hjoined := joined_of_trace htrace
  have hexited : s.worker = .exited := hjoined.exited (.inr hclosed)
  obtain ⟨before, after, rfl⟩ :=
    List.append_of_mem (hjoined.stopped (by simp [hclosed]) (by simp [hclosed]))
  obtain ⟨m, m', hbefore, hs, hafter⟩ := h.at_step
  refine ⟨before, m, m', after, rfl, hbefore, hs, hafter, ?_⟩
  have hqueue : s.telemetryQueue.queue =
      m.telemetryQueue.queue.drop (stillPopped m.worker after) := by
    cases hs.1 with
    | stop =>
      have hdrop := queue_of_stopped hafter.of_restrict rfl (by simp) hexited
      exact hdrop
  have hstored : stored (before ++ .stop :: after) =
      (handled (before ++ .stop :: after)).map Prod.fst := stored_eq_iff.mpr fun data ok hmem => by
    obtain ⟨a, b, hab⟩ := List.append_of_mem hmem
    obtain ⟨_, _, -, hstep, -⟩ := (hab ▸ h).at_step
    exact hstep.2.1 data ok rfl
  have hall := accepted_eq htrace
  simp only [hexited, WorkerPc.held, List.append_nil] at hall
  rw [← hstored] at hall
  constructor
  · rintro ⟨heq, -⟩
    rw [heq] at hall
    have hnil : s.telemetryQueue.queue = [] := by simpa using hall
    rwa [hqueue, List.drop_eq_nil_iff] at hnil
  · intro hle
    have hnil : s.telemetryQueue.queue = [] := by rw [hqueue, List.drop_eq_nil_iff]; exact hle
    rw [hnil, List.append_nil] at hall
    exact ⟨hall.symm, hall ▸ table_eq htrace⟩

theorem drained_iff_lastPop : ∃ (es : List (NodeEvent Unit)) (s : NodeState Unit),
    accepted es = [emptyFrame] ∧ ∃ before m m' after, es = before ++ .stop :: after ∧
      (shutdownRuns Unit emptyObjectEnvironment).Trace before m ∧
      (shutdownRuns Unit emptyObjectEnvironment).step m .stop m' ∧
      (shutdownRuns Unit emptyObjectEnvironment).Run m' after s ∧
      (Drained emptyObjectEnvironment es s ↔
        m.telemetryQueue.queue.length ≤ stillPopped m.worker after) :=
  ⟨[.receive () ⟨"robot", [], [], []⟩ 0, .push () emptyFrame true, .loadRunning true,
      .callOk true, .destroy, .stop, .pop (some emptyFrame), .insert emptyFrame true,
      .publish emptyFrame, .loadRunning false, .join, .close], _, rfl,
    drained_iff ⟨_, rfl,
      .cons ⟨.receive _ () ⟨"robot", [], [], []⟩ 0 rfl rfl, by simp [ShutdownAssumptions]⟩ <|
      .cons ⟨.push _ () emptyFrame rfl rfl, by simp [ShutdownAssumptions]⟩ <|
      .cons ⟨.loadRunning _ rfl, by simp [ShutdownAssumptions]⟩ <|
      .cons ⟨.callOk _ true rfl, by simp [ShutdownAssumptions]⟩ <|
      .cons ⟨.destroy _ rfl, by simp [ShutdownAssumptions]⟩ <|
      .cons ⟨.stop _ rfl, by simp [ShutdownAssumptions]⟩ <|
      .cons ⟨.pop _ rfl, by simp [ShutdownAssumptions]⟩ <|
      .cons ⟨.insert _ emptyFrame true rfl, by simp [ShutdownAssumptions]⟩ <|
      .cons ⟨.publish _ emptyFrame rfl, by simp [ShutdownAssumptions]⟩ <|
      .cons ⟨.loadRunning _ rfl, by simp [ShutdownAssumptions]⟩ <|
      .cons ⟨.join _ rfl rfl, by simp [ShutdownAssumptions]⟩ <|
      .single ⟨.close _ rfl, by simp [ShutdownAssumptions]⟩⟩ rfl⟩

theorem drained_fails : ∃ (es : List (NodeEvent Unit)) (s : NodeState Unit),
    (shutdownRuns Unit emptyObjectEnvironment).Trace es s ∧ s.destructor = .closed ∧
      accepted es = [emptyFrame] ∧ stored es = [] ∧ s.table = [] :=
  ⟨[.receive () ⟨"robot", [], [], []⟩ 0, .push () emptyFrame true, .destroy, .stop,
      .loadRunning false, .join, .close], _, ⟨_, rfl,
    .cons ⟨.receive _ () ⟨"robot", [], [], []⟩ 0 rfl rfl, by simp [ShutdownAssumptions]⟩ <|
    .cons ⟨.push _ () emptyFrame rfl rfl, by simp [ShutdownAssumptions]⟩ <|
    .cons ⟨.destroy _ rfl, by simp [ShutdownAssumptions]⟩ <|
    .cons ⟨.stop _ rfl, by simp [ShutdownAssumptions]⟩ <|
    .cons ⟨.loadRunning _ rfl, by simp [ShutdownAssumptions]⟩ <|
    .cons ⟨.join _ rfl rfl, by simp [ShutdownAssumptions]⟩ <|
    .single ⟨.close _ rfl, by simp [ShutdownAssumptions]⟩⟩, rfl, rfl, rfl, rfl⟩

end SecureTelemetryGateway.Ros
