import SecureTelemetryGateway.Ros.Delivery

/-!
# What the node gets done

Once `running_` is false, few steps are left, and they lead to the end of the
destructor. While the node runs and nothing is pushed, the worker comes to the
end of the queue.
-/

namespace SecureTelemetryGateway.Ros

open Models (TelemetryData)
open Containers (ConcurrentQueue)
open Storage (rowOf)
open Lib (Lts)

variable {τ : Type u} [DecidableEq τ] {env : Environment}

-- ---------------------------------------------------------------------------
-- The shutdown
-- ---------------------------------------------------------------------------

/-- The steps the worker has left, at most, once `running_` is false. -/
def WorkerPc.stepsLeft : WorkerPc → Nat
  | .testOk => 5
  | .pop => 4
  | .insert _ => 3
  | .publish _ => 2
  | .sleep => 2
  | .testRunning => 1
  | .exited => 0

def DestructorPc.stepsLeft : DestructorPc → Nat
  | .notStarted => 4
  | .started => 3
  | .stopped => 2
  | .joined => 1
  | .closed => 0

structure Stopping (s : NodeState τ) : Prop where
  running : s.running = false
  destructor : s.destructor.stepsLeft ≤ 2

def NodeState.stepsLeft (s : NodeState τ) : Nat := s.worker.stepsLeft + s.destructor.stepsLeft

omit [DecidableEq τ] in
theorem Stopping.ne_notStarted {s : NodeState τ} (h : Stopping s) :
    s.destructor ≠ .notStarted := by
  intro hd
  have hle := h.destructor
  rw [hd] at hle
  contradiction

omit [DecidableEq τ] in
theorem Stopping.ne_started {s : NodeState τ} (h : Stopping s) : s.destructor ≠ .started := by
  intro hd
  have hle := h.destructor
  rw [hd] at hle
  contradiction

theorem Stopping.step {s s' : NodeState τ} (h : Stopping s) (hs : NodeStep env s ev s') :
    Stopping s' ∧ s'.stepsLeft < s.stepsLeft := by
  cases hs with
  | receive _ _ _ _ hd => exact absurd hd h.ne_notStarted
  | push _ _ _ hd => exact absurd hd h.ne_notStarted
  | loadRunning hw =>
    refine ⟨⟨h.running, h.destructor⟩, ?_⟩
    simp [NodeState.stepsLeft, hw, h.running, WorkerPc.stepsLeft]
  | callOk ok hw =>
    refine ⟨⟨h.running, h.destructor⟩, ?_⟩
    cases ok <;> simp [NodeState.stepsLeft, hw, WorkerPc.stepsLeft]
  | pop hw =>
    refine ⟨⟨h.running, h.destructor⟩, ?_⟩
    cases s.telemetryQueue.pop.1 <;>
      simp [NodeState.stepsLeft, hw, WorkerPc.stepsLeft, WorkerPc.afterPop]
  | insert data ok hw =>
    exact ⟨⟨h.running, h.destructor⟩, by simp [NodeState.stepsLeft, hw, WorkerPc.stepsLeft]⟩
  | publish data hw =>
    exact ⟨⟨h.running, h.destructor⟩, by simp [NodeState.stepsLeft, hw, WorkerPc.stepsLeft]⟩
  | wake hw =>
    exact ⟨⟨h.running, h.destructor⟩, by simp [NodeState.stepsLeft, hw, WorkerPc.stepsLeft]⟩
  | destroy hd => exact absurd hd h.ne_notStarted
  | stop hd => exact absurd hd h.ne_started
  | join hd hw =>
    refine ⟨⟨h.running, by simp [DestructorPc.stepsLeft]⟩, ?_⟩
    simp [NodeState.stepsLeft, hd, DestructorPc.stepsLeft]
  | close hd =>
    refine ⟨⟨h.running, by simp [DestructorPc.stepsLeft]⟩, ?_⟩
    simp [NodeState.stepsLeft, hd, DestructorPc.stepsLeft]

theorem exists_step_worker {s : NodeState τ} (h : s.worker ≠ .exited) :
    ∃ ev s', NodeStep env s ev s' := by
  cases hw : s.worker with
  | testRunning => exact ⟨_, _, .loadRunning s hw⟩
  | testOk => exact ⟨_, _, .callOk s false hw⟩
  | pop => exact ⟨_, _, .pop s hw⟩
  | insert data => exact ⟨_, _, .insert s data false hw⟩
  | publish data => exact ⟨_, _, .publish s data hw⟩
  | sleep => exact ⟨_, _, .wake s hw⟩
  | exited => exact absurd hw h

theorem stuck_iff_closed {s : NodeState τ} (h : (gateway τ env).Trace es s) :
    (∀ ev s', ¬NodeStep env s ev s') ↔ s.destructor = .closed := by
  constructor
  · intro hstuck
    by_cases hw : s.worker = .exited
    · cases hd : s.destructor with
      | notStarted => exact absurd (.destroy s hd) (hstuck _ _)
      | started => exact absurd (.stop s hd) (hstuck _ _)
      | stopped => exact absurd (.join s hd hw) (hstuck _ _)
      | joined => exact absurd (.close s hd) (hstuck _ _)
      | closed => rfl
    · obtain ⟨ev, s', hs⟩ : ∃ ev s', NodeStep env s ev s' := exists_step_worker hw
      exact absurd hs (hstuck ev s')
  · intro hd ev s' hs
    have hw : s.worker = .exited := (joined_of_trace h).exited (.inr hd)
    cases hs <;> simp_all

/-- In every reachable state some step is possible, unless the destructor is at
its end. At most seven steps follow the one that sets `running_` to false,
whatever the worker was about, and however the run goes on, it can be led to
that end. -/
theorem shutdownCompletes :
    (∀ es (s : NodeState τ), (gateway τ env).Trace es s →
      ((∀ ev s', ¬NodeStep env s ev s') ↔ s.destructor = .closed)) ∧
    ∀ before after (s : NodeState τ), (gateway τ env).Trace (before ++ .stop :: after) s →
      after.length ≤ 7 ∧ ∃ rest t, (gateway τ env).Run s rest t ∧ t.destructor = .closed ∧
        after.length + rest.length ≤ 7 := by
  refine ⟨fun es s h => stuck_iff_closed h, fun before after s h => ?_⟩
  obtain ⟨m, m', hbefore, hs, hafter⟩ := h.at_step
  have hstop : Stopping m' ∧ m'.stepsLeft ≤ 7 := by
    cases hs with
    | stop => ?_
    refine ⟨⟨rfl, by simp [DestructorPc.stepsLeft]⟩, ?_⟩
    simp only [NodeState.stepsLeft, DestructorPc.stepsLeft]
    cases m.worker <;> simp [WorkerPc.stepsLeft]
  obtain ⟨hstopping, hle⟩ := hafter.length_add_le hstop.1 fun _ _ _ => Stopping.step
  obtain ⟨rest, t, hrun, hstuck⟩ := Lts.exists_run_stuck (L := gateway τ env) hstopping
    fun _ _ _ => Stopping.step
  have hrest := (hrun.length_add_le hstopping fun _ _ _ => Stopping.step).2
  have hclosed : t.destructor = .closed := (stuck_iff_closed (h.append hrun)).mp hstuck
  exact ⟨by omega, rest, t, hrun, hclosed, by omega⟩

theorem shutdownCompletes_inLoop : ∃ (s : NodeState Unit) (rest : List (NodeEvent Unit))
    (t : NodeState Unit), s.worker = .pop ∧
      (∃ ev s', NodeStep emptyObjectEnvironment s ev s') ∧
      (gateway Unit emptyObjectEnvironment).Run s rest t ∧ t.destructor = .closed ∧
      rest.length ≤ 6 := by
  have hrun : (gateway Unit emptyObjectEnvironment).Trace
      ([.loadRunning true, .destroy] ++ .stop :: [.callOk true]) _ :=
    ⟨_, rfl, .cons (.loadRunning _ rfl) <| .cons (.destroy _ rfl) <| .cons (.stop _ rfl) <|
      .single (.callOk _ true rfl)⟩
  obtain ⟨hstuck, hstop⟩ := @shutdownCompletes Unit _ emptyObjectEnvironment
  obtain ⟨-, rest, t, hrest, hclosed, hle⟩ := hstop _ _ _ hrun
  have hnext := mt (hstuck _ _ hrun).mp (by simp)
  simp only [Classical.not_forall, Classical.not_not] at hnext
  obtain ⟨ev, s', hs⟩ := hnext
  simp only [List.length_singleton] at hle
  exact ⟨_, rest, t, rfl, ⟨ev, s', hs⟩, hrest, hclosed, by omega⟩

-- ---------------------------------------------------------------------------
-- The backlog
-- ---------------------------------------------------------------------------

/-- A step of the worker that `rclcpp::ok()` does not stop. -/
def NodeEvent.works : NodeEvent τ → Bool
  | .loadRunning _ | .callOk true | .pop _ | .insert _ _ | .publish _ | .wake => true
  | _ => false

abbrev workerRuns (τ : Type u) [DecidableEq τ] (env : Environment) :
    Lts (NodeState τ) (NodeEvent τ) :=
  (gateway τ env).restrict fun _ ev _ => ev.works = true

def WorkerPc.stepsToPop : WorkerPc → Nat
  | .insert _ => 5
  | .publish _ => 4
  | .sleep => 4
  | .testRunning => 3
  | .testOk => 2
  | .pop => 1
  | .exited => 0

def NodeState.Drained (s : NodeState τ) : Prop :=
  s.telemetryQueue.queue = [] ∧ s.worker.held = []

structure Working (s : NodeState τ) : Prop where
  running : s.running = true
  worker : s.worker ≠ .exited

def NodeState.backlog (s : NodeState τ) : Nat :=
  5 * s.telemetryQueue.queue.length + s.worker.stepsToPop

theorem Working.step {s s' : NodeState τ} (h : Working s) (hs : (workerRuns τ env).step s ev s') :
    Working s' := by
  obtain ⟨hs, hev⟩ := hs
  cases hs with
  | loadRunning hw => exact ⟨h.running, by simp [h.running]⟩
  | callOk ok hw =>
    cases ok with
    | true => exact ⟨h.running, by simp⟩
    | false => cases hev
  | pop hw => exact ⟨h.running, by cases s.telemetryQueue.pop.1 <;> simp [WorkerPc.afterPop]⟩
  | insert => exact ⟨h.running, by simp⟩
  | publish => exact ⟨h.running, by simp⟩
  | wake => exact ⟨h.running, by simp⟩
  | _ => cases hev

theorem Working.exists_step {s : NodeState τ} (h : Working s) :
    ∃ ev s', (workerRuns τ env).step s ev s' := by
  cases hw : s.worker with
  | testRunning => exact ⟨_, _, .loadRunning s hw, rfl⟩
  | testOk => exact ⟨_, _, .callOk s true hw, rfl⟩
  | pop => exact ⟨_, _, .pop s hw, rfl⟩
  | insert data => exact ⟨_, _, .insert s data false hw, rfl⟩
  | publish data => exact ⟨_, _, .publish s data hw, rfl⟩
  | sleep => exact ⟨_, _, .wake s hw, rfl⟩
  | exited => exact absurd hw h.worker

theorem handled_workerRuns {s s' : NodeState τ} (h : (workerRuns τ env).Run s es s') :
    (handled es).map Prod.fst ++ s'.worker.held ++ s'.telemetryQueue.queue =
        s.worker.held ++ s.telemetryQueue.queue ∧
      s'.table = s.table ++ (stored es).map (rowOf env.order) := by
  refine h.invariant (I := fun es t => (handled es).map Prod.fst ++ t.worker.held ++
    t.telemetryQueue.queue = s.worker.held ++ s.telemetryQueue.queue ∧
      t.table = s.table ++ (stored es).map (rowOf env.order)) ?_ ?_
  · simp [handled, stored]
  rintro es t ev t' ⟨ih, htable⟩ ⟨hs, hev⟩
  rw [handled_snoc, ← ih]
  cases hs with
  | loadRunning hw =>
    cases t.running <;> simp [hw, htable, stored, NodeEvent.handled, WorkerPc.held]
  | callOk ok hw => cases ok <;> simp [hw, htable, stored, NodeEvent.handled, WorkerPc.held]
  | pop hw =>
    have hq := ConcurrentQueue.queue_pop t.telemetryQueue
    rw [← hq]
    cases t.telemetryQueue.pop.1 <;>
      simp [hw, htable, stored, NodeEvent.handled, WorkerPc.held, WorkerPc.afterPop]
  | insert data ok hw =>
    cases ok <;> simp [hw, htable, stored, NodeEvent.handled, WorkerPc.held]
  | publish data hw => simp [hw, htable, stored, NodeEvent.handled, WorkerPc.held]
  | wake hw => simp [hw, htable, stored, NodeEvent.handled, WorkerPc.held]
  | _ => cases hev

theorem drained_step {s s' : NodeState τ} (hs : (workerRuns τ env).step s ev s')
    (h : s.Drained) : s'.Drained := by
  obtain ⟨hheld, hqueue⟩ : s'.worker.held = [] ∧ s'.telemetryQueue.queue = [] := by
    have hall := (handled_workerRuns (.single hs)).1
    rw [h.1, h.2, List.append_assoc] at hall
    simpa using (List.append_eq_nil_iff.mp hall).2
  exact ⟨hqueue, hheld⟩

theorem backlog_step {s s' : NodeState τ} (h : Working s)
    (hs : (workerRuns τ env).step s ev s') : s'.Drained ∨ s'.backlog < s.backlog := by
  obtain ⟨hs, hev⟩ := hs
  cases hs with
  | loadRunning hw =>
    right
    simp [NodeState.backlog, hw, h.running, WorkerPc.stepsToPop]
  | callOk ok hw =>
    cases ok with
    | true =>
      right
      simp [NodeState.backlog, hw, WorkerPc.stepsToPop]
    | false => cases hev
  | pop hw =>
    cases hq : s.telemetryQueue.queue with
    | nil =>
      left
      rw [ConcurrentQueue.pop_empty hq]
      exact ⟨hq, rfl⟩
    | cons front rest =>
      right
      obtain ⟨hfront, hrest⟩ := ConcurrentQueue.pop_cons hq
      simp only [NodeState.backlog, hw, hq, hfront, hrest, WorkerPc.afterPop, WorkerPc.stepsToPop,
        List.length_cons]
      omega
  | insert data ok hw =>
    right
    simp [NodeState.backlog, hw, WorkerPc.stepsToPop]
  | publish data hw =>
    right
    simp [NodeState.backlog, hw, WorkerPc.stepsToPop]
  | wake hw =>
    right
    simp [NodeState.backlog, hw, WorkerPc.stepsToPop]
  | _ => cases hev

/-- A worker that runs on alone can take a step in every state it comes to, and
with the steps of `5 * n + 5`, for a queue of `n` frames, it has handled them
all, in order, stored those whose insertion succeeded, and emptied the queue. -/
theorem backlogWorkedOff {s : NodeState τ} (hrunning : s.running = true)
    (hworker : s.worker ≠ .exited) :
    ∀ es s', (workerRuns τ env).Run s es s' →
      (∃ ev s'', (workerRuns τ env).step s' ev s'') ∧
        (5 * s.telemetryQueue.queue.length + 5 ≤ es.length →
          s'.telemetryQueue.queue = [] ∧ s'.worker.held = [] ∧
            (handled es).map Prod.fst = s.worker.held ++ s.telemetryQueue.queue ∧
            s'.table = s.table ++ (stored es).map (rowOf env.order)) := by
  have hworking : Working s := ⟨hrunning, hworker⟩
  intro es s' hrun
  have hprogress : Working s' ∧ (s'.Drained ∨ es.length + s'.backlog ≤ s.backlog) := by
    refine hrun.invariant
      (I := fun es t => Working t ∧ (t.Drained ∨ es.length + t.backlog ≤ s.backlog))
      ⟨hworking, .inr (by simp)⟩ ?_
    rintro es t ev t' ⟨hw, hd⟩ hs
    refine ⟨hw.step hs, ?_⟩
    rcases hd with hd | hle
    · exact .inl (drained_step hs hd)
    · refine (backlog_step hw hs).imp_right fun hlt => ?_
      rw [List.length_append, List.length_singleton]
      omega
  refine ⟨hprogress.1.exists_step, fun hlen => ?_⟩
  have hdrained : s'.Drained := by
    refine hprogress.2.resolve_right fun hle => ?_
    have hpos : 0 < s'.worker.stepsToPop := by
      have := hprogress.1.worker
      cases hw : s'.worker <;> simp_all [WorkerPc.stepsToPop]
    have hmax : s.worker.stepsToPop ≤ 5 := by cases s.worker <;> simp [WorkerPc.stepsToPop]
    simp only [NodeState.backlog] at hle
    omega
  obtain ⟨hall, htable⟩ := handled_workerRuns hrun
  rw [hdrained.1, hdrained.2, List.append_nil, List.append_nil] at hall
  exact ⟨hdrained.1, hdrained.2, hall, htable⟩

theorem backlogWorkedOff_two : ∃ (es : List (NodeEvent Unit)) (s s' : NodeState Unit),
    (workerRuns Unit emptyObjectEnvironment).Run s es s' ∧
      s.telemetryQueue.queue = [emptyFrame, emptyFrame] ∧ s'.telemetryQueue.queue = [] ∧
      (handled es).map Prod.fst = [emptyFrame, emptyFrame] ∧
      s'.table = [rowOf .byKey emptyFrame] ∧
      ∃ ev s'', (workerRuns Unit emptyObjectEnvironment).step s' ev s'' := by
  let s : NodeState Unit :=
    { telemetryQueue := ⟨1000, [emptyFrame, emptyFrame], by simp⟩, table := [] }
  have hrun : (workerRuns Unit emptyObjectEnvironment).Run s _ _ :=
    .cons ⟨.loadRunning _ rfl, rfl⟩ <| .cons ⟨.callOk _ true rfl, rfl⟩ <|
    .cons ⟨.pop _ rfl, rfl⟩ <| .cons ⟨.insert _ emptyFrame false rfl, rfl⟩ <|
    .cons ⟨.publish _ emptyFrame rfl, rfl⟩ <| .cons ⟨.loadRunning _ rfl, rfl⟩ <|
    .cons ⟨.callOk _ true rfl, rfl⟩ <| .cons ⟨.pop _ rfl, rfl⟩ <|
    .cons ⟨.insert _ emptyFrame true rfl, rfl⟩ <| .cons ⟨.publish _ emptyFrame rfl, rfl⟩ <|
    .cons ⟨.loadRunning _ rfl, rfl⟩ <| .cons ⟨.callOk _ true rfl, rfl⟩ <|
    .cons ⟨.pop _ rfl, rfl⟩ <| .cons ⟨.wake _ rfl, rfl⟩ <| .single ⟨.loadRunning _ rfl, rfl⟩
  obtain ⟨hnext, hall⟩ := @backlogWorkedOff Unit _ _ s rfl (by simp [s]) _ _ hrun
  obtain ⟨hqueue, -, hhandled, htable⟩ := hall (by simp [s])
  exact ⟨_, s, _, hrun, rfl, hqueue, hhandled, htable, hnext⟩

end SecureTelemetryGateway.Ros
