import SecureTelemetryGateway.Storage.BatchAtomicity
import SecureTelemetryGateway.Storage.Recovery

/-!
# What can get into the table

Over any run at all, with batches that leave their transaction open and closes
at any time: the table only grows, by rows of insertions that are answered
true, and not while a transaction is open. After a close, or a first attempt
that failed, nothing changes any more.
-/

namespace SecureTelemetryGateway.Storage

open Models (TelemetryData)
open StorageEngine

variable {τ : Type u} {order : IterationOrder} {rows : List Row} {e e' : StorageEngine}

-- ---------------------------------------------------------------------------
-- The table only grows
-- ---------------------------------------------------------------------------

theorem insertBatchSection_inTransaction
    (h : e.insertBatchSection order o batch = some (ok, e')) (ht : e.transaction = some pending) :
    ok = false ∧ e'.table = e.table := by
  have hbegin : (e.execBegin o).1 = false := by
    by_contra hbegan
    rw [transaction_of_execBegin (by simpa using hbegan)] at ht
    cases ht
  rcases insertBatchSection_cases h with ⟨-, rfl, rfl⟩ | ⟨hbegan, -⟩
  · refine ⟨rfl, ?_⟩
    unfold execBegin
    cases e.db <;> rfl
  · rw [hbegin] at hbegan
    cases hbegan

theorem run_adds {sec : Section} (h : sec.run order o e = some (a, e')) (t : τ) :
    ∃ added, e'.table = e.table ++ added ∧
      added.Sublist ((Event.locked t sec o a).rows order) ∧
      (e.transaction.isSome → added = []) := by
  cases ht : e.transaction with
  | none =>
    cases sec with
    | insertBatch batch =>
      simp only [Section.run, Option.map_eq_some_iff, Prod.exists, Prod.mk.injEq] at h
      obtain ⟨ok, e₁, h, rfl, rfl⟩ := h
      refine ⟨_, (insertBatchSection_spec h ht).1, ?_, by simp⟩
      cases ok <;> exact .refl _
    | _ => exact ⟨_, (run_table h ht (by simp) t).2, .refl _, by simp⟩
  | some pending =>
    refine ⟨[], ?_, List.nil_sublist _, fun _ => rfl⟩
    rw [List.append_nil]
    cases sec with
    | insertTelemetry data =>
      simp only [Section.run, Option.map_eq_some_iff, Prod.exists, Prod.mk.injEq] at h
      obtain ⟨ok, e₁, h, -, rfl⟩ := h
      exact ((writeRow_spec h).2.2.2 pending ht).1
    | insertBatch batch =>
      simp only [Section.run, Option.map_eq_some_iff, Prod.exists, Prod.mk.injEq] at h
      obtain ⟨ok, e₁, h, -, rfl⟩ := h
      exact (insertBatchSection_inTransaction h ht).2
    | queryTelemetry robotId limit =>
      simp only [Section.run, Option.some.injEq, Prod.mk.injEq] at h
      exact congrArg StorageEngine.table h.2.symm
    | purgeOlderThan timestampNs =>
      simp only [Section.run, Option.some.injEq, Prod.mk.injEq] at h
      exact congrArg StorageEngine.table h.2.symm
    | close =>
      simp only [Section.run, Option.some.injEq, Prod.mk.injEq] at h
      rw [← h.2]
      exact table_closeInternal e

variable [DecidableEq τ]

theorem step_adds {s s' : State τ} (hs : Step order s ev s') :
    ∃ added, s'.engine.table = s.engine.table ++ added ∧ added.Sublist (ev.rows order) ∧
      (s.engine.transaction.isSome → added = []) := by
  cases hs with
  | locked _ t sec o _ _ hr => exact run_adds hr t
  | once _ t op o => exact ⟨[], by simp, List.nil_sublist _, fun _ => rfl⟩
  | _ => exact ⟨[], (List.append_nil _).symm, List.nil_sublist _, fun _ => rfl⟩

/-- In every run whatsoever, what is added to the table are rows of insertions
that were answered true, in lock order and each once; the table keeps what it
has; and no step adds to it while a transaction is open, so what an unfinished
batch and the insertions after it have written never gets there. -/
theorem tableSound {s : State τ} (h : (threads τ order rows).Trace es s) :
    (∃ added, s.engine.table = rows ++ added ∧ added.Sublist (stored order es)) ∧
      (∀ es' s', (threads τ order rows).Run s es' s' → s.engine.table <+: s'.engine.table) ∧
      (s.engine.transaction.isSome → ∀ ev s', (threads τ order rows).step s ev s' →
        s'.engine.table = s.engine.table) := by
  refine ⟨?_, fun es' s' h' => ?_, fun hopen ev s' hs => ?_⟩
  · refine h.invariant (I := fun es s => ∃ added, s.engine.table = rows ++ added ∧
      added.Sublist (stored order es)) ?_ ?_
    · rintro _ rfl
      exact ⟨[], (List.append_nil _).symm, .refl _⟩
    · rintro es s ev s' ⟨before, hbefore, hsub⟩ hs
      obtain ⟨added, htable, hadded, -⟩ := step_adds hs
      refine ⟨before ++ added, by rw [htable, hbefore, List.append_assoc], ?_⟩
      rw [stored_snoc]
      exact hsub.append hadded
  · refine h'.invariant (I := fun _ s' => s.engine.table <+: s'.engine.table)
      (List.prefix_refl _) ?_
    intro es m ev m' ih hs
    obtain ⟨added, htable, -⟩ := step_adds hs
    exact ih.trans (htable ▸ List.prefix_append _ _)
  · obtain ⟨added, htable, -, hnone⟩ := step_adds hs
    rw [htable, hnone hopen, List.append_nil]

theorem trace_leftOpen : ∃ es s, (threads Unit .byKey []).Trace es s ∧
    s.engine.transaction.isSome ∧ stored .byKey es = [rowOf .byKey {}] ∧ s.engine.table = [] :=
  ⟨_, _, ⟨_, rfl,
    .cons (.call _ () (.locking (.insertBatch [{}])) rfl rfl) <|
    .cons (.once _ () _ {} rfl rfl) <| .cons (.load _ () _ rfl rfl) <|
    .cons (.locked _ () (.insertBatch [{}]) { commit := .failedOpen } rfl rfl rfl) <|
    .cons (.call _ () (.locking (.insertTelemetry {})) rfl rfl) <|
    .cons (.once _ () _ {} rfl rfl) <| .cons (.load _ () _ rfl rfl) <|
    .single (.locked _ () (.insertTelemetry {}) {} rfl rfl rfl)⟩, rfl, rfl, rfl⟩

theorem tableSound_leftOpen : ∃ (es : List (Event Unit)) (s : State Unit),
    stored .byKey es = [rowOf .byKey {}] ∧ s.engine.table = [] ∧
      ∀ ev s', (threads Unit .byKey []).step s ev s' → s'.engine.table = [] := by
  obtain ⟨es, s, h, hopen, hstored, htable⟩ := trace_leftOpen
  exact ⟨es, s, hstored, htable, fun ev s' hs => ((tableSound h).2.2 hopen ev s' hs).trans htable⟩

-- ---------------------------------------------------------------------------
-- Nothing after the end
-- ---------------------------------------------------------------------------

theorem closeInternal_of_closed (h : Closed e) :
    e.closeInternal.table = e.table ∧ e.closeInternal.handleCalls = e.handleCalls := by
  simp [closeInternal, closeDb, finalizeInsert, h.1, h.2]

omit [DecidableEq τ] in
theorem Stuck.closed {s : State τ} (hi : Inv s) (h : Stuck s.engine) : Closed s.engine := by
  simpa [Consistent, h.2] using hi.consistent

theorem stuck_step {s s' : State τ} (hi : Inv s) (h : Stuck s.engine) (hs : Step order s ev s') :
    s'.engine.table = s.engine.table ∧ s'.engine.handleCalls = s.engine.handleCalls ∧
      ev.rows order = [] ∧ ∀ t ready, ev = .load t ready → ready = false := by
  have hclosed : Closed s.engine := h.closed hi
  cases hs with
  | call => exact ⟨rfl, rfl, rfl, by simp⟩
  | once _ t op o =>
    rw [ensureInitialized_of_initFlag h.1]
    exact ⟨rfl, rfl, rfl, by simp⟩
  | load _ t op => exact ⟨rfl, rfl, rfl, fun _ _ heq => by cases heq; exact h.2⟩
  | locked _ t sec o _ _ hr =>
    cases sec with
    | insertTelemetry data =>
      simp [Section.run, insertTelemetrySection, writeRow, hclosed.2] at hr
    | insertBatch batch =>
      simp only [Section.run, insertBatchSection_closed hclosed, Option.map_some,
        Option.some.injEq, Prod.mk.injEq] at hr
      obtain ⟨rfl, rfl⟩ := hr
      exact ⟨rfl, rfl, rfl, by simp⟩
    | queryTelemetry robotId limit =>
      simp only [Section.run, Option.some.injEq, Prod.mk.injEq] at hr
      obtain ⟨rfl, rfl⟩ := hr
      exact ⟨rfl, rfl, rfl, by simp⟩
    | purgeOlderThan timestampNs =>
      simp only [Section.run, Option.some.injEq, Prod.mk.injEq] at hr
      obtain ⟨rfl, rfl⟩ := hr
      exact ⟨rfl, rfl, rfl, by simp⟩
    | close =>
      simp only [Section.run, Option.some.injEq, Prod.mk.injEq] at hr
      obtain ⟨rfl, rfl⟩ := hr
      obtain ⟨htable, hcalls⟩ := closeInternal_of_closed hclosed
      exact ⟨htable, hcalls, rfl, by simp⟩
  | crash => exact ⟨rfl, rfl, rfl, by simp⟩

/-- Once the one attempt at initialising is over, an engine that is not ready,
because the attempt failed or because the engine has been closed, never is
again: in every run from there no row is added, nothing is opened or closed,
no insertion is answered true, and whoever looks at the flag is told so. -/
theorem endedForGood {s : State τ} (h : (threads τ order rows).Trace es s)
    (hflag : s.engine.initFlag = true) (hready : s.engine.isInitialized = false)
    (h' : (threads τ order rows).Run s es' s') :
    s'.engine.isInitialized = false ∧ s'.engine.table = s.engine.table ∧
      s'.engine.handleCalls = s.engine.handleCalls ∧ stored order es' = [] ∧
      ∀ t ready, .load t ready ∈ es' → ready = false := by
  have hall : (Inv s' ∧ Stuck s'.engine) ∧ s'.engine.table = s.engine.table ∧
      s'.engine.handleCalls = s.engine.handleCalls ∧ stored order es' = [] ∧
      ∀ t ready, .load t ready ∈ es' → ready = false := by
    refine h'.invariant (I := fun es' s' => (Inv s' ∧ Stuck s'.engine) ∧
      s'.engine.table = s.engine.table ∧ s'.engine.handleCalls = s.engine.handleCalls ∧
      stored order es' = [] ∧ ∀ t ready, .load t ready ∈ es' → ready = false) ?_ ?_
    · exact ⟨⟨inv_of_reachable h.reachable, hflag, hready⟩, rfl, rfl, rfl, by simp⟩
    rintro es' m ev m' ⟨⟨hi, hstuck⟩, htable, hcalls, hstored, hload⟩ hs
    obtain ⟨htable', hcalls', hrows, hload'⟩ := stuck_step hi hstuck hs
    refine ⟨⟨hi.step hs, hstuck.step hs⟩, htable'.trans htable, hcalls'.trans hcalls, ?_, ?_⟩
    · rw [stored_snoc, hstored, hrows]
      rfl
    · intro t ready hmem
      rcases List.mem_append.mp hmem with hmem | hmem
      · exact hload t ready hmem
      · exact hload' t ready (List.mem_singleton.mp hmem).symm
  exact ⟨hall.1.2.2, hall.2⟩

theorem endedForGood_closed : ∃ s s' : State Unit, s.engine.isInitialized = false ∧
    s'.engine.isInitialized = false ∧ s'.engine.table = s.engine.table := by
  have hclosed : (threads Unit .byKey []).Trace _ _ := ⟨_, rfl,
    .cons (.call _ () .init rfl rfl) <| .cons (.once _ () .init {} rfl rfl) <|
    .cons (.load _ () .init rfl rfl) <| .cons (.call _ () (.locking .close) rfl rfl) <|
    .single (.locked _ () .close {} rfl rfl rfl)⟩
  obtain ⟨hready, htable, -⟩ := endedForGood hclosed rfl rfl
    (.cons (.call _ () .init rfl rfl) <| .single (.once _ () .init {} rfl rfl))
  exact ⟨_, _, rfl, hready, htable⟩

end SecureTelemetryGateway.Storage
