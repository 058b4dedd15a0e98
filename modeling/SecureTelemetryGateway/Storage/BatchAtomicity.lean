import SecureTelemetryGateway.Storage.Threads

/-!
# What a batch leaves behind

A batch ends with its transaction committed or rolled back, but for the one
exit that does neither: a `COMMIT` that fails without rolling back. As long as
that exit is not taken, a row is in the table once its call has returned true.
-/

namespace SecureTelemetryGateway.Storage

open Models (TelemetryData)
open StorageEngine

def LeavesNoTrace (order : IterationOrder) (o : SqliteOutcomes) (batch : List TelemetryData)
    (e : StorageEngine) : Prop :=
  ∃ ok e', e.insertBatch order o batch = some (ok, e') ∧ e'.transaction = none ∧
    (ok = false → e'.table = e.table)

def Section.rows (order : IterationOrder) : Section → List Row
  | .insertTelemetry data => [rowOf order data]
  | .insertBatch batch => batch.map (rowOf order)
  | _ => []

variable {τ : Type u} {order : IterationOrder}

def Event.rows (order : IterationOrder) : Event τ → List Row
  | .locked _ sec _ (.returned true) => sec.rows order
  | _ => []

def stored (order : IterationOrder) (es : List (Event τ)) : List Row := es.flatMap (·.rows order)

@[simp] theorem stored_snoc (es : List (Event τ)) (ev : Event τ) :
    stored order (es ++ [ev]) = stored order es ++ ev.rows order := by
  simp [stored]

def NoCommitLeftOpen (_ : State τ) (ev : Event τ) (_ : State τ) : Prop :=
  ∀ t batch o a, ev = .locked t (.insertBatch batch) o a → ¬CommitLeftOpen o batch

theorem leavesNoTrace_iff (hf : e.initFlag = true) (hi : e.isInitialized = true) (hl : Live e)
    (ht : e.transaction = none) :
    LeavesNoTrace order o batch e ↔ ¬(batch ≠ [] ∧ CommitLeftOpen o batch) := by
  unfold LeavesNoTrace insertBatch
  simp only [ensureInitialized_of_initFlag hf, hi, Bool.not_true, Bool.false_eq_true, ↓reduceIte]
  cases hb : batch with
  | nil => simp [ht]
  | cons data rest =>
    have hdb : e.db.isSome := by
      obtain ⟨c, _, hc, -, -⟩ := hl
      simp [hc]
    obtain ⟨⟨ok, e'⟩, h⟩ : ∃ r, e.insertBatchSection order o (data :: rest) = some r :=
      insertBatchSection_isSome hl
    obtain ⟨htable, htrans⟩ := insertBatchSection_spec h ht
    simp only [List.isEmpty_cons, Bool.false_eq_true, ↓reduceIte, h, Option.some.injEq,
      Prod.mk.injEq, ne_eq, reduceCtorEq, not_false_eq_true, true_and]
    rw [hdb] at htrans
    constructor
    · rintro ⟨_, _, ⟨rfl, rfl⟩, hnone, -⟩
      simpa using htrans.mp hnone
    · intro hno
      refine ⟨ok, e', ⟨rfl, rfl⟩, htrans.mpr (by simpa using hno), ?_⟩
      rintro rfl
      simpa using htable

theorem run_table {sec : Section} (h : sec.run order o e = some (a, e')) (ht : e.transaction = none)
    (hno : ∀ batch, sec = .insertBatch batch → ¬CommitLeftOpen o batch) (t : τ) :
    e'.transaction = none ∧ e'.table = e.table ++ (Event.locked t sec o a).rows order := by
  cases sec with
  | insertTelemetry data =>
    simp only [Section.run, Option.map_eq_some_iff, Prod.exists, Prod.mk.injEq] at h
    obtain ⟨ok, e₁, h, rfl, rfl⟩ := h
    obtain ⟨htrans, htable⟩ := (writeRow_spec h).2.2.1 ht
    cases ok <;> exact ⟨htrans, htable⟩
  | insertBatch batch =>
    simp only [Section.run, Option.map_eq_some_iff, Prod.exists, Prod.mk.injEq] at h
    obtain ⟨ok, e₁, h, rfl, rfl⟩ := h
    obtain ⟨htable, htrans⟩ := insertBatchSection_spec h ht
    refine ⟨htrans.mpr fun hc => hno batch rfl hc.2, ?_⟩
    cases ok <;> exact htable
  | queryTelemetry robotId limit =>
    simp only [Section.run, Option.some.injEq, Prod.mk.injEq] at h
    obtain ⟨rfl, rfl⟩ := h
    exact ⟨ht, (List.append_nil _).symm⟩
  | purgeOlderThan timestampNs =>
    simp only [Section.run, Option.some.injEq, Prod.mk.injEq] at h
    obtain ⟨rfl, rfl⟩ := h
    exact ⟨ht, (List.append_nil _).symm⟩
  | close =>
    simp only [Section.run, Option.some.injEq, Prod.mk.injEq] at h
    obtain ⟨rfl, rfl⟩ := h
    exact ⟨(closed_closeInternal e).transaction, by simp [close, Event.rows]⟩

variable [DecidableEq τ] {rows : List Row}

theorem step_table {s s' : State τ} (hs : Step order s ev s') (hno : NoCommitLeftOpen s ev s')
    (ht : s.engine.transaction = none) :
    s'.engine.transaction = none ∧ s'.engine.table = s.engine.table ++ ev.rows order := by
  cases hs with
  | call _ t op => exact ⟨ht, (List.append_nil _).symm⟩
  | once _ t op o =>
    exact ⟨transaction_ensureInitialized ht o, by simp [Event.rows]⟩
  | load _ t op => exact ⟨ht, (List.append_nil _).symm⟩
  | locked _ t sec o _ _ hr =>
    refine run_table hr ht (fun batch hsec => ?_) t
    subst hsec
    exact hno t batch o _ rfl
  | crash _ t sec o => exact ⟨ht, (List.append_nil _).symm⟩

theorem run_stored {s s' : State τ}
    (h : ((threads τ order rows).restrict NoCommitLeftOpen).Run s es s')
    (ht : s.engine.transaction = none) :
    s'.engine.transaction = none ∧ s'.engine.table = s.engine.table ++ stored order es := by
  refine h.invariant (I := fun es s' => s'.engine.transaction = none ∧
    s'.engine.table = s.engine.table ++ stored order es) ⟨ht, by simp [stored]⟩ ?_
  rintro es s₁ ev s₂ ⟨ht₁, htable₁⟩ ⟨hs, hno⟩
  obtain ⟨ht₂, htable₂⟩ := step_table hs hno ht₁
  exact ⟨ht₂, by rw [htable₂, htable₁, stored_snoc, List.append_assoc]⟩

/-- On an initialised engine with no transaction open, a batch leaves no trace
of a failure exactly when its `COMMIT` does not fail with the transaction left
open. In a run without that, from any state with no transaction open, the
table grows by the rows of the insertions that return true, and closing the
engine takes none of them back. -/
theorem leavesNoTrace_and_stored :
    (∀ s : State τ, (threads τ order rows).Reachable s → s.engine.isInitialized = true →
      s.engine.transaction = none → ∀ batch o,
        (LeavesNoTrace order o batch s.engine ↔ ¬(batch ≠ [] ∧ CommitLeftOpen o batch))) ∧
    ∀ s : State τ, (threads τ order rows).Reachable s → s.engine.transaction = none →
      ∀ es s', ((threads τ order rows).restrict NoCommitLeftOpen).Run s es s' →
        s'.engine.transaction = none ∧ s'.engine.table = s.engine.table ++ stored order es ∧
          s'.engine.close.table = s.engine.table ++ stored order es := by
  constructor
  · intro s h hi ht batch o
    have hinv := inv_of_reachable h
    have hf : s.engine.initFlag = true := by
      by_contra hf
      simpa [hi] using (hinv.fresh (by simpa using hf)).1
    have hl : Live s.engine := by simpa [Consistent, hi] using hinv.consistent
    exact leavesNoTrace_iff hf hi hl ht
  · intro s _ ht es s' h
    obtain ⟨ht', htable⟩ := run_stored h ht
    exact ⟨ht', htable, by simpa [close] using htable⟩

def firstFrame : TelemetryData where
  robotId := "amr_robot_01"
  sensorType := "battery"
  timestampNs := 1700000000000000000
  sequenceId := 1

def secondFrame : TelemetryData := { firstFrame with sequenceId := 2 }

def secondFails : SqliteOutcomes where
  step i := if i = 1 then .failed false else .done

theorem not_commitLeftOpen (h : o.commit ≠ .failedOpen) : ¬CommitLeftOpen o batch :=
  fun hopen => h hopen.2.2

omit [DecidableEq τ] in
theorem noCommitLeftOpen_of_ne {s s' : State τ} {ev : Event τ}
    (h : ∀ t batch o a, ev ≠ .locked t (.insertBatch batch) o a) : NoCommitLeftOpen s ev s' :=
  fun t batch o a hev => absurd hev (h t batch o a)

omit [DecidableEq τ] in
theorem noCommitLeftOpen_locked {s s' : State τ} (h : ¬CommitLeftOpen o batch) (t : τ)
    (a : Answer) : NoCommitLeftOpen s (.locked t (.insertBatch batch) o a) s' := by
  rintro _ _ _ _ ⟨⟩
  exact h

/-- On a file with a row in it, one thread's batch fails at its second frame,
and the other's, of the same frames, does not. -/
theorem leavesNoTrace_and_stored_batches :
    ∃ s s' : State Bool, LeavesNoTrace .byKey secondFails [firstFrame, secondFrame] s.engine ∧
      s'.engine.close.table =
        [rowOf .byKey {}, rowOf .byKey firstFrame, rowOf .byKey secondFrame] := by
  have hinit : (threads Bool .byKey [rowOf .byKey {}]).Reachable _ := ⟨_, _, rfl,
    .cons (.call _ true .init rfl rfl) <| .cons (.once _ true .init {} rfl rfl) <|
      .single (.load _ true .init rfl rfl)⟩
  have hfails : ∀ batch, ¬CommitLeftOpen secondFails batch := fun _ => not_commitLeftOpen (by simp [secondFails])
  have hleaves := (leavesNoTrace_and_stored.1 _ hinit rfl rfl [firstFrame, secondFrame]
    secondFails).mpr fun h => hfails _ h.2
  have hrun := leavesNoTrace_and_stored.2 _ hinit rfl _ _
    (.cons ⟨.call _ true (.locking (.insertBatch [firstFrame, secondFrame])) rfl rfl,
        noCommitLeftOpen_of_ne (by simp)⟩ <|
      .cons ⟨.call _ false (.locking (.insertBatch [firstFrame, secondFrame])) rfl rfl,
        noCommitLeftOpen_of_ne (by simp)⟩ <|
      .cons ⟨.once _ false _ {} rfl rfl, noCommitLeftOpen_of_ne (by simp)⟩ <|
      .cons ⟨.once _ true _ {} rfl rfl, noCommitLeftOpen_of_ne (by simp)⟩ <|
      .cons ⟨.load _ true _ rfl rfl, noCommitLeftOpen_of_ne (by simp)⟩ <|
      .cons ⟨.load _ false _ rfl rfl, noCommitLeftOpen_of_ne (by simp)⟩ <|
      .cons ⟨.locked _ true _ secondFails rfl rfl rfl,
        noCommitLeftOpen_locked (hfails _) _ _⟩ <|
      .single ⟨.locked _ false _ {} rfl rfl rfl,
        noCommitLeftOpen_locked (not_commitLeftOpen (by simp)) _ _⟩)
  exact ⟨_, _, hleaves, hrun.2.2⟩

/-- The `COMMIT` of a batch fails and leaves the transaction open. The next
insertion returns true, and its row is gone with the close. -/
theorem leavesNoTrace_fails :
    ∃ s : State Unit, (threads Unit .byKey []).Reachable s ∧ s.engine.isInitialized = true ∧
      s.engine.transaction = none ∧
      ¬LeavesNoTrace .byKey { commit := .failedOpen } [{}] s.engine ∧
      ∃ e₁ e₂, s.engine.insertBatch .byKey { commit := .failedOpen } [{}] = some (false, e₁) ∧
        e₁.insertTelemetry .byKey {} {} = some (true, e₂) ∧ e₂.close.table = [] := by
  refine ⟨_, ⟨_, _, rfl,
    .cons (.call _ () .init rfl rfl) <| .single (.once _ () .init {} rfl rfl)⟩, rfl, rfl, ?_,
    _, _, rfl, rfl, rfl⟩
  rintro ⟨_, _, h, ht, -⟩
  cases h
  cases ht

end SecureTelemetryGateway.Storage
