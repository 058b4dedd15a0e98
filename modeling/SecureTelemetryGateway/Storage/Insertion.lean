import SecureTelemetryGateway.Storage.StorageEngine

/-!
# What initialising and inserting do

One lemma for each function: what it leaves of the handles, of the table and
of the transaction. Everything about runs of the engine rests on these.
-/

namespace SecureTelemetryGateway.Storage

open Models (TelemetryData)

def SqliteOutcomes.initOk (o : SqliteOutcomes) : Bool :=
  o.openOk && o.journalMode && o.synchronous && o.schema && o.prepare

namespace StorageEngine

variable {e e' : StorageEngine} {order : IterationOrder}

-- ---------------------------------------------------------------------------
-- Initialising
-- ---------------------------------------------------------------------------

def Consistent (e : StorageEngine) : Prop :=
  if e.isInitialized then Live e else Closed e

theorem consistent_closeInternal (e : StorageEngine) : Consistent e.closeInternal := by
  simp [Consistent, closed_closeInternal]

theorem initInternal_spec (h : e.isInitialized = false) :
    Consistent (e.initInternal o).2 ∧ (e.initInternal o).2.isInitialized = o.initOk ∧
      (e.initInternal o).2.transaction = none ∧ (e.initInternal o).2.table = e.table := by
  have hclose : ∀ e : StorageEngine, Consistent e.closeInternal ∧
      e.closeInternal.isInitialized = false ∧ e.closeInternal.transaction = none ∧
      e.closeInternal.table = e.table := fun e =>
    ⟨consistent_closeInternal e, rfl, (closed_closeInternal e).transaction, table_closeInternal e⟩
  simp only [initInternal, h, Bool.false_eq_true, ↓reduceIte, openDb, SqliteOutcomes.initOk]
  cases o.openOk with
  | false =>
    cases o.openHandle <;> simpa using hclose _
  | true =>
    simp only [Bool.true_or, ↓reduceIte, Bool.not_true, Bool.false_eq_true, enableWalMode,
      createSchema, Option.isSome_some, Bool.true_and]
    cases o.journalMode && o.synchronous with
    | false => simpa using hclose _
    | true =>
      cases o.schema with
      | false => simpa using hclose _
      | true =>
        cases hp : o.prepare with
        | false => simpa [prepareInsert, hp] using hclose _
        | true => simp [prepareInsert, hp, Consistent, Live, transaction]

theorem ensureInitialized_of_initFlag (h : e.initFlag = true) : e.ensureInitialized o = e := by
  simp [ensureInitialized, h]

theorem ensureInitialized_of_not_initFlag (h : e.initFlag = false) :
    e.ensureInitialized o = { (e.initInternal o).2 with initFlag := true } := by
  simp [ensureInitialized, h]

@[simp] theorem initFlag_ensureInitialized (e : StorageEngine) (o : SqliteOutcomes) :
    (e.ensureInitialized o).initFlag = true := by
  unfold ensureInitialized
  split
  · assumption
  · rfl

@[simp] theorem table_ensureInitialized (e : StorageEngine) (o : SqliteOutcomes) :
    (e.ensureInitialized o).table = e.table := by
  cases hf : e.initFlag with
  | true => rw [ensureInitialized_of_initFlag hf]
  | false =>
    rw [ensureInitialized_of_not_initFlag hf]
    cases hi : e.isInitialized with
    | true => simp [initInternal, hi]
    | false => exact (initInternal_spec hi).2.2.2

theorem transaction_ensureInitialized (ht : e.transaction = none) (o : SqliteOutcomes) :
    (e.ensureInitialized o).transaction = none := by
  cases hf : e.initFlag with
  | true => rwa [ensureInitialized_of_initFlag hf]
  | false =>
    rw [ensureInitialized_of_not_initFlag hf]
    cases hi : e.isInitialized with
    | true => simpa [initInternal, hi, transaction] using ht
    | false => exact (initInternal_spec hi).2.2.1

-- ---------------------------------------------------------------------------
-- Writing one row
-- ---------------------------------------------------------------------------

/-- An insertion changes the table, the transaction and the bindings only. -/
structure KeepsHandles (e e' : StorageEngine) : Prop where
  opened : e'.opened = e.opened
  handleCalls : e'.handleCalls = e.handleCalls
  initFlag : e'.initFlag = e.initFlag
  isInitialized : e'.isInitialized = e.isInitialized
  initFailed : e'.initFailed = e.initFailed
  connection : e'.db.map (·.id) = e.db.map (·.id)
  statement : e'.insertStmt.map (·.connection) = e.insertStmt.map (·.connection)

theorem KeepsHandles.refl (e : StorageEngine) : KeepsHandles e e :=
  ⟨rfl, rfl, rfl, rfl, rfl, rfl, rfl⟩

theorem KeepsHandles.trans (h : KeepsHandles e e') (h' : KeepsHandles e' e'') :
    KeepsHandles e e'' where
  opened := h'.opened.trans h.opened
  handleCalls := h'.handleCalls.trans h.handleCalls
  initFlag := h'.initFlag.trans h.initFlag
  isInitialized := h'.isInitialized.trans h.isInitialized
  initFailed := h'.initFailed.trans h.initFailed
  connection := h'.connection.trans h.connection
  statement := h'.statement.trans h.statement

theorem live_iff : Live e ↔
    ∃ n, e.db.map (·.id) = some n ∧ e.insertStmt.map (·.connection) = some n := by
  constructor
  · rintro ⟨c, stmt, hc, hs, h⟩
    exact ⟨c.id, by simp [hc], by simp [hs, h]⟩
  · rintro ⟨n, hc, hs⟩
    obtain ⟨c, hd, rfl⟩ := Option.map_eq_some_iff.mp hc
    obtain ⟨stmt, hi, h⟩ := Option.map_eq_some_iff.mp hs
    exact ⟨c, stmt, hd, hi, h⟩

theorem KeepsHandles.live (h : KeepsHandles e e') : Live e' ↔ Live e := by
  rw [live_iff, live_iff, h.connection, h.statement]

theorem KeepsHandles.closed (h : KeepsHandles e e') : Closed e' ↔ Closed e := by
  have hc := congrArg Option.isNone h.connection
  have hs := congrArg Option.isNone h.statement
  simp only [Option.isNone_map] at hc hs
  simp only [Closed, ← Option.isNone_iff_eq_none, hc, hs]

theorem KeepsHandles.consistent (h : KeepsHandles e e') : Consistent e' ↔ Consistent e := by
  rw [Consistent, Consistent, h.isInitialized, h.live, h.closed]

theorem row_bindFrame (order : IterationOrder) (data : TelemetryData) (stmt : Statement) :
    (bindFrame order data stmt).bindings.row? = some (rowOf order data) := rfl

@[simp] theorem connection_bindFrame (order : IterationOrder) (data : TelemetryData)
    (stmt : Statement) : (bindFrame order data stmt).connection = stmt.connection := rfl

/-- What has been inserted so far and not been given up: the committed rows,
then those of the open transaction. -/
theorem writeRow_spec (h : e.writeRow order o data = some (ok, e')) :
    KeepsHandles e e' ∧ (ok = true ↔ o = .done) ∧
      (e.transaction = none → e'.transaction = none ∧
        e'.table = e.table ++ if ok then [rowOf order data] else []) ∧
      ∀ pending, e.transaction = some pending → e'.table = e.table ∧
        (ok = true → e'.transaction = some (pending ++ [rowOf order data])) := by
  unfold writeRow at h
  cases hs : e.insertStmt with
  | none => simp [hs] at h
  | some stmt =>
    cases hd : e.db with
    | none => simp [hs, hd] at h
    | some c =>
      simp only [hs, hd, Option.some.injEq, Prod.mk.injEq] at h
      obtain ⟨rfl, rfl⟩ := h
      refine ⟨⟨rfl, rfl, rfl, rfl, rfl, by simp [hd], by simp [hs]⟩, ?_⟩
      simp only [transaction, hd, Option.bind_some, Connection.step, row_bindFrame]
      cases o with
      | done =>
        cases ht : c.transaction <;> simp [Connection.insert, ht]
      | failed rolledBack => cases rolledBack <;> simp

theorem insertTelemetry_cases (h : e.insertTelemetry order o data = some (ok, e')) :
    (ok = false ∧ e' = e.ensureInitialized o) ∨
      (e.ensureInitialized o).writeRow order (o.step 0) data = some (ok, e') := by
  unfold insertTelemetry at h
  cases hready : (e.ensureInitialized o).isInitialized with
  | false =>
    simp only [hready, Bool.not_false, ↓reduceIte, Option.some.injEq, Prod.mk.injEq] at h
    exact .inl ⟨h.1.symm, h.2.symm⟩
  | true =>
    simp only [hready, Bool.not_true, Bool.false_eq_true, ↓reduceIte, insertTelemetrySection] at h
    exact .inr h

theorem insertTelemetry_spec (h : e.insertTelemetry order o data = some (ok, e'))
    (ht : e.transaction = none) :
    e'.transaction = none ∧ e'.table = e.table ++ if ok then [rowOf order data] else [] := by
  rcases insertTelemetry_cases h with ⟨rfl, rfl⟩ | hw
  · exact ⟨transaction_ensureInitialized ht o, by simp⟩
  · obtain ⟨htrans, htable⟩ := (writeRow_spec hw).2.2.1 (transaction_ensureInitialized ht o)
    exact ⟨htrans, by rw [htable, table_ensureInitialized]⟩

theorem writeRow_isSome (h : Live e) : ∃ r, e.writeRow order o data = some r := by
  obtain ⟨c, stmt, hd, hs, -⟩ := h
  simp [writeRow, hd, hs]

-- ---------------------------------------------------------------------------
-- Writing a batch
-- ---------------------------------------------------------------------------

theorem insertRows_cons (h : insertRows order step i (data :: rest) e = some (ok, e')) :
    (e.writeRow order (step i) data = some (false, e') ∧ ok = false) ∨
      ∃ e₁, e.writeRow order (step i) data = some (true, e₁) ∧
        insertRows order step (i + 1) rest e₁ = some (ok, e') := by
  simp only [insertRows, Option.bind_eq_bind, Option.bind_eq_some_iff, Prod.exists] at h
  obtain ⟨ok₁, e₁, h₁, h₂⟩ := h
  cases ok₁ with
  | false =>
    simp only [Bool.false_eq_true, ↓reduceIte, Option.some.injEq, Prod.mk.injEq] at h₂
    obtain ⟨rfl, rfl⟩ := h₂
    exact .inl ⟨h₁, rfl⟩
  | true => exact .inr ⟨e₁, h₁, by simpa using h₂⟩

theorem keepsHandles_insertRows (h : insertRows order step i batch e = some (ok, e')) :
    KeepsHandles e e' := by
  induction batch generalizing i e with
  | nil =>
    simp only [insertRows, Option.some.injEq, Prod.mk.injEq] at h
    exact h.2 ▸ .refl e
  | cons data rest ih =>
    rcases insertRows_cons h with ⟨h₁, -⟩ | ⟨e₁, h₁, h₂⟩
    · exact (writeRow_spec h₁).1
    · exact (writeRow_spec h₁).1.trans (ih h₂)

theorem insertRows_spec (h : insertRows order step i batch e = some (ok, e'))
    (ht : e.transaction = some pending) :
    e'.table = e.table ∧
      (ok = true ↔ ∀ k < batch.length, step (i + k) = .done) ∧
      (ok = true → e'.transaction = some (pending ++ batch.map (rowOf order))) := by
  induction batch generalizing i e pending with
  | nil =>
    simp only [insertRows, Option.some.injEq, Prod.mk.injEq] at h
    obtain ⟨rfl, rfl⟩ := h
    exact ⟨rfl, by simp, by simpa using ht⟩
  | cons data rest ih =>
    rcases insertRows_cons h with ⟨h₁, rfl⟩ | ⟨e₁, h₁, h₂⟩
    · obtain ⟨-, hok, -, hp⟩ := writeRow_spec h₁
      have hstep : step i ≠ .done := fun hd => by simpa using hok.mpr hd
      refine ⟨(hp pending ht).1, ⟨by simp, fun hall => ?_⟩, by simp⟩
      exact absurd (hall 0 (by simp)) (by simpa using hstep)
    · obtain ⟨-, hok, -, hp⟩ := writeRow_spec h₁
      obtain ⟨htable, htrans⟩ := hp pending ht
      obtain ⟨htable', hok', htrans'⟩ := ih h₂ (htrans rfl)
      refine ⟨htable'.trans htable, hok'.trans ?_, fun h => ?_⟩
      · have hi : step i = .done := hok.mp rfl
        constructor
        · intro hall k hlt
          cases k with
          | zero => simpa using hi
          | succ k =>
            have := hall k (by simpa using hlt)
            rwa [Nat.add_right_comm] at this
        · intro hall k hlt
          have := hall (k + 1) (by simpa using hlt)
          rwa [Nat.add_right_comm]
      · simpa using htrans' h

theorem insertRows_isSome (h : Live e) : ∃ r, insertRows order step i batch e = some r := by
  induction batch generalizing i e with
  | nil => exact ⟨_, rfl⟩
  | cons data rest ih =>
    obtain ⟨⟨ok, e₁⟩, h₁⟩ : ∃ r, e.writeRow order (step i) data = some r := writeRow_isSome h
    simp only [insertRows, h₁, Option.bind_eq_bind, Option.bind_some]
    cases ok with
    | false => exact ⟨_, rfl⟩
    | true => simpa using ih ((writeRow_spec h₁).1.live.mpr h)

-- ---------------------------------------------------------------------------
-- The section of a batch
-- ---------------------------------------------------------------------------

/-- The one way to fail and leave the transaction open: everything up to the
`COMMIT` succeeds, and the `COMMIT` fails without rolling back. -/
def CommitLeftOpen (o : SqliteOutcomes) (batch : List TelemetryData) : Prop :=
  o.beginTransaction = true ∧ (∀ k < batch.length, o.step k = .done) ∧ o.commit = .failedOpen

theorem keepsHandles_execBegin (e : StorageEngine) (o : SqliteOutcomes) :
    KeepsHandles e (e.execBegin o).2 := by
  unfold execBegin
  cases hd : e.db with
  | none => exact .refl e
  | some c => exact ⟨rfl, rfl, rfl, rfl, rfl, by simp [hd], rfl⟩

theorem execBegin_spec (ht : e.transaction = none) :
    (e.execBegin o).2.table = e.table ∧
      ((e.execBegin o).1 = true ↔ e.db.isSome ∧ o.beginTransaction = true) ∧
      (e.execBegin o).2.transaction = if (e.execBegin o).1 then some [] else none := by
  unfold execBegin
  cases hd : e.db with
  | none => simp [ht]
  | some c =>
    have htc : c.transaction = none := by simpa [transaction, hd] using ht
    refine ⟨rfl, ?_, ?_⟩
    · simp [Connection.begin_eq_true, htc]
    · cases hb : o.beginTransaction <;> simp [Connection.begin_, htc, transaction]

theorem keepsHandles_execCommit (e : StorageEngine) (o : SqliteOutcomes) :
    KeepsHandles e (e.execCommit o).2 := by
  unfold execCommit
  cases hd : e.db with
  | none => exact .refl e
  | some c => exact ⟨rfl, rfl, rfl, rfl, rfl, by simp [hd], rfl⟩

theorem execCommit_spec (ht : e.transaction = some pending) :
    ((e.execCommit o).1 = true ↔ o.commit = .ok) ∧
      (e.execCommit o).2.table = e.table ++ (if o.commit = .ok then pending else []) ∧
      ((e.execCommit o).2.transaction = none ↔ o.commit ≠ .failedOpen) := by
  unfold execCommit
  cases hd : e.db with
  | none => simp [transaction, hd] at ht
  | some c =>
    have htc : c.transaction = some pending := by simpa [transaction, hd] using ht
    cases hc : o.commit <;> simp [Connection.commit, htc, transaction]

theorem execRollback_spec (e : StorageEngine) :
    KeepsHandles e e.execRollback ∧ e.execRollback.table = e.table ∧
      e.execRollback.transaction = none := by
  refine ⟨⟨rfl, rfl, rfl, rfl, rfl, ?_, rfl⟩, rfl, ?_⟩
  · cases hd : e.db <;> simp [execRollback, hd]
  · cases hd : e.db <;> simp [execRollback, transaction, hd]

theorem insertBatchSection_cases (h : e.insertBatchSection order o batch = some (ok, e')) :
    ((e.execBegin o).1 = false ∧ ok = false ∧ e' = (e.execBegin o).2) ∨
      ((e.execBegin o).1 = true ∧ ∃ e₂,
        (insertRows order o.step 0 batch (e.execBegin o).2 = some (true, e₂) ∧
          e₂.execCommit o = (ok, e')) ∨
        (insertRows order o.step 0 batch (e.execBegin o).2 = some (false, e₂) ∧ ok = false ∧
          e' = e₂.execRollback)) := by
  unfold insertBatchSection at h
  generalize e.execBegin o = r at h ⊢
  obtain ⟨began, e₁⟩ := r
  cases began with
  | false =>
    simp only [Bool.not_false, ↓reduceIte, Option.some.injEq, Prod.mk.injEq] at h
    exact .inl ⟨rfl, h.1.symm, h.2.symm⟩
  | true =>
    simp only [Bool.not_true, Bool.false_eq_true, ↓reduceIte, Option.bind_eq_bind,
      Option.bind_eq_some_iff, Prod.exists] at h
    obtain ⟨done, e₂, h₂, h⟩ := h
    cases done with
    | true =>
      simp only [↓reduceIte, Option.some.injEq] at h
      exact .inr ⟨rfl, e₂, .inl ⟨h₂, h⟩⟩
    | false =>
      simp only [Bool.false_eq_true, ↓reduceIte, Option.some.injEq, Prod.mk.injEq] at h
      exact .inr ⟨rfl, e₂, .inr ⟨h₂, h.1.symm, h.2.symm⟩⟩

theorem keepsHandles_insertBatchSection
    (h : e.insertBatchSection order o batch = some (ok, e')) : KeepsHandles e e' := by
  have hk := keepsHandles_execBegin e o
  rcases insertBatchSection_cases h with
    ⟨-, -, rfl⟩ | ⟨-, e₂, ⟨hrows, hcommit⟩ | ⟨hrows, -, rfl⟩⟩
  · exact hk
  · have hk₃ := keepsHandles_execCommit e₂ o
    rw [hcommit] at hk₃
    exact (hk.trans (keepsHandles_insertRows hrows)).trans hk₃
  · exact (hk.trans (keepsHandles_insertRows hrows)).trans (execRollback_spec e₂).1

theorem insertBatchSection_spec (h : e.insertBatchSection order o batch = some (ok, e'))
    (ht : e.transaction = none) :
    e'.table = e.table ++ (if ok then batch.map (rowOf order) else []) ∧
      (e'.transaction = none ↔ ¬(e.db.isSome ∧ CommitLeftOpen o batch)) := by
  obtain ⟨htable, hbegin, htrans⟩ := execBegin_spec (o := o) ht
  rcases insertBatchSection_cases h with
    ⟨hfailed, rfl, rfl⟩ | ⟨hbegan, e₂, ⟨hrows, hcommit⟩ | ⟨hrows, rfl, rfl⟩⟩
  · refine ⟨by simpa using htable, iff_of_true (by simpa [hfailed] using htrans) ?_⟩
    rintro ⟨hdb, hb, -⟩
    exact absurd (hbegin.mpr ⟨hdb, hb⟩) (by simp [hfailed])
  · obtain ⟨hdb, hb⟩ := hbegin.mp hbegan
    rw [hbegan, if_pos rfl] at htrans
    obtain ⟨htable₂, hdone, htrans₂⟩ := insertRows_spec hrows htrans
    simp only [Nat.zero_add, List.nil_append, true_iff, forall_const] at hdone htrans₂
    obtain ⟨hok, htable₃, htrans₃⟩ := execCommit_spec (o := o) htrans₂
    rw [hcommit] at hok htable₃ htrans₃
    refine ⟨?_, htrans₃.trans ?_⟩
    · rw [htable₃, htable₂, htable]
      by_cases hc : o.commit = .ok <;> simp_all
    · exact not_congr ⟨fun hc => ⟨hdb, hb, hdone, hc⟩, fun hc => hc.2.2.2⟩
  · rw [hbegan, if_pos rfl] at htrans
    obtain ⟨htable₂, hdone, -⟩ := insertRows_spec hrows htrans
    obtain ⟨-, htable₃, htrans₃⟩ := execRollback_spec e₂
    refine ⟨by simpa [htable₃, htable₂] using htable, iff_of_true htrans₃ ?_⟩
    rintro ⟨-, -, hall, -⟩
    simpa using hdone.mpr (by simpa using hall)

theorem transaction_of_execBegin (h : (e.execBegin o).1 = true) : e.transaction = none := by
  unfold execBegin at h
  cases hd : e.db with
  | none => simp [hd] at h
  | some c =>
    rw [transaction, hd]
    exact (Connection.begin_eq_true.mp (by simpa [hd] using h)).2

theorem insertBatch_spec (h : e.insertBatch order o batch = some (true, e')) :
    e'.table = e.table ++ batch.map (rowOf order) := by
  unfold insertBatch at h
  cases hready : (e.ensureInitialized o).isInitialized with
  | false => simp [hready] at h
  | true =>
    cases batch with
    | nil =>
      simp only [hready, Bool.not_true, Bool.false_eq_true, ↓reduceIte, List.isEmpty_nil,
        Option.some.injEq, Prod.mk.injEq] at h
      simp [← h.2]
    | cons data rest =>
      simp only [hready, Bool.not_true, Bool.false_eq_true, ↓reduceIte, List.isEmpty_cons] at h
      have hbegan : ((e.ensureInitialized o).execBegin o).1 = true := by
        rcases insertBatchSection_cases h with ⟨-, hfalse, -⟩ | ⟨hbegan, -⟩
        · cases hfalse
        · exact hbegan
      simpa using (insertBatchSection_spec h (transaction_of_execBegin hbegan)).1

theorem insertBatchSection_isSome (h : Live e) :
    ∃ r, e.insertBatchSection order o batch = some r := by
  have hlive : Live (e.execBegin o).2 := (keepsHandles_execBegin e o).live.mpr h
  obtain ⟨⟨success, e₂⟩, h₂⟩ : ∃ r, insertRows order o.step 0 batch (e.execBegin o).2 = some r :=
    insertRows_isSome hlive
  unfold insertBatchSection
  cases hb : (e.execBegin o).1 with
  | false => simp [hb]
  | true => cases success <;> simp [hb, h₂]

theorem insertBatchSection_closed (h : Closed e) :
    e.insertBatchSection order o batch = some (false, e) := by
  simp [insertBatchSection, execBegin, h.1]

end StorageEngine

end SecureTelemetryGateway.Storage
