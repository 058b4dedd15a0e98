import SecureTelemetryGateway.Storage.BatchAtomicity
import SecureTelemetryGateway.Storage.StatementSafety

/-!
# One insertion at a time

As long as transactions begin and commit, the two ways to insert agree: the
table grows by the rows of the calls that return true, in the order in which
they take the lock, and a batch writes what its frames would one by one.
-/

namespace SecureTelemetryGateway.Storage

open Models (TelemetryData)
open StorageEngine

variable {τ : Type u} {order : IterationOrder} {rows : List Row}

/-- Nothing closes the engine, and every `BEGIN` and `COMMIT` succeeds. -/
def Undisturbed (_ : State τ) (ev : Event τ) (_ : State τ) : Prop :=
  ∀ t sec o a, ev = .locked t sec o a →
    sec ≠ .close ∧ o.beginTransaction = true ∧ o.commit = .ok

def insertEach (order : IterationOrder) :
    List (TelemetryData × SqliteOutcomes) → StorageEngine → Option StorageEngine
  | [], e => some e
  | (data, o) :: rest, e =>
    match e.insertTelemetry order o data with
    | some (true, e) => insertEach order rest e
    | _ => none

theorem insertEach_spec (h : insertEach order calls e = some e') (ht : e.transaction = none) :
    e'.transaction = none ∧ e'.table = e.table ++ calls.map fun call => rowOf order call.1 := by
  induction calls generalizing e with
  | nil =>
    obtain rfl : e = e' := Option.some.inj h
    exact ⟨ht, by simp⟩
  | cons call rest ih =>
    obtain ⟨data, o⟩ := call
    unfold insertEach at h
    split at h
    · rename_i e₁ h₁
      obtain ⟨ht₁, htable₁⟩ := insertTelemetry_spec h₁ ht
      obtain ⟨ht', htable'⟩ := ih h ht₁
      exact ⟨ht', by simp [htable', htable₁]⟩
    · cases h

def Ready (e : StorageEngine) : Prop := e.initFlag = true ∧ e.isInitialized = true ∧ Live e

theorem StorageEngine.KeepsHandles.ready (hk : KeepsHandles e e') (h : Ready e) : Ready e' :=
  ⟨hk.initFlag.trans h.1, hk.isInitialized.trans h.2.1, hk.live.mpr h.2.2⟩

theorem ready_of_reachable {s : State τ} [DecidableEq τ] (h : (threads τ order rows).Reachable s)
    (hi : s.engine.isInitialized = true) : Ready s.engine := by
  have hinv := inv_of_reachable h
  refine ⟨?_, hi, (live_iff_isInitialized hinv.consistent).mpr hi⟩
  by_contra hf
  simpa [hi] using (hinv.fresh (by simpa using hf)).1

theorem insertEach_isSome (h : Ready e) (batch : List TelemetryData) :
    ∃ e', insertEach order (batch.map (·, {})) e = some e' := by
  induction batch generalizing e with
  | nil => exact ⟨e, rfl⟩
  | cons data rest ih =>
    obtain ⟨hf, hi, hl⟩ := h
    obtain ⟨⟨ok, e₁⟩, hw⟩ : ∃ r, e.writeRow order .done data = some r := writeRow_isSome hl
    obtain ⟨hk, hok, -⟩ := writeRow_spec hw
    obtain rfl : ok = true := hok.mpr rfl
    have hinsert : e.insertTelemetry order {} data = some (true, e₁) := by
      simp [insertTelemetry, ensureInitialized_of_initFlag hf, hi, insertTelemetrySection, hw]
    obtain ⟨e', h'⟩ := ih (hk.ready ⟨hf, hi, hl⟩)
    exact ⟨e', by simp [insertEach, hinsert, h']⟩

variable [DecidableEq τ]

theorem ready_step {s s' : State τ} (hs : Step order s ev s') (hg : Undisturbed s ev s')
    (h : Ready s.engine) (hc : s.crashed = false) : Ready s'.engine ∧ s'.crashed = false := by
  cases hs with
  | call => exact ⟨h, hc⟩
  | once _ t op o =>
    rw [ensureInitialized_of_initFlag h.1]
    exact ⟨h, hc⟩
  | load => exact ⟨h, hc⟩
  | locked _ t sec o _ _ hr =>
    rcases run_handles hr with hk | ⟨-, hclose⟩
    · exact ⟨hk.ready h, hc⟩
    · exact absurd hclose (hg t sec o _ rfl).1
  | crash _ t sec o _ _ hr =>
    have hconsistent : Consistent s.engine := by simpa [Consistent, h.2.1] using h.2.2
    obtain ⟨r, hr'⟩ : ∃ r, sec.run order o s.engine = some r :=
      run_isSome hconsistent fun _ _ => h.2.1
    rw [hr] at hr'
    cases hr'

theorem ready_of_run {s s' : State τ}
    (h : ((threads τ order rows).restrict Undisturbed).Run s es s')
    (hr : Ready s.engine) (hc : s.crashed = false) : Ready s'.engine ∧ s'.crashed = false :=
  h.invariant (I := fun _ s => Ready s.engine ∧ s.crashed = false) ⟨hr, hc⟩
    fun _ _ _ _ hi hs => ready_step hs.1 hs.2 hi.1 hi.2

/-- From an initialised engine with no transaction open, every run adds to the
table the rows of the calls that return true, in lock order, and never crashes;
and a batch that returns true adds what its frames add one by one. -/
theorem insertionsSerialized {s : State τ} (h : (threads τ order rows).Reachable s)
    (hi : s.engine.isInitialized = true) (hc : s.crashed = false)
    (ht : s.engine.transaction = none) :
    (∀ es s', ((threads τ order rows).restrict Undisturbed).Run s es s' →
      s'.engine.table = s.engine.table ++ stored order es ∧ s'.engine.transaction = none ∧
        s'.engine.isInitialized = true ∧ s'.crashed = false) ∧
      ∀ o batch e', s.engine.insertBatch order o batch = some (true, e') →
        (∃ e'', insertEach order (batch.map (·, {})) s.engine = some e'') ∧
          ∀ calls e'', calls.map Prod.fst = batch → insertEach order calls s.engine = some e'' →
            e''.table = e'.table := by
  have hready : Ready s.engine := ready_of_reachable h hi
  constructor
  · intro es s' hr
    have hrows : ((threads τ order rows).restrict NoCommitLeftOpen).Run s es s' := by
      refine hr.restrict_mono fun _ _ _ hg t batch o a hev hopen => ?_
      have hcommit := (hg t _ o a hev).2.2
      rw [hopen.2.2] at hcommit
      cases hcommit
    obtain ⟨ht', htable⟩ := run_stored hrows ht
    obtain ⟨hready', hc'⟩ := ready_of_run hr hready hc
    exact ⟨htable, ht', hready'.2.1, hc'⟩
  · intro o batch e' hbatch
    refine ⟨insertEach_isSome hready batch, ?_⟩
    rintro calls e'' rfl heach
    rw [(insertEach_spec heach ht).2, insertBatch_spec hbatch, List.map_map]
    rfl

def firstFails : SqliteOutcomes where
  step _ := .failed true

omit [DecidableEq τ] in
theorem undisturbed_of_ne {s s' : State τ} (h : ∀ t sec o a, ev ≠ .locked t sec o a) :
    Undisturbed s ev s' :=
  fun t sec o a hev => absurd hev (h t sec o a)

omit [DecidableEq τ] in
theorem undisturbed_locked {s s' : State τ} (h : sec ≠ .close) (hb : o.beginTransaction = true)
    (hc : o.commit = .ok) (t : τ) (a : Answer) : Undisturbed s (.locked t sec o a) s' := by
  rintro _ _ _ _ ⟨⟩
  exact ⟨h, hb, hc⟩

/-- While one thread's batch waits for the lock, the other's insertion fails;
the batch is stored, and the other tries again. -/
theorem insertionsSerialized_batch : ∃ s s' : State Bool, ∃ e' e'',
    s.engine.table = [rowOf .byKey {}] ∧
      s'.engine.table = [rowOf .byKey {}, rowOf .byKey firstFrame, rowOf .byKey secondFrame,
        rowOf .byKey firstFrame] ∧
      s'.crashed = false ∧
      s.engine.insertBatch .byKey {} [firstFrame, secondFrame] = some (true, e') ∧
      insertEach .byKey [(firstFrame, {}), (secondFrame, {})] s.engine = some e'' ∧
      e''.table = e'.table := by
  have hinit : (threads Bool .byKey [rowOf .byKey {}]).Reachable _ := ⟨_, _, rfl,
    .cons (.call _ true .init rfl rfl) <| .cons (.once _ true .init {} rfl rfl) <|
      .single (.load _ true .init rfl rfl)⟩
  obtain ⟨hruns, hbatches⟩ := insertionsSerialized hinit rfl rfl rfl
  obtain ⟨htable, -, -, hcrashed⟩ := hruns _ _
    (.cons ⟨.call _ true (.locking (.insertBatch [firstFrame, secondFrame])) rfl rfl,
        undisturbed_of_ne (by simp)⟩ <|
      .cons ⟨.call _ false (.locking (.insertTelemetry firstFrame)) rfl rfl,
        undisturbed_of_ne (by simp)⟩ <|
      .cons ⟨.once _ true _ {} rfl rfl, undisturbed_of_ne (by simp)⟩ <|
      .cons ⟨.once _ false _ {} rfl rfl, undisturbed_of_ne (by simp)⟩ <|
      .cons ⟨.load _ true _ rfl rfl, undisturbed_of_ne (by simp)⟩ <|
      .cons ⟨.load _ false _ rfl rfl, undisturbed_of_ne (by simp)⟩ <|
      .cons ⟨.locked _ false _ firstFails rfl rfl rfl,
        undisturbed_locked (by simp) rfl rfl _ _⟩ <|
      .cons ⟨.locked _ true _ {} rfl rfl rfl, undisturbed_locked (by simp) rfl rfl _ _⟩ <|
      .cons ⟨.call _ false (.locking (.insertTelemetry firstFrame)) rfl rfl,
        undisturbed_of_ne (by simp)⟩ <|
      .cons ⟨.once _ false _ {} rfl rfl, undisturbed_of_ne (by simp)⟩ <|
      .cons ⟨.load _ false _ rfl rfl, undisturbed_of_ne (by simp)⟩ <|
      .single ⟨.locked _ false _ {} rfl rfl rfl, undisturbed_locked (by simp) rfl rfl _ _⟩)
  obtain ⟨⟨e'', heach⟩, hsame⟩ := hbatches {} [firstFrame, secondFrame] _ rfl
  exact ⟨_, _, _, e'', rfl, htable, hcrashed, rfl, heach, hsame _ e'' rfl heach⟩

end SecureTelemetryGateway.Storage
