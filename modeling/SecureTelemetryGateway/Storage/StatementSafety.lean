import SecureTelemetryGateway.Storage.Threads

/-!
# Which statement a section works on

The batch finds out at its `BEGIN` that the engine has been closed. The single
insertion does not: it goes straight to the statement, and the flag it has
looked at says nothing any more once another thread has closed the engine.
-/

namespace SecureTelemetryGateway.Storage

open Models (TelemetryData)
open StorageEngine

/-- The section, begun on `e`, has the engine in state `e'` when it comes to
the statement. -/
def Section.Reaches (order : IterationOrder) (o : SqliteOutcomes) (e : StorageEngine) :
    Section → StorageEngine → Prop
  | .insertTelemetry _, e' => e' = e
  | .insertBatch batch, e' => ∃ done data rest, batch = done ++ data :: rest ∧
      (e.execBegin o).1 = true ∧
      insertRows order o.step 0 done (e.execBegin o).2 = some (true, e')
  | _, _ => False

variable {τ : Type u} {order : IterationOrder} {rows : List Row}

def StatementsLive (order : IterationOrder) (s : State τ) : Prop :=
  ∀ t sec o e', s.pc t = .lock sec → sec.Reaches order o s.engine e' → Live e'

/-- No close runs while a thread is between the check of `insert_telemetry`
and its section. -/
def NoCloseInBetween (s : State τ) (ev : Event τ) (_ : State τ) : Prop :=
  ∀ t o a, ev = .locked t .close o a → ∀ u data, s.pc u ≠ .lock (.insertTelemetry data)

theorem live_of_reaches_batch (hc : Consistent e)
    (h : (Section.insertBatch batch).Reaches order o e e') : Live e' := by
  obtain ⟨done, data, rest, -, hbegin, hrows⟩ := h
  have hopen : e.isInitialized = true := by
    by_contra hi
    have hclosed : Closed e := by simpa [Consistent, hi] using hc
    simp [execBegin, hclosed.1] at hbegin
  have hlive : Live e := by simpa [Consistent, hopen] using hc
  exact (keepsHandles_insertRows hrows).live.mpr ((keepsHandles_execBegin e o).live.mpr hlive)

theorem live_iff_isInitialized (hc : Consistent e) : Live e ↔ e.isInitialized = true := by
  cases hi : e.isInitialized with
  | true => simpa [Consistent, hi] using hc
  | false =>
    have hclosed : Closed e := by simpa [Consistent, hi] using hc
    simpa using hclosed.not_live

theorem run_isSome {sec : Section} (hc : Consistent e)
    (h : ∀ data, sec = .insertTelemetry data → e.isInitialized = true) :
    ∃ r, sec.run order o e = some r := by
  cases sec with
  | insertTelemetry data =>
    have hlive : Live e := (live_iff_isInitialized hc).mpr (h data rfl)
    obtain ⟨r, hr⟩ : ∃ r, e.writeRow order (o.step 0) data = some r := writeRow_isSome hlive
    simp [Section.run, insertTelemetrySection, hr]
  | insertBatch batch =>
    cases hi : e.isInitialized with
    | true =>
      have hlive : Live e := (live_iff_isInitialized hc).mpr hi
      obtain ⟨r, hr⟩ : ∃ r, e.insertBatchSection order o batch = some r :=
        insertBatchSection_isSome hlive
      simp [Section.run, hr]
    | false =>
      have hclosed : Closed e := by simpa [Consistent, hi] using hc
      simp [Section.run, insertBatchSection_closed hclosed]
  | queryTelemetry robotId limit => exact ⟨_, rfl⟩
  | purgeOlderThan timestampNs => exact ⟨_, rfl⟩
  | close => exact ⟨_, rfl⟩

/-- A thread about to enter the section of a single insertion finds the engine
as ready as it has seen it. -/
def Pc.findsReady (ready : Bool) : Pc → Prop
  | .lock (.insertTelemetry _) => ready = true
  | _ => True

theorem findsReady_start (ready : Bool) (op : Operation) : op.start.findsReady ready := by
  cases op with
  | init => trivial
  | locking sec => cases sec <;> trivial

theorem findsReady_afterLoad (ready : Bool) (op : Operation) :
    (Pc.ofAnswer (op.afterLoad ready)).findsReady ready := by
  cases op with
  | init => trivial
  | locking sec =>
    cases sec with
    | insertTelemetry data => cases ready <;> trivial
    | insertBatch batch => cases ready <;> cases batch <;> trivial
    | _ => cases ready <;> trivial

theorem Pc.beforeOnce.findsReady {pc : Pc} (h : pc.beforeOnce) (ready : Bool) :
    pc.findsReady ready := by
  cases pc with
  | lock sec => cases sec <;> trivial
  | _ => trivial

theorem findsReady_of_ne {pc : Pc} (h : ∀ data, pc ≠ .lock (.insertTelemetry data)) (ready : Bool) :
    pc.findsReady ready := by
  cases pc with
  | lock sec =>
    cases sec with
    | insertTelemetry data => exact absurd rfl (h data)
    | _ => trivial
  | _ => trivial

structure Checked (s : State τ) : Prop where
  inv : Inv s
  ready : ∀ t, (s.pc t).findsReady s.engine.isInitialized
  running : s.crashed = false

theorem Checked.isInitialized {s : State τ} (h : Checked s)
    (hp : s.pc t = .lock (.insertTelemetry data)) : s.engine.isInitialized = true := by
  simpa [hp, Pc.findsReady] using h.ready t

theorem Checked.statementsLive {s : State τ} (h : Checked s) : StatementsLive order s := by
  intro t sec o e' hp hreach
  cases sec with
  | insertTelemetry data =>
    obtain rfl : e' = s.engine := hreach
    exact (live_iff_isInitialized h.inv.consistent).mpr (h.isInitialized hp)
  | insertBatch batch => exact live_of_reaches_batch h.inv.consistent hreach
  | queryTelemetry robotId limit => exact hreach.elim
  | purgeOlderThan timestampNs => exact hreach.elim
  | close => exact hreach.elim

variable [DecidableEq τ]

theorem findsReady_update {pc : τ → Pc} (hp : p.findsReady ready)
    (h : ∀ u, u ≠ t → (pc u).findsReady ready) : ∀ u, (Function.update pc t p u).findsReady ready :=
  (Function.forall_update_iff pc fun _ q => q.findsReady ready).mpr ⟨hp, h⟩

theorem Checked.step {s s' : State τ} (h : Checked s) (hs : Step order s ev s')
    (hno : NoCloseInBetween s ev s') : Checked s' := by
  have hinv : Inv s' := h.inv.step hs
  cases hs with
  | call _ t op hcr hp =>
    exact ⟨hinv, findsReady_update (findsReady_start _ op) fun u _ => h.ready u, hcr⟩
  | once _ t op o hcr hp =>
    refine ⟨hinv, findsReady_update (p := .load op) trivial fun u _ => ?_, hcr⟩
    -- a thread past its check has seen the `call_once` done
    cases hf : s.engine.initFlag with
    | true => simpa [ensureInitialized_of_initFlag hf] using h.ready u
    | false => exact ((h.inv.fresh hf).2 u).findsReady _
  | load _ t op hcr hp =>
    exact ⟨hinv, findsReady_update (findsReady_afterLoad _ op) fun u _ => h.ready u, hcr⟩
  | locked _ t sec o hcr hp hr =>
    refine ⟨hinv, findsReady_update (p := .idle) trivial fun u _ => ?_, hcr⟩
    rcases run_handles hr with hk | ⟨-, rfl⟩
    · simpa [hk.isInitialized] using h.ready u
    · exact findsReady_of_ne (hno t o _ rfl u) _
  | crash _ t sec o hcr hp hr =>
    obtain ⟨r, hr'⟩ : ∃ r, sec.run order o s.engine = some r :=
      run_isSome h.inv.consistent fun data hsec => h.isInitialized (hsec ▸ hp)
    rw [hr] at hr'
    cases hr'

theorem checked_of_reachable (h : ((threads τ order rows).restrict NoCloseInBetween).Reachable s) :
    Checked s := by
  refine h.invariant ?_ fun _ _ _ hi hs => hi.step hs.1 hs.2
  rintro _ rfl
  exact ⟨.init, fun _ => trivial, rfl⟩

/-- In every run in which no close comes in between, each section that comes
to the statement finds it live, and none crashes. The batch needs no such
condition; the single insertion finds a live statement exactly when the engine
is still initialised. -/
theorem statementsLive_of_noCloseInBetween :
    (∀ s : State τ, ((threads τ order rows).restrict NoCloseInBetween).Reachable s →
      StatementsLive order s ∧ s.crashed = false) ∧
    ∀ s : State τ, (threads τ order rows).Reachable s →
      (∀ t batch o e', s.pc t = .lock (.insertBatch batch) →
        (Section.insertBatch batch).Reaches order o s.engine e' → Live e') ∧
      ∀ t data o, s.pc t = .lock (.insertTelemetry data) →
        ((∀ e', (Section.insertTelemetry data).Reaches order o s.engine e' → Live e') ↔
          s.engine.isInitialized = true) := by
  constructor
  · intro s h
    have hc := checked_of_reachable h
    exact ⟨hc.statementsLive, hc.running⟩
  · intro s h
    have hc := (inv_of_reachable h).consistent
    refine ⟨fun t batch o e' _ hreach => live_of_reaches_batch hc hreach, fun t data o _ => ?_⟩
    rw [← live_iff_isInitialized hc]
    exact ⟨fun hall => hall _ rfl, fun hlive e' he => he ▸ hlive⟩

theorem statementsLive_of_noCloseInBetween_insert :
    ∃ s : State Bool, s.pc true = .lock (.insertTelemetry {}) ∧
      StatementsLive .byKey s ∧ s.crashed = false := by
  have hreach : ((threads Bool .byKey []).restrict NoCloseInBetween).Reachable _ := ⟨_, _, rfl,
    .cons ⟨.call _ true (.locking (.insertTelemetry {})) rfl rfl, fun _ _ _ h => nomatch h⟩ <|
      .cons ⟨.once _ true _ {} rfl rfl, fun _ _ _ h => nomatch h⟩ <|
        .single ⟨.load _ true _ rfl rfl, fun _ _ _ h => nomatch h⟩⟩
  exact ⟨_, rfl, statementsLive_of_noCloseInBetween.1 _ hreach⟩

/-- The other thread closes between the check and the section, and the section
clears the bindings of a null statement. -/
theorem statementsLive_fails :
    ∃ s s' : State Bool, (threads Bool .byKey []).Reachable s ∧
      s.pc true = .lock (.insertTelemetry {}) ∧ s.engine.insertStmt = none ∧
      ¬StatementsLive .byKey s ∧
      (threads Bool .byKey []).step s (.crash true (.insertTelemetry {}) {}) s' := by
  refine ⟨_, _, ⟨_, _, rfl,
    .cons (.call _ true (.locking (.insertTelemetry {})) rfl rfl) <|
      .cons (.once _ true _ {} rfl rfl) <| .cons (.load _ true _ rfl rfl) <|
        .cons (.call _ false (.locking .close) rfl rfl) <|
          .single (.locked _ false .close {} rfl rfl rfl)⟩,
    rfl, rfl, ?_, .crash _ _ _ _ rfl rfl rfl⟩
  intro h
  obtain ⟨_, _, hdb, -⟩ := h true (.insertTelemetry {}) {} _ rfl rfl
  cases hdb

end SecureTelemetryGateway.Storage
