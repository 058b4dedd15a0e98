import SecureTelemetryGateway.Storage.Threads

/-!
# Bringing the engine back

The `call_once` makes the first attempt to initialise the last one: an engine
that is not ready after it, or that has been closed since, stays so.
-/

namespace SecureTelemetryGateway.Storage

open Models (TelemetryData)
open StorageEngine

/-- With the library's calls succeeding, `init` leaves the engine ready, and an
insertion on an engine that is not ready initialises it and inserts. -/
def BringsBack (order : IterationOrder) (e : StorageEngine) : Prop :=
  ∀ o : SqliteOutcomes, o.initOk = true →
    (e.init o).1 = true ∧ (e.init o).2.isReady = true ∧
      (o.step 0 = .done → e.isReady = false → ∀ data, ∃ e',
        e.insertTelemetry order o data = some (true, e') ∧ e'.isReady = true ∧
          e'.table = e.table ++ [rowOf order data])

def Stuck (e : StorageEngine) : Prop := e.initFlag = true ∧ e.isInitialized = false

variable {e : StorageEngine} {o : SqliteOutcomes} {order : IterationOrder}

theorem ensureInitialized_fresh (hf : e.initFlag = false) (hi : e.isInitialized = false)
    (ho : o.initOk = true) :
    (e.ensureInitialized o).isInitialized = true ∧ Live (e.ensureInitialized o) ∧
      (e.ensureInitialized o).transaction = none := by
  rw [ensureInitialized_of_not_initFlag hf]
  obtain ⟨hc, hready, ht, -⟩ := initInternal_spec (o := o) hi
  rw [ho] at hready
  have hl : Live (e.initInternal o).2 := by simpa [Consistent, hready] using hc
  exact ⟨hready, hl, ht⟩

theorem insertTelemetry_fresh (hf : e.initFlag = false) (hi : e.isInitialized = false)
    (ho : o.initOk = true) (hstep : o.step 0 = .done) (data : TelemetryData) :
    ∃ e', e.insertTelemetry order o data = some (true, e') ∧ e'.isInitialized = true ∧
      e'.table = e.table ++ [rowOf order data] := by
  obtain ⟨hready, hl, ht⟩ := ensureInitialized_fresh hf hi ho
  obtain ⟨⟨ok, e'⟩, hw⟩ : ∃ r, (e.ensureInitialized o).writeRow order (o.step 0) data = some r :=
    writeRow_isSome hl
  obtain ⟨hk, hok, htable, -⟩ := writeRow_spec hw
  obtain rfl : ok = true := hok.mpr hstep
  refine ⟨e', ?_, hk.isInitialized.trans hready, ?_⟩
  · simp [insertTelemetry, hready, insertTelemetrySection, hw]
  · simpa using (htable ht).2

theorem bringsBack_iff (order : IterationOrder) (e : StorageEngine) :
    BringsBack order e ↔ e.initFlag = false ∨ e.isInitialized = true := by
  constructor
  · intro h
    refine or_iff_not_imp_left.mpr fun hf => ?_
    have hf : e.initFlag = true := by simpa using hf
    obtain ⟨hready, -⟩ := h {} rfl
    simpa [init, ensureInitialized_of_initFlag hf] using hready
  · intro h o ho
    cases hi : e.isInitialized with
    | true =>
      have hready : (e.ensureInitialized o).isInitialized = true := by
        cases hf : e.initFlag with
        | true => rw [ensureInitialized_of_initFlag hf, hi]
        | false => simp [ensureInitialized_of_not_initFlag hf, initInternal, hi]
      exact ⟨hready, hready, fun _ hnot => by simp [isReady, hi] at hnot⟩
    | false =>
      have hf : e.initFlag = false := by simpa [hi] using h
      have hready := (ensureInitialized_fresh hf hi ho).1
      exact ⟨hready, hready, fun hstep _ data => insertTelemetry_fresh hf hi ho hstep data⟩

theorem bringsBack_fails :
    ¬BringsBack .byKey (({} : StorageEngine).init {}).2.close ∧
      ¬BringsBack .byKey (({} : StorageEngine).init { openOk := false }).2 := by
  constructor
  · intro h
    exact absurd (h {} rfl).1 Bool.false_ne_true
  · intro h
    exact absurd (h {} rfl).1 Bool.false_ne_true

variable {τ : Type u} {rows : List Row} [DecidableEq τ]

theorem Stuck.step {s s' : State τ} (h : Stuck s.engine) (hs : Step order s ev s') :
    Stuck s'.engine := by
  cases hs with
  | call => exact h
  | once _ t op o =>
    rw [ensureInitialized_of_initFlag h.1]
    exact h
  | load => exact h
  | locked _ t sec o _ _ hr =>
    rcases run_handles hr with hk | ⟨rfl, -⟩
    · exact ⟨hk.initFlag.trans h.1, hk.isInitialized.trans h.2⟩
    · exact ⟨by simpa [close] using h.1, rfl⟩
  | crash => exact h

end SecureTelemetryGateway.Storage
