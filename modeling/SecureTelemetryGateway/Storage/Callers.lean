import SecureTelemetryGateway.Storage.BatchAtomicity
import SecureTelemetryGateway.Storage.StatementSafety

/-!
# Threads that keep to one operation

What a program around the engine needs to know of a thread that is in a call:
where in the call it can be, and that its step moves no other thread.
-/

namespace SecureTelemetryGateway.Storage

open Models (TelemetryData)
open StorageEngine

variable {τ : Type u} {order : IterationOrder}

inductive Pc.Within : Option Operation → Pc → Prop
  | idle : Within op? .idle
  | once : op ≠ .locking .close → Within (some op) (.once op)
  | load : op ≠ .locking .close → Within (some op) (.load op)
  | lock : Within (some (.locking sec)) (.lock sec)

def Pc.isIdle : Pc → Bool
  | .idle => true
  | _ => false

def Event.thread : Event τ → τ
  | .call t _ | .once t _ | .load t _ | .locked t _ _ _ | .crash t _ _ => t

def Event.KeepsTo (op : Operation) (ev : Event τ) : Prop := ∀ t op', ev = .call t op' → op' = op

@[simp] theorem Event.keepsTo_call {t : τ} {op op' : Operation} :
    (Event.call t op').KeepsTo op ↔ op' = op := by
  simp [KeepsTo]

@[simp] theorem Event.keepsTo_once {t : τ} {op : Operation} (o : SqliteOutcomes) :
    (Event.once t o).KeepsTo op := by
  simp [KeepsTo]

@[simp] theorem Event.keepsTo_load {t : τ} {op : Operation} (ready : Bool) :
    (Event.load t ready).KeepsTo op := by
  simp [KeepsTo]

@[simp] theorem Event.keepsTo_locked {t : τ} {op : Operation} (sec : Section)
    (o : SqliteOutcomes) (a : Answer) : (Event.locked t sec o a).KeepsTo op := by
  simp [KeepsTo]

theorem Pc.isIdle_iff {pc : Pc} : pc.isIdle = true ↔ pc = .idle := by
  cases pc <;> simp [Pc.isIdle]

theorem Pc.Within.eq_idle {pc : Pc} (h : pc.Within none) : pc = .idle := by
  cases h
  rfl

theorem Pc.Within.of_isIdle {pc : Pc} (h : pc.isIdle = true) : pc.Within op? :=
  Pc.isIdle_iff.mp h ▸ .idle

theorem Pc.Within.lock_inv (h : (Pc.lock sec).Within (some op)) : op = .locking sec := by
  cases h
  rfl

theorem within_start (op : Operation) : op.start.Within (some op) := by
  cases op with
  | init => exact .once (by simp)
  | locking sec =>
    cases sec with
    | close => exact .lock
    | _ => exact .once (by simp)

theorem within_afterLoad (op : Operation) (ready : Bool) :
    (Pc.ofAnswer (op.afterLoad ready)).Within (some op) := by
  cases op with
  | init => exact .idle
  | locking sec =>
    cases sec with
    | insertBatch batch => cases ready <;> cases batch <;> first | exact .idle | exact .lock
    | _ => cases ready <;> first | exact .idle | exact .lock

theorem Pc.Within.of_thread {pc : τ → Pc} (h : (pc t).Within op?) (hop : op? = some op)
    (ht : Event.thread ev = t) : (pc ev.thread).Within (some op) := by
  subst ht hop
  exact h

variable [DecidableEq τ]

theorem pc_step_of_ne {s s' : State τ} (hs : Step order s ev s') (h : u ≠ ev.thread) :
    s'.pc u = s.pc u := by
  cases hs with
  | crash => rfl
  | _ => exact Function.update_of_ne h ..

theorem within_step {s s' : State τ} (hs : Step order s ev s')
    (hpc : (s.pc ev.thread).Within (some op)) (hop : ev.KeepsTo op) :
    (s'.pc ev.thread).Within (some op) := by
  cases hs with
  | call _ t op' hcr hp =>
    obtain rfl : op' = op := hop t op' rfl
    simpa [Event.thread] using within_start op'
  | once _ t op' o hcr hp =>
    rw [Event.thread, hp] at hpc
    cases hpc with
    | once hne => simpa [Event.thread] using Pc.Within.load hne
  | load _ t op' hcr hp =>
    rw [Event.thread, hp] at hpc
    cases hpc with
    | load => simpa [Event.thread] using within_afterLoad op _
  | locked _ t sec o hcr hp => simpa [Event.thread] using Pc.Within.idle
  | crash => exact hpc

theorem Pc.Within.step {s s' : State τ} (h : (s.pc t).Within op?) (hop : op? = some op)
    (ht : ev.thread = t) (hkeeps : ev.KeepsTo op) (hs : Step order s ev s') :
    (s'.pc t).Within (some op) := by
  have hpc := within_step hs (h.of_thread hop ht) hkeeps
  rwa [ht] at hpc

theorem section_of_within {s s' : State τ} (hs : Step order s (.locked t sec o a) s')
    (hpc : (s.pc t).Within (some op)) : op = .locking sec := by
  cases hs with
  | locked _ _ _ _ _ hp => exact (hp ▸ hpc).lock_inv

theorem noCommitLeftOpen_of_within {s s' : State τ} (hs : Step order s ev s')
    (hpc : (s.pc ev.thread).Within (some op)) (hop : ∀ batch, op ≠ .locking (.insertBatch batch)) :
    NoCommitLeftOpen s ev s' := by
  rintro t batch o a rfl
  exact absurd (section_of_within hs hpc) (hop batch)

/-- A call of an operation other than `close` closes nothing; `close` does no
harm where nobody inserts. -/
theorem noCloseInBetween_of_within {s s' : State τ} (hs : Step order s ev s')
    (hpc : (s.pc ev.thread).Within (some op))
    (hop : op = .locking .close → ∀ u data, s.pc u ≠ .lock (.insertTelemetry data)) :
    NoCloseInBetween s ev s' := by
  rintro t o a rfl
  exact hop (section_of_within hs hpc)

theorem rows_of_within {s s' : State τ} (hs : Step order s ev s')
    (hpc : (s.pc ev.thread).Within (some op)) (hop : op = .init ∨ op = .locking .close) :
    ev.rows order = [] := by
  cases ev with
  | locked t sec o a =>
    have hsec := section_of_within hs hpc
    rcases hop with rfl | rfl
    · cases hsec
    · obtain ⟨rfl⟩ := hsec
      cases a with
      | returned ok => cases ok <;> rfl
      | _ => rfl
  | _ => rfl

/-- The engine's part of a step of a program that begins no batch, and closes
only where nobody inserts. -/
structure EngineStep (order : IterationOrder) (s : State τ) (ev : Event τ) (s' : State τ) :
    Prop where
  step : Step order s ev s' ∧ NoCloseInBetween s ev s'
  transaction : s'.engine.transaction = none
  table : s'.engine.table = s.engine.table ++ ev.rows order

theorem engineStep_of_within {s s' : State τ} (hs : Step order s ev s')
    (ht : s.engine.transaction = none) (hpc : (s.pc ev.thread).Within (some op))
    (hbatch : ∀ batch, op ≠ .locking (.insertBatch batch))
    (hclose : op = .locking .close → ∀ u data, s.pc u ≠ .lock (.insertTelemetry data)) :
    EngineStep order s ev s' := by
  obtain ⟨htrans, htable⟩ := step_table hs (noCommitLeftOpen_of_within hs hpc hbatch) ht
  exact ⟨⟨hs, noCloseInBetween_of_within hs hpc hclose⟩, htrans, htable⟩

theorem step_insertTelemetry_cases {s s' : State τ} (hs : Step order s ev s')
    (hpc : (s.pc ev.thread).Within (some (.locking (.insertTelemetry data))))
    (hop : ev.KeepsTo (.locking (.insertTelemetry data))) :
    ((s'.pc ev.thread).isIdle = true ∧
        ((∃ t, ev = .load t false) ∨
          ∃ t o ok, ev = .locked t (.insertTelemetry data) o (.returned ok))) ∨
      ((s'.pc ev.thread).isIdle = false ∧ (∀ t, ev ≠ .load t false) ∧
        ∀ t sec o a, ev ≠ .locked t sec o a) := by
  cases hs with
  | call _ t op =>
    obtain rfl := hop t op rfl
    exact .inr ⟨by simp [Event.thread, Operation.start, Pc.isIdle], by simp, by simp⟩
  | once _ t op o => exact .inr ⟨by simp [Event.thread, Pc.isIdle], by simp, by simp⟩
  | load _ t op hcr hp =>
    rw [Event.thread, hp] at hpc
    cases hpc with
    | load => ?_
    have hback : ∀ ready, (Pc.ofAnswer ((Operation.locking (.insertTelemetry data)).afterLoad
        ready)).isIdle = !ready := fun ready => by cases ready <;> rfl
    cases s.engine.isInitialized with
    | false => exact .inl ⟨by simpa [Event.thread] using hback false, .inl ⟨t, rfl⟩⟩
    | true => exact .inr ⟨by simpa [Event.thread] using hback true, by simp, by simp⟩
  | locked _ t sec o hcr hp hr =>
    rw [Event.thread, hp] at hpc
    obtain ⟨rfl⟩ := hpc.lock_inv
    simp only [Section.run, Option.map_eq_some_iff, Prod.exists, Prod.mk.injEq] at hr
    obtain ⟨ok, e, -, rfl, -⟩ := hr
    exact .inl ⟨by simp [Event.thread, Pc.isIdle], .inr ⟨t, o, ok, rfl⟩⟩
  | crash _ t sec o hcr hp =>
    exact .inr ⟨by simp [Event.thread, hp, Pc.isIdle], by simp, by simp⟩

theorem step_init_cases {s s' : State τ} (hs : Step order s ev s')
    (hpc : (s.pc ev.thread).Within (some .init)) (hop : ev.KeepsTo .init) :
    (s'.pc ev.thread).isIdle = false ∨ ∃ t, ev = .load t s.engine.isInitialized := by
  cases hs with
  | call _ t op =>
    obtain rfl := hop t op rfl
    exact .inl (by simp [Event.thread, Operation.start, Pc.isIdle])
  | once _ t op o => exact .inl (by simp [Event.thread, Pc.isIdle])
  | load _ t op => exact .inr ⟨t, rfl⟩
  | locked _ t sec o hcr hp =>
    rw [Event.thread, hp] at hpc
    cases hpc.lock_inv
  | crash _ t sec o hcr hp => exact .inl (by simp [Event.thread, hp, Pc.isIdle])

theorem initFlag_step {s s' : State τ} (hs : Step order s ev s') (h : s'.engine.initFlag = true) :
    s.engine.initFlag = true ∨ ∃ t o, ev = .once t o := by
  cases hs with
  | call => exact .inl h
  | once _ t op o => exact .inr ⟨t, o, rfl⟩
  | load => exact .inl h
  | locked _ t sec o _ _ hr =>
    rcases run_handles hr with hk | ⟨rfl, -⟩
    · exact .inl (hk.initFlag ▸ h)
    · exact .inl (by simpa [close] using h)
  | crash => exact .inl h

theorem initFlag_of_load {s s' : State τ} (hi : Inv s) (hs : Step order s (.load t ready) s') :
    s.engine.initFlag = true := by
  by_contra hf
  cases hs with
  | load _ _ op _ hp =>
    have hbefore := (hi.fresh (by simpa using hf)).2 t
    rw [hp] at hbefore
    exact hbefore

theorem engine_step_close {s s' : State τ} (hs : Step order s ev s')
    (hpc : (s.pc ev.thread).Within (some (.locking .close)))
    (hop : ev.KeepsTo (.locking .close)) :
    ((s'.pc ev.thread).isIdle = true ∧ s'.engine = s.engine.close ∧
        ∃ t o a, ev = .locked t .close o a) ∨
      ((s'.pc ev.thread).isIdle = false ∧ s'.engine = s.engine ∧
        ∀ t sec o a, ev ≠ .locked t sec o a) := by
  cases hs with
  | call _ t op =>
    obtain rfl : op = .locking .close := hop t op rfl
    exact .inr ⟨by simp [Event.thread, Operation.start, Pc.isIdle], rfl, by simp⟩
  | once _ t op o hcr hp =>
    rw [Event.thread, hp] at hpc
    cases hpc with
    | once hne => exact absurd rfl hne
  | load _ t op hcr hp =>
    rw [Event.thread, hp] at hpc
    cases hpc with
    | load hne => exact absurd rfl hne
  | locked _ t sec o hcr hp hr =>
    rw [Event.thread, hp] at hpc
    obtain ⟨rfl⟩ := hpc.lock_inv
    simp only [Section.run, Option.some.injEq, Prod.mk.injEq] at hr
    obtain ⟨rfl, rfl⟩ := hr
    exact .inl ⟨by simp [Event.thread, Pc.isIdle], rfl, t, o, _, rfl⟩
  | crash _ t sec o hcr hp =>
    exact .inr ⟨by simp [Event.thread, hp, Pc.isIdle], rfl, by simp⟩

def Pc.callSteps : Pc → Nat
  | .idle => 4
  | .once _ => 3
  | .load _ => 2
  | .lock _ => 1

theorem callSteps_step {s s' : State τ} (hs : Step order s ev s') (hcrashed : s'.crashed = false) :
    (s'.pc ev.thread).isIdle = true ∨
      (s'.pc ev.thread).callSteps < (s.pc ev.thread).callSteps := by
  cases hs with
  | call _ t op hcr hp =>
    right
    cases op with
    | init => simp [Event.thread, hp, Operation.start, Pc.callSteps]
    | locking sec => cases sec <;> simp [Event.thread, hp, Operation.start, Pc.callSteps]
  | once _ t op o hcr hp =>
    right
    simp [Event.thread, hp, Pc.callSteps]
  | load _ t op hcr hp =>
    cases hanswer : op.afterLoad s.engine.isInitialized with
    | inl answer =>
      left
      simp [Event.thread, Pc.ofAnswer, Pc.isIdle]
    | inr sec =>
      right
      simp [Event.thread, hp, Pc.ofAnswer, Pc.callSteps]
  | locked _ t sec o hcr hp =>
    left
    simp [Event.thread, Pc.isIdle]
  | crash => cases hcrashed

theorem exists_step_of_checked {s : State τ} (h : Checked s) (t : τ) (op : Operation) :
    ∃ ev s', Step order s ev s' ∧ ev.thread = t ∧ ev.KeepsTo op := by
  cases hp : s.pc t with
  | idle =>
    exact ⟨_, _, .call s t op h.running hp, rfl, fun _ _ heq => by cases heq; rfl⟩
  | once op' => exact ⟨_, _, .once s t op' {} h.running hp, rfl, fun _ _ heq => by cases heq⟩
  | load op' => exact ⟨_, _, .load s t op' h.running hp, rfl, fun _ _ heq => by cases heq⟩
  | lock sec =>
    obtain ⟨⟨answer, e⟩, hr⟩ : ∃ r, sec.run order {} s.engine = some r :=
      run_isSome h.inv.consistent fun data hsec => h.isInitialized (hsec ▸ hp)
    exact ⟨_, _, .locked s t sec {} h.running hp hr, rfl, fun _ _ heq => by cases heq⟩

end SecureTelemetryGateway.Storage
