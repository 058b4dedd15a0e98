import SecureTelemetryGateway.Lib.Monitor
import Mathlib.Algebra.BigOperators.Group.Finset.Basic
import Mathlib.Algebra.Order.BigOperators.Group.Finset
import Mathlib.Data.Fintype.Card

/-!
# Monitors come to rest

A finite number of threads in the operations of a monitor. If nobody comes in
and nobody wakes of itself, the threads soon return or wait (`settles`). If no
predicate fails any more, they all return, whoever wakes (`leaves`).
-/

namespace Lib.Monitor

variable {τ : Type t} {σ : Type u} {ι : Type v} {ρ : Type v'} {κ : Type w}

def Object.NotifiesAtMost (M : Object σ ι ρ κ) (b : Nat) : Prop :=
  ∀ acquired op o, (M.body acquired op o).2.2.length ≤ b

section Weights

/-- A notification weighs `k`, so more than the wake-ups it may cause, and a
thread awake as much as all that it may still notify. -/
def Pc.toSettle (k b : Nat) : Pc ι ρ κ → Nat
  | .idle => 0
  | .lock _ | .woken _ => 2 + k * b
  | .waiting _ => 1 + k * b
  | .notifying _ _ rest => 1 + k * rest.length

def Pc.toLeave (b : Nat) : Pc ι ρ κ → Nat
  | .idle => 0
  | .lock _ | .woken _ => 2 + b
  | .waiting _ => 3 + b
  | .notifying _ _ rest => 1 + rest.length

theorem Pc.testing.toSettle {p : Pc ι ρ κ} (h : p.testing op acquired) (k b : Nat) :
    p.toSettle k b = 2 + k * b := by
  cases p with
  | lock | woken => rfl
  | _ => exact h.elim

theorem Pc.testing.toLeave {p : Pc ι ρ κ} (h : p.testing op acquired) (b : Nat) :
    p.toLeave b = 2 + b := by
  cases p with
  | lock | woken => rfl
  | _ => exact h.elim

theorem Pc.toSettle_le {p : Pc ι ρ κ} (h : p.pending.length ≤ b) (k : Nat) :
    p.toSettle k b ≤ 2 + k * b := by
  cases p with
  | notifying op r rest =>
    have hle : k * rest.length ≤ k * b := Nat.mul_le_mul_left k h
    exact Nat.add_le_add (Nat.le_succ 1) hle
  | idle => exact Nat.zero_le _
  | waiting => exact Nat.add_le_add_right (Nat.le_succ 1) _
  | _ => exact Nat.le_refl _

theorem Pc.toLeave_le {p : Pc ι ρ κ} (h : p.pending.length ≤ b) : p.toLeave b ≤ 3 + b := by
  cases p with
  | notifying op r rest => exact Nat.add_le_add (by decide) h
  | idle => exact Nat.zero_le _
  | waiting => exact Nat.le_refl _
  | _ => exact Nat.add_le_add_right (Nat.le_succ 2) _

variable [DecidableEq κ] {M : Object σ ι ρ κ}

theorem Pc.toSettle_wake_le (p : Pc ι ρ κ) (k b : Nat) (c : κ) :
    (p.wake M c).toSettle k b ≤ p.toSettle k b + 1 := by
  cases p with
  | waiting op =>
    by_cases hc : M.cv? op = some c
    · simp only [Pc.wake, hc, if_true, Pc.toSettle]
      omega
    · simp [Pc.wake, hc]
  | _ => exact Nat.le_succ _

theorem Pc.toLeave_wake_le (p : Pc ι ρ κ) (b : Nat) (c : κ) :
    (p.wake M c).toLeave b ≤ p.toLeave b := by
  cases p with
  | waiting op =>
    by_cases hc : M.cv? op = some c
    · simp only [Pc.wake, hc, if_true, Pc.toLeave]
      omega
    · simp [Pc.wake, hc]
  | _ => exact Nat.le_refl _

end Weights

-- ---------------------------------------------------------------------------
-- The threads together
-- ---------------------------------------------------------------------------

variable [Fintype τ]

def total (weight : Pc ι ρ κ → Nat) (pc : τ → Pc ι ρ κ) : Nat := ∑ t, weight (pc t)

theorem total_le {weight : Pc ι ρ κ → Nat} {pc : τ → Pc ι ρ κ} (h : ∀ t, weight (pc t) ≤ n) :
    total weight pc ≤ Fintype.card τ * n := by
  simpa [total] using Finset.sum_le_card_nsmul Finset.univ (fun t => weight (pc t)) n fun t _ => h t

theorem total_le_add {weight : Pc ι ρ κ → Nat} {pc pc' : τ → Pc ι ρ κ}
    (h : ∀ t, weight (pc' t) ≤ weight (pc t) + n) :
    total weight pc' ≤ total weight pc + Fintype.card τ * n := by
  have hle : ∑ t, weight (pc' t) ≤ ∑ t, (weight (pc t) + n) := Finset.sum_le_sum fun t _ => h t
  simpa [total, Finset.sum_add_distrib] using hle

variable [DecidableEq τ]

theorem total_update (weight : Pc ι ρ κ → Nat) (pc : τ → Pc ι ρ κ) (t : τ) (p : Pc ι ρ κ) :
    total weight (Function.update pc t p) + weight (pc t) = total weight pc + weight p := by
  have hrest : ∑ u ∈ Finset.univ.erase t, weight (Function.update pc t p u) =
      ∑ u ∈ Finset.univ.erase t, weight (pc u) := by
    refine Finset.sum_congr rfl fun u hu => ?_
    rw [Function.update_of_ne (Finset.ne_of_mem_erase hu)]
  have hleft := Finset.sum_erase_add Finset.univ (fun u => weight (Function.update pc t p u))
    (Finset.mem_univ t)
  have hright := Finset.sum_erase_add Finset.univ (fun u => weight (pc u)) (Finset.mem_univ t)
  simp only [Function.update_self] at hleft
  rw [total, total, ← hleft, ← hright, hrest]
  exact Nat.add_right_comm ..

theorem total_update_lt {weight : Pc ι ρ κ → Nat} {pc : τ → Pc ι ρ κ} {t : τ} {p : Pc ι ρ κ}
    (h : weight p < weight (pc t)) : total weight (Function.update pc t p) < total weight pc := by
  have hupdate := total_update weight pc t p
  omega

theorem total_issue_lt {weight : Pc ι ρ κ → Nat} {pc pc' : τ → Pc ι ρ κ} {t : τ} {p : Pc ι ρ κ}
    (hadd : total weight pc' ≤ total weight pc + n) (ht : pc' t = pc t)
    (h : weight p + n < weight (pc t)) :
    total weight (Function.update pc' t p) < total weight pc := by
  have hupdate := total_update weight pc' t p
  rw [ht] at hupdate
  omega

variable [DecidableEq κ] {M : Object σ ι ρ κ}

omit [Fintype τ] in
theorem pending_le (hM : M.NotifiesAtMost b) {s : State τ σ ι ρ κ}
    (h : (system τ M o).Reachable s) (u : τ) : (s.pc u).pending.length ≤ b := by
  refine h.invariant (I := fun s => ∀ u, (s.pc u).pending.length ≤ b) ?_ ?_ u
  · rintro _ rfl u
    exact Nat.zero_le b
  intro s ev s' ih hs
  have hkept : ∀ (pc : τ → Pc ι ρ κ) (t : τ) (p : Pc ι ρ κ), (∀ u, (pc u).pending.length ≤ b) →
      p.pending.length ≤ b → ∀ u, (Function.update pc t p u).pending.length ≤ b :=
    fun pc t p hpc hp => (Function.forall_update_iff pc fun _ q => q.pending.length ≤ b).mpr
      ⟨hp, fun u _ => hpc u⟩
  cases hs with
  | finish _ t op acquired => exact hkept _ _ _ ih (hM acquired op s.obj)
  | notifyOne _ t v c hp =>
    have ht := ih t
    rw [hp] at ht
    exact hkept _ _ _ (hkept _ _ _ ih (Nat.zero_le b)) (Nat.le_of_succ_le ht)
  | notifyNone _ t c hp =>
    have ht := ih t
    rw [hp] at ht
    exact hkept _ _ _ ih (Nat.le_of_succ_le ht)
  | notifyAll _ t c hp =>
    have ht := ih t
    rw [hp] at ht
    refine hkept _ _ _ (fun v => ?_) (Nat.le_of_succ_le ht)
    have hv := ih v
    cases hpv : s.pc v with
    | waiting op' => by_cases hc : M.cv? op' = some c <;> simp [Pc.wake, hc]
    | notifying => simpa [hpv] using hv
    | _ => exact Nat.zero_le b
  | _ => exact hkept _ _ _ ih (Nat.zero_le b)

omit [Fintype τ] in
theorem exists_step_driven (M : Object σ ι ρ κ) {s : State τ σ ι ρ κ} (h : ¬s.Quiescent) :
    ∃ ev s', Step M s ev s' ∧ ev.driven = true := by
  simp only [State.Quiescent, not_forall, not_or, not_exists] at h
  obtain ⟨t, hidle, hwaiting⟩ := h
  have htest : ∀ op, (s.pc t).testing op true → ∃ ev s', Step M s ev s' ∧ ev.driven = true := by
    intro op hp
    by_cases hready : M.May op s.obj true
    · exact ⟨_, _, .finish s t op true hp hready, rfl⟩
    · simp only [Object.May, not_forall] at hready
      obtain ⟨w, hw, hr⟩ := hready
      exact ⟨_, _, .wait s t op w hp hw (by simpa using hr), rfl⟩
  cases hp : s.pc t with
  | idle => exact absurd hp hidle
  | lock op => exact htest op (by simp [hp, Pc.testing])
  | waiting op => exact absurd hp (hwaiting op)
  | woken op => exact htest op (by simp [hp, Pc.testing])
  | notifying op r rest =>
    cases rest with
    | nil => exact ⟨_, _, .ret s t hp, rfl⟩
    | cons n rest =>
      obtain ⟨ev, s', hs, hev, -⟩ := exists_step_notifying (M := M) s hp
      exact ⟨ev, s', hs, hev⟩

-- ---------------------------------------------------------------------------
-- Nobody comes in, and nobody wakes of itself
-- ---------------------------------------------------------------------------

abbrev undisturbed (τ : Type t) [DecidableEq τ] (M : Object σ ι ρ κ) (o : σ) :
    Lts (State τ σ ι ρ κ) (Event τ ι ρ κ) :=
  (system τ M o).restrict fun _ ev _ => ev.driven = true

omit [Fintype τ] [DecidableEq τ] [DecidableEq κ] in
theorem ne_of_notifying {s : State τ σ ι ρ κ} (hp : s.pc t = .notifying op r rest)
    (hu : s.pc u = .waiting op') : t ≠ u := by
  rintro rfl
  rw [hp] at hu
  cases hu

theorem toSettle_step (hM : M.NotifiesAtMost b) {s s' : State τ σ ι ρ κ}
    (hs : (undisturbed τ M o).step s ev s') :
    total (Pc.toSettle (Fintype.card τ + 1) b) s'.pc <
      total (Pc.toSettle (Fintype.card τ + 1) b) s.pc := by
  obtain ⟨hs, hev⟩ := hs
  obtain ⟨k, hk⟩ : ∃ k, k = Fintype.card τ + 1 := ⟨_, rfl⟩
  rw [← hk]
  have hissue : ∀ (op : ι) (r : ρ) (n : Notification κ) (rest : List (Notification κ)),
      (Pc.notifying op r (n :: rest)).toSettle k b = (Pc.notifying op r rest).toSettle k b + k := by
    intro op r n rest
    simp only [Pc.toSettle, List.length_cons, Nat.mul_succ, Nat.add_assoc]
  cases hs with
  | call => cases hev
  | wait _ t op w hp =>
    refine total_update_lt ?_
    rw [hp.toSettle]
    exact Nat.add_lt_add_right (Nat.lt_succ_self 1) _
  | finish _ t op acquired hp =>
    refine total_update_lt ?_
    rw [hp.toSettle]
    have hle : k * (M.body acquired op s.obj).2.2.length ≤ k * b :=
      Nat.mul_le_mul_left k (hM acquired op s.obj)
    exact Nat.add_lt_add_of_lt_of_le (Nat.lt_succ_self 1) hle
  | wake => cases hev
  | @notifyOne op' _ _ _ _ t u c hp hu =>
    have hwoken := total_update (Pc.toSettle k b) s.pc u (.woken op')
    rw [hu] at hwoken
    have hpos : 0 < Fintype.card τ := Fintype.card_pos_iff.mpr ⟨t⟩
    refine total_issue_lt (n := 1) ?_ (Function.update_of_ne (ne_of_notifying hp hu) ..) ?_
    · simp only [Pc.toSettle] at hwoken
      omega
    · rw [hp, hissue]
      omega
  | notifyNone _ t c hp =>
    refine total_update_lt ?_
    rw [hp, hissue]
    omega
  | notifyAll _ t c hp =>
    refine total_issue_lt (total_le_add fun u => Pc.toSettle_wake_le (s.pc u) k b c) ?_ ?_
    · simp only [hp, Pc.wake_notifying]
    · rw [hp, hissue]
      omega
  | ret _ t hp =>
    refine total_update_lt ?_
    rw [hp]
    exact Nat.lt_succ_self 0

def stepsToSettle (n b : Nat) : Nat := n * (2 + (n + 1) * b)

theorem settles (hM : M.NotifiesAtMost b) {s t : State τ σ ι ρ κ}
    (h : (system τ M o).Reachable s) (hr : (undisturbed τ M o).Run s es t) :
    ∃ rest u, (undisturbed τ M o).Run t rest u ∧ u.Quiescent ∧
      es.length + rest.length ≤ stepsToSettle (Fintype.card τ) b := by
  have hstep : ∀ s ev (s' : State τ σ ι ρ κ), True → (undisturbed τ M o).step s ev s' →
      True ∧ total (Pc.toSettle (Fintype.card τ + 1) b) s'.pc <
        total (Pc.toSettle (Fintype.card τ + 1) b) s.pc :=
    fun s ev s' _ hs => ⟨trivial, toSettle_step hM hs⟩
  obtain ⟨rest, u, hrest, hstuck⟩ := Lts.exists_run_stuck (s := t) trivial hstep
  refine ⟨rest, u, hrest, ?_, ?_⟩
  · by_contra hq
    obtain ⟨ev, s', hs, hev⟩ := exists_step_driven M hq
    exact hstuck ev s' ⟨hs, hev⟩
  · have hall := ((hr.append hrest).length_add_le trivial hstep).2
    have hle : total (Pc.toSettle (Fintype.card τ + 1) b) s.pc ≤
        stepsToSettle (Fintype.card τ) b :=
      total_le fun v => Pc.toSettle_le (pending_le hM h v) _
    rw [List.length_append] at hall
    omega

-- ---------------------------------------------------------------------------
-- No predicate fails any more
-- ---------------------------------------------------------------------------

/-- Nobody comes in, but whoever waits may wake at any time. -/
abbrev closed (τ : Type t) [DecidableEq τ] (M : Object σ ι ρ κ) (o : σ) :
    Lts (State τ σ ι ρ κ) (Event τ ι ρ κ) :=
  (system τ M o).restrict fun _ ev _ => ev.inside = true

structure Object.Open (M : Object σ ι ρ κ) (P : σ → Prop) : Prop where
  ready : ∀ o op w, P o → M.wait? op = some w → w.ready o = true
  body : ∀ o op acquired, P o → M.May op o acquired → P (M.body acquired op o).2.1

theorem toLeave_step {P : σ → Prop} (hM : M.NotifiesAtMost b) (hP : M.Open P)
    {s s' : State τ σ ι ρ κ} (h : P s.obj) (hs : (closed τ M o).step s ev s') :
    P s'.obj ∧ total (Pc.toLeave b) s'.pc < total (Pc.toLeave b) s.pc := by
  obtain ⟨hs, hev⟩ := hs
  cases hs with
  | call => cases hev
  | wait _ t op w hp hw hr =>
    rw [hP.ready s.obj op w h hw] at hr
    cases hr
  | finish _ t op acquired hp hmay =>
    refine ⟨hP.body s.obj op acquired h hmay, total_update_lt ?_⟩
    rw [hp.toLeave]
    exact Nat.add_lt_add_of_lt_of_le (Nat.lt_succ_self 1) (hM acquired op s.obj)
  | wake _ t op hp =>
    refine ⟨h, total_update_lt ?_⟩
    rw [hp]
    exact Nat.add_lt_add_right (Nat.lt_succ_self 2) b
  | @notifyOne op' _ _ _ _ t u c hp hu =>
    have hwoken : total (Pc.toLeave b) (Function.update s.pc u (.woken op')) <
        total (Pc.toLeave b) s.pc := by
      refine total_update_lt ?_
      rw [hu]
      exact Nat.add_lt_add_right (Nat.lt_succ_self 2) b
    refine ⟨h, total_issue_lt (n := 0) hwoken.le
      (Function.update_of_ne (ne_of_notifying hp hu) ..) ?_⟩
    rw [hp]
    exact Nat.add_lt_add_left (Nat.lt_succ_self _) 1
  | notifyNone _ t c hp =>
    refine ⟨h, total_update_lt ?_⟩
    rw [hp]
    exact Nat.add_lt_add_left (Nat.lt_succ_self _) 1
  | notifyAll _ t c hp =>
    have hwoken : total (Pc.toLeave b) (fun u => (s.pc u).wake M c) ≤
        total (Pc.toLeave b) s.pc + 0 :=
      Finset.sum_le_sum fun u _ => Pc.toLeave_wake_le (s.pc u) b c
    refine ⟨h, total_issue_lt hwoken ?_ ?_⟩
    · simp only [hp, Pc.wake_notifying]
    · rw [hp]
      exact Nat.add_lt_add_left (Nat.lt_succ_self _) 1
  | ret _ t hp =>
    refine ⟨h, total_update_lt ?_⟩
    rw [hp]
    exact Nat.lt_succ_self 0

theorem leaves {P : σ → Prop} (hM : M.NotifiesAtMost b) (hP : M.Open P) {s t : State τ σ ι ρ κ}
    (h : (system τ M o).Reachable s) (hs : P s.obj) (hr : (closed τ M o).Run s es t) :
    ∃ rest u, (closed τ M o).Run t rest u ∧ (∀ v, u.pc v = .idle) ∧ P u.obj ∧
      es.length + rest.length ≤ Fintype.card τ * (3 + b) := by
  have hstep : ∀ s ev (s' : State τ σ ι ρ κ), P s.obj → (closed τ M o).step s ev s' →
      P s'.obj ∧ total (Pc.toLeave b) s'.pc < total (Pc.toLeave b) s.pc :=
    fun _ _ _ => toLeave_step hM hP
  have ht := (hr.length_add_le hs hstep).1
  obtain ⟨rest, u, hrest, hstuck⟩ :=
    Lts.exists_run_stuck (L := closed τ M o) (I := fun s => P s.obj) ht hstep
  obtain ⟨hu, hlength⟩ := (hr.append hrest).length_add_le hs hstep
  refine ⟨rest, u, hrest, fun v => ?_, hu, ?_⟩
  · have hq : u.Quiescent := by
      by_contra hq
      obtain ⟨ev, s', hs', hev⟩ := exists_step_driven M hq
      refine hstuck ev s' ⟨hs', ?_⟩
      cases ev with
      | call | wake => cases hev
      | _ => rfl
    rcases hq v with hidle | ⟨op, hwaiting⟩
    · exact hidle
    · exact absurd ⟨.wake u v op hwaiting, rfl⟩ (hstuck _ _)
  · have hle : total (Pc.toLeave b) s.pc ≤ Fintype.card τ * (3 + b) :=
      total_le fun v => Pc.toLeave_le (pending_le hM h v)
    rw [List.length_append] at hlength
    omega

end Lib.Monitor
