import SecureTelemetryGateway.Utils.ConcurrentQueue

/-!
# No lost wake-up

Every item is worth one consumer and every free place one producer, and a
shutdown as many as there are. Each notification that the code sends accounts
for what its section has added.
-/

namespace SecureTelemetryGateway.Utils

open ConcurrentQueue
open Lib.Monitor (Signals entries object_invariant oneIf)

variable {T : Type u}

/-- How many of the threads waiting on the condition variable the queue could
let through. -/
def supply : ConditionVariable → ConcurrentQueue T → ℕ∞
  | .notEmpty, q => if q.shutdownRequested then ⊤ else q.queue.length
  | .notFull, q => if q.shutdownRequested then ⊤ else (q.maxCapacity - q.queue.length : Nat)

theorem supply_notFull_eq_zero {q : ConcurrentQueue T} :
    supply .notFull q = 0 ↔ q.hasRoom = false := by
  rw [hasRoom_eq_false]
  cases hs : q.shutdownRequested with
  | true => simp [supply, hs]
  | false =>
    simp only [supply, hs, Bool.false_eq_true, if_false, and_true]
    rw [← Nat.sub_eq_zero_iff_le]
    exact Nat.cast_eq_zero

theorem supply_notEmpty_eq_zero {q : ConcurrentQueue T} :
    supply .notEmpty q = 0 ↔ q.hasItem = false := by
  rw [hasItem_eq_false]
  cases hs : q.shutdownRequested <;> simp [supply, hs]

/-- A section that follows its wait leaves no more to serve than it found and
notifies; `served` is the condition variable it has waited on. -/
def Accounts (served : Option ConditionVariable) (q : ConcurrentQueue T) (out : Outcome T) : Prop :=
  ∀ c, .all c ∈ out.2.2 ∨
    supply c out.2.1 + oneIf (served = some c) ≤ supply c q + oneIf (.one c ∈ out.2.2)

theorem accounts_of_shutdown {q : ConcurrentQueue T} (h : q.shutdownRequested = true)
    (served : Option ConditionVariable) (r : Answer T) : Accounts served q (r, q, []) := by
  intro c
  cases c <;> simp [supply, h]

theorem accounts_push {q : ConcurrentQueue T} (h : q.hasRoom = true) (item : T) :
    Accounts (some .notFull) q (q.push item) := by
  rcases push_spec h item with ⟨hs, hpush⟩ | ⟨hs, hroom, hpush⟩
  · exact hpush ▸ accounts_of_shutdown hs _ _
  · rw [hpush]
    intro c
    cases c with
    | notEmpty => simp [supply, hs]
    | notFull =>
      have hplace : q.maxCapacity - (q.queue.length + 1) + 1 ≤ q.maxCapacity - q.queue.length := by
        omega
      simpa [supply, hs] using mod_cast hplace

theorem accounts_pop {q : ConcurrentQueue T} (h : q.hasItem = true) :
    Accounts (some .notEmpty) q q.pop := by
  rcases pop_spec h with ⟨-, hs, hpop⟩ | ⟨item, rest, hq, hpop⟩
  · exact hpop ▸ accounts_of_shutdown hs _ _
  · rw [hpop]
    intro c
    cases hs : q.shutdownRequested with
    | true => cases c <;> simp [supply, hs]
    | false =>
      cases c with
      | notEmpty => simp [supply, hs, hq]
      | notFull =>
        have hplace : q.maxCapacity ≤ q.maxCapacity - (rest.length + 1) + 1 + rest.length := by
          omega
        simpa [supply, hs, hq] using mod_cast hplace

theorem accounts_shutdown (q : ConcurrentQueue T) : Accounts none q q.shutdown := by
  intro c
  cases c <;> simp [shutdown]

theorem signals : Signals (monitor T) supply where
  unready op w q hw hr := by
    cases op with
    | shutdown => cases hw
    | push item => cases hw; exact supply_notFull_eq_zero.mpr hr
    | pop => cases hw; exact supply_notEmpty_eq_zero.mpr hr
    | popFor => cases hw; exact supply_notEmpty_eq_zero.mpr hr
  body op q hmay := by
    cases op with
    | push item => exact accounts_push (may_push.mp hmay) item
    | pop => exact accounts_pop (may_pop.mp hmay)
    | popFor =>
      have haccounts := accounts_pop (may_popFor.mp hmay)
      rwa [← popFor_true] at haccounts
    | shutdown => exact accounts_shutdown q
  expired op q hmay := by
    obtain ⟨rfl, -⟩ := may_false.mp hmay
    exact congrArg Prod.snd q.popFor_false

variable {τ : Type v} [DecidableEq τ]

theorem shutdownRequested_iff {s : State τ T} (h : (threads τ T capacity).Trace es s) :
    s.obj.shutdownRequested = true ↔ .shutdown ∈ (entries es).map Prod.fst := by
  refine object_invariant (I := fun l q => q.shutdownRequested = true ↔ .shutdown ∈ l.map Prod.fst)
    h (by simp) ?_
  intro l q op acquired ih hmay
  rw [List.map_append, List.mem_append, ← ih, List.map_singleton, List.mem_singleton]
  cases op with
  | shutdown => simp [monitor, Operation.body, ConcurrentQueue.shutdown]
  | push item => simp [monitor, Operation.body]
  | pop => simp [monitor, Operation.body]
  | popFor => simp [monitor, Operation.body]

/-- Once no thread can run on, none waits in `push` beside a free place, none
in `pop` or `pop_for` beside an item, and none at all after a shutdown. -/
theorem noLostWakeup {s : State τ T} (h : (threads τ T capacity).Trace es s)
    (hq : s.Quiescent) (t : τ) :
    (∀ item, s.pc t = .waiting (.push item) →
        s.obj.maxCapacity ≤ s.obj.queue.length ∧ s.obj.shutdownRequested = false) ∧
      (s.pc t = .waiting .pop ∨ s.pc t = .waiting .popFor →
        s.obj.queue = [] ∧ s.obj.shutdownRequested = false) ∧
      (s.obj.shutdownRequested = true ↔ .shutdown ∈ (entries es).map Prod.fst) := by
  refine ⟨fun item hp => ?_, fun hp => ?_, shutdownRequested_iff h⟩
  · have hzero := Lib.Monitor.supply_eq_zero (c := .notFull) (t := t) signals h.reachable hq
      (by rw [hp]; rfl)
    exact hasRoom_eq_false.mp (supply_notFull_eq_zero.mp hzero)
  · have hzero := Lib.Monitor.supply_eq_zero (c := .notEmpty) (t := t) signals h.reachable hq
      (by rcases hp with hp | hp <;> rw [hp] <;> rfl)
    exact hasItem_eq_false.mp (supply_notEmpty_eq_zero.mp hzero)

theorem noLostWakeup_waiting : ∃ (es : List (Event Bool Unit)) (s : State Bool Unit),
    (threads Bool Unit 1).Trace es s ∧ s.pc true = .waiting (.push ()) ∧ s.obj.queue = [()] ∧
      s.obj.maxCapacity ≤ s.obj.queue.length ∧ .shutdown ∉ (entries es).map Prod.fst := by
  have hrun : (threads Bool Unit 1).Trace _ _ := ⟨_, rfl,
    .cons (.call _ false (.push ()) rfl) <|
      .cons (.finish _ false _ true ⟨rfl, rfl⟩ (may_push.mpr rfl)) <|
      .cons (.notifyNone _ false .notEmpty rfl (by rintro (_ | _) <;> exact id)) <|
      .cons (.ret _ false rfl) <| .cons (.call _ true (.push ()) rfl) <|
      .single (.wait _ true (.push ()) _ ⟨rfl, rfl⟩ rfl rfl)⟩
  obtain ⟨hpush, -, hflag⟩ := noLostWakeup hrun
    (by rintro (_ | _)
        · exact .inl rfl
        · exact .inr ⟨.push (), rfl⟩) true
  obtain ⟨hfull, hopen⟩ := hpush () rfl
  exact ⟨_, _, hrun, rfl, rfl, hfull, fun h => Bool.false_ne_true (hopen.symm.trans (hflag.mpr h))⟩

end SecureTelemetryGateway.Utils
