import SecureTelemetryGateway.Lib.MonitorProgress
import SecureTelemetryGateway.Utils.Shutdown
import SecureTelemetryGateway.Utils.Wakeups

/-!
# The queue comes to rest

Finitely many threads that call nothing more soon stand still, producers only
on a full queue and consumers only on an empty one. After a shutdown all of
them return, and what the consumers have not taken stays in the queue.
-/

namespace SecureTelemetryGateway.Utils

open ConcurrentQueue
open Lib.Monitor (entries leaves settles stepsToSettle)

variable {T : Type u}

theorem takeFront_notifies (q : ConcurrentQueue T) : q.takeFront.2.2.length ≤ 1 := by
  cases hq : q.queue <;> simp [takeFront, hq]

theorem notifiesAtMost : (monitor T).NotifiesAtMost 2 := by
  intro acquired op q
  have htake : q.takeFront.2.2.length ≤ 2 := (takeFront_notifies q).trans (by decide)
  cases op with
  | push item => by_cases hs : q.shutdownRequested <;> simp [monitor, Operation.body, push, hs]
  | pop =>
    change q.pop.2.2.length ≤ 2
    rw [pop]
    split
    · exact Nat.zero_le 2
    · exact htake
  | popFor =>
    change (q.popFor acquired).2.2.length ≤ 2
    rw [popFor]
    split
    · exact Nat.zero_le 2
    · exact htake
  | shutdown => exact Nat.le_refl 2

structure Drains (q : ConcurrentQueue T) (op : Operation T) (out : Outcome T) : Prop where
  shutdownRequested : out.2.1.shutdownRequested = true
  refused : op.accepted? out.1 = none
  content : out.1.item?.toList ++ out.2.1.queue = q.queue

theorem drains_pop {q : ConcurrentQueue T} {op : Operation T} (h : q.shutdownRequested = true)
    (hop : ∀ r, op.accepted? r = none) : Drains q op q.pop := by
  have hitem : q.hasItem = true := by simp [hasItem, h]
  rcases pop_spec hitem with ⟨-, -, hpop⟩ | ⟨item, rest, hq, hpop⟩
  · rw [hpop]
    exact ⟨h, hop _, rfl⟩
  · rw [hpop]
    exact ⟨h, hop _, hq.symm⟩

theorem drains_body {q : ConcurrentQueue T} {op : Operation T} (h : q.shutdownRequested = true)
    (hmay : (monitor T).May op q acquired) : Drains q op (op.body acquired q) := by
  cases acquired with
  | true =>
    cases op with
    | push item =>
      have hpush : q.push item = (.pushed false, q, []) := by simp [push, h]
      rw [Operation.body, hpush]
      exact ⟨h, rfl, rfl⟩
    | pop => exact drains_pop h fun _ => rfl
    | popFor =>
      rw [Operation.body, popFor_true]
      exact drains_pop h fun _ => rfl
    | shutdown => exact ⟨rfl, rfl, rfl⟩
  | false =>
    obtain ⟨rfl, -⟩ := may_false.mp hmay
    rw [Operation.body, popFor_false]
    exact ⟨h, rfl, rfl⟩

theorem open_of_shutdown : (monitor T).Open fun q => q.shutdownRequested = true where
  ready q op w h hw := by
    cases op with
    | shutdown => cases hw
    | push item => cases hw; simp [hasRoom, h]
    | pop => cases hw; simp [hasItem, h]
    | popFor => cases hw; simp [hasItem, h]
  body q op acquired h hmay := (drains_body h hmay).shutdownRequested

variable {τ : Type v} [DecidableEq τ]

theorem drains_run {s t : State τ T} (hs : s.obj.shutdownRequested = true)
    (h : (threads τ T capacity).Run s es t) :
    t.obj.shutdownRequested = true ∧ pushed (entries es) = [] ∧
      popped (entries es) ++ t.obj.queue = s.obj.queue := by
  refine Lib.Monitor.Run.object_invariant (I := fun l q => q.shutdownRequested = true ∧
    pushed l = [] ∧ popped l ++ q.queue = s.obj.queue) h ⟨hs, rfl, rfl⟩ ?_
  rintro l q op acquired ⟨hq, hpushed, hpopped⟩ hmay
  obtain ⟨hout, hrefused, hcontent⟩ := drains_body hq hmay
  refine ⟨hout, ?_, ?_⟩
  · rw [pushed_snoc, hpushed]
    exact congrArg Option.toList hrefused
  · rw [popped_snoc, List.append_assoc, ← hpopped, ← hcontent]
    rfl

theorem waiting_of_quiescent {s : State τ T} (h : (threads τ T capacity).Reachable s)
    (hq : s.Quiescent) :
    (∀ t item, s.pc t = .waiting (.push item) →
        s.obj.queue.length = capacity ∧ s.obj.shutdownRequested = false) ∧
      ∀ t, s.pc t = .waiting .pop ∨ s.pc t = .waiting .popFor →
        s.obj.queue = [] ∧ s.obj.shutdownRequested = false := by
  obtain ⟨es, htrace⟩ := h
  have hkept := kept_of_trace htrace
  refine ⟨fun t item hp => ?_, fun t hp => ?_⟩
  · have hzero := Lib.Monitor.supply_eq_zero (c := .notFull) (t := t) signals htrace.reachable hq
      (by rw [hp]; rfl)
    obtain ⟨hfull, hs⟩ := hasRoom_eq_false.mp (supply_notFull_eq_zero.mp hzero)
    exact ⟨hkept.bounded.antisymm (hkept.maxCapacity ▸ hfull), hs⟩
  · have hzero := Lib.Monitor.supply_eq_zero (c := .notEmpty) (t := t) signals htrace.reachable hq
      (by rcases hp with hp | hp <;> rw [hp] <;> rfl)
    exact hasItem_eq_false.mp (supply_notEmpty_eq_zero.mp hzero)

/-- However the threads run on, if no call comes in and nobody wakes of itself
they soon stand still, producers only on a full queue and consumers only on an
empty one. -/
theorem comesToRest [Fintype τ] {s t : State τ T} (h : (threads τ T capacity).Reachable s)
    (hr : ((threads τ T capacity).restrict fun _ ev _ => ev.driven = true).Run s es t) :
    ∃ rest u, ((threads τ T capacity).restrict fun _ ev _ => ev.driven = true).Run t rest u ∧
      es.length + rest.length ≤ stepsToSettle (Fintype.card τ) 2 ∧ u.Quiescent ∧
      (∀ v item, u.pc v = .waiting (.push item) →
        u.obj.queue.length = capacity ∧ u.obj.shutdownRequested = false) ∧
      ∀ v, u.pc v = .waiting .pop ∨ u.pc v = .waiting .popFor →
        u.obj.queue = [] ∧ u.obj.shutdownRequested = false := by
  obtain ⟨rest, u, hrest, hq, hle⟩ := settles notifiesAtMost h hr
  obtain ⟨es₀, htrace⟩ := h
  have hu : (threads τ T capacity).Reachable u :=
    (htrace.append (hr.append hrest).of_restrict).reachable
  exact ⟨rest, u, hrest, hle, hq, waiting_of_quiescent hu hq⟩

theorem comesToRest_handover : ∃ s t rest u : _, ∃ es : List (Event Bool Unit),
    s.pc true = .waiting .pop ∧ s.pc false = .lock (.push ()) ∧ es.length = 1 ∧
      ((threads Bool Unit 1).restrict fun _ ev _ => ev.driven = true).Run s es t ∧
      ((threads Bool Unit 1).restrict fun _ ev _ => ev.driven = true).Run t rest u ∧
      u.Quiescent := by
  obtain ⟨s, hreach, hpop, hpush, hroom⟩ : ∃ s, (threads Bool Unit 1).Reachable s ∧
      s.pc true = .waiting .pop ∧ s.pc false = .lock (.push ()) ∧ s.obj.hasRoom = true :=
    ⟨_, ⟨_, _, rfl, .cons (.call _ true .pop rfl) <|
      .cons (.wait _ true .pop _ ⟨rfl, rfl⟩ rfl rfl) <| .single (.call _ false (.push ()) rfl)⟩,
      rfl, rfl, rfl⟩
  have hr : ((threads Bool Unit 1).restrict fun _ ev _ => ev.driven = true).Run s _ _ :=
    .single ⟨.finish s false (.push ()) true (by rw [hpush]; exact ⟨rfl, rfl⟩)
      (may_push.mpr hroom), rfl⟩
  obtain ⟨rest, u, hrest, -, hq, -, -⟩ := comesToRest hreach hr
  exact ⟨s, _, rest, u, _, hpop, hpush, rfl, hr, hrest, hq⟩

/-- After a shutdown everybody who has called returns, whoever wakes when. No
push is accepted, and nothing is lost. -/
theorem everybodyReturns [Fintype τ] {s t : State τ T} (h : (threads τ T capacity).Reachable s)
    (hs : s.obj.shutdownRequested = true)
    (hr : ((threads τ T capacity).restrict fun _ ev _ => ev.inside = true).Run s es t) :
    ∃ rest u, ((threads τ T capacity).restrict fun _ ev _ => ev.inside = true).Run t rest u ∧
      es.length + rest.length ≤ Fintype.card τ * 5 ∧ (∀ v, u.pc v = .idle) ∧
      pushed (entries (es ++ rest)) = [] ∧
      popped (entries (es ++ rest)) ++ u.obj.queue = s.obj.queue := by
  obtain ⟨rest, u, hrest, hidle, -, hle⟩ := leaves notifiesAtMost open_of_shutdown h hs hr
  obtain ⟨-, hpushed, hpopped⟩ := drains_run hs (hr.append hrest).of_restrict
  exact ⟨rest, u, hrest, hle, hidle, hpushed, hpopped⟩

theorem everybodyReturns_waiting : ∃ s t rest u : _, ∃ es : List (Event Bool Unit),
    s.pc true = .waiting .pop ∧ s.obj.shutdownRequested = true ∧ es.length = 1 ∧
      ((threads Bool Unit 1).restrict fun _ ev _ => ev.inside = true).Run s es t ∧
      ((threads Bool Unit 1).restrict fun _ ev _ => ev.inside = true).Run t rest u ∧
      ∀ v, u.pc v = .idle := by
  obtain ⟨s, hreach, hpop, hnotify, hs⟩ : ∃ s, (threads Bool Unit 1).Reachable s ∧
      s.pc true = .waiting .pop ∧
      s.pc false = .notifying .shutdown .void [.all .notEmpty, .all .notFull] ∧
      s.obj.shutdownRequested = true :=
    ⟨_, ⟨_, _, rfl, .cons (.call _ true .pop rfl) <|
      .cons (.wait _ true .pop _ ⟨rfl, rfl⟩ rfl rfl) <| .cons (.call _ false .shutdown rfl) <|
        .single (.finish _ false .shutdown true ⟨rfl, rfl⟩ nofun)⟩, rfl, rfl, rfl⟩
  have hr : ((threads Bool Unit 1).restrict fun _ ev _ => ev.inside = true).Run s _ _ :=
    .single ⟨.notifyAll s false .notEmpty hnotify, rfl⟩
  obtain ⟨rest, u, hrest, -, hidle, -⟩ := everybodyReturns hreach hs hr
  exact ⟨s, _, rest, u, _, hpop, hs, rfl, hr, hrest, hidle⟩

end SecureTelemetryGateway.Utils
