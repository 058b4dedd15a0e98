import SecureTelemetryGateway.Lib.Monitor

/-!
# The blocking queue

`utils/concurrent_queue.hpp`. `push` waits on `cv_not_full_`, the two pops on
`cv_not_empty_`. What stands under the mutex after the wait is one function for
each operation; it also says which notifications follow the unlock.
-/

namespace SecureTelemetryGateway.Utils

open Lib (Lts)
open Lib.Monitor (Notification Object Wait)

structure ConcurrentQueue (T : Type u) where
  maxCapacity : Nat
  queue : List T := []
  shutdownRequested : Bool := false

inductive ConditionVariable
  | notEmpty
  | notFull
  deriving DecidableEq

inductive Operation (T : Type u)
  | push (item : T)
  | pop
  | popFor
  | shutdown

/-- `undefined` is `front()` of an empty queue. -/
inductive Answer (T : Type u)
  | pushed (ok : Bool)
  | popped (item : Option T)
  | void
  | undefined

variable {T : Type u}

namespace ConcurrentQueue

abbrev Outcome (T : Type u) : Type u :=
  Answer T × ConcurrentQueue T × List (Notification ConditionVariable)

def hasRoom (q : ConcurrentQueue T) : Bool :=
  q.queue.length < q.maxCapacity || q.shutdownRequested

def hasItem (q : ConcurrentQueue T) : Bool := !q.queue.isEmpty || q.shutdownRequested

def push (item : T) (q : ConcurrentQueue T) : Outcome T :=
  if q.shutdownRequested then (.pushed false, q, [])
  else (.pushed true, { q with queue := q.queue ++ [item] }, [.one .notEmpty])

def takeFront (q : ConcurrentQueue T) : Outcome T :=
  match q.queue with
  | [] => (.undefined, q, [])
  | item :: rest => (.popped (some item), { q with queue := rest }, [.one .notFull])

def pop (q : ConcurrentQueue T) : Outcome T :=
  if q.queue.isEmpty && q.shutdownRequested then (.popped none, q, []) else q.takeFront

def popFor (acquired : Bool) (q : ConcurrentQueue T) : Outcome T :=
  if !acquired || (q.queue.isEmpty && q.shutdownRequested) then (.popped none, q, [])
  else q.takeFront

def shutdown (q : ConcurrentQueue T) : Outcome T :=
  (.void, { q with shutdownRequested := true }, [.all .notEmpty, .all .notFull])

theorem push_spec {q : ConcurrentQueue T} (h : q.hasRoom = true) (item : T) :
    (q.shutdownRequested = true ∧ q.push item = (.pushed false, q, [])) ∨
      (q.shutdownRequested = false ∧ q.queue.length < q.maxCapacity ∧
        q.push item =
          (.pushed true, { q with queue := q.queue ++ [item] }, [.one .notEmpty])) := by
  cases hs : q.shutdownRequested with
  | true => exact .inl ⟨rfl, by simp [push, hs]⟩
  | false => exact .inr ⟨rfl, by simpa [hasRoom, hs] using h, by simp [push, hs]⟩

theorem pop_spec {q : ConcurrentQueue T} (h : q.hasItem = true) :
    (q.queue = [] ∧ q.shutdownRequested = true ∧ q.pop = (.popped none, q, [])) ∨
      ∃ item rest, q.queue = item :: rest ∧
        q.pop = (.popped (some item), { q with queue := rest }, [.one .notFull]) := by
  cases hq : q.queue with
  | nil =>
    have hs : q.shutdownRequested = true := by simpa [hasItem, hq] using h
    exact .inl ⟨rfl, hs, by simp [pop, hq, hs]⟩
  | cons item rest => exact .inr ⟨item, rest, rfl, by simp [pop, takeFront, hq]⟩

theorem popFor_true (q : ConcurrentQueue T) : q.popFor true = q.pop := by simp [popFor, pop]

theorem popFor_false (q : ConcurrentQueue T) : q.popFor false = (.popped none, q, []) := by
  simp [popFor]

theorem hasRoom_eq_false {q : ConcurrentQueue T} :
    q.hasRoom = false ↔ q.maxCapacity ≤ q.queue.length ∧ q.shutdownRequested = false := by
  simp [hasRoom]

theorem hasItem_eq_false {q : ConcurrentQueue T} :
    q.hasItem = false ↔ q.queue = [] ∧ q.shutdownRequested = false := by
  simp [hasItem]

@[simp] theorem shutdownRequested_takeFront (q : ConcurrentQueue T) :
    q.takeFront.2.1.shutdownRequested = q.shutdownRequested := by
  unfold takeFront
  split <;> rfl

@[simp] theorem shutdownRequested_push (q : ConcurrentQueue T) (item : T) :
    (q.push item).2.1.shutdownRequested = q.shutdownRequested := by
  unfold push
  split <;> rfl

@[simp] theorem shutdownRequested_pop (q : ConcurrentQueue T) :
    q.pop.2.1.shutdownRequested = q.shutdownRequested := by
  unfold pop
  split
  · rfl
  · exact shutdownRequested_takeFront q

@[simp] theorem shutdownRequested_popFor (q : ConcurrentQueue T) (acquired : Bool) :
    (q.popFor acquired).2.1.shutdownRequested = q.shutdownRequested := by
  unfold popFor
  split
  · rfl
  · exact shutdownRequested_takeFront q

end ConcurrentQueue

open ConcurrentQueue

def Operation.wait? : Operation T → Option (Wait (ConcurrentQueue T) ConditionVariable)
  | .push _ => some { cv := .notFull, ready := hasRoom, timed := false }
  | .pop => some { cv := .notEmpty, ready := hasItem, timed := false }
  | .popFor => some { cv := .notEmpty, ready := hasItem, timed := true }
  | .shutdown => none

def Operation.body (acquired : Bool) (q : ConcurrentQueue T) : Operation T → Outcome T
  | .push item => q.push item
  | .pop => q.pop
  | .popFor => q.popFor acquired
  | .shutdown => q.shutdown

def monitor (T : Type u) :
    Object (ConcurrentQueue T) (Operation T) (Answer T) ConditionVariable where
  wait? := Operation.wait?
  body acquired op q := op.body acquired q

abbrev State (τ : Type v) (T : Type u) :=
  Lib.Monitor.State τ (ConcurrentQueue T) (Operation T) (Answer T) ConditionVariable

abbrev Event (τ : Type v) (T : Type u) :=
  Lib.Monitor.Event τ (Operation T) (Answer T) ConditionVariable

abbrev threads (τ : Type v) [DecidableEq τ] (T : Type u) (maxCapacity : Nat) :
    Lts (State τ T) (Event τ T) :=
  Lib.Monitor.system τ (monitor T) { maxCapacity }

theorem may_push {q : ConcurrentQueue T} {item : T} :
    (monitor T).May (.push item) q true ↔ q.hasRoom = true := by
  simp [Object.May, monitor, Operation.wait?]

theorem may_pop {q : ConcurrentQueue T} : (monitor T).May .pop q true ↔ q.hasItem = true := by
  simp [Object.May, monitor, Operation.wait?]

theorem may_popFor {q : ConcurrentQueue T} :
    (monitor T).May .popFor q true ↔ q.hasItem = true := by
  simp [Object.May, monitor, Operation.wait?]

/-- Only `pop_for` has a deadline. -/
theorem may_false {q : ConcurrentQueue T} {op : Operation T} :
    (monitor T).May op q false ↔ op = .popFor ∧ q.hasItem = false := by
  cases op <;> simp [Object.May, monitor, Operation.wait?]

end SecureTelemetryGateway.Utils
