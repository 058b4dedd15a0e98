import SecureTelemetryGateway.Lib.LockedObject

/-!
# The bounded queue of the gateway

`containers/concurrent_queue.hpp`. Every operation is one critical section, so
an operation is a function of the queue's content. `cv_pop_` is left out: it is
notified, but nothing waits on it.
-/

namespace SecureTelemetryGateway.Containers

/-- The bound is part of the type: no operation can exceed the capacity. -/
structure ConcurrentQueue (T : Type u) where
  maxCapacity : Nat
  queue : List T
  bounded : queue.length ≤ maxCapacity

namespace ConcurrentQueue

variable {T : Type u}

@[ext] theorem ext {q q' : ConcurrentQueue T} (hc : q.maxCapacity = q'.maxCapacity)
    (hq : q.queue = q'.queue) : q = q' := by
  cases q; cases q'; cases hc; cases hq; rfl

def new (maxCapacity : Nat := 1000) : ConcurrentQueue T where
  maxCapacity
  queue := []
  bounded := Nat.zero_le _

def push (q : ConcurrentQueue T) (item : T) : Bool × ConcurrentQueue T :=
  if h : q.queue.length ≥ q.maxCapacity then (false, q)
  else (true, { q with queue := q.queue ++ [item], bounded := by simp; omega })

/-- `bool pop(T& item)`: the caller's item is the argument and the second
component of the answer. -/
def popInto (q : ConcurrentQueue T) (item : T) : (Bool × T) × ConcurrentQueue T :=
  match h : q.queue with
  | [] => ((false, item), q)
  | front :: rest =>
    ((true, front),
      { q with queue := rest, bounded := by have := q.bounded; simp [h] at this; omega })

def pop (q : ConcurrentQueue T) : Option T × ConcurrentQueue T :=
  match h : q.queue with
  | [] => (none, q)
  | front :: rest =>
    (some front, { q with queue := rest, bounded := by have := q.bounded; simp [h] at this; omega })

def size (q : ConcurrentQueue T) : Nat := q.queue.length

def empty (q : ConcurrentQueue T) : Bool := q.queue.isEmpty

@[simp] theorem queue_new (n : Nat) : (new n : ConcurrentQueue T).queue = [] := rfl
@[simp] theorem maxCapacity_new (n : Nat) : (new n : ConcurrentQueue T).maxCapacity = n := rfl

theorem push_full {q : ConcurrentQueue T} (h : q.maxCapacity ≤ q.queue.length) (item : T) :
    q.push item = (false, q) := by simp [push, h]

theorem push_room {q : ConcurrentQueue T} (h : q.queue.length < q.maxCapacity) (item : T) :
    (q.push item).1 = true ∧ (q.push item).2.queue = q.queue ++ [item] := by
  simp [push, Nat.not_le.mpr h]

theorem push_eq_true (q : ConcurrentQueue T) (item : T) :
    (q.push item).1 = true ↔ q.queue.length < q.maxCapacity := by
  by_cases h : q.queue.length < q.maxCapacity
  · simp [push_room h, h]
  · simp [push_full (Nat.not_lt.mp h), h]

@[simp] theorem maxCapacity_push (q : ConcurrentQueue T) (item : T) :
    (q.push item).2.maxCapacity = q.maxCapacity := by
  unfold push; split <;> rfl

theorem queue_push (q : ConcurrentQueue T) (item : T) :
    (q.push item).2.queue = q.queue ++ if (q.push item).1 then [item] else [] := by
  by_cases h : q.queue.length < q.maxCapacity
  · simp [push_room h]
  · simp [push_full (Nat.not_lt.mp h)]

theorem pop_empty {q : ConcurrentQueue T} (h : q.queue = []) : q.pop = (none, q) := by
  unfold pop; split <;> simp_all

theorem pop_cons {q : ConcurrentQueue T} (h : q.queue = front :: rest) :
    q.pop.1 = some front ∧ q.pop.2.queue = rest := by
  unfold pop; split <;> simp_all

@[simp] theorem maxCapacity_pop (q : ConcurrentQueue T) : q.pop.2.maxCapacity = q.maxCapacity := by
  unfold pop; split <;> rfl

theorem queue_pop (q : ConcurrentQueue T) : q.pop.1.toList ++ q.pop.2.queue = q.queue := by
  cases h : q.queue with
  | nil => simp [pop_empty h, h]
  | cons front rest => simp [pop_cons h]

theorem popInto_empty {q : ConcurrentQueue T} (h : q.queue = []) (item : T) :
    q.popInto item = ((false, item), q) := by
  unfold popInto; split <;> simp_all

theorem popInto_cons {q : ConcurrentQueue T} (h : q.queue = front :: rest) (item : T) :
    (q.popInto item).1 = (true, front) ∧ (q.popInto item).2.queue = rest := by
  unfold popInto; split <;> simp_all

theorem popInto_snd (q : ConcurrentQueue T) (item : T) : (q.popInto item).2 = q.pop.2 := by
  unfold popInto pop; split <;> rfl

theorem popInto_fst (q : ConcurrentQueue T) (item : T) :
    (q.popInto item).1 = (q.pop.1.isSome, q.pop.1.getD item) := by
  cases h : q.queue with
  | nil => simp [pop_empty h, popInto_empty h]
  | cons front rest => simp [pop_cons h, popInto_cons h]

end ConcurrentQueue

end SecureTelemetryGateway.Containers
