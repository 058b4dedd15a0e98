import SecureTelemetryGateway.Containers.ConcurrentQueue

/-!
# The queue under any number of threads

The queue as an object behind its mutex, and what the critical sections of a
run say about each other: a bounded FIFO, in lock order.
-/

namespace SecureTelemetryGateway.Containers.ConcurrentQueue

open Lib Lib.LockedObject

variable {T : Type u} {τ : Type v}

inductive Op (T : Type u)
  | push (item : T)
  | popInto (item : T)
  | pop
  | size
  | empty

inductive Answer (T : Type u)
  | pushed (ok : Bool)
  | poppedInto (ok : Bool) (item : T)
  | popped (item : Option T)
  | size (n : Nat)
  | empty (b : Bool)

def apply (q : ConcurrentQueue T) : Op T → Answer T × ConcurrentQueue T
  | .push item => let (ok, q) := q.push item; (.pushed ok, q)
  | .popInto item => let ((ok, item), q) := q.popInto item; (.poppedInto ok item, q)
  | .pop => let (item, q) := q.pop; (.popped item, q)
  | .size => (.size q.size, q)
  | .empty => (.empty q.empty, q)

def object (T : Type u) : SeqObject (ConcurrentQueue T) (Op T) (Answer T) where
  apply op q := q.apply op

def added : Op T → Answer T → Option T
  | .push item, .pushed true => some item
  | _, _ => none

def taken : Answer T → Option T
  | .poppedInto true item => some item
  | .popped item => item
  | _ => none

abbrev History (τ : Type v) (T : Type u) := List (Entry τ (Op T) (Answer T))

def pushed (h : History τ T) : List T := h.filterMap fun e => added e.op e.answer

def popped (h : History τ T) : List T := h.filterMap fun e => taken e.answer

def pushedBy [DecidableEq τ] (p : τ) (h : History τ T) : List T :=
  pushed (h.filter (·.thread = p))

/-- The items whose push returned true, each with the thread that pushed it. -/
def producers (h : History τ T) : List (τ × T) :=
  h.filterMap fun e => (added e.op e.answer).map (e.thread, ·)

def Boundary (maxCapacity : Nat) (q : List T) : Op T → Answer T → List T → Prop
  | .push _, .pushed ok, q' => (ok = false ↔ q.length = maxCapacity) ∧ (ok = false → q' = q)
  | .popInto item, .poppedInto ok item', q' =>
    (ok = false ↔ q = []) ∧ (ok = false → q' = q ∧ item' = item)
  | .pop, .popped item, q' => (item = none ↔ q = []) ∧ (item = none → q' = q)
  | .size, .size n, q' => n = q.length ∧ q' = q
  | .empty, .empty b, q' => (b = true ↔ q = []) ∧ q' = q
  | _, _, _ => False

@[simp] theorem maxCapacity_apply (q : ConcurrentQueue T) (op : Op T) :
    (q.apply op).2.maxCapacity = q.maxCapacity := by
  cases op with
  | push item => exact maxCapacity_push q item
  | popInto item => simp [apply, popInto_snd]
  | pop => exact maxCapacity_pop q
  | size => rfl
  | empty => rfl

theorem queue_apply (q : ConcurrentQueue T) (op : Op T) :
    (taken (q.apply op).1).toList ++ (q.apply op).2.queue =
      q.queue ++ (added op (q.apply op).1).toList := by
  cases op with
  | push item =>
    have h := queue_push q item
    cases hok : (q.push item).1 <;> simpa [apply, taken, added, hok] using h
  | popInto item =>
    have h := queue_pop q
    cases hpop : q.pop.1 <;>
      simpa [apply, taken, added, popInto_fst, popInto_snd, hpop] using h
  | pop => simpa [apply, taken, added] using queue_pop q
  | size => simp [apply, taken, added]
  | empty => simp [apply, taken, added]

theorem boundary_apply (q : ConcurrentQueue T) (op : Op T) :
    Boundary q.maxCapacity q.queue op (q.apply op).1 (q.apply op).2.queue := by
  have hb := q.bounded
  cases op with
  | push item =>
    have hfull : (q.push item).1 = false ↔ q.queue.length = q.maxCapacity := by
      rw [← Bool.not_eq_true, push_eq_true]
      omega
    refine ⟨hfull, fun h => ?_⟩
    rw [apply, push_full (Nat.le_of_eq (hfull.mp h).symm)]
  | popInto item =>
    cases h : q.queue with
    | nil => simp [apply, Boundary, popInto_empty h, h]
    | cons front rest => simp [apply, Boundary, popInto_cons h]
  | pop =>
    cases h : q.queue with
    | nil => simp [apply, Boundary, pop_empty h, h]
    | cons front rest => simp [apply, Boundary, pop_cons h]
  | size => exact ⟨rfl, rfl⟩
  | empty => exact ⟨List.isEmpty_iff, rfl⟩

theorem maxCapacity_of_legal {h : History τ T} (hl : Legal (object T) q₀ h q) :
    q.maxCapacity = q₀.maxCapacity :=
  hl.invariant (I := fun _ q => q.maxCapacity = q₀.maxCapacity) rfl
    fun _ q _ op ih => (maxCapacity_apply q op).trans ih

theorem fifo_of_legal {h : History τ T} (hl : Legal (object T) (new n) h q) :
    popped h ++ q.queue = pushed h := by
  refine hl.invariant (I := fun h q => popped h ++ q.queue = pushed h) rfl ?_
  intro h q t op ih
  have hstep := queue_apply q op
  have hpop : popped (h ++ [⟨t, op, (q.apply op).1⟩]) =
      popped h ++ (taken (q.apply op).1).toList := by
    simp only [popped, List.filterMap_append]
    cases htake : taken (q.apply op).1 <;> simp [htake]
  have hpush : pushed (h ++ [⟨t, op, (q.apply op).1⟩]) =
      pushed h ++ (added op (q.apply op).1).toList := by
    simp only [pushed, List.filterMap_append]
    cases hadd : added op (q.apply op).1 <;> simp [hadd]
  calc popped (h ++ [⟨t, op, (q.apply op).1⟩]) ++ (q.apply op).2.queue
      = popped h ++ ((taken (q.apply op).1).toList ++ (q.apply op).2.queue) := by
        rw [hpop, List.append_assoc]
    _ = popped h ++ q.queue ++ (added op (q.apply op).1).toList := by
        rw [hstep, List.append_assoc]
    _ = pushed (h ++ [⟨t, op, (q.apply op).1⟩]) := by rw [ih, hpush]

theorem map_snd_producers (h : History τ T) : (producers h).map Prod.snd = pushed h := by
  simp [producers, pushed, List.map_filterMap, Function.comp_def]

theorem map_snd_filter_producers [DecidableEq τ] (p : τ) (h : History τ T) :
    ((producers h).filter (·.1 = p)).map Prod.snd = pushedBy p h := by
  induction h with
  | nil => rfl
  | cons e h ih =>
    cases hadd : added e.op e.answer with
    | none =>
      by_cases hp : e.thread = p
      · simpa [producers, pushedBy, pushed, hadd, hp] using ih
      · simpa [producers, pushedBy, pushed, hadd, hp] using ih
    | some item =>
      by_cases hp : e.thread = p
      · simpa [producers, pushedBy, pushed, hadd, hp] using ih
      · simpa [producers, pushedBy, pushed, hadd, hp] using ih

variable [DecidableEq τ]

abbrev threads (τ : Type v) [DecidableEq τ] (T : Type u) (maxCapacity : Nat) :
    Lts (State τ (ConcurrentQueue T) (Op T) (Answer T)) (Event τ (Op T) (Answer T)) :=
  system τ (object T) (new maxCapacity)

structure LinearizableFifo (maxCapacity : Nat) (es : List (Event τ (Op T) (Answer T)))
    (final : State τ (ConcurrentQueue T) (Op T) (Answer T)) : Prop where
  linearizable : Linearizable (object T) (new maxCapacity) es final.obj
  bounded : final.obj.queue.length ≤ maxCapacity
  fifo : popped (entries es) ++ final.obj.queue = pushed (entries es)
  /-- The items, taken or still there, tagged with their producers: each
  producer's are the ones it pushed, in its order. -/
  producerOrder : ∃ tagged : List (τ × T),
    tagged.map Prod.snd = popped (entries es) ++ final.obj.queue ∧
      ∀ p, (tagged.filter (·.1 = p)).map Prod.snd = pushedBy p (entries es)
  boundary : ∀ before t op r after, es = before ++ .critical t op r :: after →
    ∃ s s', (threads τ T maxCapacity).Trace before s ∧
      (threads τ T maxCapacity).step s (.critical t op r) s' ∧
      (threads τ T maxCapacity).Run s' after final ∧
      Boundary maxCapacity s.obj.queue op r s'.obj.queue

theorem linearizableFifo (h : (threads τ T n).Trace es s) : LinearizableFifo n es s where
  linearizable := Trace.linearizable h
  bounded := by
    have hcap : s.obj.maxCapacity = n := maxCapacity_of_legal (legal_of_trace h)
    exact hcap ▸ s.obj.bounded
  fifo := fifo_of_legal (legal_of_trace h)
  producerOrder := by
    refine ⟨producers (entries es), ?_, fun p => map_snd_filter_producers p _⟩
    rw [map_snd_producers, fifo_of_legal (legal_of_trace h)]
  boundary := by
    rintro before t op r after rfl
    obtain ⟨s₁, s₂, h1, hs, h2⟩ := h.at_step
    refine ⟨s₁, s₂, h1, hs, h2, ?_⟩
    have hcap : s₁.obj.maxCapacity = n := maxCapacity_of_legal (legal_of_trace h1)
    cases hs with
    | critical => exact hcap ▸ boundary_apply s₁.obj op

theorem linearizableFifo_run :
    ∃ final : State Bool (ConcurrentQueue Nat) (Op Nat) (Answer Nat),
      LinearizableFifo 1
        [.call true (.push 7), .critical true (.push 7) (.pushed true), .call false .pop,
          .ret true (.push 7) (.pushed true), .call true (.push 8),
          .critical true (.push 8) (.pushed false), .critical false .pop (.popped (some 7))]
        final ∧ final.obj.queue = [] :=
  ⟨_, linearizableFifo ⟨_, rfl,
    .cons (.call _ _ _ rfl) <| .cons (.critical _ _ _ rfl) <| .cons (.call _ _ _ rfl) <|
      .cons (.ret _ _ _ _ rfl) <| .cons (.call _ _ _ rfl) <| .cons (.critical _ _ _ rfl) <|
      .single (.critical _ _ _ rfl)⟩, rfl⟩

end SecureTelemetryGateway.Containers.ConcurrentQueue
