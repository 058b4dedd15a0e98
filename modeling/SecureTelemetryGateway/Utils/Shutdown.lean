import SecureTelemetryGateway.Utils.ConcurrentQueue

/-!
# A graceful shutdown

What the operations answer, in lock order, against the queue's content: the
shutdown refuses pushes, takes nothing out, and what it finds in the queue can
still be popped.
-/

namespace SecureTelemetryGateway.Utils

open ConcurrentQueue
open Lib.Monitor (entries exists_run_op finish_inv finish_of_ret object_invariant)

variable {T : Type u}

def Answer.item? : Answer T → Option T
  | .popped item => item
  | _ => none

def Operation.accepted? : Operation T → Answer T → Option T
  | .push item, .pushed true => some item
  | _, _ => none

def pushed (l : List (Operation T × Answer T)) : List T :=
  l.filterMap fun (op, r) => op.accepted? r

def popped (l : List (Operation T × Answer T)) : List T := l.filterMap fun (_, r) => r.item?

@[simp] theorem pushed_snoc (l : List (Operation T × Answer T)) (op : Operation T) (r : Answer T) :
    pushed (l ++ [(op, r)]) = pushed l ++ (op.accepted? r).toList := by
  cases h : op.accepted? r <;> simp [pushed, h]

@[simp] theorem popped_snoc (l : List (Operation T × Answer T)) (op : Operation T) (r : Answer T) :
    popped (l ++ [(op, r)]) = popped l ++ r.item?.toList := by
  cases h : r.item? <;> simp [popped, h]

structure Kept (capacity : Nat) (l : List (Operation T × Answer T)) (q : ConcurrentQueue T) :
    Prop where
  maxCapacity : q.maxCapacity = capacity
  bounded : q.queue.length ≤ capacity
  content : popped l ++ q.queue = pushed l

theorem Kept.unchanged {q' : ConcurrentQueue T} (h : Kept capacity l q) {op : Operation T}
    (hp : op.accepted? r = none) (hr : r.item? = none) (hc : q'.maxCapacity = q.maxCapacity)
    (hq : q'.queue = q.queue) : Kept capacity (l ++ [(op, r)]) q' where
  maxCapacity := hc.trans h.maxCapacity
  bounded := hq ▸ h.bounded
  content := by simpa [hp, hr, hq] using h.content

theorem Kept.push (h : Kept capacity l q) (hroom : q.hasRoom = true) (item : T) :
    Kept capacity (l ++ [(.push item, (q.push item).1)]) (q.push item).2.1 := by
  rcases push_spec hroom item with ⟨-, hpush⟩ | ⟨-, hlt, hpush⟩
  · rw [hpush]
    exact h.unchanged rfl rfl rfl rfl
  · rw [hpush]
    have hlt : q.queue.length < capacity := h.maxCapacity ▸ hlt
    refine ⟨h.maxCapacity, by simpa using hlt, ?_⟩
    simp [Operation.accepted?, Answer.item?, ← h.content]

theorem Kept.pop {op : Operation T} (h : Kept capacity l q) (hitem : q.hasItem = true)
    (hop : ∀ r, op.accepted? r = none) : Kept capacity (l ++ [(op, q.pop.1)]) q.pop.2.1 := by
  rcases pop_spec hitem with ⟨-, -, hpop⟩ | ⟨item, rest, hq, hpop⟩
  · rw [hpop]
    exact h.unchanged (hop _) rfl rfl rfl
  · rw [hpop]
    have hcontent := h.content
    have hbounded := h.bounded
    rw [hq] at hcontent hbounded
    refine ⟨h.maxCapacity, (Nat.le_succ _).trans hbounded, ?_⟩
    simpa [hop, Answer.item?] using hcontent

variable {τ : Type v} [DecidableEq τ]

theorem kept_of_trace {s : State τ T} (h : (threads τ T capacity).Trace es s) :
    Kept capacity (entries es) s.obj := by
  refine object_invariant (I := Kept capacity) h ⟨rfl, Nat.zero_le _, rfl⟩ ?_
  intro l q op acquired hk hmay
  cases acquired with
  | true =>
    cases op with
    | push item => exact hk.push (may_push.mp hmay) item
    | pop => exact hk.pop (may_pop.mp hmay) fun _ => rfl
    | popFor =>
      have hpop : Kept capacity (l ++ [(.popFor, q.pop.1)]) q.pop.2.1 :=
        hk.pop (may_popFor.mp hmay) fun _ => rfl
      rwa [← popFor_true] at hpop
    | shutdown => exact hk.unchanged rfl rfl rfl rfl
  | false =>
    obtain ⟨rfl, -⟩ := may_false.mp hmay
    exact hk.unchanged rfl rfl rfl rfl

/-- What an operation may answer on the queue its last predicate test has seen,
and what it leaves there. -/
structure Exits (q : ConcurrentQueue T) (op : Operation T) (r : Answer T) (q' : ConcurrentQueue T) :
    Prop where
  push : ∀ item, op = .push item → q.shutdownRequested = true → r = .pushed false ∧ q' = q
  pop : op = .pop → r = .popped none → q.shutdownRequested = true ∧ q.queue = []
  popFor : op = .popFor → r = .popped none → q.queue = []
  defined : r ≠ .undefined

theorem exits_pop {q : ConcurrentQueue T} {op : Operation T} (h : q.hasItem = true)
    (hop : ∀ item, op ≠ .push item) : Exits q op q.pop.1 q.pop.2.1 := by
  rcases pop_spec h with ⟨hq, hs, hpop⟩ | ⟨item, rest, -, hpop⟩
  · rw [hpop]
    exact ⟨fun item hp => absurd hp (hop item), fun _ _ => ⟨hs, hq⟩, fun _ _ => hq, nofun⟩
  · rw [hpop]
    exact ⟨fun item hp => absurd hp (hop item), fun _ => nofun, fun _ => nofun, nofun⟩

theorem exits_body {q : ConcurrentQueue T} {op : Operation T} (h : (monitor T).May op q acquired) :
    Exits q op (op.body acquired q).1 (op.body acquired q).2.1 := by
  cases acquired with
  | true =>
    cases op with
    | push item =>
      rcases push_spec (may_push.mp h) item with ⟨-, hpush⟩ | ⟨hs, -, hpush⟩
      · rw [Operation.body, hpush]
        exact ⟨fun _ _ _ => ⟨rfl, rfl⟩, nofun, nofun, nofun⟩
      · rw [Operation.body, hpush]
        exact ⟨fun _ _ ht => by simp [hs] at ht, nofun, nofun, nofun⟩
    | pop => exact exits_pop (may_pop.mp h) nofun
    | popFor =>
      rw [Operation.body, popFor_true]
      exact exits_pop (may_popFor.mp h) nofun
    | shutdown => exact ⟨nofun, nofun, nofun, nofun⟩
  | false =>
    obtain ⟨rfl, hitem⟩ := may_false.mp h
    rw [Operation.body, popFor_false]
    exact ⟨nofun, nofun, fun _ _ => (hasItem_eq_false.mp hitem).1, nofun⟩

theorem exists_drain (s : State τ T) (hp : s.pc t = .idle) :
    ∃ es s', (threads τ T capacity).Run s es s' ∧ popped (entries es) = s.obj.queue ∧
      pushed (entries es) = [] ∧ s'.obj.queue = [] := by
  induction hq : s.obj.queue generalizing s with
  | nil => exact ⟨[], s, .nil, rfl, rfl, hq⟩
  | cons item rest ih =>
    have hitem : s.obj.hasItem = true := by simp [hasItem, hq]
    obtain ⟨item', rest', hq', hpop⟩ := (pop_spec hitem).resolve_left (by simp [hq])
    obtain ⟨rfl, rfl⟩ : item = item' ∧ rest = rest' := by simpa [hq] using hq'
    have hbody : (monitor T).body true .pop s.obj = _ := hpop
    obtain ⟨es, m, hr, hes, hobj, hm⟩ :=
      exists_run_op (M := monitor T) (o := { maxCapacity := capacity }) s hp (may_pop.mpr hitem)
    rw [hbody] at hes hobj
    obtain ⟨es', s', hr', hpopped, hpushed, hs'⟩ := ih m hm (by rw [hobj])
    refine ⟨es ++ es', s', hr.append hr', ?_, ?_, hs'⟩
    · simpa [hes, popped, Answer.item?] using hpopped
    · simpa [hes, pushed, Operation.accepted?] using hpushed

/-- In every run: the capacity is kept; what the pops have returned, followed
by the content, is what has been pushed; each section exits as it may; each
return gives the answer of a section; and what is in the queue can be drained. -/
theorem gracefulShutdown {s : State τ T} (h : (threads τ T capacity).Trace es s) :
    s.obj.queue.length ≤ s.obj.maxCapacity ∧ s.obj.maxCapacity = capacity ∧
      popped (entries es) ++ s.obj.queue = pushed (entries es) ∧
      (∀ a t op acquired r b, es = a ++ .finish t op acquired r :: b → ∃ m m',
        (threads τ T capacity).Trace a m ∧
          (threads τ T capacity).step m (.finish t op acquired r) m' ∧
          (threads τ T capacity).Run m' b s ∧ Exits m.obj op r m'.obj) ∧
      (∀ t op r, .ret t op r ∈ es → ∃ acquired, .finish t op acquired r ∈ es) ∧
      ∀ t, s.pc t = .idle → ∃ es' s', (threads τ T capacity).Run s es' s' ∧
        popped (entries es') = s.obj.queue ∧ pushed (entries es') = [] ∧ s'.obj.queue = [] := by
  have hkept := kept_of_trace h
  refine ⟨hkept.maxCapacity ▸ hkept.bounded, hkept.maxCapacity, hkept.content, ?_,
    (finish_of_ret h).2, fun t hp => exists_drain s hp⟩
  rintro a t op acquired r b rfl
  obtain ⟨m, m', ha, hs, hb⟩ := h.at_step
  obtain ⟨hmay, hbody⟩ := finish_inv hs
  have hexits := exits_body hmay
  have hbody : op.body acquired m.obj = _ := hbody
  rw [hbody] at hexits
  exact ⟨m, m', ha, hs, hb, hexits⟩

theorem gracefulShutdown_pushed : ∃ s : State Bool Unit,
    s.obj.shutdownRequested = true ∧ s.obj.queue = [()] ∧ s.pc true = .idle ∧
      ∃ es' s', (threads Bool Unit 1).Run s es' s' ∧ popped (entries es') = [()] ∧
        s'.obj.queue = [] := by
  have hrun : (threads Bool Unit 1).Trace _ _ := ⟨_, rfl,
    .cons (.call _ true (.push ()) rfl) <|
      .cons (.finish _ true _ true ⟨rfl, rfl⟩ (may_push.mpr rfl)) <|
        .cons (.notifyNone _ true .notEmpty rfl (by rintro (_ | _) <;> exact id)) <|
          .cons (.ret _ true rfl) <| .cons (.call _ false .shutdown rfl) <|
            .single (.finish _ false .shutdown true ⟨rfl, rfl⟩ nofun)⟩
  obtain ⟨-, -, -, -, -, hdrain⟩ := gracefulShutdown hrun
  obtain ⟨es', s', hr, hpopped, -, hq⟩ := hdrain true rfl
  exact ⟨_, rfl, rfl, rfl, es', s', hr, hpopped, hq⟩

end SecureTelemetryGateway.Utils
