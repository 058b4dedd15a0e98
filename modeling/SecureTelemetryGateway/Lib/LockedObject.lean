import SecureTelemetryGateway.Lib.Lts
import Mathlib.Logic.Function.Basic

/-!
# Objects behind one lock

A sequential object answers operations one at a time. Here any number of
threads share it, each operation running as one critical section between its
call and its return. `Trace.linearizable` says that every interleaving is
linearizable in lock order: the critical sections are a legal sequential
execution, and each lies between the call and the return of its operation.
-/

namespace Lib

structure SeqObject (σ : Type u) (ι : Type v) (ρ : Type w) where
  apply : ι → σ → ρ × σ

namespace LockedObject

/-- Where a thread stands: outside, waiting for the lock, or past its critical
section with an answer it has not returned yet. -/
inductive Phase (ι : Type v) (ρ : Type w)
  | idle
  | called (op : ι)
  | answered (op : ι) (r : ρ)

inductive Event (τ : Type t) (ι : Type v) (ρ : Type w)
  | call (thread : τ) (op : ι)
  | critical (thread : τ) (op : ι) (r : ρ)
  | ret (thread : τ) (op : ι) (r : ρ)

def Event.thread : Event τ ι ρ → τ
  | .call t _ | .critical t _ _ | .ret t _ _ => t

structure State (τ : Type t) (σ : Type u) (ι : Type v) (ρ : Type w) where
  obj : σ
  phase : τ → Phase ι ρ

/-- One critical section in lock order: who ran it, what it was, its answer. -/
structure Entry (τ : Type t) (ι : Type v) (ρ : Type w) where
  thread : τ
  op : ι
  answer : ρ

def Event.entry? : Event τ ι ρ → Option (Entry τ ι ρ)
  | .critical t op r => some ⟨t, op, r⟩
  | _ => none

def entries (es : List (Event τ ι ρ)) : List (Entry τ ι ρ) := es.filterMap Event.entry?

@[simp] theorem entries_nil : entries ([] : List (Event τ ι ρ)) = [] := rfl

@[simp] theorem entries_call (es : List (Event τ ι ρ)) :
    entries (es ++ [.call t op]) = entries es := by simp [entries, Event.entry?]

@[simp] theorem entries_critical (es : List (Event τ ι ρ)) :
    entries (es ++ [.critical t op r]) = entries es ++ [⟨t, op, r⟩] := by
  simp [entries, Event.entry?]

@[simp] theorem entries_ret (es : List (Event τ ι ρ)) :
    entries (es ++ [.ret t op r]) = entries es := by simp [entries, Event.entry?]

variable {τ : Type t} {σ : Type u} {ι : Type v} {ρ : Type w} {O : SeqObject σ ι ρ}

inductive Legal (O : SeqObject σ ι ρ) (o : σ) : List (Entry τ ι ρ) → σ → Prop
  | nil : Legal O o [] o
  | snoc : Legal O o h s → Legal O o (h ++ [⟨t, op, (O.apply op s).1⟩]) (O.apply op s).2

theorem Legal.invariant {I : List (Entry τ ι ρ) → σ → Prop} (h : Legal O o es s) (h0 : I [] o)
    (hstep : ∀ es s t op, I es s → I (es ++ [⟨t, op, (O.apply op s).1⟩]) (O.apply op s).2) :
    I es s := by
  induction h with
  | nil => exact h0
  | snoc _ ih => exact hstep _ _ _ _ ih

def LastOf (e : Event τ ι ρ) (es : List (Event τ ι ρ)) : Prop :=
  ∃ a b, es = a ++ e :: b ∧ ∀ x ∈ b, x.thread ≠ e.thread

theorem LastOf.self (es : List (Event τ ι ρ)) (e : Event τ ι ρ) : LastOf e (es ++ [e]) :=
  ⟨es, [], rfl, by simp⟩

theorem LastOf.snoc (h : LastOf e es) (hx : Event.thread x ≠ Event.thread e) :
    LastOf e (es ++ [x]) := by
  obtain ⟨a, b, rfl, hb⟩ := h
  refine ⟨a, b ++ [x], by simp, fun y hy => ?_⟩
  rcases List.mem_append.mp hy with hy | hy
  · exact hb y hy
  · exact List.mem_singleton.mp hy ▸ hx

def PhaseOk (es : List (Event τ ι ρ)) (t : τ) : Phase ι ρ → Prop
  | .idle => True
  | .called op => LastOf (.call t op) es
  | .answered op r => LastOf (.critical t op r) es

theorem PhaseOk.snoc {p : Phase ι ρ} (h : PhaseOk es t p) (hx : Event.thread x ≠ t) :
    PhaseOk (es ++ [x]) t p := by
  cases p with
  | idle => trivial
  | called => exact LastOf.snoc h hx
  | answered => exact LastOf.snoc h hx

variable [DecidableEq τ]

inductive Step (O : SeqObject σ ι ρ) :
    State τ σ ι ρ → Event τ ι ρ → State τ σ ι ρ → Prop
  | call (s : State τ σ ι ρ) (t : τ) (op : ι) : s.phase t = .idle →
      Step O s (.call t op) { s with phase := Function.update s.phase t (.called op) }
  | critical (s : State τ σ ι ρ) (t : τ) (op : ι) : s.phase t = .called op →
      Step O s (.critical t op (O.apply op s.obj).1)
        { obj := (O.apply op s.obj).2
          phase := Function.update s.phase t (.answered op (O.apply op s.obj).1) }
  | ret (s : State τ σ ι ρ) (t : τ) (op : ι) (r : ρ) : s.phase t = .answered op r →
      Step O s (.ret t op r) { s with phase := Function.update s.phase t .idle }

def system (τ : Type t) [DecidableEq τ] (O : SeqObject σ ι ρ) (o : σ) :
    Lts (State τ σ ι ρ) (Event τ ι ρ) where
  init s := s = { obj := o, phase := fun _ => .idle }
  step := Step O

theorem legal_of_trace (h : (system τ O o).Trace es s) : Legal O o (entries es) s.obj := by
  refine h.invariant (I := fun es s => Legal O o (entries es) s.obj) ?_ ?_
  · rintro _ rfl
    exact .nil
  · intro es s e u ih hs
    cases hs with
    | call => simpa using ih
    | critical => simpa using ih.snoc
    | ret => simpa using ih

theorem phaseOk_update {s : State τ σ ι ρ} {x : Event τ ι ρ} {p : Phase ι ρ}
    (h : ∀ t, PhaseOk es t (s.phase t)) (hp : PhaseOk (es ++ [x]) x.thread p) :
    ∀ t, PhaseOk (es ++ [x]) t (Function.update s.phase x.thread p t) :=
  (Function.forall_update_iff s.phase (PhaseOk (es ++ [x]))).mpr
    ⟨hp, fun t ht => (h t).snoc (Ne.symm ht)⟩

theorem phaseOk_of_trace (h : (system τ O o).Trace es s) : ∀ t, PhaseOk es t (s.phase t) := by
  refine h.invariant (I := fun es s => ∀ t, PhaseOk es t (s.phase t)) ?_ ?_
  · rintro _ rfl t
    trivial
  · intro es s e u ih hs
    cases hs with
    | call t op => exact phaseOk_update (x := .call t op) ih (LastOf.self ..)
    | critical t op => exact phaseOk_update (x := .critical t op _) ih (LastOf.self ..)
    | ret t op r => exact phaseOk_update (x := .ret t op r) ih trivial

/-- The critical sections are the linearization points: they form a legal
sequential execution, each comes after the call of its operation and each
return comes after it, with nothing else of the same thread in between. -/
structure Linearizable (O : SeqObject σ ι ρ) (o : σ) (es : List (Event τ ι ρ)) (final : σ) :
    Prop where
  legal : Legal O o (entries es) final
  afterCall : ∀ a t op r b, es = a ++ .critical t op r :: b → LastOf (.call t op) a
  beforeReturn : ∀ a t op r b, es = a ++ .ret t op r :: b → LastOf (.critical t op r) a

theorem Trace.linearizable (h : (system τ O o).Trace es s) : Linearizable O o es s.obj where
  legal := legal_of_trace h
  afterCall := by
    rintro a t op r b rfl
    obtain ⟨m, _, hm, hs, -⟩ := h.at_step
    cases hs with
    | critical _ _ hp => simpa [hp, PhaseOk] using phaseOk_of_trace hm t
  beforeReturn := by
    rintro a t op r b rfl
    obtain ⟨m, _, hm, hs, -⟩ := h.at_step
    cases hs with
    | ret _ _ _ hp => simpa [hp, PhaseOk] using phaseOk_of_trace hm t

omit [DecidableEq τ] in
theorem Linearizable.returned {a b : List (Event τ ι ρ)} {t : τ}
    (h : Linearizable O o (a ++ .ret t op r :: b) final) :
    ∃ a₁ a₂ a₃, a = a₁ ++ .call t op :: (a₂ ++ .critical t op r :: a₃) ∧
      (∀ e ∈ a₂, e.thread ≠ t) ∧ ∀ e ∈ a₃, e.thread ≠ t := by
  obtain ⟨front, a₃, rfl, hquiet⟩ := h.beforeReturn a t op r b rfl
  obtain ⟨a₁, a₂, rfl, hwaiting⟩ := h.afterCall front t op r (a₃ ++ .ret t op r :: b) (by simp)
  exact ⟨a₁, a₂, a₃, by simp, hwaiting, hquiet⟩

theorem critical_step {s s' : State τ σ ι ρ} (h : (system τ O o).step s (.critical t op r) s') :
    O.apply op s.obj = (r, s'.obj) := by
  cases h with
  | critical => rfl

theorem Trace.answer_eq (h : (system τ O o).Trace (a ++ .critical t op r :: b) s) :
    ∃ u : State τ σ ι ρ, Legal O o (entries a) u.obj ∧ r = (O.apply op u.obj).1 := by
  obtain ⟨u, _, hu, hs, -⟩ := h.at_step
  exact ⟨u, legal_of_trace hu, (congrArg Prod.fst (critical_step hs)).symm⟩

-- ---------------------------------------------------------------------------
-- One object through another
-- ---------------------------------------------------------------------------

variable {ι' : Type v'} {ρ' : Type w'} {O' : SeqObject σ ι' ρ'}

/-- Every operation of `O` is one of `O'`, with the answer it got there, or
leaves the state alone. -/
structure Through (O : SeqObject σ ι ρ) (O' : SeqObject σ ι' ρ') where
  inner : ι → ρ → Option (ι' × ρ')
  apply_of_some : ∀ op s op' r, inner op (O.apply op s).1 = some (op', r) →
    O'.apply op' s = (r, (O.apply op s).2)
  apply_of_none : ∀ op s, inner op (O.apply op s).1 = none → (O.apply op s).2 = s

def Through.translate (f : Through O O') (e : Entry τ ι ρ) : Option (Entry τ ι' ρ') :=
  (f.inner e.op e.answer).map fun (op, r) => ⟨e.thread, op, r⟩

omit [DecidableEq τ] in
theorem Legal.through (f : Through O O') {es : List (Entry τ ι ρ)} (h : Legal O o es s) :
    Legal O' o (es.filterMap f.translate) s := by
  refine h.invariant (I := fun es s => Legal O' o (es.filterMap f.translate) s) .nil ?_
  intro es s t op ih
  rw [List.filterMap_append]
  cases hinner : f.inner op (O.apply op s).1 with
  | none =>
    have hentry : [⟨t, op, (O.apply op s).1⟩].filterMap f.translate = [] := by
      simp [Through.translate, hinner]
    rw [hentry, List.append_nil, f.apply_of_none op s hinner]
    exact ih
  | some inner =>
    obtain ⟨op', r⟩ := inner
    have happly := f.apply_of_some op s op' r hinner
    have hentry : [⟨t, op, (O.apply op s).1⟩].filterMap f.translate =
        [⟨t, op', (O'.apply op' s).1⟩] := by
      simp [Through.translate, hinner, happly]
    rw [hentry, ← congrArg Prod.snd happly]
    exact ih.snoc

end LockedObject

end Lib
