/-!
# Labelled transition systems and their runs

A system is a set of initial states and a labelled step relation. A run keeps
the labels of its steps, oldest first, so that what happened on the way to a
state is read off the run and is not a part of the state. Invariants are
therefore stated over the labels and the state together (`Trace.invariant`).
-/

namespace Lib

structure Lts (σ : Type u) (ε : Type v) where
  init : σ → Prop
  step : σ → ε → σ → Prop

namespace Lts

variable {σ : Type u} {ε : Type v} {L : Lts σ ε}

inductive Run (L : Lts σ ε) (s : σ) : List ε → σ → Prop
  | nil : Run L s [] s
  | snoc : Run L s es t → L.step t e u → Run L s (es ++ [e]) u

def Trace (L : Lts σ ε) (es : List ε) (t : σ) : Prop := ∃ s, L.init s ∧ L.Run s es t

def Reachable (L : Lts σ ε) (t : σ) : Prop := ∃ es, L.Trace es t

/-- The system that takes only the steps meeting `G`: its runs are the runs of
`L` whose steps all meet `G`. -/
def restrict (L : Lts σ ε) (G : σ → ε → σ → Prop) : Lts σ ε where
  init := L.init
  step s e t := L.step s e t ∧ G s e t

-- ---------------------------------------------------------------------------
-- Putting runs together and taking them apart
-- ---------------------------------------------------------------------------

theorem Run.single (h : L.step s e t) : L.Run s [e] t := .snoc .nil h

theorem Run.append (h : L.Run s es t) (h' : L.Run t fs u) : L.Run s (es ++ fs) u := by
  induction h' with
  | nil => simpa using h
  | snoc _ hs ih => rw [← List.append_assoc]; exact .snoc ih hs

theorem Run.cons (h : L.step s e t) (h' : L.Run t es u) : L.Run s (e :: es) u :=
  (Run.single h).append h'

theorem Run.nil_inv (h : L.Run s [] t) : s = t := by
  generalize hl : ([] : List ε) = l at h
  cases h with
  | nil => rfl
  | snoc => simp at hl

theorem Run.snoc_inv (h : L.Run s (es ++ [e]) u) : ∃ t, L.Run s es t ∧ L.step t e u := by
  generalize hl : es ++ [e] = l at h
  cases h with
  | nil => simp at hl
  | snoc hr hs =>
    obtain ⟨rfl, he⟩ := List.append_inj' hl rfl
    cases he
    exact ⟨_, hr, hs⟩

theorem Run.split (h : L.Run s l u) :
    ∀ {es fs}, l = es ++ fs → ∃ t, L.Run s es t ∧ L.Run t fs u := by
  induction h with
  | nil =>
    intro es fs hl
    obtain ⟨rfl, rfl⟩ := List.append_eq_nil_iff.mp hl.symm
    exact ⟨s, .nil, .nil⟩
  | @snoc l t e u hr hs ih =>
    intro es fs hl
    rcases List.eq_nil_or_concat fs with rfl | ⟨gs, x, rfl⟩
    · rw [List.append_nil] at hl
      exact ⟨u, hl ▸ .snoc hr hs, .nil⟩
    · rw [List.concat_eq_append, ← List.append_assoc] at hl
      obtain ⟨hes, hx⟩ := List.append_inj' hl rfl
      cases hx
      obtain ⟨m, h1, h2⟩ := ih hes
      exact ⟨m, h1, List.concat_eq_append ▸ .snoc h2 hs⟩

theorem Run.cons_inv (h : L.Run s (e :: es) u) : ∃ t, L.step s e t ∧ L.Run t es u := by
  obtain ⟨t, h1, h2⟩ := h.split List.singleton_append.symm
  obtain ⟨m, h0, hs⟩ := Run.snoc_inv (show L.Run s ([] ++ [e]) t from h1)
  exact ⟨t, h0.nil_inv ▸ hs, h2⟩

theorem Run.unique (hdet : ∀ {s e t u}, L.step s e t → L.step s e u → t = u)
    (h : L.Run s es t) (h' : L.Run s es u) : t = u := by
  induction h generalizing u with
  | nil => exact h'.nil_inv
  | snoc _ hs ih =>
    obtain ⟨m, hm, hs'⟩ := h'.snoc_inv
    exact hdet hs (ih hm ▸ hs')

theorem Trace.snoc (h : L.Trace es t) (hs : L.step t e u) : L.Trace (es ++ [e]) u := by
  obtain ⟨s, hi, hr⟩ := h
  exact ⟨s, hi, .snoc hr hs⟩

theorem Trace.append (h : L.Trace es t) (h' : L.Run t fs u) : L.Trace (es ++ fs) u := by
  obtain ⟨s, hi, hr⟩ := h
  exact ⟨s, hi, hr.append h'⟩

theorem Trace.at_step (h : L.Trace (es ++ e :: fs) u) :
    ∃ s t, L.Trace es s ∧ L.step s e t ∧ L.Run t fs u := by
  obtain ⟨s₀, hi, hr⟩ := h
  obtain ⟨s, h1, h2⟩ := hr.split rfl
  obtain ⟨t, hs, h3⟩ := h2.cons_inv
  exact ⟨s, t, ⟨s₀, hi, h1⟩, hs, h3⟩

-- ---------------------------------------------------------------------------
-- Invariants
-- ---------------------------------------------------------------------------

/-- What a step preserves, a run preserves. `I` sees the labels since the
start of the run. -/
theorem Run.invariant {I : List ε → σ → Prop} (h : L.Run s es t) (h0 : I [] s)
    (hstep : ∀ es t e u, I es t → L.step t e u → I (es ++ [e]) u) : I es t := by
  induction h with
  | nil => exact h0
  | snoc _ hs ih => exact hstep _ _ _ _ ih hs

theorem Trace.invariant {I : List ε → σ → Prop} (h : L.Trace es t)
    (h0 : ∀ s, L.init s → I [] s)
    (hstep : ∀ es t e u, I es t → L.step t e u → I (es ++ [e]) u) : I es t := by
  obtain ⟨s, hi, hr⟩ := h
  exact hr.invariant (h0 s hi) hstep

theorem Reachable.invariant {I : σ → Prop} (h : L.Reachable t) (h0 : ∀ s, L.init s → I s)
    (hstep : ∀ s e t, I s → L.step s e t → I t) : I t := by
  obtain ⟨es, ht⟩ := h
  exact ht.invariant (I := fun _ s => I s) h0 fun _ s e t => hstep s e t

theorem Trace.reachable (h : L.Trace es t) : L.Reachable t := ⟨es, h⟩

-- ---------------------------------------------------------------------------
-- Runs that end
-- ---------------------------------------------------------------------------

theorem Run.length_add_le {I : σ → Prop} {rank : σ → Nat} (h : L.Run s es t) (h0 : I s)
    (hstep : ∀ s e t, I s → L.step s e t → I t ∧ rank t < rank s) :
    I t ∧ es.length + rank t ≤ rank s := by
  induction h with
  | nil => exact ⟨h0, by simp⟩
  | snoc _ hs ih =>
    obtain ⟨hi, hle⟩ := ih
    obtain ⟨hi', hlt⟩ := hstep _ _ _ hi hs
    refine ⟨hi', ?_⟩
    rw [List.length_append, List.length_singleton]
    omega

theorem exists_run_stuck {I : σ → Prop} {rank : σ → Nat} (h0 : I s)
    (hstep : ∀ s e t, I s → L.step s e t → I t ∧ rank t < rank s) :
    ∃ es t, L.Run s es t ∧ ∀ e u, ¬L.step t e u := by
  by_cases hstuck : ∀ e u, ¬L.step s e u
  · exact ⟨[], s, .nil, hstuck⟩
  · simp only [Classical.not_forall, Classical.not_not] at hstuck
    obtain ⟨e, u, hs⟩ := hstuck
    obtain ⟨hi, hlt⟩ := hstep s e u h0 hs
    obtain ⟨es, t, hrun, ht⟩ := exists_run_stuck hi hstep
    exact ⟨e :: es, t, .cons hs hrun, ht⟩
termination_by rank s

-- ---------------------------------------------------------------------------
-- Restriction
-- ---------------------------------------------------------------------------

variable {G : σ → ε → σ → Prop}

theorem Run.of_restrict (h : (L.restrict G).Run s es t) : L.Run s es t := by
  induction h with
  | nil => exact .nil
  | snoc _ hs ih => exact .snoc ih hs.1

theorem Run.restrict_mono {G' : σ → ε → σ → Prop} (h : (L.restrict G).Run s es t)
    (hG : ∀ s e t, G s e t → G' s e t) : (L.restrict G').Run s es t := by
  induction h with
  | nil => exact .nil
  | snoc _ hs ih => exact .snoc ih ⟨hs.1, hG _ _ _ hs.2⟩

theorem Trace.of_restrict (h : (L.restrict G).Trace es t) : L.Trace es t := by
  obtain ⟨s, hi, hr⟩ := h
  exact ⟨s, hi, hr.of_restrict⟩

end Lts

end Lib
