import SecureTelemetryGateway.Lib.Lts

/-!
# Forward simulation

A label of one system stands for some steps of another, perhaps none. Where
each step is matched by the steps its label stands for, so is each run.
-/

namespace Lib

structure Simulation (L : Lts σ ε) (L' : Lts σ' ε') where
  label : ε → List ε'
  Rel : σ → σ' → Prop
  init : ∀ s, L.init s → ∃ s', L'.init s' ∧ Rel s s'
  step : ∀ s e t s', Rel s s' → L.step s e t → ∃ t', L'.Run s' (label e) t' ∧ Rel t t'

namespace Simulation

variable {L : Lts σ ε} {L' : Lts σ' ε'}

theorem run (S : Simulation L L') (h : L.Run s es t) (hrel : S.Rel s s') :
    ∃ t', L'.Run s' (es.flatMap S.label) t' ∧ S.Rel t t' := by
  induction h with
  | nil => exact ⟨s', .nil, hrel⟩
  | snoc _ hs ih =>
    obtain ⟨m, hm, hrel'⟩ := ih
    obtain ⟨t', ht, hrel''⟩ := S.step _ _ _ _ hrel' hs
    exact ⟨t', by simpa using hm.append ht, hrel''⟩

theorem trace (S : Simulation L L') (h : L.Trace es t) :
    ∃ t', L'.Trace (es.flatMap S.label) t' ∧ S.Rel t t' := by
  obtain ⟨s, hinit, hrun⟩ := h
  obtain ⟨s', hinit', hrel⟩ := S.init s hinit
  obtain ⟨t', hrun', hrel'⟩ := S.run hrun hrel
  exact ⟨t', ⟨s', hinit', hrun'⟩, hrel'⟩

end Simulation

end Lib
