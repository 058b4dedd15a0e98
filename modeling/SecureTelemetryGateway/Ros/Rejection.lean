import SecureTelemetryGateway.Lib.Simulation
import SecureTelemetryGateway.Ros.Delivery

/-!
# Packets that are turned away

A packet that does not decrypt, or not to a frame, has no influence on the
node: a run is a run without it, and runs that differ in such packets only end
in the same state.
-/

namespace SecureTelemetryGateway.Ros

open Lib (Lts Simulation)

variable {τ : Type u}

def NodeEvent.rejected (env : Environment) : NodeEvent τ → Bool
  | .receive _ packet now => (frameOf (Ros.receive env.nl now env.decrypt packet)).isNone
  | _ => false

def withoutRejected (env : Environment) (es : List (NodeEvent τ)) : List (NodeEvent τ) :=
  es.filter (!·.rejected env)

variable [DecidableEq τ] {env : Environment}

theorem NodeStep.eq_of_rejected {s s' : NodeState τ} (h : NodeStep env s ev s')
    (hr : ev.rejected env = true) : s = s' := by
  cases h with
  | receive t packet now hp =>
    have hnone : frameOf (Ros.receive env.nl now env.decrypt packet) = none :=
      Option.isNone_iff_eq_none.mp hr
    rw [hnone, ← hp, Function.update_eq_self]
  | _ => cases hr

theorem NodeStep.unique {s s' s'' : NodeState τ} (h : NodeStep env s ev s')
    (h' : NodeStep env s ev s'') : s' = s'' := by
  cases h <;> cases h' <;> rfl

def erasure (τ : Type u) [DecidableEq τ] (env : Environment) :
    Simulation (gateway τ env) (gateway τ env) where
  label ev := if ev.rejected env then [] else [ev]
  Rel := Eq
  init s h := ⟨s, h, rfl⟩
  step := by
    rintro s ev t _ rfl hs
    refine ⟨t, ?_, rfl⟩
    cases hr : ev.rejected env with
    | true => exact hs.eq_of_rejected hr ▸ .nil
    | false => exact .single hs

theorem flatMap_erasure (es : List (NodeEvent τ)) :
    es.flatMap (erasure τ env).label = withoutRejected env es := by
  induction es with
  | nil => rfl
  | cons ev es ih =>
    rw [List.flatMap_cons, ih]
    cases hr : ev.rejected env <;> simp [erasure, withoutRejected, hr]

theorem trace_withoutRejected {s : NodeState τ} (h : (gateway τ env).Trace es s) :
    (gateway τ env).Trace (withoutRejected env es) s := by
  obtain ⟨_, h', rfl⟩ := (erasure τ env).trace h
  rwa [flatMap_erasure] at h'

/-- Leaving out of a run the packets that are turned away leaves a run to the
same state; and whatever such packets two runs have in them, and wherever, they
end in the same state if they agree on the rest. -/
theorem rejectedWithoutInfluence :
    (∀ es (s : NodeState τ), (gateway τ env).Trace es s →
      (gateway τ env).Trace (withoutRejected env es) s) ∧
    ∀ es es' (s s' : NodeState τ), (gateway τ env).Trace es s → (gateway τ env).Trace es' s' →
      withoutRejected env es = withoutRejected env es' → s = s' := by
  refine ⟨fun es s h => trace_withoutRejected h, fun es es' s s' h h' heq => ?_⟩
  obtain ⟨_, rfl, hrun⟩ := trace_withoutRejected h
  obtain ⟨_, rfl, hrun'⟩ := trace_withoutRejected h'
  exact hrun.unique (fun h₁ h₂ => NodeStep.unique h₁ h₂) (heq ▸ hrun')

def taggedOnlyEnvironment : Environment where
  nl := emptyObjectOnly
  decrypt _ tag _ _ plaintext := if tag = [] then (false, plaintext) else (true, [0x7b, 0x7d])
  order := .byKey

theorem rejectedWithoutInfluence_forged : ∃ s s' : NodeState Unit,
    s.telemetryQueue.queue = [emptyFrame] ∧ s = s' := by
  have hforged : (gateway Unit taggedOnlyEnvironment).Trace _ _ := ⟨_, rfl,
    .cons (.receive _ () ⟨"intruder", [1, 2, 3], [], []⟩ 0 rfl rfl) <|
      .cons (.receive _ () ⟨"robot", [], [], [0]⟩ 0 rfl rfl) <|
        .single (.push _ () emptyFrame rfl rfl)⟩
  have hhonest : (gateway Unit taggedOnlyEnvironment).Trace _ _ := ⟨_, rfl,
    .cons (.receive _ () ⟨"robot", [], [], [0]⟩ 0 rfl rfl) <|
      .single (.push _ () emptyFrame rfl rfl)⟩
  exact ⟨_, _, rfl, rejectedWithoutInfluence.2 _ _ _ _ hforged hhonest rfl⟩

end SecureTelemetryGateway.Ros
