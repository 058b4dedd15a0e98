import SecureTelemetryGateway.Ros.Delivery

/-!
# Where the rows come from

Nothing gets into the table but the frames of received packets, each at most
once and in order. A frame that has been received and is not in the table is in
one of five places.
-/

namespace SecureTelemetryGateway.Ros

open Models (TelemetryData)
open Containers (ConcurrentQueue)
open Storage (rowOf)
open Lib (Lts)

variable {τ : Type u} {env : Environment}

-- ---------------------------------------------------------------------------
-- What the callbacks have done
-- ---------------------------------------------------------------------------

def NodeEvent.received (env : Environment) : NodeEvent τ → List (τ × TelemetryData)
  | .receive t packet now =>
    (frameOf (Ros.receive env.nl now env.decrypt packet)).toList.map (t, ·)
  | _ => []

def received (env : Environment) (es : List (NodeEvent τ)) : List (τ × TelemetryData) :=
  es.flatMap (·.received env)

def NodeEvent.offered : NodeEvent τ → List ((τ × TelemetryData) × Bool)
  | .push t data ok => [((t, data), ok)]
  | _ => []

def offered (es : List (NodeEvent τ)) : List ((τ × TelemetryData) × Bool) :=
  es.flatMap (·.offered)

def dropped (es : List (NodeEvent τ)) : List TelemetryData :=
  ((offered es).filter (!·.2)).map (·.1.2)

def unstored (es : List (NodeEvent τ)) : List TelemetryData :=
  ((handled es).filter (!·.2)).map Prod.fst

@[simp] theorem received_snoc (es : List (NodeEvent τ)) (ev : NodeEvent τ) :
    received env (es ++ [ev]) = received env es ++ ev.received env := by simp [received]

@[simp] theorem offered_snoc (es : List (NodeEvent τ)) (ev : NodeEvent τ) :
    offered (es ++ [ev]) = offered es ++ ev.offered := by simp [offered]

def acceptedBy (es : List (NodeEvent τ)) : List (τ × TelemetryData) :=
  ((offered es).filter (·.2)).map Prod.fst

theorem map_snd_acceptedBy (es : List (NodeEvent τ)) :
    (acceptedBy es).map Prod.snd = accepted es := by
  rw [acceptedBy, List.map_map]
  induction es using List.reverseRecOn with
  | nil => rfl
  | append_singleton es ev ih =>
    rw [accepted_snoc, offered_snoc, ← ih]
    cases ev with
    | push t data ok => cases ok <;> simp [NodeEvent.accepted, NodeEvent.offered]
    | _ => simp [NodeEvent.accepted, NodeEvent.offered]

theorem mem_received {es : List (NodeEvent τ)} (h : (t, data) ∈ received env es) :
    ∃ packet now, .receive t packet now ∈ es ∧
      Ros.receive env.nl now env.decrypt packet = .ok (.inr data) := by
  obtain ⟨ev, hev, hmem⟩ := List.mem_flatMap.mp h
  cases ev with
  | receive u packet now =>
    simp only [NodeEvent.received, List.mem_map, Option.mem_toList, Prod.mk.injEq] at hmem
    obtain ⟨_, hframe, rfl, rfl⟩ := hmem
    refine ⟨packet, now, hev, ?_⟩
    unfold frameOf at hframe
    split at hframe
    · next heq => rw [heq, Option.some.inj hframe]
    · cases hframe
  | _ => simp [NodeEvent.received] at hmem

variable [DecidableEq τ]

-- ---------------------------------------------------------------------------
-- Order
-- ---------------------------------------------------------------------------

def ofThread (t : τ) (l : List (τ × TelemetryData)) : List TelemetryData :=
  (l.filter (·.1 = t)).map Prod.snd

@[simp] theorem ofThread_append (t : τ) (l l' : List (τ × TelemetryData)) :
    ofThread t (l ++ l') = ofThread t l ++ ofThread t l' := by simp [ofThread]

@[simp] theorem ofThread_self (t : τ) (l : List TelemetryData) : ofThread t (l.map (t, ·)) = l := by
  simp [ofThread, List.filter_map, Function.comp_def]

theorem ofThread_other {t u : τ} (h : t ≠ u) (l : List TelemetryData) :
    ofThread t (l.map (u, ·)) = [] := by
  simp [ofThread, List.filter_map, Function.comp_def, Ne.symm h]

@[simp] theorem mem_ofThread {l : List (τ × TelemetryData)} :
    data ∈ ofThread t l ↔ (t, data) ∈ l := by
  simp [ofThread]

theorem ofThread_sublist {l l' : List (τ × TelemetryData)} (h : l.Sublist l') (t : τ) :
    (ofThread t l).Sublist (ofThread t l') := (h.filter _).map _

theorem ofThread_received {s : NodeState τ} (h : (gateway τ env).Trace es s) (t : τ) :
    ofThread t (received env es) =
      ofThread t ((offered es).map Prod.fst) ++ (s.pushing t).toList := by
  refine h.invariant (I := fun es s => ofThread t (received env es) =
    ofThread t ((offered es).map Prod.fst) ++ (s.pushing t).toList) ?_ ?_
  · rintro _ rfl
    rfl
  intro es s ev s' ih hs
  rw [received_snoc, offered_snoc, List.map_append, ofThread_append, ofThread_append, ih]
  cases hs with
  | receive u packet now hp =>
    by_cases htu : t = u
    · subst htu
      simp only [NodeEvent.received, NodeEvent.offered, hp, ofThread_self, Function.update_self]
      simp [ofThread]
    · simp only [NodeEvent.received, NodeEvent.offered, ofThread_other htu,
        Function.update_of_ne htu]
      simp [ofThread]
  | push u data hp =>
    have hone : ofThread t ([((u, data), (s.telemetryQueue.push data).1)].map Prod.fst) =
        ofThread t ([data].map (u, ·)) := rfl
    by_cases htu : t = u
    · subst htu
      simp only [NodeEvent.received, NodeEvent.offered, hp, hone, ofThread_self,
        Function.update_self]
      simp [ofThread]
    · simp only [NodeEvent.received, NodeEvent.offered, hone, ofThread_other htu,
        Function.update_of_ne htu]
      simp [ofThread]
  | _ => simp [NodeEvent.received, NodeEvent.offered, ofThread]

theorem stored_sublist_accepted {s : NodeState τ} (h : (gateway τ env).Trace es s) :
    (stored es).Sublist (accepted es) := by
  have hhandled : (stored es).Sublist ((handled es).map Prod.fst) := List.filter_sublist.map _
  refine hhandled.trans ?_
  rw [accepted_eq h, List.append_assoc]
  exact List.sublist_append_left _ _

theorem acceptedBy_sublist_received {s : NodeState τ} (h : (gateway τ env).Trace es s) (t : τ) :
    (ofThread t (acceptedBy es)).Sublist (ofThread t (received env es)) := by
  have hoffered : (acceptedBy es).Sublist ((offered es).map Prod.fst) := List.filter_sublist.map _
  rw [ofThread_received h t]
  exact (ofThread_sublist hoffered t).trans (List.sublist_append_left _ _)

theorem table_fromReceived {s : NodeState τ} (h : (gateway τ env).Trace es s) :
    ∃ tagged : List (τ × TelemetryData),
      s.table = env.rows ++ tagged.map (rowOf env.order ·.2) ∧
        (tagged.map Prod.snd).Sublist (accepted es) ∧
        (∀ t, (ofThread t tagged).Sublist (ofThread t (received env es))) ∧
        ∀ t data, (t, data) ∈ tagged → ∃ packet now, .receive t packet now ∈ es ∧
          Ros.receive env.nl now env.decrypt packet = .ok (.inr data) := by
  obtain ⟨tagged, hsub, htagged⟩ : ∃ tagged : List (τ × TelemetryData),
      tagged.Sublist (acceptedBy es) ∧ stored es = tagged.map Prod.snd :=
    List.sublist_map_iff.mp (map_snd_acceptedBy es ▸ stored_sublist_accepted h)
  have hreceived : ∀ t, (ofThread t tagged).Sublist (ofThread t (received env es)) :=
    fun t => (ofThread_sublist hsub t).trans (acceptedBy_sublist_received h t)
  refine ⟨tagged, ?_, ?_, hreceived, fun t data hmem => mem_received ?_⟩
  · rw [table_eq h, htagged, List.map_map]
    rfl
  · rw [← map_snd_acceptedBy]
    exact hsub.map _
  · exact mem_ofThread.mp ((hreceived t).subset (mem_ofThread.mpr hmem))

-- ---------------------------------------------------------------------------
-- Accounting
-- ---------------------------------------------------------------------------

structure InFlight (l : List (τ × TelemetryData)) (s : NodeState τ) : Prop where
  nodup : (l.map Prod.fst).Nodup
  mem_iff : ∀ t data, (t, data) ∈ l ↔ s.pushing t = some data

omit [DecidableEq τ] in
theorem InFlight.notMem {s : NodeState τ} (h : InFlight l s) (hp : s.pushing t = none) :
    t ∉ l.map Prod.fst := by
  intro hmem
  obtain ⟨⟨u, data⟩, hud, hu⟩ := List.mem_map.mp hmem
  obtain rfl : u = t := hu
  rw [(h.mem_iff u data).mp hud] at hp
  cases hp

theorem InFlight.receive {s : NodeState τ} (h : InFlight l s) (hp : s.pushing t = none)
    (data : TelemetryData) : InFlight ((t, data) :: l)
      { s with pushing := Function.update s.pushing t (some data) } where
  nodup := List.nodup_cons.mpr ⟨h.notMem hp, h.nodup⟩
  mem_iff u data' := by
    by_cases hu : u = t
    · subst hu
      have hnot : (u, data') ∉ l := fun hmem => by simp [(h.mem_iff u data').mp hmem] at hp
      simp [hnot, eq_comm]
    · simp [hu, h.mem_iff]

theorem InFlight.push {s : NodeState τ} (h : InFlight l s) (hp : s.pushing t = some data)
    (q : ConcurrentQueue TelemetryData) : InFlight (l.erase (t, data))
      { s with telemetryQueue := q, pushing := Function.update s.pushing t none } where
  nodup := (List.erase_sublist.map _).nodup h.nodup
  mem_iff u data' := by
    have hl : l.Nodup := .of_map _ h.nodup
    rw [hl.mem_erase_iff, h.mem_iff]
    by_cases hu : u = t
    · subst hu
      simp [hp, eq_comm]
    · simp [hu]

theorem exists_inFlight {s : NodeState τ} (h : (gateway τ env).Trace es s) :
    ∃ l, InFlight l s ∧ (received env es).Perm ((offered es).map Prod.fst ++ l) := by
  refine h.invariant (I := fun es s =>
    ∃ l, InFlight l s ∧ (received env es).Perm ((offered es).map Prod.fst ++ l)) ?_ ?_
  · rintro _ rfl
    exact ⟨[], ⟨List.nodup_nil, by simp⟩, .refl _⟩
  rintro es s ev s' ⟨l, hl, hperm⟩ hs
  rw [received_snoc, offered_snoc]
  cases hs with
  | receive t packet now hp =>
    cases hframe : frameOf (Ros.receive env.nl now env.decrypt packet) with
    | none =>
      refine ⟨l, ?_, by simpa [NodeEvent.received, NodeEvent.offered, hframe] using hperm⟩
      rwa [← hp, Function.update_eq_self]
    | some data =>
      refine ⟨(t, data) :: l, hl.receive hp data, ?_⟩
      have hmoved : (l ++ [(t, data)]).Perm ((t, data) :: l) := List.perm_append_singleton _ _
      simpa [NodeEvent.received, NodeEvent.offered, hframe] using
        (hperm.append_right [(t, data)]).trans (by simpa using hmoved.append_left _)
  | push t data hp =>
    refine ⟨l.erase (t, data), hl.push hp _, ?_⟩
    have hmem := (hl.mem_iff t data).mpr hp
    simpa [NodeEvent.received, NodeEvent.offered] using
      hperm.trans ((List.perm_cons_erase hmem).append_left _)
  | _ =>
    refine ⟨l, ⟨hl.nodup, hl.mem_iff⟩, ?_⟩
    simpa [NodeEvent.received, NodeEvent.offered] using hperm

omit [DecidableEq τ] in
theorem offered_perm (es : List (NodeEvent τ)) :
    (((offered es).map Prod.fst).map Prod.snd).Perm (accepted es ++ dropped es) := by
  have hsplit := (List.filter_append_perm (·.2) (offered es)).map (·.1.2)
  rw [List.map_append] at hsplit
  rw [List.map_map, ← map_snd_acceptedBy, acceptedBy, List.map_map]
  exact hsplit.symm

omit [DecidableEq τ] in
theorem handled_perm (es : List (NodeEvent τ)) :
    ((handled es).map Prod.fst).Perm (stored es ++ unstored es) := by
  have hsplit := (List.filter_append_perm (·.2) (handled es)).map Prod.fst
  rw [List.map_append] at hsplit
  exact hsplit.symm

theorem maxCapacity_of_trace {s : NodeState τ} (h : (gateway τ env).Trace es s) :
    s.telemetryQueue.maxCapacity = 1000 := by
  refine h.invariant (I := fun _ s => s.telemetryQueue.maxCapacity = 1000) ?_ ?_
  · rintro _ rfl
    rfl
  · intro _ s ev s' ih hs
    cases hs <;> simpa using ih

/-- In every run, each frame received is in exactly one place: stored, lost to
a failed insertion, in the worker's hands, in the queue, turned away by a queue
of a thousand frames, or about to be pushed. -/
theorem accounted {s : NodeState τ} (h : (gateway τ env).Trace es s) :
    s.telemetryQueue.queue.length ≤ 1000 ∧
      (∃ inFlight, InFlight inFlight s ∧ ((received env es).map Prod.snd).Perm
        (stored es ++ unstored es ++ s.worker.held ++ s.telemetryQueue.queue ++ dropped es ++
          inFlight.map Prod.snd)) ∧
      ∀ a t data ok b, es = a ++ .push t data ok :: b → ∃ m, (gateway τ env).Trace a m ∧
        (ok = false ↔ m.telemetryQueue.queue.length = 1000) := by
  refine ⟨maxCapacity_of_trace h ▸ s.telemetryQueue.bounded, ?_, ?_⟩
  · obtain ⟨inFlight, hin, hperm⟩ := exists_inFlight h
    refine ⟨inFlight, hin, (hperm.map Prod.snd).trans ?_⟩
    rw [List.map_append]
    refine List.Perm.append_right _ ((offered_perm es).trans (List.Perm.append_right _ ?_))
    rw [accepted_eq h, List.append_assoc, List.append_assoc]
    exact (handled_perm es).append_right _
  · rintro a t data ok b rfl
    obtain ⟨m, m', ha, hs, -⟩ := h.at_step
    refine ⟨m, ha, ?_⟩
    have hcap := maxCapacity_of_trace ha
    have hle := m.telemetryQueue.bounded
    cases hs with
    | push =>
      rw [← Bool.not_eq_true, ConcurrentQueue.push_eq_true]
      omega

theorem accounted_deliverOne : ∃ (s : NodeState Unit) (inFlight : List (Unit × TelemetryData)),
    InFlight inFlight s ∧ unstored (deliverOne false) = [emptyFrame] ∧
      ((received emptyObjectEnvironment (deliverOne false)).map Prod.snd).Perm
        (unstored (deliverOne false) ++ inFlight.map Prod.snd) := by
  obtain ⟨s, h, hheld, hqueue⟩ := trace_deliverOne false
  obtain ⟨-, ⟨inFlight, hin, hperm⟩, -⟩ := accounted h
  have hstored : stored (deliverOne false) = [] := rfl
  have hdropped : dropped (deliverOne false) = [] := rfl
  exact ⟨s, inFlight, hin, rfl, by simpa [hheld, hqueue, hstored, hdropped] using hperm⟩

end SecureTelemetryGateway.Ros
