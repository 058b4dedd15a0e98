import SecureTelemetryGateway.Ros.Acceptance
import SecureTelemetryGateway.Ros.Lifecycle

/-!
# From the raw messages to the rows and the topics

What the node makes of the texts it receives, from its construction to its
destruction: rows in the engine's table, and messages on its topics.
-/

namespace SecureTelemetryGateway.Ros

open Models (TelemetryData)
open Containers (ConcurrentQueue)
open Ingestion (Json Nlohmann)
open Security.SecurityEngine (decryptAesGcm)
open Storage (rowOf)
open Lib (Lts)

variable {τ : Type u} {env : Environment} {rt : Runtime}

-- ---------------------------------------------------------------------------
-- What went in and what came out
-- ---------------------------------------------------------------------------

def DeployedEvent.rawFrames (rt : Runtime) : DeployedEvent τ → List (τ × TelemetryData)
  | .rawTelemetry t text now => (rawFrame rt now text).toList.map (t, ·)
  | _ => []

def rawFrames (rt : Runtime) (es : List (DeployedEvent τ)) : List (τ × TelemetryData) :=
  es.flatMap (·.rawFrames rt)

def DeployedEvent.queued : DeployedEvent τ → List TelemetryData
  | .push _ data true => [data]
  | _ => []

def queued (es : List (DeployedEvent τ)) : List TelemetryData := es.flatMap (·.queued)

def DeployedEvent.publication : DeployedEvent τ → List (TelemetryData × Int64)
  | .publish data stamp => [(data, stamp)]
  | _ => []

/-- The calls of `publish_ros_messages`, with the time each finds. -/
def publications (es : List (DeployedEvent τ)) : List (TelemetryData × Int64) :=
  es.flatMap (·.publication)

def DeployedEvent.message : DeployedEvent τ → Option RosMessage
  | .publish data stamp => publishRosMessages stamp data
  | _ => none

def messages (es : List (DeployedEvent τ)) : List RosMessage := es.filterMap (·.message)

def NodeEvent.published : NodeEvent τ → List TelemetryData
  | .publish data => [data]
  | _ => []

def published (es : List (NodeEvent τ)) : List TelemetryData := es.flatMap (·.published)

def WorkerPc.toPublish : WorkerPc → List TelemetryData
  | .publish data => [data]
  | _ => []

-- ---------------------------------------------------------------------------
-- The same on both sides of the refinement
-- ---------------------------------------------------------------------------

theorem abstract_engine (rt : Runtime) (ev : DeployedEvent τ)
    (h : ∃ e, ev.engineEvents = [e]) :
    ev.abstract rt = [] ∨ ev.abstract rt = [.close] ∨
      ∃ data ok, ev.abstract rt = [.insert data ok] := by
  obtain ⟨e, h⟩ := h
  cases ev with
  | callEngine phase e =>
    cases phase with
    | close => cases e <;> simp [DeployedEvent.abstract]
    | _ => exact .inl rfl
  | insertTelemetry data e =>
    cases e with
    | load t ready => cases ready <;> simp [DeployedEvent.abstract]
    | locked t sec o a => cases a <;> simp [DeployedEvent.abstract]
    | _ => exact .inl rfl
  | _ => simp [DeployedEvent.engineEvents] at h

theorem flatMap_abstract {α : Type*} {f : NodeEvent τ → List α} {g : DeployedEvent τ → List α}
    (hclose : f .close = []) (hinsert : ∀ data ok, f (.insert data ok) = [])
    (h : ∀ ev : DeployedEvent τ,
      (ev.abstract rt).flatMap f = g ev ∨ (∃ e, ev.engineEvents = [e]) ∧ g ev = [])
    (es : List (DeployedEvent τ)) : (abstractEvents rt es).flatMap f = es.flatMap g := by
  rw [abstractEvents, List.flatMap_assoc]
  refine List.flatMap_congr fun ev _ => ?_
  rcases h ev with heq | ⟨hengine, hg⟩
  · exact heq
  · rcases abstract_engine rt ev hengine with h | h | ⟨data, ok, h⟩ <;>
      simp [h, hg, hclose, hinsert]

theorem received_abstractEvents (es : List (DeployedEvent τ)) :
    received rt.environment (abstractEvents rt es) = rawFrames rt es := by
  refine flatMap_abstract rfl (fun _ _ => rfl) (fun ev => ?_) es
  cases ev with
  | rawTelemetry t text now =>
    left
    simp only [DeployedEvent.abstract, DeployedEvent.rawFrames, rawFrame]
    cases decodeEnvelope rt.conv rt.nl text with
    | error e => rfl
    | ok packet => exact List.append_nil _
  | callEngine phase e => exact .inr ⟨⟨e, rfl⟩, rfl⟩
  | insertTelemetry data e => exact .inr ⟨⟨e, rfl⟩, rfl⟩
  | _ => exact .inl rfl

theorem accepted_abstractEvents (es : List (DeployedEvent τ)) :
    accepted (abstractEvents rt es) = queued es := by
  refine flatMap_abstract rfl (fun _ _ => rfl) (fun ev => ?_) es
  cases ev with
  | rawTelemetry t text now =>
    left
    simp only [DeployedEvent.abstract, DeployedEvent.queued]
    cases decodeEnvelope rt.conv rt.nl text <;> rfl
  | push t data ok => cases ok <;> exact .inl rfl
  | callEngine phase e => exact .inr ⟨⟨e, rfl⟩, rfl⟩
  | insertTelemetry data e => exact .inr ⟨⟨e, rfl⟩, rfl⟩
  | _ => exact .inl rfl

theorem published_abstractEvents (es : List (DeployedEvent τ)) :
    published (abstractEvents rt es) = (publications es).map Prod.fst := by
  rw [publications, List.map_flatMap]
  refine flatMap_abstract rfl (fun _ _ => rfl) (fun ev => ?_) es
  cases ev with
  | rawTelemetry t text now =>
    left
    simp only [DeployedEvent.abstract, DeployedEvent.publication]
    cases decodeEnvelope rt.conv rt.nl text <;> rfl
  | callEngine phase e => exact .inr ⟨⟨e, rfl⟩, rfl⟩
  | insertTelemetry data e => exact .inr ⟨⟨e, rfl⟩, rfl⟩
  | _ => exact .inl rfl

theorem mem_rawFrames {es : List (DeployedEvent τ)} (h : (t, data) ∈ rawFrames rt es) :
    ∃ text now, .rawTelemetry t text now ∈ es ∧ rawFrame rt now text = some data := by
  obtain ⟨ev, hev, hmem⟩ := List.mem_flatMap.mp h
  cases ev with
  | rawTelemetry u text now =>
    simp only [DeployedEvent.rawFrames, List.mem_map, Option.mem_toList, Prod.mk.injEq] at hmem
    obtain ⟨_, hframe, rfl, rfl⟩ := hmem
    exact ⟨text, now, hev, hframe⟩
  | _ => simp [DeployedEvent.rawFrames] at hmem

theorem rawFrame_eq_some : rawFrame rt now text = some data ↔
    ∃ packet, decodeEnvelope rt.conv rt.nl text = .ok packet ∧
      receive rt.nl now rt.decrypt packet = .ok (.inr data) := by
  unfold rawFrame
  cases decodeEnvelope rt.conv rt.nl text with
  | error e => simp
  | ok packet =>
    simp only [Except.ok.injEq, exists_eq_left']
    unfold frameOf
    split <;> simp_all

-- ---------------------------------------------------------------------------
-- Rows
-- ---------------------------------------------------------------------------

variable [DecidableEq τ]

theorem table_prefix {s s' : DeployedNode τ} (h : (deployed τ rt).Trace es s)
    (h' : (deployed τ rt).Run s es' s') : s.storage.engine.table <+: s'.storage.engine.table := by
  have hbefore : s.storage.engine.table = _ := table_eq (trace_abstractEvents h)
  have hafter : s'.storage.engine.table = _ := table_eq (trace_abstractEvents (h.append h'))
  rw [hbefore, hafter]
  refine (List.prefix_append_right_inj _).mpr (.map _ (.map _ (.filter _ ?_)))
  rw [abstractEvents, abstractEvents, List.flatMap_append, handled, handled, List.flatMap_append]
  exact List.prefix_append _ _

/-- In every run of the node over its engine, the rows added to those of the
file are those of frames some raw message decodes, decrypts and parses to. Of
what a thread has received each is added at most once, in order, and a row once
there stays. -/
theorem rowsFromRawMessages {s : DeployedNode τ} (h : (deployed τ rt).Trace es s) :
    (∃ tagged : List (τ × TelemetryData),
      s.storage.engine.table = rt.rows ++ tagged.map (rowOf rt.order ·.2) ∧
        (tagged.map Prod.snd).Sublist (queued es) ∧
        (∀ t, (ofThread t tagged).Sublist (ofThread t (rawFrames rt es))) ∧
        ∀ t data, (t, data) ∈ tagged → ∃ text now packet, .rawTelemetry t text now ∈ es ∧
          decodeEnvelope rt.conv rt.nl text = .ok packet ∧
          receive rt.nl now rt.decrypt packet = .ok (.inr data)) ∧
      ∀ es' s', (deployed τ rt).Run s es' s' →
        s.storage.engine.table <+: s'.storage.engine.table := by
  refine ⟨?_, fun es' s' h' => table_prefix h h'⟩
  obtain ⟨tagged, htable, hqueued, horder, -⟩ := table_fromReceived (trace_abstractEvents h)
  rw [accepted_abstractEvents] at hqueued
  rw [received_abstractEvents] at horder
  refine ⟨tagged, htable, hqueued, horder, fun t data hmem => ?_⟩
  have hraw := (horder t).subset (mem_ofThread.mpr hmem)
  obtain ⟨text, now, hev, hframe⟩ := mem_rawFrames (mem_ofThread.mp hraw)
  obtain ⟨packet, hdecode, hreceive⟩ := rawFrame_eq_some.mp hframe
  exact ⟨text, now, packet, hev, hdecode, hreceive⟩

theorem rowsFromRawMessages_oneMessage : ∃ (s : DeployedNode Unit)
    (tagged : List (Unit × TelemetryData)),
    (deployed Unit emptyObjectRuntime).Trace oneMessage s ∧
      rowOf .byKey {} :: tagged.map (rowOf .byKey ·.2) =
        [rowOf .byKey {}, rowOf .byKey emptyFrame] ∧
      (ofThread () tagged).Sublist [emptyFrame] := by
  obtain ⟨s, h, -, -, htable, -⟩ := trace_oneMessage
  obtain ⟨tagged, hrows, -, horder, -⟩ := (rowsFromRawMessages h).1
  exact ⟨s, tagged, h, hrows.symm.trans htable, horder ()⟩

-- ---------------------------------------------------------------------------
-- Messages
-- ---------------------------------------------------------------------------

theorem handled_eq_published {s : NodeState τ} (h : (gateway τ env).Trace es s) :
    (handled es).map Prod.fst = published es ++ s.worker.toPublish := by
  refine h.invariant
    (I := fun es s => (handled es).map Prod.fst = published es ++ s.worker.toPublish) ?_ ?_
  · rintro _ rfl
    rfl
  intro es s ev s' ih hs
  rw [handled_snoc, List.map_append, ih, published, published, List.flatMap_append]
  cases hs with
  | loadRunning hw =>
    cases s.running <;> simp [hw, NodeEvent.handled, NodeEvent.published, WorkerPc.toPublish]
  | callOk ok hw =>
    cases ok <;> simp [hw, NodeEvent.handled, NodeEvent.published, WorkerPc.toPublish]
  | pop hw =>
    cases s.telemetryQueue.pop.1 <;>
      simp [hw, NodeEvent.handled, NodeEvent.published, WorkerPc.toPublish, WorkerPc.afterPop]
  | insert data ok hw => simp [hw, NodeEvent.handled, NodeEvent.published, WorkerPc.toPublish]
  | publish data hw => simp [hw, NodeEvent.handled, NodeEvent.published, WorkerPc.toPublish]
  | wake hw => simp [hw, NodeEvent.handled, NodeEvent.published, WorkerPc.toPublish]
  | _ => simp [NodeEvent.handled, NodeEvent.published]

omit [DecidableEq τ] in
theorem messages_eq (es : List (DeployedEvent τ)) :
    messages es = (publications es).filterMap fun p => publishRosMessages p.2 p.1 := by
  rw [publications, List.filterMap_flatMap, messages, List.filterMap_eq_flatMap_toList]
  refine List.flatMap_congr fun ev _ => ?_
  cases ev with
  | publish data stamp =>
    cases hm : publishRosMessages stamp data <;>
      simp [DeployedEvent.message, DeployedEvent.publication, hm]
  | _ => rfl

/-- In every run, the frames accepted by the queue are, in order, those
published, at most one in the worker's hands, and those still queued. The
messages are those of the published frames, and the rows added are those of
some of the frames popped: a failed insertion costs the row, not the message. Once the
node is destroyed, every frame popped has been published. -/
theorem publishedInOrder {s : DeployedNode τ} (h : (deployed τ rt).Trace es s) :
    ∃ (stamped : List (TelemetryData × Int64)) (inHand frames : List TelemetryData),
      queued es = stamped.map Prod.fst ++ inHand ++ s.telemetryQueue.queue ∧
      messages es = stamped.filterMap (fun p => publishRosMessages p.2 p.1) ∧
      s.storage.engine.table = rt.rows ++ frames.map (rowOf rt.order) ∧
      frames.Sublist (stamped.map Prod.fst ++ inHand) ∧
      inHand.length ≤ 1 ∧ (s.phase = .destroyed → inHand = []) := by
  have htrace := trace_abstractEvents h
  have hqueued := accepted_eq htrace
  rw [handled_eq_published htrace, published_abstractEvents, accepted_abstractEvents,
    show s.abstract.telemetryQueue = s.telemetryQueue from rfl] at hqueued
  refine ⟨publications es, s.abstract.worker.toPublish ++ s.abstract.worker.held,
    stored (abstractEvents rt es), by simpa using hqueued, messages_eq es, table_eq htrace, ?_, ?_,
    fun hdestroyed => ?_⟩
  · have hstored : (stored (abstractEvents rt es)).Sublist
        ((handled (abstractEvents rt es)).map Prod.fst) := List.filter_sublist.map _
    rw [handled_eq_published htrace, published_abstractEvents] at hstored
    rw [← List.append_assoc]
    exact hstored.trans (List.sublist_append_left _ _)
  · cases s.abstract.worker <;> simp [WorkerPc.toPublish, WorkerPc.held]
  · have hexited := (deployment_of_trace h).joined (by simp [hdestroyed, Phase.afterJoin])
    simp [DeployedNode.abstract, hexited, WorkerPc.toPublish, WorkerPc.held]

theorem publishedInOrder_oneMessage : ∃ (s : DeployedNode Unit)
    (stamped : List (TelemetryData × Int64)) (inHand frames : List TelemetryData),
    (deployed Unit emptyObjectRuntime).Trace oneMessage s ∧
      stamped.map Prod.fst = [emptyFrame] ∧ inHand = [] ∧
      rowOf .byKey {} :: frames.map (rowOf .byKey) =
        [rowOf .byKey {}, rowOf .byKey emptyFrame] := by
  obtain ⟨s, h, hphase, hqueue, htable, -⟩ := trace_oneMessage
  obtain ⟨stamped, inHand, frames, hall, -, hrows, -, -, hdestroyed⟩ := publishedInOrder h
  obtain rfl := hdestroyed hphase
  have hqueued : queued oneMessage = [emptyFrame] := rfl
  exact ⟨s, stamped, [], frames, h, by simpa [hqueued, hqueue, eq_comm] using hall, rfl,
    hrows.symm.trans htable⟩

-- ---------------------------------------------------------------------------
-- Under the decryptor of the source
-- ---------------------------------------------------------------------------

/-- The callback passes key and IV in each other's place, and the decryptor
refuses an IV of 32 bytes, whatever OpenSSL would answer. -/
theorem rawFrame_eq_none (hdecrypt : ∀ c tag iv p, ∃ evp,
      rt.decrypt c tag preSharedKey iv p = decryptAesGcm evp c tag preSharedKey iv p)
    (now : UInt64) (text : Bytes) : rawFrame rt now text = none := by
  unfold rawFrame
  cases decodeEnvelope rt.conv rt.nl text with
  | error e => rfl
  | ok packet =>
    obtain ⟨evp, hevp⟩ := hdecrypt packet.encryptedPayload packet.tag packet.iv []
    have hrefused : (rt.decrypt packet.encryptedPayload packet.tag preSharedKey packet.iv
        []).1 = false := by
      rw [hevp, decryptAesGcm_of_iv_length (by decide)]
    simp only [receive_refused hrefused]
    rfl

/-- With the decryptor of the source, no run of the node ever queues or
publishes anything or changes the table, whatever it receives. -/
theorem nothingComesOfAnything (hdecrypt : ∀ c tag iv p, ∃ evp,
      rt.decrypt c tag preSharedKey iv p = decryptAesGcm evp c tag preSharedKey iv p)
    {s : DeployedNode τ} (h : (deployed τ rt).Trace es s) :
    queued es = [] ∧ messages es = [] ∧ s.storage.engine.table = rt.rows := by
  have htrace := trace_abstractEvents h
  have hraw : rawFrames rt es = [] := by
    refine List.flatMap_eq_nil_iff.mpr fun ev _ => ?_
    cases ev with
    | rawTelemetry t text now => simp [DeployedEvent.rawFrames, rawFrame_eq_none hdecrypt]
    | _ => rfl
  have hqueued : queued es = [] := by
    refine List.eq_nil_iff_forall_not_mem.mpr fun data hmem => ?_
    rw [← @accepted_abstractEvents τ rt es, ← map_snd_acceptedBy] at hmem
    obtain ⟨⟨t, _⟩, hmem, -⟩ := List.mem_map.mp hmem
    have hreceived := (acceptedBy_sublist_received htrace t).subset (mem_ofThread.mpr hmem)
    rw [received_abstractEvents, hraw] at hreceived
    cases hreceived
  have hall := accepted_eq htrace
  rw [handled_eq_published htrace, published_abstractEvents, accepted_abstractEvents,
    hqueued] at hall
  have hstored := stored_sublist_accepted htrace
  rw [accepted_abstractEvents, hqueued] at hstored
  refine ⟨hqueued, ?_, ?_⟩
  · have hnone : publications es = [] := by simp_all
    rw [messages_eq, hnone]
    rfl
  · have htable : s.storage.engine.table = _ := table_eq htrace
    rw [htable, List.sublist_nil.mp hstored]
    exact List.append_nil _

theorem nothingComesOfAnything_envelope :
    let rt : Runtime := { emptyObjectRuntime with decrypt := decryptAesGcm {} }
    ∃ (es : List (DeployedEvent Unit)) (s : DeployedNode Unit),
      .rawTelemetry () [] 0 ∈ es ∧ (deployed Unit rt).Trace es s ∧ queued es = [] ∧
        messages es = [] ∧ s.storage.engine.table = [rowOf .byKey {}] := by
  intro rt
  have hrun : (deployed Unit rt).Trace _ _ := ⟨_, rfl,
    .cons (.callEngine _ .init (.call .node .init) _ rfl rfl (by simp)
      (.call _ _ _ rfl rfl)) <|
    .cons (.callEngine _ .init (.once .node {}) _ rfl rfl (by simp)
      (.once _ _ _ _ rfl rfl)) <|
    .cons (.callEngine _ .init (.load .node true) _ rfl rfl (by simp)
      (.load _ _ _ rfl rfl)) <|
    .cons (.startWorker _ rfl rfl) <| .single (.rawTelemetry _ () [] 0 rfl rfl rfl)⟩
  exact ⟨_, _, by simp, hrun, nothingComesOfAnything (fun _ _ _ _ => ⟨{}, rfl⟩) hrun⟩

end SecureTelemetryGateway.Ros
