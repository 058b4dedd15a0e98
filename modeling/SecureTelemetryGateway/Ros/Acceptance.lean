import SecureTelemetryGateway.Ros.GatewayNode
import SecureTelemetryGateway.Security.RoundTrip

/-!
# Which packets become frames

The gateway against the encryptor whose packets it is there to open, and
against the ingestion engine, which enqueues the same texts by itself.
-/

namespace SecureTelemetryGateway.Ros

open Models (TelemetryData)
open Ingestion (IngestionStatus JsonError Json Nlohmann parseAndValidate processPayload)
open Security.SecurityEngine (encryptAesGcm decryptAesGcm)

-- ---------------------------------------------------------------------------
-- Against the encryptor
-- ---------------------------------------------------------------------------

def EncryptionOf (nl : Nlohmann) (now : UInt64) (packet : Packet) (plaintext : Bytes)
    (data : TelemetryData) : Prop :=
  packet.iv.length = 12 ∧ plaintext.length < 2 ^ 31 ∧
    (parseAndValidate nl now plaintext).run {} = (.ok .success, data) ∧
    ∃ c₀ t₀, encryptAesGcm {} plaintext preSharedKey packet.iv c₀ t₀ =
      (true, packet.encryptedPayload, packet.tag)

def AcceptsExactly (nl : Nlohmann) (now : UInt64) (node : GatewayNode) (packet : Packet) : Prop :=
  let (answer, node') := processIncomingRawPayload nl now (decryptAesGcm {}) packet node
  (∀ plaintext data, EncryptionOf nl now packet plaintext data →
    answer = .ok true ∧ node'.telemetryQueue.queue = node.telemetryQueue.queue ++ [data]) ∧
  ((¬∃ plaintext data, EncryptionOf nl now packet plaintext data) →
    node'.telemetryQueue = node.telemetryQueue)

theorem decryptAesGcm_of_iv_length (h : iv.length ≠ 12) (evp : Security.EvpOutcomes)
    (c key tag p : Bytes) : decryptAesGcm evp c key iv tag p = (false, p) := by
  rw [decryptAesGcm, if_pos (.inr (.inl h))]

/-- The call in the source puts the key where the definition has the IV, and
the key has 32 bytes. -/
theorem processIncomingRawPayload_refuses (nl : Nlohmann) (now : UInt64) (packet : Packet)
    (node : GatewayNode) :
    processIncomingRawPayload nl now (decryptAesGcm {}) packet node =
      (.ok false, { node with log := node.log ++ [decryptionFailed packet.senderId] }) := by
  have hrefused : (decryptAesGcm {} packet.encryptedPayload packet.tag preSharedKey packet.iv
      []).1 = false := by
    rw [decryptAesGcm_of_iv_length (by decide)]
  rw [processIncomingRawPayload, receive_refused hrefused]

theorem acceptsExactly_iff (nl : Nlohmann) (now : UInt64) (node : GatewayNode) (packet : Packet) :
    AcceptsExactly nl now node packet ↔
      ¬∃ plaintext data, EncryptionOf nl now packet plaintext data := by
  simp only [AcceptsExactly, processIncomingRawPayload_refuses]
  constructor
  · rintro ⟨haccept, -⟩ ⟨plaintext, data, h⟩
    exact absurd (haccept plaintext data h).1 (by simp)
  · intro h
    exact ⟨fun plaintext data hp => absurd ⟨plaintext, data, hp⟩ h, fun _ => trivial⟩

def emptyObjectOnly : Nlohmann where
  parse text := if text = [0x7b, 0x7d] then .ok (.object []) else .error .parseError
  castOutOfRange _ := 0

def emptyFrame : TelemetryData where
  robotId := "unknown_robot"
  sensorType := "generic"

theorem parse_emptyObject :
    (parseAndValidate emptyObjectOnly 0 [0x7b, 0x7d]).run {} = (.ok .success, emptyFrame) := rfl

def Packet.ofEncrypted (senderId : String) (iv : Bytes) (written : Bool × Bytes × Bytes) : Packet :=
  { senderId, encryptedPayload := written.2.1, iv, tag := written.2.2 }

theorem encryptionOf_ofEncrypted (hi : iv.length = 12) (hp : plaintext.length < 2 ^ 31)
    (hparse : (parseAndValidate nl now plaintext).run {} = (.ok .success, data))
    (senderId : String) :
    EncryptionOf nl now
      (.ofEncrypted senderId iv (encryptAesGcm {} plaintext preSharedKey iv [] [])) plaintext
      data := by
  refine ⟨hi, hp, hparse, [], [], ?_⟩
  have hok : (encryptAesGcm {} plaintext preSharedKey iv [] []).1 = true := by
    rw [Security.SecurityEngine.encryptAesGcm_eq (by decide) hi]
  simp only [Packet.ofEncrypted]
  generalize encryptAesGcm {} plaintext preSharedKey iv [] [] = written at hok
  exact Prod.ext hok rfl

theorem acceptsExactly_fails :
    ¬AcceptsExactly emptyObjectOnly 0 {}
      (.ofEncrypted "robot" (List.replicate 12 0)
        (encryptAesGcm {} [0x7b, 0x7d] preSharedKey (List.replicate 12 0) [] [])) := by
  intro h
  have henc := encryptionOf_ofEncrypted (List.length_replicate (a := 0)) (by decide)
    parse_emptyObject "robot"
  rw [AcceptsExactly, processIncomingRawPayload_refuses] at h
  exact absurd (h.1 _ _ henc).1 (by simp)

-- ---------------------------------------------------------------------------
-- Against the ingestion engine
-- ---------------------------------------------------------------------------

structure PathsAgree (nl : Nlohmann) (now : UInt64) (decrypt : Decryptor) (packet : Packet)
    (plaintext : Bytes) (node : GatewayNode) : Prop where
  answers : (processIncomingRawPayload nl now decrypt packet node).1 = .ok true ↔
    (processPayload nl now plaintext node.telemetryQueue).1 = .ok .success
  queues : (processIncomingRawPayload nl now decrypt packet node).2.telemetryQueue =
    (processPayload nl now plaintext node.telemetryQueue).2
  gatewayAppends : (processIncomingRawPayload nl now decrypt packet node).1 = .ok true ↔
    (processIncomingRawPayload nl now decrypt packet node).2.telemetryQueue.queue =
      node.telemetryQueue.queue ++ [((parseAndValidate nl now plaintext).run {}).2]
  gatewayKeeps : (processIncomingRawPayload nl now decrypt packet node).1 ≠ .ok true →
    (processIncomingRawPayload nl now decrypt packet node).2.telemetryQueue = node.telemetryQueue
  engineAppends : (processPayload nl now plaintext node.telemetryQueue).1 = .ok .success ↔
    (processPayload nl now plaintext node.telemetryQueue).2.queue =
      node.telemetryQueue.queue ++ [((parseAndValidate nl now plaintext).run {}).2]
  engineKeeps : (processPayload nl now plaintext node.telemetryQueue).1 ≠ .ok .success →
    (processPayload nl now plaintext node.telemetryQueue).2 = node.telemetryQueue

theorem PathsAgree.of_refused
    (hg : (processIncomingRawPayload nl now decrypt packet node).1 ≠ .ok true)
    (hgq : (processIncomingRawPayload nl now decrypt packet node).2.telemetryQueue =
      node.telemetryQueue)
    (he : (processPayload nl now plaintext node.telemetryQueue).1 ≠ .ok .success)
    (heq : (processPayload nl now plaintext node.telemetryQueue).2 = node.telemetryQueue) :
    PathsAgree nl now decrypt packet plaintext node where
  answers := iff_of_false hg he
  queues := hgq.trans heq.symm
  gatewayAppends := iff_of_false hg (by simp [hgq])
  gatewayKeeps _ := hgq
  engineAppends := iff_of_false he (by simp [heq])
  engineKeeps _ := heq

theorem processIncomingRawPayload_success
    (h : decrypt packet.encryptedPayload packet.tag preSharedKey packet.iv [] = (true, plaintext))
    (hparse : (parseAndValidate nl now plaintext).run {} = (.ok .success, data))
    (node : GatewayNode) :
    processIncomingRawPayload nl now decrypt packet node =
      (.ok true, { node with telemetryQueue := (node.telemetryQueue.push data).2 }) := by
  simp only [processIncomingRawPayload, receive_decrypted h, hparse]

/-- The paths part at a full queue, and only there. -/
theorem pathsAgree_iff
    (h : decrypt packet.encryptedPayload packet.tag preSharedKey packet.iv [] = (true, plaintext))
    (node : GatewayNode) :
    PathsAgree nl now decrypt packet plaintext node ↔
      (((parseAndValidate nl now plaintext).run {}).1 = .ok .success →
        node.telemetryQueue.queue.length < node.telemetryQueue.maxCapacity) := by
  rcases hparse : (parseAndValidate nl now plaintext).run {} with ⟨outcome, data⟩
  by_cases hs : outcome = .ok .success
  · subst hs
    have hgateway := processIncomingRawPayload_success h hparse node
    simp only [forall_const]
    constructor
    · intro hagree
      by_contra hfull
      have hpush := Containers.ConcurrentQueue.push_full (Nat.not_lt.mp hfull) data
      have hanswers := hagree.answers
      simp [hgateway, processPayload, hparse, hpush] at hanswers
    · intro hroom
      obtain ⟨hok, hqueue⟩ := Containers.ConcurrentQueue.push_room hroom data
      have hengine : processPayload nl now plaintext node.telemetryQueue =
          (.ok .success, (node.telemetryQueue.push data).2) := by
        rcases hpush : node.telemetryQueue.push data with ⟨ok, q⟩
        obtain rfl : ok = true := by simpa [hpush] using hok
        simp [processPayload, hparse, hpush]
      constructor <;> simp [hgateway, hengine, hparse, hqueue]
  · refine iff_of_true ?_ fun hsuccess => absurd hsuccess hs
    cases outcome with
    | error e =>
      apply PathsAgree.of_refused <;>
        simp [processIncomingRawPayload, receive_decrypted h, processPayload, hparse]
    | ok status =>
      cases status with
      | success => exact absurd rfl hs
      | _ =>
        apply PathsAgree.of_refused <;>
          simp [processIncomingRawPayload, receive_decrypted h, processPayload, hparse]

theorem pathsAgree_iff_emptyObject :
    PathsAgree emptyObjectOnly 0 (fun _ _ _ _ _ => (true, [0x7b, 0x7d])) ⟨"robot", [], [], []⟩
        [0x7b, 0x7d] {} ↔
      (((parseAndValidate emptyObjectOnly 0 [0x7b, 0x7d]).run {}).1 = .ok .success →
        0 < 1000) :=
  pathsAgree_iff rfl {}

/-- A queue without room: the sender is told that the frame was accepted. -/
theorem pathsAgree_fails :
    ¬PathsAgree emptyObjectOnly 0 (fun _ _ _ _ _ => (true, [0x7b, 0x7d])) ⟨"robot", [], [], []⟩
        [0x7b, 0x7d] { telemetryQueue := .new 0 } := by
  intro h
  exact absurd (h.answers.mp rfl) (by decide)

end SecureTelemetryGateway.Ros
