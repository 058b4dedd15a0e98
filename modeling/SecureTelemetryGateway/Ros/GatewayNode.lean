import SecureTelemetryGateway.Ingestion.TelemetryIngestionEngine
import SecureTelemetryGateway.Security.SecurityEngine

/-!
# The gateway node

`process_incoming_raw_payload` of `gateway_node.cpp`. The decryptor is an
argument, called with the vectors in the order of the call in the source. What
comes before the push touches nothing shared, so it is a function of its own
(`receive`).
-/

namespace SecureTelemetryGateway.Ros

open Models (TelemetryData)
open Containers (ConcurrentQueue)
open Ingestion (IngestionStatus JsonError Nlohmann parseAndValidate)

inductive LogLevel
  | info
  | warn
  | error
  deriving DecidableEq

structure LogLine where
  level : LogLevel
  text : String
  deriving DecidableEq

/-- `decrypt_aes_gcm`: four input vectors and the output vector. -/
abbrev Decryptor := Bytes → Bytes → Bytes → Bytes → Bytes → Bool × Bytes

structure GatewayNode where
  telemetryQueue : ConcurrentQueue TelemetryData := .new 1000
  log : List LogLine := []

structure Packet where
  senderId : String
  encryptedPayload : Bytes
  iv : Bytes
  tag : Bytes

def preSharedKey : Bytes :=
  [0x60, 0x3d, 0xeb, 0x10, 0x15, 0xca, 0x71, 0xbe, 0x2b, 0x73, 0xae, 0xf0, 0x85, 0x7d, 0x77, 0x81,
    0x1f, 0x35, 0x2c, 0x07, 0x3b, 0x61, 0x08, 0xd7, 0x2d, 0x98, 0x10, 0xa3, 0x09, 0x14, 0xdf, 0xf4]

/-- `static_cast<int>(status)`. -/
def statusCode : IngestionStatus → Nat
  | .success => 0
  | .invalidJsonSyntax => 1
  | .missingRequiredFields => 2
  | .timestampOutOfBounds => 3
  | .payloadExceedsSizeLimit => 4
  | .queueFull => 5

def rateLimitExceeded (senderId : String) : LogLine :=
  ⟨.warn, "GatewayNode: Rate limit exceeded for '" ++ senderId ++ "'. Dropping packet."⟩

def decryptionFailed (senderId : String) : LogLine :=
  ⟨.error, "GatewayNode: Decryption failed for sender '" ++ senderId ++ "'"⟩

def parseFailed (status : IngestionStatus) : LogLine :=
  ⟨.error, "GatewayNode: Failed to parse decrypted payload. Code: " ++ toString (statusCode status)⟩

def receive (nl : Nlohmann) (now : UInt64) (decryptAesGcm : Decryptor) (packet : Packet) :
    Except JsonError (LogLine ⊕ TelemetryData) :=
  if !Security.SecurityEngine.checkRateLimit packet.senderId 10 20 then
    .ok (.inl (rateLimitExceeded packet.senderId))
  else
    match decryptAesGcm packet.encryptedPayload packet.tag preSharedKey packet.iv [] with
    | (false, _) => .ok (.inl (decryptionFailed packet.senderId))
    | (true, plaintextBytes) =>
      match (parseAndValidate nl now plaintextBytes).run {} with
      | (.error e, _) => .error e
      | (.ok .success, telemetryData) => .ok (.inr telemetryData)
      | (.ok status, _) => .ok (.inl (parseFailed status))

/-- The answer, or an escaping exception, and the node afterwards. Whether the
push succeeds is not looked at. -/
def processIncomingRawPayload (nl : Nlohmann) (now : UInt64) (decryptAesGcm : Decryptor)
    (packet : Packet) (node : GatewayNode) : Except JsonError Bool × GatewayNode :=
  match receive nl now decryptAesGcm packet with
  | .error e => (.error e, node)
  | .ok (.inl line) => (.ok false, { node with log := node.log ++ [line] })
  | .ok (.inr telemetryData) =>
    (.ok true, { node with telemetryQueue := (node.telemetryQueue.push telemetryData).2 })

variable {nl : Nlohmann} {now : UInt64} {decrypt : Decryptor} {packet : Packet}

theorem receive_refused
    (h : (decrypt packet.encryptedPayload packet.tag preSharedKey packet.iv []).1 = false) :
    receive nl now decrypt packet = .ok (.inl (decryptionFailed packet.senderId)) := by
  unfold receive
  generalize decrypt packet.encryptedPayload packet.tag preSharedKey packet.iv [] = r at h
  obtain ⟨ok, bytes⟩ := r
  obtain rfl : ok = false := h
  rfl

theorem receive_decrypted
    (h : decrypt packet.encryptedPayload packet.tag preSharedKey packet.iv [] = (true, plaintext)) :
    receive nl now decrypt packet =
      match (parseAndValidate nl now plaintext).run {} with
      | (.error e, _) => .error e
      | (.ok .success, telemetryData) => .ok (.inr telemetryData)
      | (.ok status, _) => .ok (.inl (parseFailed status)) := by
  simp only [receive, Security.SecurityEngine.checkRateLimit, h]
  rfl

theorem queue_processIncomingRawPayload (nl : Nlohmann) (now : UInt64) (decrypt : Decryptor)
    (packet : Packet) (node : GatewayNode) :
    (processIncomingRawPayload nl now decrypt packet node).2.telemetryQueue =
      match receive nl now decrypt packet with
      | .ok (.inr data) => (node.telemetryQueue.push data).2
      | _ => node.telemetryQueue := by
  unfold processIncomingRawPayload
  cases receive nl now decrypt packet with
  | error e => rfl
  | ok r => cases r <;> rfl

end SecureTelemetryGateway.Ros
