import SecureTelemetryGateway.Ingestion.Outcome
import SecureTelemetryGateway.Ros.GatewayNode

/-!
# Which texts get a status

Only a `parse_error` is turned into a status. A number too large for a double
and a member of a wrong type raise exceptions of other classes, which pass
through every function on the way.
-/

namespace SecureTelemetryGateway.Ros

open Models (TelemetryData)
open Ingestion

/-- No exception escapes: not from parsing the text, whatever the output holds,
not from the ingestion engine, whatever the queue, and not from the gateway,
whether the packet is refused or opens to this text. -/
structure GetsStatus (nl : Nlohmann) (now : UInt64) (rawJson : Bytes) : Prop where
  parse : ∀ before, ∃ status, ((parseAndValidate nl now rawJson).run before).1 = .ok status
  payload : ∀ targetQueue, ∃ status, (processPayload nl now rawJson targetQueue).1 = .ok status
  incoming : ∀ (decrypt : Decryptor) (packet : Packet) (node : GatewayNode),
    ((decrypt packet.encryptedPayload packet.tag preSharedKey packet.iv []).1 = true →
      (decrypt packet.encryptedPayload packet.tag preSharedKey packet.iv []).2 = rawJson) →
    ∃ answer, (processIncomingRawPayload nl now decrypt packet node).1 = .ok answer

theorem processPayload_status (h : ((parseAndValidate nl now rawJson).run {}).1 = .ok status)
    (targetQueue : Containers.ConcurrentQueue TelemetryData) :
    ∃ status, (processPayload nl now rawJson targetQueue).1 = .ok status := by
  rcases hrun : (parseAndValidate nl now rawJson).run {} with ⟨outcome, data⟩
  rw [hrun] at h
  obtain rfl : outcome = .ok status := h
  cases status with
  | success =>
    rcases hpush : targetQueue.push data with ⟨ok, queue⟩
    cases ok <;> simp [processPayload, hrun, hpush]
  | _ => simp [processPayload, hrun]

theorem receive_status (h : ((parseAndValidate nl now rawJson).run {}).1 = .ok status)
    (hd : decrypt packet.encryptedPayload packet.tag preSharedKey packet.iv [] = (true, rawJson)) :
    ∃ received, receive nl now decrypt packet = .ok received := by
  rcases hrun : (parseAndValidate nl now rawJson).run {} with ⟨outcome, data⟩
  rw [hrun] at h
  obtain rfl : outcome = .ok status := h
  rw [receive_decrypted hd, hrun]
  cases status <;> exact ⟨_, rfl⟩

theorem processIncomingRawPayload_status (h : receive nl now decrypt packet = .ok received)
    (node : GatewayNode) :
    ∃ answer, (processIncomingRawPayload nl now decrypt packet node).1 = .ok answer := by
  rw [processIncomingRawPayload, h]
  cases received <;> exact ⟨_, rfl⟩

theorem GetsStatus.of_parse
    (h : ∀ before, ∃ status, ((parseAndValidate nl now rawJson).run before).1 = .ok status) :
    GetsStatus nl now rawJson where
  parse := h
  payload targetQueue := by
    obtain ⟨status, hstatus⟩ := h {}
    exact processPayload_status hstatus targetQueue
  incoming decrypt packet node hplain := by
    rcases hd : decrypt packet.encryptedPayload packet.tag preSharedKey packet.iv [] with ⟨ok, text⟩
    cases ok with
    | false =>
      exact processIncomingRawPayload_status (receive_refused (congrArg Prod.fst hd)) node
    | true =>
      rw [hd] at hplain
      obtain rfl : text = rawJson := hplain rfl
      obtain ⟨status, hstatus⟩ := h {}
      obtain ⟨received, hreceived⟩ := receive_status hstatus hd
      exact processIncomingRawPayload_status hreceived node

theorem GetsStatus.wellTyped (hs : GetsStatus nl now rawJson) (h : nl.parse rawJson = .ok parsed) :
    parsed.WellTyped := by
  obtain ⟨status, hstatus⟩ := hs.parse {}
  by_cases hi : parsed.IdentityTyped
  · by_cases hn : parsed.NumberTyped "sequence_id" ∧ parsed.NumberTyped "timestamp_ns"
    · exact ⟨hi, hn.1, hn.2⟩
    · obtain ⟨robotId, hrun⟩ := run_illTypedNumber now h hi hn
      rw [(hrun {}).1] at hstatus
      cases hstatus
  · rw [run_illTypedIdentity h hi] at hstatus
    cases hstatus

theorem getsStatus_iff (nl : Nlohmann) (now : UInt64) (rawJson : Bytes) :
    GetsStatus nl now rawJson ↔
      (∀ e, nl.parse rawJson = .error e → e = .parseError) ∧
        ∀ parsed, nl.parse rawJson = .ok parsed → parsed.WellTyped := by
  constructor
  · intro hs
    refine ⟨fun e he => ?_, fun parsed h => hs.wellTyped h⟩
    obtain ⟨status, hstatus⟩ := hs.parse {}
    rw [run_refused he] at hstatus
    cases e with
    | parseError => rfl
    | _ => cases hstatus
  · rintro ⟨herror, hok⟩
    refine .of_parse fun before => ?_
    cases hparse : nl.parse rawJson with
    | error e =>
      rw [run_refused hparse, if_pos (herror e hparse)]
      exact ⟨_, rfl⟩
    | ok parsed =>
      obtain ⟨_, _, _, -, -, hrun⟩ := run_wellTyped now hparse (hok parsed hparse)
      rw [hrun]
      exact ⟨_, rfl⟩

def numericClientId : String := "\x7b\"client_id\":7\x7d"

theorem getsStatus_fails :
    ¬GetsStatus (.ofText numericClientId (.object [("client_id", .numberUnsigned 7)])) 0
      numericClientId.toUTF8.toList := by
  intro h
  exact absurd (h.wellTyped (Nlohmann.parse_ofText _ _)).identity (by decide)

end SecureTelemetryGateway.Ros
