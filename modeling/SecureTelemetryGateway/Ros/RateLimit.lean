import SecureTelemetryGateway.Ros.GatewayNode
import Mathlib.Data.Rat.Defs
import Mathlib.Algebra.Order.Ring.Rat
import Mathlib.Tactic.NormNum

/-!
# What the rate limiter lets through

The limiter of the source is a stub, so that what it admits is what arrives: a
bound on what it admits is a bound the senders keep by themselves.
-/

namespace SecureTelemetryGateway.Ros

open Ingestion (Nlohmann)
open Security.SecurityEngine (checkRateLimit)

structure Call where
  clientId : String
  time : ℚ

def Call.inWindow (clientId : String) (s t : ℚ) (c : Call) : Bool :=
  decide (c.clientId = clientId ∧ s ≤ c.time ∧ c.time ≤ s + t)

def answers (r b : ℚ) (calls : List Call) : List (Call × Bool) :=
  calls.map fun c => (c, checkRateLimit c.clientId r b)

def admitted (r b : ℚ) (clientId : String) (s t : ℚ) (calls : List Call) : List Call :=
  ((answers r b calls).filter fun (c, ok) => c.inWindow clientId s t && ok).map Prod.fst

/-- The answers that a client gets are the ones it would get alone. -/
def Independent (r b : ℚ) (clientId : String) (calls : List Call) : Prop :=
  (answers r b calls).filter (·.1.clientId = clientId) =
    answers r b (calls.filter (·.clientId = clientId))

theorem admitted_eq (r b : ℚ) (clientId : String) (s t : ℚ) (calls : List Call) :
    admitted r b clientId s t calls = calls.filter (·.inWindow clientId s t) := by
  simp [admitted, answers, checkRateLimit, List.filter_map, Function.comp_def]

theorem independent (r b : ℚ) (clientId : String) (calls : List Call) :
    Independent r b clientId calls := by
  simp [Independent, answers, List.filter_map, Function.comp_def]

structure Arrival where
  packet : Packet
  time : ℚ
  now : UInt64

def Arrival.call (a : Arrival) : Call := ⟨a.packet.senderId, a.time⟩

def passed (nl : Nlohmann) (decrypt : Decryptor) (a : Arrival) : Bool :=
  match receive nl a.now decrypt a.packet with
  | .ok (.inl line) => decide (line ≠ rateLimitExceeded a.packet.senderId)
  | _ => true

theorem passed_eq_true (nl : Nlohmann) (decrypt : Decryptor) (a : Arrival) :
    passed nl decrypt a = true := by
  unfold passed
  rcases hd : decrypt a.packet.encryptedPayload a.packet.tag preSharedKey a.packet.iv [] with
    ⟨ok, plaintext⟩
  cases ok with
  | false => simp [receive_refused (congrArg Prod.fst hd), decryptionFailed, rateLimitExceeded]
  | true =>
    rw [receive_decrypted hd]
    rcases (Ingestion.parseAndValidate nl a.now plaintext).run {} with ⟨outcome, data⟩
    cases outcome with
    | error e => rfl
    | ok status => cases status <;> simp [parseFailed, rateLimitExceeded]

def passedPackets (nl : Nlohmann) (decrypt : Decryptor) (senderId : String) (s t : ℚ)
    (arrivals : List Arrival) : List Arrival :=
  arrivals.filter fun a => a.call.inWindow senderId s t && passed nl decrypt a

theorem passedPackets_eq (nl : Nlohmann) (decrypt : Decryptor) (senderId : String) (s t : ℚ)
    (arrivals : List Arrival) :
    passedPackets nl decrypt senderId s t arrivals =
      arrivals.filter (·.call.inWindow senderId s t) := by
  simp [passedPackets, passed_eq_true]

/-- In every window the bound holds of the calls admitted exactly if it holds
of the calls made, and of the packets past the check exactly if it holds of
the packets sent. The clients are independent. -/
theorem rateLimit_iff (nl : Nlohmann) (decrypt : Decryptor) (r b : ℚ) (clientId : String)
    (s t : ℚ) (calls : List Call) (arrivals : List Arrival) :
    (((admitted r b clientId s t calls).length : ℚ) ≤ b + r * t ↔
        ((calls.filter (·.inWindow clientId s t)).length : ℚ) ≤ b + r * t) ∧
      Independent r b clientId calls ∧
      (((passedPackets nl decrypt clientId s t arrivals).length : ℚ) ≤ 20 + 10 * t ↔
        ((arrivals.filter (·.call.inWindow clientId s t)).length : ℚ) ≤ 20 + 10 * t) := by
  refine ⟨?_, independent r b clientId calls, ?_⟩
  · rw [admitted_eq]
  · rw [passedPackets_eq]

theorem rateLimit_fails :
    ¬((admitted 1 1 "robot" 0 0 (List.replicate 2 ⟨"robot", 0⟩)).length : ℚ) ≤ 1 + 1 * 0 ∧
      ¬((passedPackets ⟨fun _ => .error .parseError, fun _ => 0⟩ (fun _ _ _ _ _ => (false, []))
        "robot" 0 0 (List.replicate 21 ⟨⟨"robot", [], [], []⟩, 0, 0⟩)).length : ℚ) ≤
          20 + 10 * 0 := by
  constructor
  · rw [admitted_eq, List.filter_replicate]
    norm_num [Call.inWindow]
  · rw [passedPackets_eq, List.filter_replicate]
    norm_num [Arrival.call, Call.inWindow]

end SecureTelemetryGateway.Ros
