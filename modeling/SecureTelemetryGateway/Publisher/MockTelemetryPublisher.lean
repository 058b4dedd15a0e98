import SecureTelemetryGateway.Lib.Lts
import SecureTelemetryGateway.Lib.Rounding
import SecureTelemetryGateway.Ros.GatewayNode

/-!
# The mock publisher

`mock_telemetry_publisher.cpp`: every tick of its timer encrypts one sample
under the shared key and a fresh nonce, as far as the random source gives one.
The numbers of a sample are computed in doubles; how they are written is the
library's affair, and `json::dump` a parameter.
-/

namespace SecureTelemetryGateway.Publisher

open Ingestion (Json)
open Ros (LogLine preSharedKey)
open Security (EvpOutcomes)
open Security.SecurityEngine

/-- The outcomes of one tick's calls: the clock, `RAND_bytes` and OpenSSL. -/
structure Tick where
  now : Int64
  rand : Option (Vector UInt8 12)
  evp : EvpOutcomes := {}

structure EncryptCall where
  plaintext : Bytes
  key : Bytes
  iv : Bytes
  answer : Bool
  ciphertext : Bytes
  tag : Bytes

structure MockTelemetryPublisher where
  counter : UInt64 := 0
  log : List LogLine := [⟨.info, "Starting Mock Telemetry Publisher..."⟩]

/-- 98.5 -/
def fullCharge : Double := ⟨false, 0x18a00000000000, -46, by decide, by decide, by decide⟩

/-- 0.1 -/
def chargePerSample : Double := ⟨false, 0x1999999999999a, -56, by decide, by decide, by decide⟩

/-- 42.3 -/
def coldTemperature : Double := ⟨false, 0x15266666666666, -47, by decide, by decide, by decide⟩

/-- 0.05 -/
def heatPerSample : Double := ⟨false, 0x1999999999999a, -57, by decide, by decide, by decide⟩

/-- 0.75 -/
def cruise : Double := ⟨false, 0x18000000000000, -53, by decide, by decide, by decide⟩

theorem exponent_counter_le (counter : UInt64) :
    (Lib.Binary64.ofUInt64 counter).exponent ≤ 13 := Lib.Binary64.exponent_ofUInt64_le counter

def chargeUsed (counter : UInt64) : Double :=
  (Lib.Binary64.ofUInt64 counter).mul chargePerSample (by
    have := exponent_counter_le counter
    simp only [chargePerSample]
    omega)

theorem exponent_chargeUsed_le (counter : UInt64) : (chargeUsed counter).exponent ≤ 11 := by
  have := exponent_counter_le counter
  refine le_trans (Lib.Binary64.exponent_mul_le _) ?_
  simp only [chargePerSample]
  omega

def battery (counter : UInt64) : Double :=
  fullCharge.sub (chargeUsed counter) (by
    have := exponent_chargeUsed_le counter
    simp only [fullCharge]
    omega)

def heatGained (counter : UInt64) : Double :=
  (Lib.Binary64.ofUInt64 counter).mul heatPerSample (by
    have := exponent_counter_le counter
    simp only [heatPerSample]
    omega)

theorem exponent_heatGained_le (counter : UInt64) : (heatGained counter).exponent ≤ 10 := by
  have := exponent_counter_le counter
  refine le_trans (Lib.Binary64.exponent_mul_le _) ?_
  simp only [heatPerSample]
  omega

def temperature (counter : UInt64) : Double :=
  coldTemperature.add (heatGained counter) (by
    have := exponent_heatGained_le counter
    simp only [coldTemperature]
    omega)

/-- 42.349999999999994: the sum of 42.3 and 0.05 is rounded down. -/
example : temperature 1 =
    ⟨false, 0x152ccccccccccc, -47, by decide, by decide, by decide⟩ := by decide +kernel

def payload (counter : UInt64) (now : Int64) : Json :=
  let clientId := ("client_id", Json.string "amr_robot_01")
  let sequenceId := ("sequence_id", Json.numberUnsigned counter)
  let timestampNs := ("timestamp_ns", Json.numberInteger now)
  if counter % 3 = 0 then
    .object [("battery", .numberFloat (battery counter)), clientId, sequenceId, timestampNs]
  else if counter % 3 = 1 then
    .object [clientId, sequenceId, ("temperature", .numberFloat (temperature counter)),
      timestampNs]
  else
    .object [clientId, sequenceId, timestampNs, ("velocity_x", .numberFloat cruise),
      ("velocity_y", .numberFloat (.zero false))]

def encrypted (counter : UInt64) (size : Nat) : LogLine :=
  ⟨.info, "Successfully generated encrypted telemetry packet #" ++ toString counter ++
    " (size: " ++ toString size ++ " bytes)"⟩

def encryptionFailed : LogLine := ⟨.error, "Failed to encrypt mock payload!"⟩

def publishTelemetrySample (dump : Json → Bytes) (tick : Tick) (node : MockTelemetryPublisher) :
    EncryptCall × MockTelemetryPublisher :=
  let counter := node.counter + 1
  let plaintext := dump (payload counter tick.now)
  let iv := generateSecureRandomBytes 12 tick.rand
  let (answer, ciphertext, tag) := encryptAesGcm tick.evp plaintext preSharedKey iv [] []
  let line := if answer then encrypted counter ciphertext.length else encryptionFailed
  ({ plaintext, key := preSharedKey, iv, answer, ciphertext, tag },
    { counter, log := node.log ++ [line] })

/-- A label is a tick with the call it makes. -/
def publisher (dump : Json → Bytes) : Lib.Lts MockTelemetryPublisher (Tick × EncryptCall) where
  init node := node = {}
  step node e node' := publishTelemetrySample dump e.1 node = (e.2, node')

-- ---------------------------------------------------------------------------
-- Nonces
-- ---------------------------------------------------------------------------

def NeverRepeats (es : List (Tick × EncryptCall)) : Prop :=
  (es.filterMap fun e => e.1.rand).Nodup

structure FreshNonces (es : List (Tick × EncryptCall)) : Prop where
  random : ∀ e ∈ es, ∃ bytes, e.1.rand = some bytes ∧ e.2.iv = bytes.toList
  unrepeated : (es.map fun e => (e.2.key, e.2.iv)).Nodup

@[simp] theorem generateSecureRandomBytes_some (bytes : Vector UInt8 n) :
    generateSecureRandomBytes n (some bytes) = bytes.toList :=
  Security.writeAt_of_length_eq (by simp)

@[simp] theorem generateSecureRandomBytes_none (n : Nat) :
    generateSecureRandomBytes n none = List.replicate n 0 := rfl

theorem call_of_step (h : (publisher dump).step node e node') :
    e.2.key = preSharedKey ∧ e.2.iv = generateSecureRandomBytes 12 e.1.rand := by
  have hcall : (publishTelemetrySample dump e.1 node).1 = e.2 := congrArg Prod.fst h
  rw [← hcall]
  exact ⟨rfl, rfl⟩

theorem calls_of_trace (h : (publisher dump).Trace es node) :
    ∀ e ∈ es, e.2.key = preSharedKey ∧ e.2.iv = generateSecureRandomBytes 12 e.1.rand := by
  refine h.invariant (I := fun es _ => ∀ e ∈ es, e.2.key = preSharedKey ∧
    e.2.iv = generateSecureRandomBytes 12 e.1.rand) (fun _ _ => List.forall_mem_nil _) ?_
  intro es node e node' ih hstep
  simp only [List.forall_mem_append, List.forall_mem_singleton]
  exact ⟨ih, call_of_step hstep⟩

theorem exists_trace (dump : Json → Bytes) (ticks : List Tick) :
    ∃ es node, (publisher dump).Trace es node ∧ es.map Prod.fst = ticks := by
  induction ticks using List.reverseRecOn with
  | nil => exact ⟨[], {}, ⟨{}, rfl, .nil⟩, rfl⟩
  | append_singleton ticks tick ih =>
    obtain ⟨es, node, h, hticks⟩ := ih
    rcases hstep : publishTelemetrySample dump tick node with ⟨call, node'⟩
    exact ⟨es ++ [(tick, call)], node', h.snoc hstep, by simp [hticks]⟩

theorem freshNonces_iff (h : (publisher dump).Trace es node) (hd : NeverRepeats es) :
    FreshNonces es ↔ ∀ e ∈ es, e.1.rand.isSome := by
  have hcalls := calls_of_trace h
  constructor
  · intro hf e he
    obtain ⟨bytes, hrand, -⟩ := hf.random e he
    simp [hrand]
  · intro hs
    have hrandom : ∀ e ∈ es, ∃ bytes, e.1.rand = some bytes ∧ e.2.iv = bytes.toList := by
      intro e he
      obtain ⟨bytes, hrand⟩ := Option.isSome_iff_exists.mp (hs e he)
      exact ⟨bytes, hrand, by simpa [hrand] using (hcalls e he).2⟩
    refine ⟨hrandom, ?_⟩
    rw [List.Nodup, List.pairwise_map]
    refine (List.pairwise_filterMap.mp hd).imp_of_mem fun {e e'} he he' hne heq => ?_
    obtain ⟨bytes, hrand, hiv⟩ := hrandom e he
    obtain ⟨bytes', hrand', hiv'⟩ := hrandom e' he'
    -- equal nonces are equal bytes of two calls
    have hbytes : bytes.toList = bytes'.toList := by
      rw [← hiv, ← hiv', (Prod.mk.inj heq).2]
    exact hne bytes hrand bytes' hrand' (Vector.toList_inj.mp hbytes)

/-- The first two samples, at time 0. -/
def firstSample : String :=
  "\x7b\"client_id\":\"amr_robot_01\",\"sequence_id\":1,\"temperature\":42.349999999999994," ++
    "\"timestamp_ns\":0\x7d"

def secondSample : String :=
  "\x7b\"client_id\":\"amr_robot_01\",\"sequence_id\":2,\"timestamp_ns\":0," ++
    "\"velocity_x\":0.75,\"velocity_y\":0.0\x7d"

def twoSamples (j : Json) : Bytes :=
  (if j.contains "temperature" then firstSample else secondSample).toUTF8.toList

def luckyTick : Tick := { now := 0, rand := some #v[1, 2, 3, 4, 5, 6, 7, 8, 9, 10, 11, 12] }

def luckyAgain : Tick := { now := 0, rand := some #v[12, 11, 10, 9, 8, 7, 6, 5, 4, 3, 2, 1] }

theorem freshNonces_two : ∃ es node, (publisher twoSamples).Trace es node ∧
    es.map Prod.fst = [luckyTick, luckyAgain] ∧ FreshNonces es := by
  obtain ⟨es, node, h, hticks⟩ := exists_trace twoSamples [luckyTick, luckyAgain]
  obtain ⟨e, rest, rfl, he, hrest⟩ := List.map_eq_cons_iff.mp hticks
  obtain ⟨e', rfl, he'⟩ := List.map_eq_singleton_iff.mp hrest
  refine ⟨[e, e'], node, h, hticks, (freshNonces_iff h ?_).mpr ?_⟩
  · simp only [NeverRepeats, List.filterMap_cons, he, he', luckyTick, luckyAgain]
    decide
  · simp [he, he', luckyTick, luckyAgain]

def failedTick : Tick := { now := 0, rand := none }

theorem freshNonces_fails : ∃ es node, (publisher twoSamples).Trace es node ∧
    es.map Prod.fst = [failedTick, failedTick] ∧ NeverRepeats es ∧ ¬FreshNonces es := by
  obtain ⟨es, node, h, hticks⟩ := exists_trace twoSamples [failedTick, failedTick]
  have hcalls := calls_of_trace h
  obtain ⟨e, rest, rfl, he, hrest⟩ := List.map_eq_cons_iff.mp hticks
  obtain ⟨e', rfl, he'⟩ := List.map_eq_singleton_iff.mp hrest
  obtain ⟨hkey, hiv⟩ := hcalls e List.mem_cons_self
  obtain ⟨hkey', hiv'⟩ := hcalls e' (List.mem_cons_of_mem e List.mem_cons_self)
  refine ⟨[e, e'], node, h, hticks, ?_, fun hf => ?_⟩
  · simp [NeverRepeats, he, he', failedTick]
  · have hunrepeated := hf.unrepeated
    rw [List.map_cons, List.map_singleton, hkey, hiv, hkey', hiv', he, he'] at hunrepeated
    exact absurd hunrepeated (by simp)

end SecureTelemetryGateway.Publisher
