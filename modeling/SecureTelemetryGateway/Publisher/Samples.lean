import SecureTelemetryGateway.Publisher.MockTelemetryPublisher
import SecureTelemetryGateway.Ros.Publishing
import SecureTelemetryGateway.Security.Failures

/-!
# From a sample to its topic

What the publisher encrypts is there for the gateway to open. Where OpenSSL
does its part, each sample of a run decrypts to its text, makes a frame with
the publisher's own numbers, and is published on the topic its turn gives it.
-/

namespace SecureTelemetryGateway.Ingestion.Json

mutual

/-- What parsing makes of a dump: digits without a sign are unsigned. -/
def reread : Json → Json
  | .numberInteger i => if 0 ≤ i then .numberUnsigned i.toUInt64 else .numberInteger i
  | .array elements => .array (rereadElements elements)
  | .object members => .object (rereadMembers members)
  | j => j

def rereadElements : List Json → List Json
  | [] => []
  | value :: rest => value.reread :: rereadElements rest

def rereadMembers : List (String × Json) → List (String × Json)
  | [] => []
  | (key, value) :: rest => (key, value.reread) :: rereadMembers rest

end

end SecureTelemetryGateway.Ingestion.Json

namespace SecureTelemetryGateway.Publisher

open Models (TelemetryData)
open Ingestion (Json Nlohmann parseAndValidate)
open Ros
open Security.SecurityEngine

/-- The gateway's parser reads what the publisher's `dump` has written. -/
def Rereads (dump : Json → Bytes) (nl : Nlohmann) (counter : UInt64) (now : Int64) : Prop :=
  nl.parse (dump (payload counter now)) = .ok (payload counter now).reread

def sampleFrame (counter : UInt64) (now : Int64) : TelemetryData :=
  (payload counter now).reread.frame "amr_robot_01" counter now.toUInt64

def sampleMessage (counter : UInt64) (stamp : Int64) : RosMessage :=
  let header : Header := { stamp, frameId := "amr_robot_01" }
  if counter % 3 = 0 then
    .battery { header, percentage := .ofBinary64 (battery counter) }
  else if counter % 3 = 1 then
    .temperature { header, temperature := temperature counter }
  else .velocity { header, linearX := cruise }

def EncryptCall.packet (call : EncryptCall) (senderId : String) : Packet :=
  { senderId, encryptedPayload := call.ciphertext, iv := call.iv, tag := call.tag }

def Opens (decrypt : Decryptor) (packet : Packet) (plaintext : Bytes) : Prop :=
  decrypt packet.encryptedPayload packet.tag preSharedKey packet.iv [] = (true, plaintext)

structure Arrives (nl : Nlohmann) (counter : UInt64) (e : Tick × EncryptCall) : Prop where
  answer : e.2.answer = true
  decrypted : ∀ p₀, decryptAesGcm {} e.2.ciphertext e.2.key e.2.iv e.2.tag p₀ =
    (true, e.2.plaintext)
  received : ∀ now senderId decrypt, Opens decrypt (e.2.packet senderId) e.2.plaintext →
    receive nl now decrypt (e.2.packet senderId) = .ok (.inr (sampleFrame counter e.1.now))
  published : ∀ stamp, publishRosMessages stamp (sampleFrame counter e.1.now) =
    some (sampleMessage counter stamp)

-- ---------------------------------------------------------------------------
-- One sample
-- ---------------------------------------------------------------------------

theorem uint64_reread (nl : Nlohmann) (now : Int64) :
    (Json.numberInteger now).reread.getUInt64 nl = .ok now.toUInt64 := by
  rw [Json.reread]
  split <;> rfl

def received (counter : UInt64) (now : Int64) : List (String × Json) :=
  let clientId := ("client_id", Json.string "amr_robot_01")
  let sequenceId := ("sequence_id", Json.numberUnsigned counter)
  let timestampNs := ("timestamp_ns", (Json.numberInteger now).reread)
  if counter % 3 = 0 then
    [("battery", .numberFloat (battery counter)), clientId, sequenceId, timestampNs]
  else if counter % 3 = 1 then
    [clientId, sequenceId, ("temperature", .numberFloat (temperature counter)), timestampNs]
  else
    [clientId, sequenceId, timestampNs, ("velocity_x", .numberFloat cruise),
      ("velocity_y", .numberFloat (.zero false))]

theorem reread_payload (counter : UInt64) (now : Int64) :
    (payload counter now).reread = .object (received counter now) := by
  unfold payload received
  split
  · simp [Json.reread, Json.rereadMembers]
  · split <;> simp [Json.reread, Json.rereadMembers]

theorem distinctKeys_sample (counter : UInt64) (now : Int64) :
    DistinctKeys (payload counter now).reread := by
  rw [reread_payload]
  unfold received
  split
  · simp [DistinctKeys]
  · split <;> simp [DistinctKeys]

theorem read_sample (nl : Nlohmann) (counter clock : UInt64) (now : Int64) :
    (payload counter now).reread.identity = .ok "amr_robot_01" ∧
      (payload counter now).reread.uint64Or nl "sequence_id" 0 = .ok counter ∧
      (payload counter now).reread.uint64Or nl "timestamp_ns" clock = .ok now.toUInt64 := by
  have hts := uint64_reread nl now
  rw [reread_payload]
  unfold received
  split
  · exact ⟨rfl, rfl, hts⟩
  · split
    · exact ⟨rfl, rfl, hts⟩
    · exact ⟨rfl, rfl, hts⟩

theorem parse_sample (hr : Rereads dump nl counter now) (clock : UInt64) (before : TelemetryData) :
    (parseAndValidate nl clock (dump (payload counter now))).run before =
      (.ok .success, sampleFrame counter now) := by
  obtain ⟨hid, hseq, hts⟩ := read_sample nl counter clock now
  rw [parseAndValidate, Ingestion.run_tryCatch, Ingestion.run_readFrame hr, hid, hseq, hts]
  rfl

theorem publish_batteryValue (hk : DistinctKeys parsed)
    (hb : parsed.member? "battery" = some (.numberFloat d)) (stamp : Int64)
    (robotId : String) (sequenceId timestampNs : UInt64) :
    publishRosMessages stamp (parsed.frame robotId sequenceId timestampNs) =
      some (.battery { header := { stamp, frameId := robotId }
                       percentage := .ofBinary64 d }) := by
  rw [publish_battery hk hb]
  rfl

theorem publish_temperatureValue (hk : DistinctKeys parsed)
    (hb : parsed.member? "battery" = none)
    (ht : parsed.member? "temperature" = some (.numberFloat d)) (stamp : Int64)
    (robotId : String) (sequenceId timestampNs : UInt64) :
    publishRosMessages stamp (parsed.frame robotId sequenceId timestampNs) =
      some (.temperature { header := { stamp, frameId := robotId }, temperature := d }) := by
  rw [publish_temperature hk hb ht]
  rfl

theorem publish_sample (counter : UInt64) (now stamp : Int64) :
    publishRosMessages stamp (sampleFrame counter now) =
      some (sampleMessage counter stamp) := by
  have hk := distinctKeys_sample counter now
  unfold sampleFrame sampleMessage
  rw [reread_payload] at hk ⊢
  unfold received at hk ⊢
  split
  · next h0 =>
    simp only [h0, ↓reduceIte] at hk ⊢
    exact publish_batteryValue hk rfl stamp _ _ _
  · next h0 =>
    simp only [h0, ↓reduceIte] at hk ⊢
    split
    · next h1 =>
      simp only [h1, ↓reduceIte] at hk ⊢
      exact publish_temperatureValue hk rfl rfl stamp _ _ _
    · next h1 =>
      simp only [h1, ↓reduceIte] at hk ⊢
      rw [publish_velocity hk rfl rfl rfl]
      rfl

theorem length_generateSecureRandomBytes (rand : Option (Vector UInt8 n)) :
    (generateSecureRandomBytes n rand).length = n := by
  cases rand <;> simp

theorem arrives_of_call (hr : Rereads dump nl (counter + 1) e.1.now) (hevp : e.1.evp = {})
    (hcall : (publishTelemetrySample dump e.1 { counter }).1 = e.2)
    (hlt : e.2.plaintext.length < 2 ^ 31) : Arrives nl (counter + 1) e := by
  obtain ⟨tick, call⟩ := e
  dsimp only at hevp hcall hlt
  subst hcall
  have hkey : preSharedKey.length = 32 := rfl
  have hiv : (generateSecureRandomBytes 12 tick.rand).length = 12 :=
    length_generateSecureRandomBytes tick.rand
  have hnew : ({} : Security.EvpOutcomes).ctxNew = true := rfl
  obtain ⟨c, t, hencrypt⟩ := encryptAesGcm_sized hkey hiv hnew
    (dump (payload (counter + 1) tick.now)) [] []
  have hopen : RoundTrips preSharedKey (generateSecureRandomBytes 12 tick.rand)
      (dump (payload (counter + 1) tick.now)) := (roundTrips_iff hkey hiv).mpr hlt
  constructor
  · simp only [publishTelemetrySample, hevp, hencrypt]
  · intro p₀
    simp only [publishTelemetrySample, hevp, hencrypt]
    exact (hopen [] [] p₀ _ _ hencrypt).2
  · intro now senderId decrypt h
    rw [receive_decrypted h, show (publishTelemetrySample dump tick { counter }).1.plaintext =
      dump (payload (counter + 1) tick.now) from rfl, parse_sample hr]
  · exact publish_sample (counter + 1) tick.now

-- ---------------------------------------------------------------------------
-- Runs
-- ---------------------------------------------------------------------------

theorem call_at (h : (publisher dump).Trace es node) :
    node.counter = UInt64.ofNat es.length ∧ ∀ i e, es[i]? = some e →
      (publishTelemetrySample dump e.1 { counter := UInt64.ofNat i }).1 = e.2 := by
  refine h.invariant (I := fun es node => node.counter = UInt64.ofNat es.length ∧
    ∀ i e, es[i]? = some e →
      (publishTelemetrySample dump e.1 { counter := UInt64.ofNat i }).1 = e.2) ?_ ?_
  · rintro _ rfl
    exact ⟨rfl, by simp⟩
  · rintro es node e node' ⟨hcounter, ih⟩ hstep
    have hcall : (publishTelemetrySample dump e.1 node).1 = e.2 := congrArg Prod.fst hstep
    have hnode : (publishTelemetrySample dump e.1 node).2 = node' := congrArg Prod.snd hstep
    have hnext : node'.counter = node.counter + 1 := by rw [← hnode]; rfl
    refine ⟨by simp [hnext, hcounter], fun i e' he => ?_⟩
    rcases Nat.lt_trichotomy i es.length with hlt | rfl | hgt
    · exact ih i e' (by rwa [List.getElem?_append_left hlt] at he)
    · obtain rfl : e = e' := by simpa using he
      rw [← hcall, ← hcounter]
      rfl
    · rw [List.getElem?_eq_none (by simp; omega)] at he
      cases he

theorem samplesArrive (h : (publisher dump).Trace es node) (he : es[i]? = some e)
    (hevp : e.1.evp = {}) (hlt : e.2.plaintext.length < 2 ^ 31)
    (hr : Rereads dump nl (UInt64.ofNat (i + 1)) e.1.now) :
    Arrives nl (UInt64.ofNat (i + 1)) e := by
  have hnext : UInt64.ofNat i + 1 = UInt64.ofNat (i + 1) := by simp
  rw [← hnext] at hr ⊢
  exact arrives_of_call hr hevp ((call_at h).2 i e he) hlt

def firstSampleOnly : Nlohmann where
  parse text :=
    if text = firstSample.toUTF8.toList then .ok (payload 1 0).reread
    else .error .parseError
  castOutOfRange _ := 0

theorem length_toList (bs : ByteArray) : bs.toList.length = bs.size := by
  have hloop : ∀ i r, (ByteArray.toList.loop bs i r).length = r.length + (bs.size - i) := by
    intro i r
    fun_induction ByteArray.toList.loop bs i r with
    | case1 i r hlt ih => rw [ih, List.length_cons]; omega
    | case2 i r hge => rw [List.length_reverse]; omega
  simpa [ByteArray.toList] using hloop 0 []

theorem samplesArrive_first :
    Arrives firstSampleOnly 1
      (luckyTick, (publishTelemetrySample twoSamples luckyTick {}).1) := by
  have h : (publisher twoSamples).Trace
      [(luckyTick, (publishTelemetrySample twoSamples luckyTick {}).1)]
      (publishTelemetrySample twoSamples luckyTick {}).2 :=
    ⟨{}, rfl, .single Prod.mk.eta.symm⟩
  have hdump : twoSamples (payload 1 0) = firstSample.toUTF8.toList := rfl
  refine samplesArrive (i := 0) h rfl rfl ?_ ?_
  · show (twoSamples (payload 1 0)).length < 2 ^ 31
    rw [hdump, length_toList]
    decide
  · exact if_pos hdump

end SecureTelemetryGateway.Publisher
