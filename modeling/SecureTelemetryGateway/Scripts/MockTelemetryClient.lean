import SecureTelemetryGateway.Publisher.Samples

/-!
# The mock client

`mock_telemetry_client.py`: a loop that encrypts one payload under a fresh
nonce and sends the nonce, the tag and the ciphertext in one datagram, until it
is interrupted.
-/

namespace SecureTelemetryGateway.Scripts

open Lib
open Ingestion (Json Nlohmann parseAndValidate)
open Ros
open Security.SecurityEngine
open Publisher (Opens)

def key : Bytes :=
  [0x60, 0x3d, 0xeb, 0x10, 0x15, 0xca, 0x71, 0xbe, 0x2b, 0x73, 0xae, 0xf0, 0x85, 0x7d, 0x77, 0x81,
    0x1f, 0x35, 0x2c, 0x07, 0x3b, 0x61, 0x08, 0xd7, 0x2d, 0x98, 0x10, 0xa3, 0x09, 0x14, 0xdf, 0xf4]

/-- `json.dumps(payload).encode('utf-8')`. -/
def plaintext : Bytes :=
  ("\x7b\"client_id\": \"amr_robot_01\", \"battery\": 91.2, \"temperature\": 38.5, " ++
    "\"velocity_x\": 0.85\x7d").toUTF8.toList

/-- `AESGCM(key).encrypt(iv, data, None)` of the `cryptography` package. -/
abbrev AesgcmEncrypt := (key iv data : Bytes) → Bytes

/-- The package gives the ciphertext with the tag after it. -/
def AppendsTag (aesgcmEncrypt : AesgcmEncrypt) : Prop :=
  ∀ key iv data, key.length = 32 → iv.length = 12 → data.length < 2 ^ 31 →
    aesgcmEncrypt key iv data =
      (Gcm.encrypt (aes key) iv [] data).1 ++ (Gcm.encrypt (aes key) iv [] data).2

/-- `data[:-n]` and `data[-n:]`. -/
def dropLast (n : Nat) (data : Bytes) : Bytes := data.take (data.length - n)

def takeLast (n : Nat) (data : Bytes) : Bytes := data.drop (data.length - n)

def wirePacket (aesgcmEncrypt : AesgcmEncrypt) (iv data : Bytes) : Bytes :=
  let encryptedData := aesgcmEncrypt key iv data
  let ciphertext := dropLast 16 encryptedData
  let tag := takeLast 16 encryptedData
  iv ++ tag ++ ciphertext

structure MockTelemetryClient where
  running : Bool := true
  sent : List Bytes := []

/-- One turn of the loop, with what `os.urandom` gives, and the end of it. -/
inductive Event
  | turn (iv : Vector UInt8 12)
  | interrupt

inductive Step (aesgcmEncrypt : AesgcmEncrypt) :
    MockTelemetryClient → Event → MockTelemetryClient → Prop
  | turn (client : MockTelemetryClient) (iv : Vector UInt8 12) : client.running = true →
      Step aesgcmEncrypt client (.turn iv)
        { client with sent := client.sent ++ [wirePacket aesgcmEncrypt iv.toList plaintext] }
  | interrupt (client : MockTelemetryClient) : client.running = true →
      Step aesgcmEncrypt client .interrupt { client with running := false }

def client (aesgcmEncrypt : AesgcmEncrypt) : Lts MockTelemetryClient Event where
  init s := s = {}
  step := Step aesgcmEncrypt

-- ---------------------------------------------------------------------------
-- The layout
-- ---------------------------------------------------------------------------

/-- `[12B IV][16B Tag][Ciphertext]`. -/
def packetOf (senderId : String) (datagram : Bytes) : Packet where
  senderId
  iv := datagram.take 12
  tag := (datagram.drop 12).take 16
  encryptedPayload := datagram.drop 28

theorem dropLast_append (h : tag.length = n) (ciphertext : Bytes) :
    dropLast n (ciphertext ++ tag) = ciphertext := by
  simp [dropLast, h]

theorem takeLast_append (h : tag.length = n) (ciphertext : Bytes) :
    takeLast n (ciphertext ++ tag) = tag := by
  simp [takeLast, h]

variable {aesgcmEncrypt : AesgcmEncrypt}

theorem wirePacket_eq (haes : AppendsTag aesgcmEncrypt) (hi : iv.length = 12)
    (hlt : data.length < 2 ^ 31) :
    wirePacket aesgcmEncrypt iv data = iv ++ (Gcm.encrypt (aes preSharedKey) iv [] data).2 ++
      (Gcm.encrypt (aes preSharedKey) iv [] data).1 := by
  have htag : (Gcm.encrypt (aes key) iv [] data).2.length = 16 := Gcm.length_tag ..
  simp only [wirePacket, haes key iv data rfl hi hlt, dropLast_append htag, takeLast_append htag]
  rfl

theorem packetOf_wirePacket (haes : AppendsTag aesgcmEncrypt) (hi : iv.length = 12)
    (hlt : data.length < 2 ^ 31) (senderId : String) :
    packetOf senderId (wirePacket aesgcmEncrypt iv data) =
      { senderId
        iv
        tag := (Gcm.encrypt (aes preSharedKey) iv [] data).2
        encryptedPayload := (Gcm.encrypt (aes preSharedKey) iv [] data).1 } := by
  have htag : (Gcm.encrypt (aes preSharedKey) iv [] data).2.length = 16 := Gcm.length_tag ..
  rw [wirePacket_eq haes hi hlt, packetOf]
  generalize Gcm.encrypt (aes preSharedKey) iv [] data = written at htag ⊢
  simp [List.drop_append, hi, htag]

theorem length_wirePacket (haes : AppendsTag aesgcmEncrypt) (hi : iv.length = 12)
    (hlt : data.length < 2 ^ 31) :
    (wirePacket aesgcmEncrypt iv data).length = 28 + data.length := by
  rw [wirePacket_eq haes hi hlt]
  simp [Gcm.encrypt, hi, ← Nat.add_assoc]

theorem packetOf_opens (haes : AppendsTag aesgcmEncrypt) (hi : iv.length = 12)
    (hlt : data.length < 2 ^ 31) (senderId : String) :
    let packet := packetOf senderId (wirePacket aesgcmEncrypt iv data)
    (∀ c₀ t₀, encryptAesGcm {} data preSharedKey iv c₀ t₀ =
      (true, packet.encryptedPayload, packet.tag)) ∧
    ∀ p₀, decryptAesGcm {} packet.encryptedPayload preSharedKey packet.iv packet.tag p₀ =
      (true, data) := by
  have hkey : preSharedKey.length = 32 := rfl
  have hencrypt : ∀ c₀ t₀, encryptAesGcm {} data preSharedKey iv c₀ t₀ =
      (true, (Gcm.encrypt (aes preSharedKey) iv [] data).1,
        (Gcm.encrypt (aes preSharedKey) iv [] data).2) := by
    intro c₀ t₀
    rw [encryptAesGcm_eq hkey hi, encrypt_given_iff.mpr hlt]
  rw [packetOf_wirePacket haes hi hlt]
  exact ⟨hencrypt, fun p₀ => ((roundTrips_iff hkey hi).mpr hlt [] [] p₀ _ _ (hencrypt [] [])).2⟩

-- ---------------------------------------------------------------------------
-- Runs
-- ---------------------------------------------------------------------------

/-- 91.2 -/
def battery : Double := .ofNormal 0x16cccccccccccd (-46) (by decide)

/-- 38.5 -/
def temperature : Double := .ofNormal 0x13400000000000 (-47) (by decide)

/-- 0.85 -/
def velocityX : Double := .ofNormal 0x1b333333333333 (-53) (by decide)

def document : Json :=
  .object [("battery", .numberFloat battery), ("client_id", .string "amr_robot_01"),
    ("temperature", .numberFloat temperature), ("velocity_x", .numberFloat velocityX)]

def Event.nonce? : Event → Option (Vector UInt8 12)
  | .turn iv => some iv
  | .interrupt => none

def nonces (es : List Event) : List (Vector UInt8 12) := es.filterMap Event.nonce?

@[simp] theorem nonces_turn (es : List Event) (iv : Vector UInt8 12) :
    nonces (es ++ [.turn iv]) = nonces es ++ [iv] := by
  simp [nonces, Event.nonce?]

@[simp] theorem nonces_interrupt (es : List Event) : nonces (es ++ [.interrupt]) = nonces es := by
  simp [nonces, List.filterMap_cons, Event.nonce?]

structure Interoperates (aesgcmEncrypt : AesgcmEncrypt) (nl : Nlohmann) (es : List Event)
    (sent : List Bytes) : Prop where
  sends : sent = (nonces es).map fun iv => wirePacket aesgcmEncrypt iv.toList plaintext
  size : ∀ datagram ∈ sent, datagram.length = 28 + plaintext.length
  decrypted : ∀ datagram ∈ sent, ∀ senderId p₀,
    decryptAesGcm {} (packetOf senderId datagram).encryptedPayload preSharedKey
      (packetOf senderId datagram).iv (packetOf senderId datagram).tag p₀ = (true, plaintext)
  received : ∀ datagram ∈ sent, ∀ now senderId decrypt,
    Opens decrypt (packetOf senderId datagram) plaintext →
      receive nl now decrypt (packetOf senderId datagram) =
        .ok (.inr (document.frame "amr_robot_01" 0 now))
  /-- Of the three measurements one has a topic. -/
  published : ∀ now stamp, publishRosMessages stamp (document.frame "amr_robot_01" 0 now) =
    some (.battery
      { header := { stamp, frameId := "amr_robot_01" }, percentage := .ofBinary64 battery })
  fresh : (nonces es).Nodup → (sent.map fun datagram => (packetOf "" datagram).iv).Nodup

theorem sent_of_trace (h : (client aesgcmEncrypt).Trace es s) :
    s.sent = (nonces es).map fun iv => wirePacket aesgcmEncrypt iv.toList plaintext := by
  refine h.invariant (I := fun es s =>
    s.sent = (nonces es).map fun iv => wirePacket aesgcmEncrypt iv.toList plaintext) ?_ ?_
  · rintro _ rfl
    rfl
  · intro es s e s' ih hs
    cases hs with
    | turn iv => simp [ih]
    | interrupt => simpa using ih

theorem parse_document (h : nl.parse plaintext = .ok document) (now : UInt64)
    (before : Models.TelemetryData) :
    (parseAndValidate nl now plaintext).run before =
      (.ok .success, document.frame "amr_robot_01" 0 now) := by
  rw [parseAndValidate, Ingestion.run_tryCatch, Ingestion.run_readFrame h]
  rfl

theorem length_plaintext : plaintext.length < 2 ^ 31 := by
  rw [plaintext, Publisher.length_toList]
  decide

theorem clientInteroperates (haes : AppendsTag aesgcmEncrypt)
    (h : (client aesgcmEncrypt).Trace es s) (hparse : nl.parse plaintext = .ok document) :
    Interoperates aesgcmEncrypt nl es s.sent := by
  have hsent := sent_of_trace h
  have hmem : ∀ datagram ∈ s.sent, ∃ iv : Vector UInt8 12,
      datagram = wirePacket aesgcmEncrypt iv.toList plaintext := by
    intro datagram hd
    rw [hsent] at hd
    obtain ⟨iv, -, rfl⟩ := List.mem_map.mp hd
    exact ⟨iv, rfl⟩
  refine ⟨hsent, ?_, ?_, ?_, ?_, ?_⟩
  · intro datagram hd
    obtain ⟨iv, rfl⟩ := hmem datagram hd
    exact length_wirePacket haes Vector.length_toList length_plaintext
  · intro datagram hd senderId p₀
    obtain ⟨iv, rfl⟩ := hmem datagram hd
    exact (packetOf_opens haes Vector.length_toList length_plaintext senderId).2 p₀
  · intro datagram hd now senderId decrypt hopen
    rw [receive_decrypted hopen, parse_document hparse]
  · intro now stamp
    have hk : DistinctKeys document := by simp [DistinctKeys, document]
    rw [publish_battery hk rfl]
    rfl
  · intro hnodup
    have hiv : (s.sent.map fun datagram => (packetOf "" datagram).iv) =
        (nonces es).map Vector.toList := by
      rw [hsent, List.map_map]
      refine List.map_congr_left fun iv _ => ?_
      rw [Function.comp_apply, packetOf_wirePacket haes Vector.length_toList length_plaintext]
    rw [hiv]
    exact hnodup.map fun a b hab => Vector.toList_inj.mp hab

def documentOnly : Nlohmann where
  parse text := if text = plaintext then .ok document else .error .parseError
  castOutOfRange _ := 0

def aesgcm : AesgcmEncrypt := fun key iv data =>
  (Gcm.encrypt (aes key) iv [] data).1 ++ (Gcm.encrypt (aes key) iv [] data).2

theorem clientInteroperates_twice :
    ∃ sent, sent.length = 2 ∧ Interoperates aesgcm documentOnly
      [.turn #v[1, 2, 3, 4, 5, 6, 7, 8, 9, 10, 11, 12],
        .turn #v[12, 11, 10, 9, 8, 7, 6, 5, 4, 3, 2, 1], .interrupt] sent :=
  ⟨_, rfl, clientInteroperates (fun _ _ _ _ _ _ => rfl)
    ⟨{}, rfl, .cons (.turn _ _ rfl) (.cons (.turn _ _ rfl) (.single (.interrupt _ rfl)))⟩
    (if_pos rfl)⟩

end SecureTelemetryGateway.Scripts
