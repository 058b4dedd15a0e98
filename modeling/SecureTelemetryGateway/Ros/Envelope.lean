import SecureTelemetryGateway.Ingestion.Outcome
import SecureTelemetryGateway.Ros.GatewayNode

/-!
# The envelope

`raw_telemetry_callback` of `gateway_node.cpp`. The members are converted, not
checked: every number and boolean becomes a byte, whatever its value.
-/

namespace SecureTelemetryGateway.Ros

open Ingestion (Json JsonError Nlohmann)

-- ---------------------------------------------------------------------------
-- Conversions
-- ---------------------------------------------------------------------------

/-- More of the library: what the cast to `uint8_t` makes of a double whose
truncated value does not fit, which the language leaves undefined, and the texts
of its exceptions. -/
structure Conversions where
  castByteOutOfRange : Double → UInt8
  what : JsonError → String

/-- `j[key]`, on a document that need not be an object. A missing member is
inserted as `null`, which no conversion below takes. -/
def index (j : Json) (key : String) : Except JsonError Json :=
  match j with
  | .object members => .ok ((members.lookup key).getD .null)
  | .null => .ok .null
  | _ => .error .typeError

def castByte (conv : Conversions) (d : Double) : UInt8 :=
  match d.toUInt64? with
  | some u => if u ≤ 255 then u.toUInt8 else conv.castByteOutOfRange d
  | none => conv.castByteOutOfRange d

def getByte (conv : Conversions) : Json → Except JsonError UInt8
  | .numberUnsigned u => .ok u.toUInt8
  | .numberInteger i => .ok i.toUInt64.toUInt8
  | .numberFloat d => .ok (castByte conv d)
  | .boolean b => .ok (if b then 1 else 0)
  | _ => .error .typeError

def getBytes (conv : Conversions) : Json → Except JsonError Bytes
  | .array elements => elements.mapM (getByte conv)
  | _ => .error .typeError

-- ---------------------------------------------------------------------------
-- The callback
-- ---------------------------------------------------------------------------

/-- The arguments of the call, read off the message one after the other. -/
def decodeEnvelope (conv : Conversions) (nl : Nlohmann) (text : Bytes) : Except JsonError Packet :=
  do
    let j ← nl.parse text
    let senderId ← (← index j "client_id").getString
    let encryptedPayload ← getBytes conv (← index j "ciphertext")
    let iv ← getBytes conv (← index j "iv")
    let tag ← getBytes conv (← index j "tag")
    return { senderId, encryptedPayload, iv, tag }

def envelopeRejected (what : String) : LogLine :=
  ⟨.error, "GatewayNode: Failed to parse incoming raw telemetry JSON: " ++ what⟩

/-- What comes out of the callback: nothing or an escaping exception, the packet
it calls `process_incoming_raw_payload` with, if it does, and the node. -/
structure Handled where
  outcome : Except JsonError Unit
  call : Option Packet
  node : GatewayNode

/-- The call is inside the `try` block too, and its answer is not looked at. -/
def rawTelemetryCallback (conv : Conversions) (nl : Nlohmann) (now : UInt64)
    (decryptAesGcm : Decryptor) (text : Bytes) (node : GatewayNode) : Handled :=
  let caught (e : JsonError) (call : Option Packet) (node : GatewayNode) : Handled :=
    { outcome := .ok (), call
      node := { node with log := node.log ++ [envelopeRejected (conv.what e)] } }
  match decodeEnvelope conv nl text with
  | .error e => caught e none node
  | .ok packet =>
    match processIncomingRawPayload nl now decryptAesGcm packet node with
    | (.ok _, node) => { outcome := .ok (), call := some packet, node }
    | (.error e, node) => caught e (some packet) node

theorem outcome_rawTelemetryCallback (conv : Conversions) (nl : Nlohmann) (now : UInt64)
    (decrypt : Decryptor) (text : Bytes) (node : GatewayNode) :
    (rawTelemetryCallback conv nl now decrypt text node).outcome = .ok () := by
  unfold rawTelemetryCallback
  split
  · rfl
  · split <;> rfl

theorem call_rawTelemetryCallback (conv : Conversions) (nl : Nlohmann) (now : UInt64)
    (decrypt : Decryptor) (text : Bytes) (node : GatewayNode) :
    (rawTelemetryCallback conv nl now decrypt text node).call = some packet ↔
      decodeEnvelope conv nl text = .ok packet := by
  unfold rawTelemetryCallback
  split
  · next e he => simp [he]
  · next packet' hpacket =>
    rw [hpacket, Except.ok.injEq]
    split <;> exact Option.some_inj

theorem rawTelemetryCallback_rejected (h : decodeEnvelope conv nl text = .error e) (now : UInt64)
    (decrypt : Decryptor) (node : GatewayNode) :
    (rawTelemetryCallback conv nl now decrypt text node).node =
      { node with log := node.log ++ [envelopeRejected (conv.what e)] } := by
  simp [rawTelemetryCallback, h]

-- ---------------------------------------------------------------------------
-- The format
-- ---------------------------------------------------------------------------

def integer? : Json → Option Int
  | .numberInteger i => some i.toInt
  | .numberUnsigned u => some u.toNat
  | _ => none

def Spells (elements : List Json) (bytes : Bytes) : Prop :=
  List.Forall₂ (fun j b => integer? j = some (b.toNat : Int)) elements bytes

/-- The text is an object with a string and three arrays of integers between 0
and 255, which make up the packet. -/
def EnvelopeOf (nl : Nlohmann) (text : Bytes) (packet : Packet) : Prop :=
  ∃ members c i t, nl.parse text = .ok (.object members) ∧
    members.lookup "client_id" = some (.string packet.senderId) ∧
    members.lookup "ciphertext" = some (.array c) ∧ members.lookup "iv" = some (.array i) ∧
    members.lookup "tag" = some (.array t) ∧
    Spells c packet.encryptedPayload ∧ Spells i packet.iv ∧ Spells t packet.tag

def elementsOf (nl : Nlohmann) (text : Bytes) (key : String) : Option (List (Option Int)) :=
  match nl.parse text with
  | .ok (.object members) =>
    match members.lookup key with
    | some (.array elements) => some (elements.map integer?)
    | _ => none
  | _ => none

/-- No exception escapes; the call is made exactly for an envelope, with the
packet it spells; any other message leaves a line in the log and nothing else. -/
structure ExactFormat (conv : Conversions) (nl : Nlohmann) (text : Bytes) : Prop where
  noEscape : ∀ now decrypt node,
    (rawTelemetryCallback conv nl now decrypt text node).outcome = .ok ()
  called : ∀ now decrypt node packet,
    (rawTelemetryCallback conv nl now decrypt text node).call = some packet ↔
      EnvelopeOf nl text packet
  otherwise : (¬∃ packet, EnvelopeOf nl text packet) → ∃ line, ∀ now decrypt node,
    (rawTelemetryCallback conv nl now decrypt text node).node =
      { node with log := node.log ++ [line] }

structure ExactFormats (conv : Conversions) (nl : Nlohmann) (text text' : Bytes) : Prop where
  left : ExactFormat conv nl text
  right : ExactFormat conv nl text'
  separated : ∀ now decrypt node now' decrypt' node' packet,
    (rawTelemetryCallback conv nl now decrypt text node).call = some packet →
    (rawTelemetryCallback conv nl now' decrypt' text' node').call = some packet →
    ∀ key ∈ ["ciphertext", "iv", "tag"], elementsOf nl text key = elementsOf nl text' key

-- ---------------------------------------------------------------------------
-- Where the conversions keep to it
-- ---------------------------------------------------------------------------

def Convertible : Json → Prop
  | .boolean _ => True
  | j => j.isNumber

def IsByte (j : Json) : Prop := ∃ n, integer? j = some n ∧ 0 ≤ n ∧ n ≤ 255

def InRange (nl : Nlohmann) (text : Bytes) : Prop :=
  ∀ members senderId c i t, nl.parse text = .ok (.object members) →
    members.lookup "client_id" = some (.string senderId) →
    members.lookup "ciphertext" = some (.array c) → members.lookup "iv" = some (.array i) →
    members.lookup "tag" = some (.array t) → (∀ j ∈ c ++ i ++ t, Convertible j) →
    ∀ j ∈ c ++ i ++ t, IsByte j

variable {conv : Conversions} {elements : List Json}

theorem mapM_eq_ok {f : α → Except ε β} :
    xs.mapM f = .ok ys ↔ List.Forall₂ (fun x y => f x = .ok y) xs ys := by
  induction xs generalizing ys with
  | nil =>
    rw [List.mapM_nil, List.forall₂_nil_left_iff]
    exact ⟨fun h => (Except.ok.inj h).symm, fun h => h ▸ rfl⟩
  | cons x xs ih =>
    rw [List.mapM_cons, List.forall₂_cons_left_iff]
    cases hx : f x with
    | error e =>
      constructor
      · intro h
        cases h
      · rintro ⟨y, _, hy, -⟩
        cases hy
    | ok y =>
      cases hxs : xs.mapM f with
      | error e =>
        constructor
        · intro h
          cases h
        · rintro ⟨_, ys', -, hys, -⟩
          rw [← ih, hxs] at hys
          cases hys
      | ok ys' =>
        constructor
        · intro h
          cases h
          exact ⟨y, ys', rfl, ih.mp hxs, rfl⟩
        · rintro ⟨_, _, hy, hys, rfl⟩
          cases hy
          rw [← ih, hxs] at hys
          cases hys
          rfl

theorem toNat_toUInt64 {i : Int64} (h : 0 ≤ i.toInt) : (i.toUInt64.toNat : Int) = i.toInt := by
  have hle : 0 ≤ i := by simpa [Int64.le_iff_toInt_le] using h
  have hbits : i.toUInt64.toNat = i.toInt.toNat := Int64.toNat_toBitVec_of_le hle
  omega

theorem getByte_iff (conv : Conversions) (h : IsByte j) (b : UInt8) :
    getByte conv j = .ok b ↔ integer? j = some (b.toNat : Int) := by
  obtain ⟨n, hn, h0, h255⟩ := h
  cases j with
  | numberUnsigned u =>
    obtain rfl : (u.toNat : Int) = n := Option.some.inj hn
    simp only [getByte, integer?, Except.ok.injEq, Option.some.injEq, Nat.cast_inj]
    rw [← UInt8.toNat_inj, UInt64.toNat_toUInt8]
    omega
  | numberInteger i =>
    obtain rfl : i.toInt = n := Option.some.inj hn
    have hcast := toNat_toUInt64 h0
    simp only [getByte, integer?, Except.ok.injEq, Option.some.injEq]
    rw [← UInt8.toNat_inj, UInt64.toNat_toUInt8]
    omega
  | _ => cases hn

theorem convertible_iff (conv : Conversions) (j : Json) :
    Convertible j ↔ ∃ b, getByte conv j = .ok b := by
  cases j <;> simp [Convertible, Json.isNumber, getByte]

theorem isByte_of_integer? {b : UInt8} (h : integer? j = some (b.toNat : Int)) : IsByte j := by
  have hlt := b.toNat_lt
  exact ⟨_, h, by omega, by omega⟩

theorem exists_mapM_ok (conv : Conversions) (h : ∀ j ∈ elements, Convertible j) :
    ∃ bytes, elements.mapM (getByte conv) = .ok bytes := by
  induction elements with
  | nil => exact ⟨[], rfl⟩
  | cons j rest ih =>
    obtain ⟨b, hb⟩ := (convertible_iff conv j).mp (h j List.mem_cons_self)
    obtain ⟨bytes, hbytes⟩ := ih fun j' hj' => h j' (List.mem_cons_of_mem j hj')
    exact ⟨b :: bytes, mapM_eq_ok.mpr (.cons hb (mapM_eq_ok.mp hbytes))⟩

theorem convertible_of_mapM_ok (h : elements.mapM (getByte conv) = .ok bytes) :
    ∀ j ∈ elements, Convertible j := by
  have hforall := mapM_eq_ok.mp h
  clear h
  induction hforall with
  | nil => exact nofun
  | cons hb _ ih => exact List.forall_mem_cons.mpr ⟨(convertible_iff conv _).mpr ⟨_, hb⟩, ih⟩

theorem Spells.isByte (h : Spells elements bytes) : ∀ j ∈ elements, IsByte j := by
  unfold Spells at h
  induction h with
  | nil => exact nofun
  | cons hb _ ih => exact List.forall_mem_cons.mpr ⟨isByte_of_integer? hb, ih⟩

theorem mapM_eq_ok_iff_spells (h : ∀ j ∈ elements, IsByte j) :
    elements.mapM (getByte conv) = .ok bytes ↔ Spells elements bytes := by
  rw [mapM_eq_ok, Spells]
  induction elements generalizing bytes with
  | nil => simp only [List.forall₂_nil_left_iff]
  | cons j rest ih =>
    obtain ⟨hj, hrest⟩ := List.forall_mem_cons.mp h
    simp only [List.forall₂_cons_left_iff, getByte_iff conv hj, ih hrest]

theorem Spells.unique (h : Spells elements bytes) (h' : Spells elements' bytes) :
    elements.map integer? = elements'.map integer? := by
  unfold Spells at h
  induction h generalizing elements' with
  | nil =>
    rw [Spells, List.forall₂_nil_right_iff] at h'
    rw [h']
  | cons hj _ ih =>
    rw [Spells, List.forall₂_cons_right_iff] at h'
    obtain ⟨j', rest', hj', hrest', rfl⟩ := h'
    rw [List.map_cons, List.map_cons, hj, hj', ih hrest']

theorem bind_eq_ok {x : Except ε α} {f : α → Except ε β} :
    x >>= f = .ok b ↔ ∃ a, x = .ok a ∧ f a = .ok b := by
  cases x <;> simp [bind, Except.bind]

theorem getString_eq_ok {j : Json} : j.getString = .ok s ↔ j = .string s := by
  cases j <;> simp [Json.getString]

theorem getBytes_eq_ok : getBytes conv j = .ok bytes ↔
    ∃ elements, j = .array elements ∧ elements.mapM (getByte conv) = .ok bytes := by
  cases j <;> simp [getBytes]

theorem index_eq_ok {members : List (String × Json)} (hj : j ≠ .null) :
    index (.object members) key = .ok j ↔ members.lookup key = some j := by
  cases h : members.lookup key with
  | none => simp [index, h, hj.symm]
  | some j' => simp [index, h]

theorem index_string (hj : j ≠ .null) (h : index parsed key = .ok j) :
    ∃ members, parsed = .object members := by
  cases parsed with
  | object members => exact ⟨members, rfl⟩
  | null => exact absurd (Except.ok.inj h).symm hj
  | _ => cases h

theorem decodeEnvelope_eq_ok :
    decodeEnvelope conv nl text = .ok packet ↔
      ∃ members c i t, nl.parse text = .ok (.object members) ∧
        members.lookup "client_id" = some (.string packet.senderId) ∧
        members.lookup "ciphertext" = some (.array c) ∧ members.lookup "iv" = some (.array i) ∧
        members.lookup "tag" = some (.array t) ∧
        c.mapM (getByte conv) = .ok packet.encryptedPayload ∧
        i.mapM (getByte conv) = .ok packet.iv ∧ t.mapM (getByte conv) = .ok packet.tag := by
  have hstring {s : String} : Json.string s ≠ .null := nofun
  have harray {elements : List Json} : Json.array elements ≠ .null := nofun
  simp only [decodeEnvelope, bind_eq_ok, getString_eq_ok, getBytes_eq_ok]
  constructor
  · rintro ⟨parsed, hparse, _, hid, senderId, rfl, _, hc, payload, ⟨c, rfl, hpayload⟩, _, hi, iv,
      ⟨i, rfl, hiv⟩, _, ht, tag, ⟨t, rfl, htag⟩, hpacket⟩
    obtain ⟨members, rfl⟩ := index_string hstring hid
    obtain rfl := Except.ok.inj hpacket
    exact ⟨members, c, i, t, hparse, (index_eq_ok hstring).mp hid, (index_eq_ok harray).mp hc,
      (index_eq_ok harray).mp hi, (index_eq_ok harray).mp ht, hpayload, hiv, htag⟩
  · rintro ⟨members, c, i, t, hparse, hid, hc, hi, ht, hpayload, hiv, htag⟩
    exact ⟨_, hparse, _, (index_eq_ok hstring).mpr hid, _, rfl, _, (index_eq_ok harray).mpr hc, _,
      ⟨c, rfl, hpayload⟩, _, (index_eq_ok harray).mpr hi, _, ⟨i, rfl, hiv⟩, _,
      (index_eq_ok harray).mpr ht, _, ⟨t, rfl, htag⟩, rfl⟩

-- ---------------------------------------------------------------------------
-- One message, and two
-- ---------------------------------------------------------------------------

theorem EnvelopeOf.decode (conv : Conversions) (h : EnvelopeOf nl text packet) :
    decodeEnvelope conv nl text = .ok packet := by
  obtain ⟨members, c, i, t, hparse, hid, hc, hi, ht, hsc, hsi, hst⟩ := h
  exact decodeEnvelope_eq_ok.mpr ⟨members, c, i, t, hparse, hid, hc, hi, ht,
    (mapM_eq_ok_iff_spells hsc.isByte).mpr hsc, (mapM_eq_ok_iff_spells hsi.isByte).mpr hsi,
    (mapM_eq_ok_iff_spells hst.isByte).mpr hst⟩

theorem InRange.envelopeOf (hr : InRange nl text) (h : decodeEnvelope conv nl text = .ok packet) :
    EnvelopeOf nl text packet := by
  obtain ⟨members, c, i, t, hparse, hid, hc, hi, ht, hpayload, hiv, htag⟩ :=
    decodeEnvelope_eq_ok.mp h
  have hbyte := hr members packet.senderId c i t hparse hid hc hi ht (by
    simp only [List.forall_mem_append]
    exact ⟨⟨convertible_of_mapM_ok hpayload, convertible_of_mapM_ok hiv⟩,
      convertible_of_mapM_ok htag⟩)
  simp only [List.forall_mem_append] at hbyte
  obtain ⟨⟨hbc, hbi⟩, hbt⟩ := hbyte
  exact ⟨members, c, i, t, hparse, hid, hc, hi, ht, (mapM_eq_ok_iff_spells hbc).mp hpayload,
    (mapM_eq_ok_iff_spells hbi).mp hiv, (mapM_eq_ok_iff_spells hbt).mp htag⟩

theorem exactFormat_of_inRange (conv : Conversions) (hr : InRange nl text) :
    ExactFormat conv nl text where
  noEscape now decrypt node := outcome_rawTelemetryCallback conv nl now decrypt text node
  called now decrypt node packet := by
    rw [call_rawTelemetryCallback]
    exact ⟨hr.envelopeOf, EnvelopeOf.decode conv⟩
  otherwise hnone := by
    cases h : decodeEnvelope conv nl text with
    | error e => exact ⟨_, rawTelemetryCallback_rejected h⟩
    | ok packet => exact absurd ⟨packet, hr.envelopeOf h⟩ hnone

theorem ExactFormat.envelopeOf (he : ExactFormat conv nl text)
    (h : decodeEnvelope conv nl text = .ok packet) : EnvelopeOf nl text packet := by
  let decrypt : Decryptor := fun _ _ _ _ _ => (false, [])
  exact (he.called 0 decrypt {} packet).mp ((call_rawTelemetryCallback ..).mpr h)

theorem ExactFormat.inRange (he : ExactFormat conv nl text) : InRange nl text := by
  intro members senderId c i t hparse hid hc hi ht hconv
  simp only [List.forall_mem_append] at hconv ⊢
  obtain ⟨⟨hcc, hci⟩, hct⟩ := hconv
  obtain ⟨encryptedPayload, hpayload⟩ := exists_mapM_ok conv hcc
  obtain ⟨iv, hiv⟩ := exists_mapM_ok conv hci
  obtain ⟨tag, htag⟩ := exists_mapM_ok conv hct
  have hdecode : decodeEnvelope conv nl text = .ok { senderId, encryptedPayload, iv, tag } :=
    decodeEnvelope_eq_ok.mpr ⟨members, c, i, t, hparse, hid, hc, hi, ht, hpayload, hiv, htag⟩
  obtain ⟨members', c', i', t', hparse', -, hc', hi', ht', hsc, hsi, hst⟩ :=
    he.envelopeOf hdecode
  obtain rfl : members = members' := by simpa [hparse] using hparse'
  obtain rfl : c = c' := by simpa [hc] using hc'
  obtain rfl : i = i' := by simpa [hi] using hi'
  obtain rfl : t = t' := by simpa [ht] using ht'
  exact ⟨⟨hsc.isByte, hsi.isByte⟩, hst.isByte⟩

theorem elementsOf_array (hparse : nl.parse text = .ok (.object members))
    (h : members.lookup key = some (.array elements)) :
    elementsOf nl text key = some (elements.map integer?) := by
  simp [elementsOf, hparse, h]

theorem EnvelopeOf.separated (h : EnvelopeOf nl text packet) (h' : EnvelopeOf nl text' packet) :
    ∀ key ∈ ["ciphertext", "iv", "tag"], elementsOf nl text key = elementsOf nl text' key := by
  obtain ⟨members, c, i, t, hparse, -, hc, hi, ht, hsc, hsi, hst⟩ := h
  obtain ⟨members', c', i', t', hparse', -, hc', hi', ht', hsc', hsi', hst'⟩ := h'
  intro key hkey
  obtain rfl | rfl | rfl : key = "ciphertext" ∨ key = "iv" ∨ key = "tag" := by simpa using hkey
  · rw [elementsOf_array hparse hc, elementsOf_array hparse' hc', hsc.unique hsc']
  · rw [elementsOf_array hparse hi, elementsOf_array hparse' hi', hsi.unique hsi']
  · rw [elementsOf_array hparse ht, elementsOf_array hparse' ht', hst.unique hst']

theorem exactFormats_iff (conv : Conversions) (nl : Nlohmann) (text text' : Bytes) :
    ExactFormats conv nl text text' ↔ InRange nl text ∧ InRange nl text' := by
  constructor
  · intro h
    exact ⟨h.left.inRange, h.right.inRange⟩
  · rintro ⟨hr, hr'⟩
    exact {
      left := exactFormat_of_inRange conv hr
      right := exactFormat_of_inRange conv hr'
      separated := by
        intro now decrypt node now' decrypt' node' packet h h'
        rw [call_rawTelemetryCallback] at h h'
        exact (hr.envelopeOf h).separated (hr'.envelopeOf h') }

def envelope (element : Json) : Json :=
  .object [("client_id", .string "a"), ("ciphertext", .array [element]), ("iv", .array []),
    ("tag", .array [])]

def outOfRangeText : String :=
  "\x7b\"client_id\":\"a\",\"ciphertext\":[256],\"iv\":[],\"tag\":[]\x7d"

/-- 256 is taken for 0. -/
theorem exactFormats_fails :
    ¬ExactFormats ⟨fun _ => 0, fun _ => ""⟩
      (.ofText outOfRangeText (envelope (.numberUnsigned 256)))
      outOfRangeText.toUTF8.toList outOfRangeText.toUTF8.toList := by
  intro h
  have hbyte := h.left.inRange _ "a" [.numberUnsigned 256] [] []
    (Nlohmann.parse_ofText _ _) rfl rfl rfl rfl (by simp [Convertible, Json.isNumber])
  obtain ⟨n, hn, -, hle⟩ := hbyte (.numberUnsigned 256) (by simp)
  obtain rfl : (256 : Int) = n := Option.some.inj hn
  omega

end SecureTelemetryGateway.Ros
