import SecureTelemetryGateway.Publisher.Samples

/-!
# What a repeated nonce gives away

A tick whose random source fails encrypts under the nonce of zeros. Samples
under one nonce share the key stream: their ciphertexts differ as the texts do,
and whoever knows the one text, which is hardly secret, has the other. Their
tags share a mask, and what is left without it is an equation for the hash key.
-/

namespace SecureTelemetryGateway.Publisher

open Lib
open Ros (preSharedKey)
open Security.SecurityEngine

/-- OpenSSL does its part, on the whole text. -/
def Encrypts (e : Tick × EncryptCall) : Prop := e.1.evp = {} ∧ e.2.plaintext.length < 2 ^ 31

def zeroNonce : Bytes := List.replicate 12 0

def hashed (h : Gcm.Block) (ciphertext : Bytes) : Bytes :=
  Gcm.toBytes (Gcm.ghash h (Gcm.blocks [] ++ Gcm.blocks ciphertext ++ [Gcm.lengths [] ciphertext]))

/-- `e` and `e'` are encrypted with one key stream. -/
structure Leaks (e e' : Tick × EncryptCall) : Prop where
  differences : List.zipWith (· ^^^ ·) e.2.ciphertext e'.2.ciphertext =
    List.zipWith (· ^^^ ·) e.2.plaintext e'.2.plaintext
  recovered : e.2.plaintext.length ≤ e'.2.plaintext.length →
    List.zipWith (· ^^^ ·) (List.zipWith (· ^^^ ·) e.2.ciphertext e'.2.ciphertext)
      e'.2.plaintext = e.2.plaintext
  hashKey : List.zipWith (· ^^^ ·) e.2.tag e'.2.tag =
    List.zipWith (· ^^^ ·) (hashed (aes preSharedKey 0) e.2.ciphertext)
      (hashed (aes preSharedKey 0) e'.2.ciphertext)

structure Reuse (es : List (Tick × EncryptCall)) : Prop where
  /-- Two ticks share a nonce only if one of them had no random bytes, and the
  nonce is that of zeros. -/
  onlyZeros : ∀ (i j : Nat) (e e' : Tick × EncryptCall), i ≠ j → es[i]? = some e →
    es[j]? = some e' → e.2.iv = e'.2.iv →
      e.2.iv = zeroNonce ∧ (e.1.rand = none ∨ e'.1.rand = none)
  failures : ∀ e ∈ es, ∀ e' ∈ es, e.1.rand = none → e'.1.rand = none → e.2.iv = e'.2.iv
  leaks : ∀ e ∈ es, ∀ e' ∈ es, e.2.iv = e'.2.iv → Encrypts e → Encrypts e' → Leaks e e'

-- ---------------------------------------------------------------------------
-- Ticks
-- ---------------------------------------------------------------------------

theorem rand_ne (hd : NeverRepeats es) {i j : Nat} (hij : i < j) (he : es[i]? = some e)
    (he' : es[j]? = some e') (hb : e.1.rand = some bytes) (hb' : e'.1.rand = some bytes') :
    bytes ≠ bytes' := by
  have hpairwise := List.pairwise_iff_getElem.mp (List.pairwise_filterMap.mp hd)
  obtain ⟨hi, rfl⟩ := List.getElem?_eq_some_iff.mp he
  obtain ⟨hj, rfl⟩ := List.getElem?_eq_some_iff.mp he'
  exact hpairwise i j hi hj hij bytes hb bytes' hb'

theorem rand_ne_of_ne (hd : NeverRepeats es) {i j : Nat} (hij : i ≠ j) (he : es[i]? = some e)
    (he' : es[j]? = some e') (hb : e.1.rand = some bytes) (hb' : e'.1.rand = some bytes') :
    bytes ≠ bytes' := by
  rcases Nat.lt_or_gt_of_ne hij with hlt | hgt
  · exact rand_ne hd hlt he he' hb hb'
  · exact (rand_ne hd hgt he' he hb' hb).symm

theorem iv_of_mem (h : (publisher dump).Trace es node) (he : e ∈ es) :
    e.2.iv = match e.1.rand with
      | some bytes => bytes.toList
      | none => zeroNonce := by
  rw [(calls_of_trace h e he).2]
  cases e.1.rand with
  | none => rfl
  | some bytes => exact generateSecureRandomBytes_some bytes

theorem encrypted_of_mem (h : (publisher dump).Trace es node) (he : e ∈ es) (henc : Encrypts e) :
    (e.2.ciphertext, e.2.tag) = Gcm.encrypt (aes preSharedKey) e.2.iv [] e.2.plaintext := by
  obtain ⟨hevp, hlt⟩ := henc
  obtain ⟨i, hi⟩ := List.mem_iff_getElem?.mp he
  have hcall := (call_at h).2 i e hi
  obtain ⟨tick, call⟩ := e
  dsimp only at hevp hcall hlt
  subst hcall
  have hkey : preSharedKey.length = 32 := rfl
  have hiv : (generateSecureRandomBytes 12 tick.rand).length = 12 :=
    length_generateSecureRandomBytes tick.rand
  have hgiven : Security.evpLength (dump (payload (.ofNat i + 1) tick.now)).length =
      (dump (payload (.ofNat i + 1) tick.now)).length :=
    Security.evpLength_eq_of_lt hlt
  simp only [publishTelemetrySample, hevp, encryptAesGcm_eq hkey hiv, hgiven, List.take_length]

theorem leaks_of_iv_eq (h : (publisher dump).Trace es node) (he : e ∈ es) (he' : e' ∈ es)
    (hiv : e.2.iv = e'.2.iv) (henc : Encrypts e) (henc' : Encrypts e') : Leaks e e' := by
  obtain ⟨hc, ht⟩ := Prod.mk.inj (encrypted_of_mem h he henc)
  obtain ⟨hc', ht'⟩ := Prod.mk.inj (encrypted_of_mem h he' henc')
  rw [← hiv] at hc' ht'
  constructor
  · rw [hc, hc', Gcm.xor_crypt]
  · intro hle
    rw [hc, hc', Gcm.xor_recovers _ _ _ _ hle]
  · rw [ht, ht', Gcm.xor_tag, ← hc, ← hc']
    rfl

theorem noncesReused (h : (publisher dump).Trace es node) (hd : NeverRepeats es) : Reuse es where
  onlyZeros := by
    intro i j e e' hij he he' hiv
    have hmem := iv_of_mem h (List.mem_of_getElem? he)
    have hmem' := iv_of_mem h (List.mem_of_getElem? he')
    cases hr : e.1.rand with
    | none => exact ⟨by rw [hmem, hr], .inl rfl⟩
    | some bytes =>
      cases hr' : e'.1.rand with
      | none => exact ⟨by rw [hiv, hmem', hr'], .inr rfl⟩
      | some bytes' =>
        rw [hr] at hmem
        rw [hr'] at hmem'
        have hbytes : bytes = bytes' := Vector.toList_inj.mp (hmem.symm.trans (hiv.trans hmem'))
        exact absurd hbytes (rand_ne_of_ne hd hij he he' hr hr')
  failures := by
    intro e he e' he' hr hr'
    rw [iv_of_mem h he, iv_of_mem h he', hr, hr']
  leaks := fun e he e' he' => leaks_of_iv_eq h he he'

theorem noncesReused_failures : ∃ es, es.map Prod.fst = [failedTick, failedTick] ∧ Reuse es := by
  obtain ⟨es, node, h, hticks⟩ := exists_trace twoSamples [failedTick, failedTick]
  refine ⟨es, hticks, noncesReused h ?_⟩
  obtain ⟨e, rest, rfl, he, hrest⟩ := List.map_eq_cons_iff.mp hticks
  obtain ⟨e', rfl, he'⟩ := List.map_eq_singleton_iff.mp hrest
  simp [NeverRepeats, he, he', failedTick]

end SecureTelemetryGateway.Publisher
