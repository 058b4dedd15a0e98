import SecureTelemetryGateway.Security.SecurityEngine

/-!
# Encryption against decryption

The narrowing of a vector's size to `int` is the one thing that keeps the two
functions from being inverse to each other: up to `INT_MAX` bytes they are, and
from there on neither direction of the law survives.
-/

namespace SecureTelemetryGateway.Security.SecurityEngine

open Lib

def RoundTrips (key iv plaintext : Bytes) : Prop :=
  ∀ c₀ t₀ p₀ c t, encryptAesGcm {} plaintext key iv c₀ t₀ = (true, c, t) →
    c.length = plaintext.length ∧ decryptAesGcm {} c key iv t p₀ = (true, plaintext)

def OpensOnlyEncryption (key iv c t : Bytes) : Prop :=
  ∀ p₀ p, decryptAesGcm {} c key iv t p₀ = (true, p) →
    ∀ c₀ t₀, encryptAesGcm {} p key iv c₀ t₀ = (true, c, t)

theorem encryptAesGcm_eq_iff (hk : key.length = 32) (hi : iv.length = 12) :
    encryptAesGcm {} plaintext key iv c₀ t₀ = (true, c, t) ↔
      Gcm.encrypt (aes key) iv [] (plaintext.take (evpLength plaintext.length)) = (c, t) := by
  rw [encryptAesGcm_eq hk hi, Prod.mk.injEq]
  exact and_iff_right rfl

theorem decryptAesGcm_eq_iff (hk : key.length = 32) (hi : iv.length = 12) (ht : t.length = 16) :
    decryptAesGcm {} c key iv t p₀ = (true, p) ↔
      Gcm.decrypt (aes key) iv [] (c.take (evpLength c.length)) t = some p := by
  rw [decryptAesGcm_eq hk hi ht]
  cases Gcm.decrypt (aes key) iv [] (c.take (evpLength c.length)) t <;> simp

theorem decrypt_eq_some_iff :
    Gcm.decrypt E iv [] text t = some p ↔ t = Gcm.tag E iv [] text ∧ Gcm.crypt E iv text = p := by
  simp [Gcm.decrypt]

theorem length_of_encrypt (h : Gcm.encrypt E iv [] plaintext = (c, t)) :
    c.length = plaintext.length ∧ t.length = 16 := by
  obtain ⟨rfl, rfl⟩ := Prod.mk.inj h
  simp

theorem roundTrips_iff (hk : key.length = 32) (hi : iv.length = 12) :
    RoundTrips key iv plaintext ↔ plaintext.length < 2 ^ 31 := by
  constructor
  · intro h
    have henc : encryptAesGcm {} plaintext key iv [] [] = (true, _, _) :=
      (encryptAesGcm_eq_iff hk hi).2 rfl
    have hlen := (h [] [] [] _ _ henc).1
    rw [(length_of_encrypt rfl).1, List.length_take_of_le (evpLength_le _)] at hlen
    exact evpLength_eq_iff.1 hlen
  · intro h c₀ t₀ p₀ c t henc
    rw [encryptAesGcm_eq_iff hk hi, evpLength_eq_of_lt h, List.take_length] at henc
    obtain ⟨hc, ht⟩ := length_of_encrypt henc
    refine ⟨hc, (decryptAesGcm_eq_iff hk hi ht).2 ?_⟩
    rw [hc, evpLength_eq_of_lt h, ← hc, List.take_length]
    have := Gcm.decrypt_encrypt (aes key) iv [] plaintext
    rwa [henc] at this

theorem encryptAesGcm_of_decryptAesGcm (hk : key.length = 32) (hi : iv.length = 12)
    (ht : t.length = 16) (h : decryptAesGcm {} c key iv t p₀ = (true, p)) :
    encryptAesGcm {} p key iv c₀ t₀ = (true, c.take (evpLength c.length), t) := by
  have henc := Gcm.encrypt_of_decrypt ((decryptAesGcm_eq_iff hk hi ht).1 h)
  have hp : p.length < 2 ^ 31 := by
    rw [← (length_of_encrypt henc).1, List.length_take_of_le (evpLength_le _)]
    exact evpLength_lt _
  rw [encryptAesGcm_eq_iff hk hi, evpLength_eq_of_lt hp, List.take_length]
  exact henc

theorem opensOnlyEncryption_iff (hk : key.length = 32) (hi : iv.length = 12)
    (ht : t.length = 16) :
    OpensOnlyEncryption key iv c t ↔
      c.length < 2 ^ 31 ∨ t ≠ Gcm.tag (aes key) iv [] (c.take (evpLength c.length)) := by
  constructor
  · intro h
    refine or_iff_not_imp_right.2 fun htag => ?_
    have hdec : decryptAesGcm {} c key iv t [] = (true, _) :=
      (decryptAesGcm_eq_iff hk hi ht).2 (decrypt_eq_some_iff.2 ⟨not_not.1 htag, rfl⟩)
    -- the one call encrypts `p` to `c` by assumption and to what was looked at of `c`
    have hcut : c.take (evpLength c.length) = c :=
      (Prod.mk.inj (Prod.mk.inj ((encryptAesGcm_of_decryptAesGcm hk hi ht hdec).symm.trans
        (h _ _ hdec [] []))).2).1
    rw [List.take_eq_self_iff] at hcut
    exact evpLength_eq_iff.1 (le_antisymm (evpLength_le _) hcut)
  · rintro (h | h) p₀ p hdec c₀ t₀
    · have henc : encryptAesGcm {} p key iv c₀ t₀ = _ :=
        encryptAesGcm_of_decryptAesGcm hk hi ht hdec
      rwa [evpLength_eq_of_lt h, List.take_length] at henc
    · exact absurd (decrypt_eq_some_iff.1 ((decryptAesGcm_eq_iff hk hi ht).1 hdec)).1 h

/-- A plaintext survives the way there and back exactly when its size is an
`int`, and a ciphertext is opened only where it is an encryption, whatever the
tag, exactly when its size is one. With one tag, that is so of a longer
ciphertext too, unless the tag is that of the part the library looks at. -/
theorem mutualInverses_iff (hk : key.length = 32) (hi : iv.length = 12) :
    (∀ plaintext, RoundTrips key iv plaintext ↔ plaintext.length < 2 ^ 31) ∧
      (∀ c, (∀ t, t.length = 16 → OpensOnlyEncryption key iv c t) ↔ c.length < 2 ^ 31) ∧
      ∀ c t, t.length = 16 → (OpensOnlyEncryption key iv c t ↔
        c.length < 2 ^ 31 ∨ t ≠ Gcm.tag (aes key) iv [] (c.take (evpLength c.length))) := by
  refine ⟨fun plaintext => roundTrips_iff hk hi, fun c => ⟨fun h => ?_, fun h t ht => ?_⟩,
    fun c t ht => opensOnlyEncryption_iff hk hi ht⟩
  · have ht := Gcm.length_tag (aes key) iv [] (c.take (evpLength c.length))
    exact ((opensOnlyEncryption_iff hk hi ht).1 (h _ ht)).resolve_right (not_not.2 rfl)
  · exact (opensOnlyEncryption_iff hk hi ht).2 (.inl h)

theorem mutualInverses_iff_zeros :
    (∀ plaintext, RoundTrips (List.replicate 32 0) (List.replicate 12 0) plaintext ↔
        plaintext.length < 2 ^ 31) ∧
      (∀ c, (∀ t, t.length = 16 →
        OpensOnlyEncryption (List.replicate 32 0) (List.replicate 12 0) c t) ↔
          c.length < 2 ^ 31) ∧
      ∀ t, t.length = 16 →
        OpensOnlyEncryption (List.replicate 32 0) (List.replicate 12 0) [0] t := by
  have hk : (List.replicate 32 0 : Bytes).length = 32 := List.length_replicate
  have hi : (List.replicate 12 0 : Bytes).length = 12 := List.length_replicate
  obtain ⟨hplain, hcipher, heach⟩ := mutualInverses_iff hk hi
  exact ⟨hplain, hcipher, fun t ht => (heach [0] t ht).mpr (.inl (by decide))⟩

/-- 2 GiB of zeros do not come back, and 4 GiB and a byte of them are opened
with a tag of their first byte alone. -/
theorem mutualInverses_fail :
    ¬RoundTrips (List.replicate 32 0) (List.replicate 12 0) (List.replicate (2 ^ 31) 0) ∧
      ¬OpensOnlyEncryption (List.replicate 32 0) (List.replicate 12 0)
        (List.replicate (2 ^ 32 + 1) 0)
        (Gcm.tag (aes (List.replicate 32 0)) (List.replicate 12 0) [] [0]) := by
  constructor
  · rw [roundTrips_iff List.length_replicate List.length_replicate, List.length_replicate]
    omega
  · rw [opensOnlyEncryption_iff List.length_replicate List.length_replicate (Gcm.length_tag ..),
      List.length_replicate, List.take_replicate]
    have h1 : min (evpLength (2 ^ 32 + 1)) (2 ^ 32 + 1) = 1 := by
      unfold evpLength toInt; rw [Int.bmod_def]; omega
    rw [h1]
    rintro (h | h)
    · omega
    · exact h rfl

end SecureTelemetryGateway.Security.SecurityEngine
