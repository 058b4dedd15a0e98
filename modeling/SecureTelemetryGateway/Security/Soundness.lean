import SecureTelemetryGateway.Security.Failures

/-!
# What a decryption answers true to

Whichever OpenSSL calls fail, the calls that are not looked at leave a context
on which the last one fails, or leave the ciphertext out. So an answer of true
vouches for the bytes the library was given, and for no others.
-/

namespace SecureTelemetryGateway.Security.SecurityEngine

open Lib

variable {evp : EvpOutcomes} {ciphertext key iv tag plaintext : Bytes}

def Accepted (evp : EvpOutcomes) (ciphertext key iv tag : Bytes) : Prop :=
  key.length = 32 ∧ iv.length = 12 ∧ tag.length = 16 ∧ evp.ctxNew = true ∧
    Authentic evp ciphertext key iv tag

structure Sound (evp : EvpOutcomes) (ciphertext key iv tag : Bytes) : Prop where
  /-- The answer and the plaintext owe nothing to the caller's vector. -/
  decrypts_iff : ∀ p₀ p, decryptAesGcm evp ciphertext key iv tag p₀ = (true, p) ↔
    Accepted evp ciphertext key iv tag ∧ p = Gcm.crypt (aes key) iv (given evp ciphertext)
  /-- With every call succeeding, the plaintext encrypts to the packet again, as
  far as the library was given it. -/
  encrypted : ∀ p₀ p, decryptAesGcm evp ciphertext key iv tag p₀ = (true, p) →
    ∀ c₀ t₀, encryptAesGcm {} p key iv c₀ t₀ = (true, given evp ciphertext, tag)
  /-- No other tag is accepted. -/
  oneTag : ∀ p₀ p, decryptAesGcm evp ciphertext key iv tag p₀ = (true, p) →
    ∀ tag' ≠ tag, ∀ p₁, (decryptAesGcm evp ciphertext key iv tag' p₁).1 = false
  /-- If the text came through, the answer is that of no call failing. -/
  cameThrough : ∀ p₀ p, decryptAesGcm evp ciphertext key iv tag p₀ = (true, p) →
    evp.update = true → ∀ p₁, decryptAesGcm {} ciphertext key iv tag p₁ = (true, p)

theorem given_length_lt (evp : EvpOutcomes) (ciphertext : Bytes) :
    (given evp ciphertext).length < 2 ^ 31 := by
  unfold given
  split
  · rw [List.length_take_of_le (evpLength_le _)]
    exact evpLength_lt _
  · decide

theorem decryptAesGcm_refused (h : ¬Accepted evp ciphertext key iv tag) (p₀ : Bytes) :
    (decryptAesGcm evp ciphertext key iv tag p₀).1 = false := by
  by_cases hcheck : key.length ≠ 32 ∨ iv.length ≠ 12 ∨ tag.length ≠ 16
  · rw [decryptAesGcm, if_pos hcheck]
  · obtain ⟨hk, hi, ht⟩ : key.length = 32 ∧ iv.length = 12 ∧ tag.length = 16 := by
      simpa [not_or] using hcheck
    cases hc : evp.ctxNew with
    | false => rw [decryptAesGcm, if_neg hcheck, if_pos (by simp [hc])]
    | true =>
      have hna : ¬Authentic evp ciphertext key iv tag := fun ha => h ⟨hk, hi, ht, hc, ha⟩
      have haccepts := (@decryptAesGcm_sized evp key iv tag ciphertext hk hi ht hc p₀).1
      rw [finalAccepts_iff hi] at haccepts
      exact Bool.eq_false_iff.mpr (mt haccepts.mp hna)

theorem written_eq (hi : iv.length = 12) (hc : evp.initCipher = true) (hk : evp.initKey = true)
    (out : Bytes) :
    let u := updateInto evp.update (started evp key iv) ciphertext (toInt ciphertext.length) out
    resize u.out (u.len + 0).toNat = Gcm.crypt (aes key) iv (given evp ciphertext) := by
  dsimp only
  rw [started_eq_keyed hi hc hk]
  cases hu : evp.update with
  | true =>
    have hle := evpLength_le ciphertext.length
    have hgiven : given evp ciphertext = ciphertext.take (evpLength ciphertext.length) := by
      simp [given, hu]
    rw [hgiven]
    unfold evpLength at hle ⊢
    generalize toInt ciphertext.length = inl at hle ⊢
    rw [updateInto_keyed _ _ _ hle, add_zero, Int.toNat_natCast, resize_crypt _ _ _ _ hle]
  | false => simp [updateInto, CipherCtx.update, given, hu, resize, Gcm.crypt, Gcm.gctr]

theorem decryptAesGcm_accepted (h : Accepted evp ciphertext key iv tag) (p₀ : Bytes) :
    decryptAesGcm evp ciphertext key iv tag p₀ =
      (true, Gcm.crypt (aes key) iv (given evp ciphertext)) := by
  obtain ⟨hk, hi, ht, hc, ha⟩ := h
  have hcheck : ¬(key.length ≠ 32 ∨ iv.length ≠ 12 ∨ tag.length ≠ 16) := by simp [hk, hi, ht]
  have hfinal := (finalAccepts_iff hi (resize p₀ ciphertext.length)).mpr ha
  have hwritten := @written_eq evp ciphertext key iv hi ha.1 ha.2.1 (resize p₀ ciphertext.length)
  rw [decryptAesGcm, if_neg hcheck, if_neg (by simp [hc])]
  unfold finalAccepts started at hfinal
  unfold started at hwritten
  dsimp only at hwritten ⊢
  rw [if_pos hfinal, hwritten]

theorem decryptAesGcm_eq_true_iff (p₀ p : Bytes) :
    decryptAesGcm evp ciphertext key iv tag p₀ = (true, p) ↔
      Accepted evp ciphertext key iv tag ∧ p = Gcm.crypt (aes key) iv (given evp ciphertext) := by
  constructor
  · intro h
    have ha : Accepted evp ciphertext key iv tag := by
      by_contra hna
      have hrefused := decryptAesGcm_refused hna p₀
      rw [h] at hrefused
      cases hrefused
    rw [decryptAesGcm_accepted ha] at h
    exact ⟨ha, (Prod.mk.inj h).2.symm⟩
  · rintro ⟨ha, rfl⟩
    exact decryptAesGcm_accepted ha p₀

theorem encryptAesGcm_of_accepted (h : Accepted evp ciphertext key iv tag) (c₀ t₀ : Bytes) :
    encryptAesGcm {} (Gcm.crypt (aes key) iv (given evp ciphertext)) key iv c₀ t₀ =
      (true, given evp ciphertext, tag) := by
  obtain ⟨hk, hi, -, -, -, -, -, -, htag⟩ := h
  rw [encryptAesGcm_eq_iff hk hi, Gcm.length_crypt, evpLength_eq_of_lt (given_length_lt ..),
    List.take_of_length_le (by simp), Gcm.encrypt, Gcm.crypt_crypt, htag]

/-- A size that is no `int` may come out negative, and what the library makes of
that is not in its documentation. -/
theorem soundDecryption (evp : EvpOutcomes) (key iv tag : Bytes)
    (_h : 0 ≤ toInt ciphertext.length) : Sound evp ciphertext key iv tag where
  decrypts_iff := decryptAesGcm_eq_true_iff
  encrypted := by
    intro p₀ p h c₀ t₀
    obtain ⟨ha, rfl⟩ := (decryptAesGcm_eq_true_iff p₀ p).mp h
    exact encryptAesGcm_of_accepted ha c₀ t₀
  oneTag := by
    intro p₀ p h tag' hne p₁
    obtain ⟨⟨-, -, -, -, ha⟩, -⟩ := (decryptAesGcm_eq_true_iff p₀ p).mp h
    refine decryptAesGcm_refused (fun ha' => hne ?_) p₁
    rw [ha'.2.2.2.2.2.2.2.2, ha.2.2.2.2]
  cameThrough := by
    intro p₀ p h hupdate p₁
    obtain ⟨⟨hk, hi, ht, hc, ha⟩, rfl⟩ := (decryptAesGcm_eq_true_iff p₀ p).mp h
    have hgiven : given {} ciphertext = given evp ciphertext := by simp [given, hupdate]
    have htag : Authentic {} ciphertext key iv tag :=
      ⟨rfl, rfl, rfl, rfl, by rw [hgiven]; exact ha.2.2.2.2⟩
    rw [decryptAesGcm_eq_true_iff, hgiven]
    exact ⟨⟨hk, hi, ht, rfl, htag⟩, rfl⟩

theorem soundDecryption_sealedObject :
    decryptAesGcm {} sealedObject.1 zeroKey zeroIv sealedObject.2 [0xff] = (true, [0x7b, 0x7d]) ∧
      ∀ p, (decryptAesGcm {} sealedObject.1 zeroKey zeroIv (tamper sealedObject.2) p).1 =
        false := by
  have hlength : sealedObject.1.length = 2 := Gcm.length_crypt ..
  have htag : sealedObject.2.length = 16 := Gcm.length_tag ..
  have hgiven : given {} sealedObject.1 = sealedObject.1 := by
    rw [given, if_pos rfl, hlength, evpLength_eq_of_lt (by decide),
      List.take_of_length_le hlength.le]
  have hsound : Sound {} sealedObject.1 zeroKey zeroIv sealedObject.2 :=
    soundDecryption {} zeroKey zeroIv sealedObject.2 (by rw [hlength]; decide)
  have hopens : decryptAesGcm {} sealedObject.1 zeroKey zeroIv sealedObject.2 [0xff] =
      (true, [0x7b, 0x7d]) := by
    refine (hsound.decrypts_iff _ _).mpr ⟨⟨List.length_replicate, List.length_replicate, htag, rfl,
      rfl, rfl, rfl, rfl, ?_⟩, ?_⟩
    · rw [hgiven, sealedObject, Gcm.encrypt]
    · rw [hgiven, sealedObject, Gcm.encrypt, Gcm.crypt_crypt]
  exact ⟨hopens, hsound.oneTag _ _ hopens _
    (tamper_ne (List.ne_nil_of_length_pos (by rw [htag]; decide)))⟩

end SecureTelemetryGateway.Security.SecurityEngine
