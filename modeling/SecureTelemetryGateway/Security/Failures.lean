import SecureTelemetryGateway.Security.RoundTrip

/-!
# Calls that fail

Of the OpenSSL calls, encryption looks at the allocation only and decryption at
the allocation and the last. The buffers are resized and written before any
other failure could show.
-/

namespace SecureTelemetryGateway.Security

open Lib

theorem length_writeAt {v bs : Bytes} (h : bs.length ≤ v.length) :
    (writeAt v 0 bs).length = v.length := by
  simp only [writeAt, List.take_zero, List.nil_append, List.length_append, List.length_drop]
  omega

theorem length_of_update {ctx ctx' : CipherCtx} (h : ctx.update ok input inl = some (ctx', bs)) :
    bs.length ≤ input.length := by
  unfold CipherCtx.update at h
  split at h
  · simp only [Option.some.injEq, Prod.mk.injEq] at h
    obtain ⟨-, rfl⟩ := h
    simp
  · cases h

theorem length_updateInto (ok : Bool) (ctx : CipherCtx) (inl : Int)
    (h : input.length ≤ out.length) :
    (updateInto ok ctx input inl out).out.length = out.length := by
  unfold updateInto
  split
  · next ctx' bs hu => exact length_writeAt ((length_of_update hu).trans h)
  · rfl

namespace SecurityEngine

-- ---------------------------------------------------------------------------
-- Decryption
-- ---------------------------------------------------------------------------

def RevealsNothing (evp : EvpOutcomes) (ciphertext key iv tag : Bytes) : Prop :=
  ∀ plaintext, (decryptAesGcm evp ciphertext key iv tag plaintext).1 = false →
    (decryptAesGcm evp ciphertext key iv tag plaintext).2 = plaintext

def given (evp : EvpOutcomes) (ciphertext : Bytes) : Bytes :=
  if evp.update then ciphertext.take (evpLength ciphertext.length) else []

def Authentic (evp : EvpOutcomes) (ciphertext key iv tag : Bytes) : Prop :=
  evp.initCipher = true ∧ evp.initKey = true ∧ evp.tag = true ∧ evp.final = true ∧
    tag = Gcm.tag (aes key) iv [] (given evp ciphertext)

def started (evp : EvpOutcomes) (key iv : Bytes) : CipherCtx :=
  (({} : CipherCtx).initCipher evp.initCipher |>.setIvlen evp.setIvlen iv.length
    |>.initKey evp.initKey key iv)

variable {evp : EvpOutcomes} {key iv tag : Bytes}

theorem started_eq_keyed (hi : iv.length = 12) (hc : evp.initCipher = true)
    (hk : evp.initKey = true) : started evp key iv = keyed key iv := by
  cases hs : evp.setIvlen <;>
    simp [started, CipherCtx.initCipher, CipherCtx.setIvlen, CipherCtx.initKey, keyed, hc, hk, hi]

theorem keySet_started :
    (started evp key iv).keySet = true ↔ evp.initCipher = true ∧ evp.initKey = true := by
  cases hc : evp.initCipher <;> cases hs : evp.setIvlen <;> cases hk : evp.initKey <;>
    simp [started, CipherCtx.initCipher, CipherCtx.setIvlen, CipherCtx.initKey, hc, hs, hk]

def finalAccepts (evp : EvpOutcomes) (ciphertext key iv tag out : Bytes) : Bool :=
  ((updateInto evp.update (started evp key iv) ciphertext (toInt ciphertext.length) out).ctx.setTag
    evp.tag tag).decryptFinal evp.final

theorem decryptAesGcm_sized (hk : key.length = 32) (hi : iv.length = 12) (ht : tag.length = 16)
    (hc : evp.ctxNew = true) (plaintext : Bytes) :
    ((decryptAesGcm evp ciphertext key iv tag plaintext).1 = true ↔
      finalAccepts evp ciphertext key iv tag (resize plaintext ciphertext.length) = true) ∧
    ((decryptAesGcm evp ciphertext key iv tag plaintext).1 = false →
      (decryptAesGcm evp ciphertext key iv tag plaintext).2.length = ciphertext.length) := by
  have hcheck : ¬(key.length ≠ 32 ∨ iv.length ≠ 12 ∨ tag.length ≠ 16) := by simp [hk, hi, ht]
  have hlength : (updateInto evp.update (started evp key iv) ciphertext (toInt ciphertext.length)
      (resize plaintext ciphertext.length)).out.length =
        (resize plaintext ciphertext.length).length :=
    length_updateInto evp.update (started evp key iv) (toInt ciphertext.length) (by simp)
  rw [decryptAesGcm, if_neg hcheck, if_neg (by simp [hc])]
  simp only [finalAccepts, started] at hlength ⊢
  split
  · next hf => simp [hf]
  · next hf => simpa [hf] using hlength

theorem finalAccepts_iff (hi : iv.length = 12) (out : Bytes) :
    finalAccepts evp ciphertext key iv tag out = true ↔ Authentic evp ciphertext key iv tag := by
  unfold finalAccepts Authentic
  by_cases hstarted : evp.initCipher = true ∧ evp.initKey = true
  · obtain ⟨hc, hk⟩ := hstarted
    have hctx : (updateInto evp.update (keyed key iv) ciphertext (toInt ciphertext.length)
        out).ctx = { keyed key iv with text := given evp ciphertext } := by
      cases hu : evp.update with
      | true =>
        rw [updateInto_keyed _ _ _ (evpLength_le _)]
        simp [given, hu, evpLength]
      | false => simp [updateInto, CipherCtx.update, given, hu, keyed]
    rw [started_eq_keyed hi hc hk, hctx]
    cases hset : evp.tag with
    | true =>
      cases hf : evp.final with
      | true => simp [hc, hk, decryptFinal_keyed]
      | false => simp [CipherCtx.decryptFinal]
    | false =>
      -- no tag has been set, and no tag is empty
      have hne : ([] : Bytes) ≠ Gcm.tag (aes key) iv [] (given evp ciphertext) := by
        intro h
        simpa using congrArg List.length h
      simp [CipherCtx.setTag, CipherCtx.decryptFinal, CipherCtx.cipher, keyed, hne]
  · have hkey : (started evp key iv).keySet = false := by
      have hset := @keySet_started evp key iv
      simpa [← hset] using hstarted
    have hupdate : (started evp key iv).update evp.update ciphertext (toInt ciphertext.length) =
        none := by
      simp [CipherCtx.update, hkey]
    have hfinal : (((started evp key iv).setTag evp.tag tag).decryptFinal evp.final) = false := by
      unfold CipherCtx.setTag
      split <;> simp [CipherCtx.decryptFinal, hkey]
    simp only [updateInto, hupdate, hfinal, Bool.false_eq_true, false_iff]
    exact fun h => hstarted ⟨h.1, h.2.1⟩

theorem revealsNothing_iff (evp : EvpOutcomes) (ciphertext key iv tag : Bytes) :
    RevealsNothing evp ciphertext key iv tag ↔
      key.length ≠ 32 ∨ iv.length ≠ 12 ∨ tag.length ≠ 16 ∨ evp.ctxNew = false ∨
        Authentic evp ciphertext key iv tag := by
  by_cases hcheck : key.length ≠ 32 ∨ iv.length ≠ 12 ∨ tag.length ≠ 16
  · refine iff_of_true (fun plaintext _ => ?_) (by tauto)
    rw [decryptAesGcm, if_pos hcheck]
  · obtain ⟨hk, hi, ht⟩ : key.length = 32 ∧ iv.length = 12 ∧ tag.length = 16 := by
      simpa [not_or] using hcheck
    simp only [hk, hi, ht, ne_eq, not_true_eq_false, false_or]
    cases hc : evp.ctxNew with
    | false =>
      refine iff_of_true (fun plaintext _ => ?_) (.inl rfl)
      rw [decryptAesGcm, if_neg hcheck, if_pos (by simp [hc])]
    | true =>
      simp only [Bool.true_eq_false, false_or]
      constructor
      · intro h
        by_contra hna
        -- a vector of another length does not keep its length
        let plaintext : Bytes := List.replicate (ciphertext.length + 1) 0
        obtain ⟨haccepts, hlength⟩ :=
          @decryptAesGcm_sized evp key iv tag ciphertext hk hi ht hc plaintext
        rw [finalAccepts_iff hi] at haccepts
        have hrefused := Bool.eq_false_iff.mpr (mt haccepts.mp hna)
        have hkept := hlength hrefused
        rw [h _ hrefused, List.length_replicate] at hkept
        omega
      · intro ha plaintext hrefused
        have htrue := (decryptAesGcm_sized hk hi ht hc plaintext).1.mpr
          ((finalAccepts_iff hi _).mpr ha)
        rw [htrue] at hrefused
        cases hrefused

/-- What a packet with a wrong tag leaves is its plaintext. -/
theorem decryptAesGcm_wrongTag (hk : key.length = 32) (hi : iv.length = 12) (ht : tag.length = 16)
    (hlt : plaintext.length < 2 ^ 31)
    (hne : tag ≠ (Gcm.encrypt (aes key) iv [] plaintext).2) :
    decryptAesGcm {} (Gcm.encrypt (aes key) iv [] plaintext).1 key iv tag [] =
      (false, plaintext) := by
  have hlength : (Gcm.encrypt (aes key) iv [] plaintext).1.length = plaintext.length := by
    simp [Gcm.encrypt]
  have htake : (Gcm.encrypt (aes key) iv [] plaintext).1.take (evpLength plaintext.length) =
      (Gcm.encrypt (aes key) iv [] plaintext).1 := by
    rw [evpLength_eq_of_lt hlt, ← hlength, List.take_length]
  have hrefused : Gcm.decrypt (aes key) iv [] (Gcm.encrypt (aes key) iv [] plaintext).1 tag =
      none := if_neg hne
  rw [decryptAesGcm_eq hk hi ht, leftover, hlength, htake, hrefused]
  simp only [Gcm.encrypt, Gcm.crypt_crypt]
  rw [writeAt_of_length_eq (by simp)]

def tamper : Bytes → Bytes
  | [] => []
  | b :: rest => (b ^^^ 0xff) :: rest

theorem length_tamper (tag : Bytes) : (tamper tag).length = tag.length := by
  cases tag <;> rfl

theorem tamper_ne (h : tag ≠ []) : tamper tag ≠ tag := by
  cases tag with
  | nil => exact absurd rfl h
  | cons b rest =>
    intro heq
    have hb : b ^^^ (b ^^^ 0xff) = b ^^^ b := congrArg (b ^^^ ·) (List.cons.inj heq).1
    rw [← UInt8.xor_assoc, UInt8.xor_self, UInt8.zero_xor] at hb
    cases hb

def zeroKey : Bytes := List.replicate 32 0

def zeroIv : Bytes := List.replicate 12 0

def sealedObject : Bytes × Bytes := Gcm.encrypt (aes zeroKey) zeroIv [] [0x7b, 0x7d]

theorem revealsNothing_fails :
    decryptAesGcm {} sealedObject.1 zeroKey zeroIv (tamper sealedObject.2) [] =
        (false, [0x7b, 0x7d]) ∧
      ¬RevealsNothing {} sealedObject.1 zeroKey zeroIv (tamper sealedObject.2) := by
  have htag : sealedObject.2.length = 16 := Gcm.length_tag ..
  have hwrong : tamper sealedObject.2 ≠ sealedObject.2 :=
    tamper_ne (List.ne_nil_of_length_pos (by rw [htag]; decide))
  have hrefused : decryptAesGcm {} sealedObject.1 zeroKey zeroIv (tamper sealedObject.2) [] =
      (false, [0x7b, 0x7d]) :=
    decryptAesGcm_wrongTag List.length_replicate List.length_replicate
      ((length_tamper _).trans htag) (by decide) hwrong
  refine ⟨hrefused, fun h => ?_⟩
  have hkept := h [] (by rw [hrefused])
  rw [hrefused] at hkept
  cases hkept

-- ---------------------------------------------------------------------------
-- Encryption
-- ---------------------------------------------------------------------------

/-- A success means that every call succeeded and the outputs are the
encryption of the whole plaintext. -/
def Honest (evp : EvpOutcomes) (plaintext key iv : Bytes) : Prop :=
  ∀ c₀ t₀ c t, encryptAesGcm evp plaintext key iv c₀ t₀ = (true, c, t) →
    evp = {} ∧ (c, t) = Gcm.encrypt (aes key) iv [] plaintext

theorem encryptAesGcm_sized (hk : key.length = 32) (hi : iv.length = 12)
    (hc : evp.ctxNew = true) (plaintext c₀ t₀ : Bytes) :
    ∃ c t, encryptAesGcm evp plaintext key iv c₀ t₀ = (true, c, t) := by
  have hcheck : ¬(key.length ≠ 32 ∨ iv.length ≠ 12) := by simp [hk, hi]
  rw [encryptAesGcm, if_neg hcheck, if_neg (by simp [hc])]
  exact ⟨_, _, rfl⟩

/-- With every call succeeding, the bytes a length beyond `INT_MAX` leaves out
are missing. -/
theorem encrypt_given_iff :
    Gcm.encrypt E iv [] (plaintext.take (evpLength plaintext.length)) =
      Gcm.encrypt E iv [] plaintext ↔ plaintext.length < 2 ^ 31 := by
  constructor
  · intro h
    have hlength : (plaintext.take (evpLength plaintext.length)).length = plaintext.length := by
      simpa only [Gcm.encrypt, Gcm.length_crypt] using congrArg (·.1.length) h
    rw [List.length_take_of_le (evpLength_le _)] at hlength
    exact evpLength_eq_iff.1 hlength
  · intro h
    rw [evpLength_eq_of_lt h, List.take_length]

theorem honest_iff (evp : EvpOutcomes) (plaintext key iv : Bytes) :
    Honest evp plaintext key iv ↔
      key.length ≠ 32 ∨ iv.length ≠ 12 ∨ evp.ctxNew = false ∨
        (evp = {} ∧ plaintext.length < 2 ^ 31) := by
  by_cases hcheck : key.length ≠ 32 ∨ iv.length ≠ 12
  · refine iff_of_true (fun c₀ t₀ c t h => ?_) (by tauto)
    rw [encryptAesGcm, if_pos hcheck] at h
    cases h
  · obtain ⟨hk, hi⟩ : key.length = 32 ∧ iv.length = 12 := by simpa [not_or] using hcheck
    simp only [hk, hi, ne_eq, not_true_eq_false, false_or]
    cases hc : evp.ctxNew with
    | false =>
      refine iff_of_true (fun c₀ t₀ c t h => ?_) (.inl rfl)
      rw [encryptAesGcm, if_neg hcheck, if_pos (by simp [hc])] at h
      cases h
    | true =>
      simp only [Bool.true_eq_false, false_or]
      constructor
      · intro h
        obtain ⟨c, t, hencrypt⟩ := encryptAesGcm_sized hk hi hc plaintext [] []
        obtain ⟨rfl, hwhole⟩ := h [] [] c t hencrypt
        rw [encryptAesGcm_eq_iff hk hi] at hencrypt
        exact ⟨rfl, encrypt_given_iff.mp (hencrypt.trans hwhole)⟩
      · rintro ⟨rfl, hlt⟩ c₀ t₀ c t hencrypt
        rw [encryptAesGcm_eq_iff hk hi, encrypt_given_iff.mpr hlt] at hencrypt
        exact ⟨rfl, hencrypt.symm⟩

/-- Without a key there is nothing to write, and the answer is true. -/
theorem honest_fails :
    encryptAesGcm { initKey := false } [0x7b, 0x7d] zeroKey zeroIv [] [] =
        (true, [], List.replicate 16 0) ∧
      ¬Honest { initKey := false } [0x7b, 0x7d] zeroKey zeroIv := by
  have hencrypt : encryptAesGcm { initKey := false } [0x7b, 0x7d] zeroKey zeroIv [] [] =
      (true, [], List.replicate 16 0) := rfl
  refine ⟨hencrypt, fun h => ?_⟩
  exact absurd (h _ _ _ _ hencrypt).1 (by decide)

end SecurityEngine

end SecureTelemetryGateway.Security
