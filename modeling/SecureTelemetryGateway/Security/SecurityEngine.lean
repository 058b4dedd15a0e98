import SecureTelemetryGateway.Security.Evp

/-!
# The security engine

`security_engine.cpp`. Output vectors are arguments and results, since the code
writes into the caller's buffers. With every OpenSSL call succeeding, both
directions are GCM on as many bytes as the `int` length says
(`encryptAesGcm_eq`, `decryptAesGcm_eq`).
-/

namespace SecureTelemetryGateway.Security

open Lib

/-- The conversion of a `size_t` to `int`. -/
def toInt (n : Nat) : Int := (n : Int).bmod (2 ^ 32)

def resize (v : Bytes) (n : Nat) : Bytes := v.take n ++ List.replicate (n - v.length) 0

def writeAt (v : Bytes) (offset : Nat) (bs : Bytes) : Bytes :=
  v.take offset ++ bs ++ v.drop (offset + bs.length)

structure Updated where
  ctx : CipherCtx
  out : Bytes
  len : Int

/-- `EVP_EncryptUpdate` and `EVP_DecryptUpdate` into a vector, `len` being zero
before. -/
def updateInto (ok : Bool) (ctx : CipherCtx) (input : Bytes) (inl : Int) (out : Bytes) : Updated :=
  match ctx.update ok input inl with
  | some (ctx, bs) => { ctx, out := writeAt out 0 bs, len := bs.length }
  | none => { ctx, out, len := 0 }

/-- `EVP_CTRL_GCM_GET_TAG` into a vector of 16 bytes. -/
def getTagInto (ok : Bool) (ctx : CipherCtx) (out : Bytes) : Bytes :=
  match ctx.getTag ok with
  | some tag => writeAt out 0 tag
  | none => out

namespace SecurityEngine

/-- `rand` is what `RAND_bytes` writes, or that it fails, writing nothing. Its
result is not looked at. -/
def generateSecureRandomBytes (length : Nat) (rand : Option (Vector UInt8 length)) : Bytes :=
  let buffer := List.replicate length 0
  match rand with
  | some bytes => writeAt buffer 0 bytes.toList
  | none => buffer

/-- A stub in the source: the arguments are not looked at. -/
def checkRateLimit (_clientId : String) (_maxRequestsPerSecond _burstCapacity : ℚ) : Bool := true

/-- The answer, the ciphertext and the tag; `ciphertext` and `tag` are the
output vectors as they come in. No call's result is looked at but the
allocation's. -/
def encryptAesGcm (evp : EvpOutcomes) (plaintext key iv ciphertext tag : Bytes) :
    Bool × Bytes × Bytes :=
  if key.length ≠ 32 ∨ iv.length ≠ 12 then (false, ciphertext, tag)
  else if !evp.ctxNew then (false, ciphertext, tag)
  else
    let ciphertext := resize ciphertext plaintext.length
    let tag := resize tag 16
    let ctx := (({} : CipherCtx).initCipher evp.initCipher |>.setIvlen evp.setIvlen iv.length
      |>.initKey evp.initKey key iv)
    let u := updateInto evp.update ctx plaintext (toInt plaintext.length) ciphertext
    let finished := u.ctx.encryptFinal evp.final u.len
    let ciphertextLen := u.len + finished.2
    (true, resize u.out ciphertextLen.toNat, getTagInto evp.tag finished.1 tag)

/-- The answer and the plaintext. The parameters are in the order of the
definition, which the declaration in the header does not have. -/
def decryptAesGcm (evp : EvpOutcomes) (ciphertext key iv tag plaintext : Bytes) : Bool × Bytes :=
  if key.length ≠ 32 ∨ iv.length ≠ 12 ∨ tag.length ≠ 16 then (false, plaintext)
  else if !evp.ctxNew then (false, plaintext)
  else
    let plaintext := resize plaintext ciphertext.length
    let ctx := (({} : CipherCtx).initCipher evp.initCipher |>.setIvlen evp.setIvlen iv.length
      |>.initKey evp.initKey key iv)
    let u := updateInto evp.update ctx ciphertext (toInt ciphertext.length) plaintext
    if (u.ctx.setTag evp.tag tag).decryptFinal evp.final then
      -- the final call has set `len` to zero
      (true, resize u.out (u.len + 0).toNat)
    else (false, u.out)

end SecurityEngine

-- ---------------------------------------------------------------------------
-- Buffers and lengths
-- ---------------------------------------------------------------------------

def evpLength (n : Nat) : Nat := (toInt n).toNat

theorem toInt_eq_of_lt (h : n < 2 ^ 31) : toInt n = n := by
  unfold toInt; rw [Int.bmod_def]; split <;> omega

theorem evpLength_eq_of_lt (h : n < 2 ^ 31) : evpLength n = n := by
  simp [evpLength, toInt_eq_of_lt h]

theorem evpLength_lt (n : Nat) : evpLength n < 2 ^ 31 := by
  unfold evpLength toInt; rw [Int.bmod_def]; split <;> omega

theorem evpLength_le (n : Nat) : evpLength n ≤ n := by
  unfold evpLength toInt; rw [Int.bmod_def]; split <;> omega

theorem evpLength_eq_iff : evpLength n = n ↔ n < 2 ^ 31 :=
  ⟨fun h => h ▸ evpLength_lt n, evpLength_eq_of_lt⟩

@[simp] theorem length_resize (v : Bytes) (n : Nat) : (resize v n).length = n := by
  simp [resize]; omega

theorem resize_writeAt (v bs : Bytes) : resize (writeAt v 0 bs) bs.length = bs := by
  simp [resize, writeAt]

theorem writeAt_of_length_eq {v bs : Bytes} (h : v.length = bs.length) : writeAt v 0 bs = bs := by
  simp [writeAt, ← h]

-- ---------------------------------------------------------------------------
-- Both directions, with every call succeeding
-- ---------------------------------------------------------------------------

namespace SecurityEngine

abbrev aes (key : Bytes) : Gcm.Cipher := Aes.encryptBlock key

def keyed (key iv : Bytes) : CipherCtx where
  cipherSet := true
  ivlen := iv.length
  keySet := true
  key
  iv

theorem init_eq_keyed (key iv : Bytes) :
    (({} : CipherCtx).initCipher true |>.setIvlen true iv.length |>.initKey true key iv) =
      keyed key iv := by
  simp [CipherCtx.initCipher, CipherCtx.setIvlen, CipherCtx.initKey, keyed]

theorem update_keyed (key iv input : Bytes) (inl : Int) :
    (keyed key iv).update true input inl =
      if 0 ≤ inl then
        some ({ keyed key iv with text := input.take inl.toNat },
          Gcm.crypt (aes key) iv (input.take inl.toNat))
      else none := by
  simp [CipherCtx.update, keyed, CipherCtx.cipher]

/-- A negative length makes the call fail, which is the same as taking no bytes. -/
theorem updateInto_keyed (key iv out : Bytes) (h : inl.toNat ≤ input.length) :
    updateInto true (keyed key iv) input inl out =
      { ctx := { keyed key iv with text := input.take inl.toNat }
        out := writeAt out 0 (Gcm.crypt (aes key) iv (input.take inl.toNat))
        len := inl.toNat } := by
  rw [updateInto, update_keyed]
  by_cases h0 : 0 ≤ inl
  · simp [h0, h]
  · have hz : inl.toNat = 0 := by omega
    simp [h0, hz, keyed, writeAt, Gcm.crypt, Gcm.gctr]

theorem encryptFinal_keyed (key iv text : Bytes) :
    ({ keyed key iv with text } : CipherCtx).encryptFinal true len =
      ({ keyed key iv with text, finished := true }, 0) := rfl

theorem getTagInto_keyed (key iv text : Bytes) (h : out.length = 16) :
    getTagInto true { keyed key iv with text, finished := true } out =
      Gcm.tag (aes key) iv [] (Gcm.crypt (aes key) iv text) := by
  have hget : ({ keyed key iv with text, finished := true } : CipherCtx).getTag true =
      some (Gcm.tag (aes key) iv [] (Gcm.crypt (aes key) iv text)) := rfl
  simp only [getTagInto, hget]
  exact writeAt_of_length_eq (by simp [h])

theorem decryptFinal_keyed (key iv text tag : Bytes) :
    (({ keyed key iv with text } : CipherCtx).setTag true tag).decryptFinal true =
      decide (tag = Gcm.tag (aes key) iv [] text) := rfl

theorem resize_crypt (E : Gcm.Cipher) (iv v input : Bytes) (h : k ≤ input.length) :
    resize (writeAt v 0 (Gcm.crypt E iv (input.take k))) k = Gcm.crypt E iv (input.take k) := by
  have := resize_writeAt v (Gcm.crypt E iv (input.take k))
  rwa [Gcm.length_crypt, List.length_take_of_le h] at this

theorem encryptAesGcm_eq (hk : key.length = 32) (hi : iv.length = 12) (c t : Bytes) :
    encryptAesGcm {} plaintext key iv c t =
      (true, Gcm.encrypt (aes key) iv [] (plaintext.take (evpLength plaintext.length))) := by
  have hcheck : ¬(key.length ≠ 32 ∨ iv.length ≠ 12) := by simp [hk, hi]
  have hle := evpLength_le plaintext.length
  unfold evpLength at hle ⊢
  rw [encryptAesGcm, if_neg hcheck, if_neg (by simp)]
  generalize toInt plaintext.length = inl at hle ⊢
  simp only [init_eq_keyed, updateInto_keyed _ _ _ hle, encryptFinal_keyed,
    getTagInto_keyed _ _ _ (length_resize t 16)]
  rw [add_zero, Int.toNat_natCast, resize_crypt _ _ _ _ hle, Gcm.encrypt]

def leftover (ciphertext key iv plaintext : Bytes) : Bytes :=
  writeAt (resize plaintext ciphertext.length) 0
    (Gcm.crypt (aes key) iv (ciphertext.take (evpLength ciphertext.length)))

theorem decryptAesGcm_eq (hk : key.length = 32) (hi : iv.length = 12) (ht : tag.length = 16)
    (p : Bytes) :
    decryptAesGcm {} ciphertext key iv tag p =
      match Gcm.decrypt (aes key) iv [] (ciphertext.take (evpLength ciphertext.length)) tag with
      | some plaintext => (true, plaintext)
      | none => (false, leftover ciphertext key iv p) := by
  have hcheck : ¬(key.length ≠ 32 ∨ iv.length ≠ 12 ∨ tag.length ≠ 16) := by simp [hk, hi, ht]
  have hle := evpLength_le ciphertext.length
  unfold leftover
  unfold evpLength at hle ⊢
  rw [decryptAesGcm, if_neg hcheck, if_neg (by simp)]
  generalize toInt ciphertext.length = inl at hle ⊢
  simp only [init_eq_keyed, updateInto_keyed _ _ _ hle, decryptFinal_keyed, decide_eq_true_eq]
  rw [add_zero, Int.toNat_natCast, resize_crypt _ _ _ _ hle, Gcm.decrypt]
  split <;> rfl

end SecurityEngine

end SecureTelemetryGateway.Security
