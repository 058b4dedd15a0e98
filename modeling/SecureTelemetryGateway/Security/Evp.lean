import SecureTelemetryGateway.Lib.Aes
import SecureTelemetryGateway.Models.TelemetryData

/-!
# The OpenSSL calls

What `EVP_*` does with an AES-256-GCM context: each call takes whether it is
made to fail, and a call that fails leaves the context and its outputs as they
were. A length is a C `int`. That a negative one is refused is an assumption,
which no vector of fewer than 2^31 bytes comes to.
-/

namespace SecureTelemetryGateway.Security

structure EvpOutcomes where
  ctxNew : Bool := true
  initCipher : Bool := true
  setIvlen : Bool := true
  initKey : Bool := true
  update : Bool := true
  final : Bool := true
  tag : Bool := true
  deriving DecidableEq

/-- `text` is the input so far: plaintext when encrypting, ciphertext when
decrypting. -/
structure CipherCtx where
  cipherSet : Bool := false
  ivlen : Nat := 12
  keySet : Bool := false
  key : Bytes := []
  iv : Bytes := []
  text : Bytes := []
  tag : Bytes := []
  finished : Bool := false

namespace CipherCtx

def cipher (ctx : CipherCtx) : Lib.Gcm.Cipher := Lib.Aes.encryptBlock ctx.key

/-- `EVP_EncryptInit_ex` and `EVP_DecryptInit_ex` with `EVP_aes_256_gcm()`. -/
def initCipher (ok : Bool) (ctx : CipherCtx) : CipherCtx :=
  if ok then { ctx with cipherSet := true } else ctx

/-- `EVP_CTRL_GCM_SET_IVLEN`. -/
def setIvlen (ok : Bool) (n : Nat) (ctx : CipherCtx) : CipherCtx :=
  if ok && ctx.cipherSet then { ctx with ivlen := n } else ctx

/-- `EVP_EncryptInit_ex` and `EVP_DecryptInit_ex` with a key and an IV. -/
def initKey (ok : Bool) (key iv : Bytes) (ctx : CipherCtx) : CipherCtx :=
  if ok && ctx.cipherSet then { ctx with keySet := true, key, iv := iv.take ctx.ivlen } else ctx

/-- `EVP_EncryptUpdate` and `EVP_DecryptUpdate`: the bytes written, or `none`
on failure, a negative length being assumed to be one. Counter mode does the
same in both directions. -/
def update (ok : Bool) (input : Bytes) (inl : Int) (ctx : CipherCtx) :
    Option (CipherCtx × Bytes) :=
  if ok && ctx.keySet && decide (0 ≤ inl) then
    let text := ctx.text ++ input.take inl.toNat
    some ({ ctx with text }, (Lib.Gcm.crypt ctx.cipher ctx.iv text).drop ctx.text.length)
  else none

/-- `EVP_EncryptFinal_ex`, which has nothing left to write and then sets `len`
to zero. -/
def encryptFinal (ok : Bool) (len : Int) (ctx : CipherCtx) : CipherCtx × Int :=
  if ok && ctx.keySet then ({ ctx with finished := true }, 0) else (ctx, len)

/-- `EVP_CTRL_GCM_GET_TAG`, refused before the end of the encryption. -/
def getTag (ok : Bool) (ctx : CipherCtx) : Option Bytes :=
  if ok && ctx.finished then
    some (Lib.Gcm.tag ctx.cipher ctx.iv [] (Lib.Gcm.crypt ctx.cipher ctx.iv ctx.text))
  else none

/-- `EVP_CTRL_GCM_SET_TAG` before the end of decryption. -/
def setTag (ok : Bool) (tag : Bytes) (ctx : CipherCtx) : CipherCtx :=
  if ok && ctx.cipherSet then { ctx with tag } else ctx

/-- Whether `EVP_DecryptFinal_ex` accepts the tag. -/
def decryptFinal (ok : Bool) (ctx : CipherCtx) : Bool :=
  ok && ctx.keySet && decide (ctx.tag = Lib.Gcm.tag ctx.cipher ctx.iv [] ctx.text)

end CipherCtx

end SecureTelemetryGateway.Security
