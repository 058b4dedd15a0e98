import Mathlib.Data.List.Basic

/-!
# Galois/Counter Mode over an arbitrary block cipher

With 128-bit tags. Nothing is assumed of the block cipher: that decryption
inverts encryption, and that only encryptions decrypt, rest on the counter mode
being an XOR with a key stream and the tag being a function of the ciphertext.
-/

namespace Lib.Gcm

abbrev Block := BitVec 128

abbrev Cipher := Block → Block

/-- The first 16 bytes as a big-endian block, zeros standing for missing ones. -/
def ofBytes (bs : List UInt8) : Block :=
  (List.range 16).foldl (fun acc i => acc <<< 8 ||| BitVec.ofNat 128 (bs.getD i 0).toNat) 0

def toBytes (b : Block) : List UInt8 :=
  (List.range 16).map fun i => UInt8.ofNat ((b >>> (8 * (15 - i))).toNat % 256)

@[simp] theorem length_toBytes (b : Block) : (toBytes b).length = 16 := by simp [toBytes]

def blocks (bs : List UInt8) : List Block :=
  (List.range ((bs.length + 15) / 16)).map fun i => ofBytes (bs.drop (16 * i))

/-- Multiplication in GF(2^128) with the reflected polynomial of the mode. -/
def mul (x y : Block) : Block :=
  ((List.range 128).foldl (fun (zv : Block × Block) i =>
    (if x.getMsbD i then zv.1 ^^^ zv.2 else zv.1,
     if zv.2.getLsbD 0 then zv.2 >>> 1 ^^^ (0xe1 : Block) <<< 120 else zv.2 >>> 1)) (0, y)).1

def ghash (h : Block) (xs : List Block) : Block := xs.foldl (fun y x => mul (y ^^^ x) h) 0

def lengths (aad text : List UInt8) : Block :=
  BitVec.ofNat 128 (8 * aad.length) <<< 64 ||| BitVec.ofNat 128 (8 * text.length)

-- ---------------------------------------------------------------------------
-- Counter mode
-- ---------------------------------------------------------------------------

def inc (b : Block) : Block := b >>> 32 <<< 32 ||| (b + 1) &&& 0xffffffff

def keystream (E : Cipher) (b : Block) : Nat → List UInt8
  | 0 => []
  | n + 1 => toBytes (E b) ++ keystream E (inc b) n

def gctr (E : Cipher) (b : Block) (text : List UInt8) : List UInt8 :=
  List.zipWith (· ^^^ ·) text (keystream E b ((text.length + 15) / 16))

theorem length_keystream (E : Cipher) (b : Block) (n : Nat) :
    (keystream E b n).length = 16 * n := by
  induction n generalizing b with
  | zero => rfl
  | succ n ih => simp [keystream, ih]; omega

theorem xor_xor_cancel (text ks : List UInt8) (h : text.length ≤ ks.length) :
    List.zipWith (· ^^^ ·) (List.zipWith (· ^^^ ·) text ks) ks = text := by
  induction text generalizing ks with
  | nil => simp
  | cons x xs ih =>
    cases ks with
    | nil => simp at h
    | cons k ks =>
      simp only [List.zipWith_cons_cons, UInt8.xor_assoc, UInt8.xor_self, UInt8.xor_zero]
      rw [ih ks (by simpa using h)]

@[simp] theorem length_gctr (E : Cipher) (b : Block) (text : List UInt8) :
    (gctr E b text).length = text.length := by
  simp only [gctr, List.length_zipWith, length_keystream]
  omega

theorem take_keystream (E : Cipher) (b : Block) (h : m ≤ n) :
    (keystream E b n).take (16 * m) = keystream E b m := by
  induction n generalizing b m with
  | zero => simp [Nat.le_zero.mp h, keystream]
  | succ n ih =>
    cases m with
    | zero => simp [keystream]
    | succ m =>
      have hlength : 16 * (m + 1) = (toBytes (E b)).length + 16 * m := by
        rw [length_toBytes, Nat.mul_succ, Nat.add_comm]
      rw [keystream, keystream, hlength, List.take_length_add_append,
        ih (inc b) (Nat.le_of_succ_le_succ h)]

theorem gctr_eq_of_le (E : Cipher) (b : Block) (h : (text.length + 15) / 16 ≤ n) :
    gctr E b text = List.zipWith (· ^^^ ·) text (keystream E b n) := by
  have hlength : text.length ≤ 16 * ((text.length + 15) / 16) := by omega
  calc gctr E b text
    _ = List.zipWith (· ^^^ ·) (text.take (16 * ((text.length + 15) / 16)))
          ((keystream E b n).take (16 * ((text.length + 15) / 16))) := by
        rw [take_keystream E b h, List.take_of_length_le hlength, gctr]
    _ = List.zipWith (· ^^^ ·) text (keystream E b n) := by
        rw [← List.take_zipWith, List.take_of_length_le]
        rw [List.length_zipWith]
        exact Nat.le_trans (Nat.min_le_left ..) hlength

theorem xor_common (x y ks : List UInt8) (hx : x.length ≤ ks.length) :
    List.zipWith (· ^^^ ·) (List.zipWith (· ^^^ ·) x ks) (List.zipWith (· ^^^ ·) y ks) =
      List.zipWith (· ^^^ ·) x y := by
  induction ks generalizing x y with
  | nil => simp [List.length_eq_zero_iff.mp (Nat.le_zero.mp hx)]
  | cons k ks ih =>
    cases x with
    | nil => simp
    | cons a x =>
      cases y with
      | nil => simp
      | cons b y =>
        have hcancel : a ^^^ k ^^^ (b ^^^ k) = a ^^^ b := by
          rw [UInt8.xor_comm b k, UInt8.xor_assoc, ← UInt8.xor_assoc k k b, UInt8.xor_self,
            UInt8.zero_xor]
        simp only [List.zipWith_cons_cons, hcancel]
        rw [ih x y (by simpa using hx)]

theorem xor_gctr (E : Cipher) (b : Block) (x y : List UInt8) :
    List.zipWith (· ^^^ ·) (gctr E b x) (gctr E b y) = List.zipWith (· ^^^ ·) x y := by
  let n := max ((x.length + 15) / 16) ((y.length + 15) / 16)
  have hlength : x.length ≤ (keystream E b n).length := by
    rw [length_keystream]
    omega
  rw [gctr_eq_of_le E b (Nat.le_max_left ..), gctr_eq_of_le E b (Nat.le_max_right ..)]
  exact xor_common x y _ hlength

theorem gctr_gctr (E : Cipher) (b : Block) (text : List UInt8) :
    gctr E b (gctr E b text) = text := by
  have hk : text.length ≤ (keystream E b ((text.length + 15) / 16)).length := by
    rw [length_keystream]; omega
  rw [gctr, length_gctr]
  exact xor_xor_cancel _ _ hk

-- ---------------------------------------------------------------------------
-- Authenticated encryption
-- ---------------------------------------------------------------------------

/-- The pre-counter block: a 96-bit IV is used as it stands, others are hashed. -/
def j0 (E : Cipher) (iv : List UInt8) : Block :=
  if iv.length = 12 then ofBytes (iv ++ [0, 0, 0, 1])
  else ghash (E 0) (blocks iv ++ [lengths [] iv])

def tag (E : Cipher) (iv aad text : List UInt8) : List UInt8 :=
  gctr E (j0 E iv) (toBytes (ghash (E 0) (blocks aad ++ blocks text ++ [lengths aad text])))

def crypt (E : Cipher) (iv text : List UInt8) : List UInt8 := gctr E (inc (j0 E iv)) text

def encrypt (E : Cipher) (iv aad plain : List UInt8) : List UInt8 × List UInt8 :=
  (crypt E iv plain, tag E iv aad (crypt E iv plain))

def decrypt (E : Cipher) (iv aad text t : List UInt8) : Option (List UInt8) :=
  if t = tag E iv aad text then some (crypt E iv text) else none

@[simp] theorem length_crypt (E : Cipher) (iv text : List UInt8) :
    (crypt E iv text).length = text.length := length_gctr ..

@[simp] theorem length_tag (E : Cipher) (iv aad text : List UInt8) :
    (tag E iv aad text).length = 16 := by simp [tag]

@[simp] theorem crypt_crypt (E : Cipher) (iv text : List UInt8) :
    crypt E iv (crypt E iv text) = text := gctr_gctr ..

theorem xor_crypt (E : Cipher) (iv x y : List UInt8) :
    List.zipWith (· ^^^ ·) (crypt E iv x) (crypt E iv y) = List.zipWith (· ^^^ ·) x y :=
  xor_gctr ..

theorem xor_recovers (E : Cipher) (iv x y : List UInt8) (h : y.length ≤ x.length) :
    List.zipWith (· ^^^ ·) (List.zipWith (· ^^^ ·) (crypt E iv y) (crypt E iv x)) x = y := by
  rw [xor_crypt, xor_xor_cancel y x h]

theorem xor_tag (E : Cipher) (iv aad aad' x y : List UInt8) :
    List.zipWith (· ^^^ ·) (tag E iv aad x) (tag E iv aad' y) =
      List.zipWith (· ^^^ ·)
        (toBytes (ghash (E 0) (blocks aad ++ blocks x ++ [lengths aad x])))
        (toBytes (ghash (E 0) (blocks aad' ++ blocks y ++ [lengths aad' y]))) :=
  xor_gctr ..

theorem decrypt_encrypt (E : Cipher) (iv aad plain : List UInt8) :
    decrypt E iv aad (encrypt E iv aad plain).1 (encrypt E iv aad plain).2 = some plain := by
  simp [decrypt, encrypt]

theorem encrypt_of_decrypt (h : decrypt E iv aad text t = some plain) :
    encrypt E iv aad plain = (text, t) := by
  simp only [decrypt, Option.ite_none_right_eq_some, Option.some.injEq] at h
  obtain ⟨rfl, rfl⟩ := h
  simp [encrypt]

end Lib.Gcm
