import Mathlib.Data.Rat.Floor
import Mathlib.Data.Nat.Log
import Mathlib.Algebra.Order.Floor.Semifield
import Mathlib.Algebra.Order.Field.Power
import Mathlib.Tactic.Positivity
import Mathlib.Tactic.Ring

/-!
# Finite binary64 numbers

A finite double is a sign, a 53-bit significand and an exponent, with one
representation for each value but zero, which has a sign of its own. It
denotes an exact rational. Rounding is to nearest, ties to even.
-/

namespace Lib

/-- The integer nearest `n / d`, the even one of two. -/
def roundHalfEven (n d : Nat) : Nat :=
  if d < 2 * (n % d) ∨ (2 * (n % d) = d ∧ n / d % 2 = 1) then n / d + 1 else n / d

theorem roundHalfEven_le_succ (n d : Nat) : roundHalfEven n d ≤ n / d + 1 := by
  unfold roundHalfEven; split <;> omega

theorem le_roundHalfEven (n d : Nat) : n / d ≤ roundHalfEven n d := by
  unfold roundHalfEven; split <;> omega

theorem roundHalfEven_of_dvd {n d : Nat} (hd : 0 < d) (h : d ∣ n) : roundHalfEven n d = n / d := by
  have hmod : n % d = 0 := Nat.mod_eq_zero_of_dvd h
  rw [roundHalfEven, if_neg]
  omega

structure Binary64 where
  negative : Bool
  significand : Nat
  exponent : Int
  fits : significand < 2 ^ 53
  range : -1074 ≤ exponent ∧ exponent ≤ 971
  normal : 2 ^ 52 ≤ significand ∨ exponent = -1074
  deriving DecidableEq

namespace Binary64

def value (d : Binary64) : ℚ :=
  (if d.negative then -1 else 1) * d.significand * (2 : ℚ) ^ d.exponent

def zero (negative : Bool) : Binary64 where
  negative
  significand := 0
  exponent := -1074
  fits := by decide
  range := by decide
  normal := .inr rfl

instance : Inhabited Binary64 := ⟨zero false⟩

def ofNormal (significand : Nat) (exponent : Int)
    (h : (2 ^ 52 ≤ significand ∧ significand < 2 ^ 53) ∧ -1074 ≤ exponent ∧ exponent ≤ 971) :
    Binary64 where
  negative := false
  significand
  exponent
  fits := h.1.2
  range := h.2
  normal := .inl h.1.1

theorem shiftUp_fits {n : Nat} (hs : n.log2 ≤ 52) : n * 2 ^ (52 - n.log2) < 2 ^ 53 :=
  calc n * 2 ^ (52 - n.log2) < 2 ^ (n.log2 + 1) * 2 ^ (52 - n.log2) :=
        Nat.mul_lt_mul_of_pos_right Nat.lt_log2_self (Nat.two_pow_pos _)
    _ = 2 ^ 53 := by rw [← Nat.pow_add]; congr 1; omega

theorem shiftUp_normal {n : Nat} (h0 : n ≠ 0) (hs : n.log2 ≤ 52) :
    2 ^ 52 ≤ n * 2 ^ (52 - n.log2) :=
  calc 2 ^ 52 = 2 ^ n.log2 * 2 ^ (52 - n.log2) := by rw [← Nat.pow_add]; congr 1; omega
    _ ≤ n * 2 ^ (52 - n.log2) := Nat.mul_le_mul_right _ (Nat.log2_self_le h0)

theorem round_le {n : Nat} (hs : 52 < n.log2) :
    roundHalfEven n (2 ^ (n.log2 - 52)) ≤ 2 ^ 53 := by
  have hq : n / 2 ^ (n.log2 - 52) < 2 ^ 53 := by
    rw [Nat.div_lt_iff_lt_mul (Nat.two_pow_pos _), ← Nat.pow_add]
    calc n < 2 ^ (n.log2 + 1) := Nat.lt_log2_self
      _ = 2 ^ (53 + (n.log2 - 52)) := by congr 1; omega
  have := roundHalfEven_le_succ n (2 ^ (n.log2 - 52))
  omega

theorem round_normal {n : Nat} (h0 : n ≠ 0) (hs : 52 < n.log2) :
    2 ^ 52 ≤ roundHalfEven n (2 ^ (n.log2 - 52)) := by
  refine le_trans ?_ (le_roundHalfEven _ _)
  rw [Nat.le_div_iff_mul_le (Nat.two_pow_pos _), ← Nat.pow_add]
  calc 2 ^ (52 + (n.log2 - 52)) = 2 ^ n.log2 := by congr 1; omega
    _ ≤ n := Nat.log2_self_le h0

/-- The double of magnitude `n`, rounded. The bound covers what the callers
have, the magnitudes of 64-bit integers. -/
def ofMagnitude (negative : Bool) (n : Nat) (h : n < 2 ^ 65) : Binary64 :=
  if h0 : n = 0 then zero negative
  else if hs : n.log2 ≤ 52 then
    { negative
      significand := n * 2 ^ (52 - n.log2)
      exponent := (n.log2 : Int) - 52
      fits := shiftUp_fits hs
      range := by omega
      normal := .inl (shiftUp_normal h0 hs) }
  else
    have hl : n.log2 < 65 := (Nat.log2_lt h0).mpr h
    if hc : roundHalfEven n (2 ^ (n.log2 - 52)) = 2 ^ 53 then
      { negative
        significand := 2 ^ 52
        exponent := (n.log2 : Int) - 51
        fits := by decide
        range := by omega
        normal := .inl le_rfl }
    else
      { negative
        significand := roundHalfEven n (2 ^ (n.log2 - 52))
        exponent := (n.log2 : Int) - 52
        fits := lt_of_le_of_ne (round_le (by omega)) hc
        range := by omega
        normal := .inl (round_normal h0 (by omega)) }

theorem value_ofMagnitude (negative : Bool) (n : Nat) (h : n < 2 ^ 65) :
    (ofMagnitude negative n h).value = (if negative then -1 else 1) *
      ((if n.log2 ≤ 52 then n
        else roundHalfEven n (2 ^ (n.log2 - 52)) * 2 ^ (n.log2 - 52) : ℕ) : ℚ) := by
  unfold ofMagnitude
  split
  · next h0 => simp [value, zero, h0]
  · next h0 =>
    split
    · next hs =>
      have hexp : (n.log2 : ℤ) - 52 = -((52 - n.log2 : ℕ) : ℤ) := by omega
      simp only [value, hexp, zpow_neg, zpow_natCast]
      push_cast
      rw [mul_assoc, mul_assoc, mul_inv_cancel₀ (by positivity), mul_one]
    · next hs =>
      dsimp only
      split
      · next hc =>
        have hexp : (n.log2 : ℤ) - 51 = ((n.log2 - 52 + 1 : ℕ) : ℤ) := by omega
        simp only [value, hexp, zpow_natCast, hc]
        push_cast
        ring
      · next hc =>
        have hexp : (n.log2 : ℤ) - 52 = ((n.log2 - 52 : ℕ) : ℤ) := by omega
        simp only [value, hexp, zpow_natCast]
        push_cast
        ring

/-- The integer has at most 53 significant bits. -/
def Exact (n : Nat) : Prop := 2 ^ (n.log2 - 52) ∣ n

instance (n : Nat) : Decidable (Exact n) := inferInstanceAs (Decidable (_ ∣ _))

theorem value_ofMagnitude_iff (negative : Bool) {n : Nat} (h : n < 2 ^ 65) :
    (ofMagnitude negative n h).value = (if negative then -1 else 1) * (n : ℚ) ↔ Exact n := by
  rw [value_ofMagnitude, mul_right_inj' (by cases negative <;> simp), Nat.cast_inj, Exact]
  split
  · next hs => simp [Nat.sub_eq_zero_of_le hs]
  · next hs =>
    constructor
    · intro heq
      exact Dvd.intro_left _ heq
    · intro hdvd
      rw [roundHalfEven_of_dvd (Nat.two_pow_pos _) hdvd, Nat.div_mul_cancel hdvd]

def ofUInt64 (u : UInt64) : Binary64 :=
  ofMagnitude false u.toNat (lt_trans u.toNat_lt (by decide))

def ofInt64 (i : Int64) : Binary64 :=
  ofMagnitude (i.toInt < 0) i.toInt.natAbs (by
    have h1 := i.le_toInt
    have h2 := i.toInt_lt
    omega)

theorem value_ofUInt64_iff (u : UInt64) : (ofUInt64 u).value = u.toNat ↔ Exact u.toNat := by
  rw [ofUInt64, ← value_ofMagnitude_iff false (lt_trans u.toNat_lt (by decide))]
  simp

theorem value_ofInt64_iff (i : Int64) : (ofInt64 i).value = i.toInt ↔ Exact i.toInt.natAbs := by
  rw [ofInt64, ← value_ofMagnitude_iff (i.toInt < 0)]
  have hsign : (if decide (i.toInt < 0) then -1 else 1) * ((i.toInt.natAbs : ℕ) : ℚ) = i.toInt := by
    have habs : ((i.toInt.natAbs : ℕ) : ℚ) = |(i.toInt : ℚ)| := by
      rw [← Int.cast_natCast, Int.natCast_natAbs, Int.cast_abs]
    rw [habs]
    by_cases h : i.toInt < 0
    · have hneg : (i.toInt : ℚ) < 0 := by exact_mod_cast h
      simp [h, abs_of_neg hneg]
    · have hpos : (0 : ℚ) ≤ i.toInt := by exact_mod_cast Int.not_lt.mp h
      simp [h, abs_of_nonneg hpos]
  rw [hsign]

def truncAbs (d : Binary64) : Nat :=
  if 0 ≤ d.exponent then d.significand * 2 ^ d.exponent.toNat
  else d.significand / 2 ^ (-d.exponent).toNat

/-- `static_cast<uint64_t>`, where it is defined: the truncated value fits. -/
def toUInt64? (d : Binary64) : Option UInt64 :=
  if (d.negative ∧ d.truncAbs ≠ 0) ∨ 2 ^ 64 ≤ d.truncAbs then none
  else some (UInt64.ofNat d.truncAbs)

theorem magnitude_nonneg (d : Binary64) : (0 : ℚ) ≤ d.significand * (2 : ℚ) ^ d.exponent := by
  positivity

theorem abs_value (d : Binary64) : |d.value| = d.significand * (2 : ℚ) ^ d.exponent := by
  unfold value
  rw [mul_assoc, abs_mul, abs_of_nonneg d.magnitude_nonneg]
  cases d.negative <;> simp

theorem truncAbs_eq_floor (d : Binary64) : d.truncAbs = ⌊|d.value|⌋₊ := by
  rw [abs_value, truncAbs]
  split
  · next h =>
    have hcast : (d.significand : ℚ) * (2 : ℚ) ^ d.exponent =
        ((d.significand * 2 ^ d.exponent.toNat : ℕ) : ℚ) := by
      rw [← Int.toNat_of_nonneg h]
      push_cast
      rfl
    rw [hcast, Nat.floor_natCast]
  · next h =>
    obtain ⟨k, hk⟩ := Int.exists_eq_neg_ofNat (by omega : d.exponent ≤ 0)
    have hcast : (d.significand : ℚ) * (2 : ℚ) ^ d.exponent =
        (d.significand : ℚ) / ((2 ^ k : ℕ) : ℚ) := by
      rw [hk, zpow_neg, zpow_natCast, ← div_eq_mul_inv]
      push_cast
      rfl
    rw [hcast, Nat.floor_div_natCast, Nat.floor_natCast, hk, neg_neg, Int.toNat_natCast]

variable {d : Binary64}

theorem truncAbs_of_value {n : ℕ} (h : d.value = n) : d.truncAbs = n := by
  rw [truncAbs_eq_floor, h, Nat.abs_cast, Nat.floor_natCast]

theorem value_nonneg (h : d.negative = false) : 0 ≤ d.value := by
  simpa [value, h] using d.magnitude_nonneg

theorem value_nonpos (h : d.negative = true) : d.value ≤ 0 := by
  simpa [value, h] using d.magnitude_nonneg

theorem toUInt64?_of_value {n : ℕ} (h : d.value = n) (hn : n < 2 ^ 64) :
    d.toUInt64? = some (.ofNat n) := by
  have ht := truncAbs_of_value h
  rw [toUInt64?, if_neg, ht]
  rintro (⟨hneg, h0⟩ | hbig)
  · have hn0 : n = 0 := by exact_mod_cast le_antisymm (h ▸ value_nonpos hneg) (Nat.cast_nonneg n)
    exact h0 (ht.trans hn0)
  · omega

theorem toUInt64?_eq_some (h : d.toUInt64? = some u) :
    u.toNat = d.truncAbs ∧ (d.negative = true → d.truncAbs = 0) := by
  unfold toUInt64? at h
  split at h
  · cases h
  · next hfits =>
    cases h
    rw [not_or, not_and, not_not, Nat.not_le] at hfits
    exact ⟨UInt64.toNat_ofNat_of_lt' hfits.2, hfits.1⟩

theorem value_ne_zero_of_toUInt64? (h : d.toUInt64? = none) : d.value ≠ 0 := by
  intro h0
  rw [toUInt64?_of_value (n := 0) (by simpa using h0) (by decide)] at h
  cases h

def millionths (d : Binary64) : Nat :=
  if 0 ≤ d.exponent then d.significand * 2 ^ d.exponent.toNat * 10 ^ 6
  else roundHalfEven (d.significand * 10 ^ 6) (2 ^ (-d.exponent).toNat)

def sixDigits (k : Nat) : String :=
  String.ofList ((List.range 6).map fun i => Nat.digitChar (k / 10 ^ (5 - i) % 10))

/-- The text of `%f`, which `std::to_string` writes. -/
def toText (d : Binary64) : String :=
  (if d.negative then "-" else "") ++ toString (d.millionths / 10 ^ 6) ++ "." ++
    sixDigits (d.millionths % 10 ^ 6)

end Binary64

end Lib
