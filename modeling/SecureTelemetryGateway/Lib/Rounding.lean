import SecureTelemetryGateway.Lib.Binary64
import Mathlib.Tactic.Linarith

/-!
# Sums and products of doubles

The exact result of an operation on doubles is an integer times a power of two,
and the double it gives is the nearest one. The bounds on the exponents keep
the results finite.
-/

namespace Lib.Binary64

/-- The exponent of the doubles about `n * 2 ^ e`. -/
def ulpExponent (n : Nat) (e : Int) : Int := max (e + n.log2 - 52) (-1074)

/-- `n * 2 ^ e` in units of `2 ^ ulpExponent n e`, rounded. -/
def roundedUlps (n : Nat) (e : Int) : Nat :=
  let ulp := ulpExponent n e
  if ulp ≤ e then n * 2 ^ (e - ulp).toNat else roundHalfEven n (2 ^ (ulp - e).toNat)

theorem roundedUlps_le (n : Nat) (e : Int) : roundedUlps n e ≤ 2 ^ 53 := by
  have hn : n < 2 ^ (n.log2 + 1) := Nat.lt_log2_self
  unfold roundedUlps
  dsimp only
  split
  · next h =>
    have hshift : n.log2 + 1 + (e - ulpExponent n e).toNat ≤ 53 := by
      unfold ulpExponent at h ⊢
      omega
    calc n * 2 ^ (e - ulpExponent n e).toNat
        ≤ 2 ^ (n.log2 + 1) * 2 ^ (e - ulpExponent n e).toNat := Nat.mul_le_mul_right _ hn.le
      _ = 2 ^ (n.log2 + 1 + (e - ulpExponent n e).toNat) := (Nat.pow_add ..).symm
      _ ≤ 2 ^ 53 := Nat.pow_le_pow_right (by decide) hshift
  · next h =>
    have hshift : n.log2 + 1 ≤ 53 + (ulpExponent n e - e).toNat := by
      unfold ulpExponent at h ⊢
      omega
    have hq : n / 2 ^ (ulpExponent n e - e).toNat < 2 ^ 53 := by
      rw [Nat.div_lt_iff_lt_mul (Nat.two_pow_pos _), ← Nat.pow_add]
      exact lt_of_lt_of_le hn (Nat.pow_le_pow_right (by decide) hshift)
    exact le_trans (roundHalfEven_le_succ ..) hq

theorem roundedUlps_normal {n : Nat} (h0 : n ≠ 0) (e : Int) :
    2 ^ 52 ≤ roundedUlps n e ∨ ulpExponent n e = -1074 := by
  have hn : 2 ^ n.log2 ≤ n := Nat.log2_self_le h0
  rw [or_iff_not_imp_right]
  intro hulp
  have hulp : ulpExponent n e = e + n.log2 - 52 := by
    unfold ulpExponent at hulp ⊢
    omega
  unfold roundedUlps
  rw [hulp]
  dsimp only
  split
  · next h =>
    calc 2 ^ 52 = 2 ^ n.log2 * 2 ^ (e - (e + n.log2 - 52)).toNat := by
          rw [← Nat.pow_add]
          congr 1
          omega
      _ ≤ n * 2 ^ (e - (e + n.log2 - 52)).toNat := Nat.mul_le_mul_right _ hn
  · next h =>
    refine le_trans ?_ (le_roundHalfEven _ _)
    rw [Nat.le_div_iff_mul_le (Nat.two_pow_pos _), ← Nat.pow_add]
    refine le_trans (le_of_eq ?_) hn
    congr 1
    omega

theorem ulpExponent_range {n : Nat} {e : Int} (h : e + n.log2 ≤ 1022) :
    -1074 ≤ ulpExponent n e ∧ ulpExponent n e ≤ 970 := by
  unfold ulpExponent
  omega

theorem two_pow_fits : 2 ^ 52 < 2 ^ 53 := by decide

/-- The double nearest `n * 2 ^ e`, the even one of two. -/
def ofDyadic (negative : Bool) (n : Nat) (e : Int) (h : e + n.log2 ≤ 1022) : Binary64 :=
  if h0 : n = 0 then zero negative
  else
    have hulp := ulpExponent_range h
    if hc : roundedUlps n e = 2 ^ 53 then
      { negative
        significand := 2 ^ 52
        exponent := ulpExponent n e + 1
        fits := two_pow_fits
        range := by omega
        normal := .inl le_rfl }
    else
      { negative
        significand := roundedUlps n e
        exponent := ulpExponent n e
        fits := lt_of_le_of_ne (roundedUlps_le n e) hc
        range := by omega
        normal := roundedUlps_normal h0 e }

theorem exponent_ofDyadic_le {negative : Bool} {n : Nat} {e : Int} (h : e + n.log2 ≤ 1022) :
    (ofDyadic negative n e h).exponent ≤ max (e + n.log2 - 51) (-1073) := by
  unfold ofDyadic
  split
  · exact le_max_of_le_right (show (-1074 : Int) ≤ -1073 by decide)
  · dsimp only
    split
    · dsimp only [ulpExponent]
      omega
    · dsimp only [ulpExponent]
      omega

theorem log2_lt_of_lt {n k : Nat} (hk : 0 < k) (h : n < 2 ^ k) : n.log2 < k := by
  rcases Nat.eq_zero_or_pos n with rfl | hpos
  · exact hk
  · exact (Nat.log2_lt hpos.ne').mpr h

theorem log2_mul_lt (x y : Binary64) : (x.significand * y.significand).log2 < 106 :=
  log2_lt_of_lt (by decide) <|
    calc x.significand * y.significand < 2 ^ 53 * 2 ^ 53 := Nat.mul_lt_mul'' x.fits y.fits
      _ = 2 ^ 106 := by decide

def mul (x y : Binary64) (h : x.exponent + y.exponent ≤ 917) : Binary64 :=
  ofDyadic (x.negative != y.negative) (x.significand * y.significand) (x.exponent + y.exponent)
    (by have := log2_mul_lt x y; omega)

theorem exponent_mul_le {x y : Binary64} (h : x.exponent + y.exponent ≤ 917) :
    (mul x y h).exponent ≤ max (x.exponent + y.exponent + 54) (-1073) := by
  have hlog := log2_mul_lt x y
  have hle := @exponent_ofDyadic_le (x.negative != y.negative)
    (x.significand * y.significand) (x.exponent + y.exponent) (by omega)
  exact le_trans hle (max_le_max_right _ (by omega))

def aligned (x : Binary64) (e : Int) : Int :=
  (if x.negative then -1 else 1) * (x.significand * 2 ^ (x.exponent - e).toNat : Nat)

theorem natAbs_aligned (x : Binary64) (e : Int) :
    (x.aligned e).natAbs = x.significand * 2 ^ (x.exponent - e).toNat := by
  rw [aligned, Int.natAbs_mul, Int.natAbs_natCast]
  cases x.negative <;> simp

theorem log2_aligned_le (x y : Binary64) :
    let e := min x.exponent y.exponent
    (x.aligned e + y.aligned e).natAbs.log2 ≤ 53 + (max x.exponent y.exponent - e).toNat := by
  intro e
  have hbound : ∀ z : Binary64, z.exponent ≤ max x.exponent y.exponent →
      (z.aligned e).natAbs < 2 ^ (53 + (max x.exponent y.exponent - e).toNat) := by
    intro z hz
    rw [natAbs_aligned, Nat.pow_add]
    exact Nat.mul_lt_mul_of_lt_of_le z.fits (Nat.pow_le_pow_right (by decide) (by omega))
      (Nat.two_pow_pos _)
  have hx := hbound x (le_max_left ..)
  have hy := hbound y (le_max_right ..)
  refine Nat.le_of_lt_succ (log2_lt_of_lt (Nat.succ_pos _) ?_)
  rw [Nat.pow_succ]
  have := Int.natAbs_add_le (x.aligned e) (y.aligned e)
  omega

/-- A sum of zero is negative only if both summands are. -/
def add (x y : Binary64) (h : max x.exponent y.exponent ≤ 969) : Binary64 :=
  let e := min x.exponent y.exponent
  let sum := x.aligned e + y.aligned e
  have hlog : sum.natAbs.log2 ≤ 53 + (max x.exponent y.exponent - e).toNat := log2_aligned_le x y
  ofDyadic (if sum = 0 then x.negative && y.negative else sum < 0) sum.natAbs e (by omega)

def neg (x : Binary64) : Binary64 := { x with negative := !x.negative }

def sub (x y : Binary64) (h : max x.exponent y.exponent ≤ 969) : Binary64 := add x y.neg h

theorem exponent_ofUInt64_le (u : UInt64) : (ofUInt64 u).exponent ≤ 13 := by
  have hlog : u.toNat.log2 < 64 := log2_lt_of_lt (by decide) u.toNat_lt
  unfold ofUInt64 ofMagnitude
  split
  · decide
  · split
    · dsimp only
      omega
    · dsimp only
      split
      · dsimp only
        omega
      · dsimp only
        omega

end Lib.Binary64
