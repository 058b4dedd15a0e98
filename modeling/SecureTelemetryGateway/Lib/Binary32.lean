import SecureTelemetryGateway.Lib.Binary64

/-!
# Binary32 numbers

What a finite double is converted to: the nearest float, ties to even, and an
infinity beyond the range.
-/

namespace Lib

inductive Binary32
  | finite (negative : Bool) (significand : Nat) (exponent : Int) (fits : significand < 2 ^ 24)
      (range : -149 ≤ exponent ∧ exponent ≤ 104) (normal : 2 ^ 23 ≤ significand ∨ exponent = -149)
  | infinity (negative : Bool)
  deriving DecidableEq

namespace Binary32

def zero : Binary32 := .finite false 0 (-149) (by decide) (by decide) (.inr rfl)

instance : Inhabited Binary32 := ⟨zero⟩

/-- How many bits of the double's significand go: 29, and more where the float
is subnormal. -/
def shift (d : Binary64) : Nat := (max 29 (-149 - d.exponent)).toNat

def rounded (d : Binary64) : Nat := roundHalfEven d.significand (2 ^ shift d)

theorem le_exponent (d : Binary64) : -149 ≤ d.exponent + shift d := by
  unfold shift
  omega

theorem rounded_le (d : Binary64) : rounded d ≤ 2 ^ 24 := by
  have hs : 29 ≤ shift d := by unfold shift; omega
  have hq : d.significand / 2 ^ shift d < 2 ^ 24 := by
    rw [Nat.div_lt_iff_lt_mul (Nat.two_pow_pos _), ← Nat.pow_add]
    exact lt_of_lt_of_le d.fits (Nat.pow_le_pow_right (by decide) (by omega))
  have := roundHalfEven_le_succ d.significand (2 ^ shift d)
  unfold rounded
  omega

theorem rounded_normal (d : Binary64) : 2 ^ 23 ≤ rounded d ∨ d.exponent + shift d = -149 := by
  by_cases h : shift d = 29
  · left
    have hnormal : 2 ^ 52 ≤ d.significand := by
      rcases d.normal with hn | he
      · exact hn
      · unfold shift at h
        omega
    refine le_trans ?_ (le_roundHalfEven _ _)
    rw [h, Nat.le_div_iff_mul_le (by decide)]
    omega
  · right
    unfold shift at h ⊢
    omega

def ofBinary64 (d : Binary64) : Binary32 :=
  if hc : rounded d = 2 ^ 24 then
    if he : d.exponent + shift d + 1 ≤ 104 then
      .finite d.negative (2 ^ 23) (d.exponent + shift d + 1) (by decide)
        ⟨by have := le_exponent d; omega, he⟩ (.inl le_rfl)
    else .infinity d.negative
  else
    if he : d.exponent + shift d ≤ 104 then
      .finite d.negative (rounded d) (d.exponent + shift d) (lt_of_le_of_ne (rounded_le d) hc)
        ⟨le_exponent d, he⟩ (rounded_normal d)
    else .infinity d.negative

example : ofBinary64 (.ofUInt64 16777217) =
    .finite false (2 ^ 23) 1 (by decide) (by decide) (.inl le_rfl) := by decide

end Binary32

end Lib
