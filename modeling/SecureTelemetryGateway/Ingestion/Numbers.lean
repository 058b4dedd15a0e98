import SecureTelemetryGateway.Ingestion.Outcome

/-!
# The numbers of a document

A number of a document is a rational, whatever its kind. `FitsColumn` and
`HeldByDouble` say which numbers come through `get<uint64_t>` into a signed
column, and through `get<double>`, unchanged.
-/

namespace SecureTelemetryGateway.Ingestion

namespace Json

-- ---------------------------------------------------------------------------
-- Members
-- ---------------------------------------------------------------------------

def numberValue? : Json → Option ℚ
  | .numberInteger i => some i.toInt
  | .numberUnsigned u => some u.toNat
  | .numberFloat d => some d.value
  | _ => none

def numberAt? (parsed : Json) (key : String) : Option ℚ :=
  (parsed.member? key).bind numberValue?

theorem contains_of_some {parsed : Json} (h : parsed.member? key = some value) :
    parsed.contains key = true := by
  rw [contains, h]
  rfl

theorem contains_of_none {parsed : Json} (h : parsed.member? key = none) :
    parsed.contains key = false := by
  rw [contains, h]
  rfl

theorem get_of_some {parsed : Json} (h : parsed.member? key = some value) :
    parsed.get key = value := by
  rw [get, h]
  rfl

theorem uint64Or_of_member? {parsed : Json} (h : parsed.member? key = some value) (nl : Nlohmann)
    (default : UInt64) : parsed.uint64Or nl key default = value.getUInt64 nl := by
  rw [uint64Or, if_pos (contains_of_some h), get_of_some h]

theorem NumberTyped.isNumber {parsed : Json} (h : parsed.NumberTyped key)
    (hmember : parsed.member? key = some value) : value.isNumber := by
  have hnumber := h (contains_of_some hmember)
  rwa [get_of_some hmember] at hnumber

theorem numberValue?_of_isNumber {value : Json} (h : value.isNumber) :
    ∃ q, value.numberValue? = some q := by
  cases value with
  | numberInteger i => exact ⟨_, rfl⟩
  | numberUnsigned u => exact ⟨_, rfl⟩
  | numberFloat d => exact ⟨_, rfl⟩
  | _ => cases h

-- ---------------------------------------------------------------------------
-- Signed columns
-- ---------------------------------------------------------------------------

/-- Negative integers wrap around on the way to `uint64_t` and back on the way
to the column. -/
def FitsColumn : Json → Prop
  | .numberInteger _ => True
  | .numberUnsigned u => u.toNat < 2 ^ 63
  | .numberFloat d => ∃ n : ℕ, n < 2 ^ 63 ∧ d.value = n
  | _ => False

def FitsAt (parsed : Json) (key : String) : Prop :=
  ∀ value, parsed.member? key = some value → value.FitsColumn

theorem toInt_toInt64 (u : UInt64) :
    u.toInt64.toInt = if u.toNat < 2 ^ 63 then (u.toNat : ℤ) else u.toNat - 2 ^ 64 := by
  rw [← Int64.toInt_toBitVec, UInt64.toBitVec_toInt64, BitVec.toInt_eq_toNat_cond,
    UInt64.toNat_toBitVec]
  split <;> split <;> omega

theorem toInt_toInt64_eq_iff (u : UInt64) : u.toInt64.toInt = u.toNat ↔ u.toNat < 2 ^ 63 := by
  rw [toInt_toInt64]
  split <;> omega

theorem FitsColumn.kept {value : Json} (h : value.FitsColumn)
    (hn : value.getUInt64 nl = .ok n) (hq : value.numberValue? = some q) :
    (n.toInt64.toInt : ℚ) = q := by
  cases value with
  | numberInteger i =>
    cases hn
    cases hq
    rw [Int64.toInt64_toUInt64]
  | numberUnsigned u =>
    cases hn
    cases hq
    rw [(toInt_toInt64_eq_iff n).mpr h]
    rfl
  | numberFloat d =>
    obtain ⟨k, hk, hvalue⟩ := h
    have hfits : k < 2 ^ 64 := lt_trans hk (by decide)
    have hcast := Lib.Binary64.toUInt64?_of_value hvalue hfits
    cases hq
    simp only [getUInt64, hcast, Option.getD_some, Except.ok.injEq] at hn
    have htoNat : n.toNat = k := by
      rw [← hn, UInt64.toNat_ofNat_of_lt' hfits]
    rw [(toInt_toInt64_eq_iff n).mpr (htoNat ▸ hk), htoNat, hvalue]
    rfl
  | _ => cases h

theorem fitsColumn_of_kept {value : Json} {parse : Bytes → Except JsonError Json}
    (hn : value.getUInt64 ⟨parse, fun _ => 0⟩ = .ok n) (hq : value.numberValue? = some q)
    (h : (n.toInt64.toInt : ℚ) = q) : value.FitsColumn := by
  cases value with
  | numberInteger i => trivial
  | numberUnsigned u =>
    cases hn
    cases hq
    exact (toInt_toInt64_eq_iff n).mp (by exact_mod_cast h)
  | numberFloat d =>
    cases hq
    cases hcast : d.toUInt64? with
    | none =>
      simp only [getUInt64, hcast, Option.getD_none, Except.ok.injEq] at hn
      subst hn
      exact absurd h.symm (Lib.Binary64.value_ne_zero_of_toUInt64? hcast)
    | some u =>
      simp only [getUInt64, hcast, Option.getD_some, Except.ok.injEq] at hn
      subst hn
      obtain ⟨htrunc, hzero⟩ := Lib.Binary64.toUInt64?_eq_some hcast
      rw [toInt_toInt64] at h
      split at h
      · next hlt => exact ⟨u.toNat, hlt, by exact_mod_cast h.symm⟩
      · next hge =>
        -- The column is negative, so the value would have to be.
        have hlt : (u.toNat : ℤ) - 2 ^ 64 < 0 := by
          have := u.toNat_lt
          omega
        have hneg : d.value < 0 := h ▸ Int.cast_lt_zero.mpr hlt
        cases hd : d.negative with
        | true => exact absurd (htrunc.trans (hzero hd)) (by omega)
        | false => exact absurd (Lib.Binary64.value_nonneg hd) (not_le.mpr hneg)
  | _ => cases hn

theorem FitsAt.kept {parsed : Json} {default : UInt64} (h : parsed.FitsAt key)
    (hn : parsed.uint64Or nl key default = .ok n) (hq : parsed.numberAt? key = some q) :
    (n.toInt64.toInt : ℚ) = q := by
  obtain ⟨value, hmember, hvalue⟩ := Option.bind_eq_some_iff.mp hq
  rw [uint64Or_of_member? hmember] at hn
  exact (h value hmember).kept hn hvalue

theorem fitsAt_of_kept {parsed : Json} {default : UInt64} {parse : Bytes → Except JsonError Json}
    (ht : parsed.NumberTyped key)
    (hn : parsed.uint64Or ⟨parse, fun _ => 0⟩ key default = .ok n)
    (h : ∀ q, parsed.numberAt? key = some q → (n.toInt64.toInt : ℚ) = q) : parsed.FitsAt key := by
  intro value hmember
  obtain ⟨q, hq⟩ := numberValue?_of_isNumber (ht.isNumber hmember)
  rw [uint64Or_of_member? hmember] at hn
  exact fitsColumn_of_kept hn hq (h q (by rw [numberAt?, hmember]; exact hq))

-- ---------------------------------------------------------------------------
-- Doubles
-- ---------------------------------------------------------------------------

def HeldByDouble : Json → Prop
  | .numberInteger i => Lib.Binary64.Exact i.toInt.natAbs
  | .numberUnsigned u => Lib.Binary64.Exact u.toNat
  | .numberFloat _ => True
  | _ => False

theorem heldByDouble_iff {value : Json} :
    value.HeldByDouble ↔ ∃ d, value.number? = some d ∧ value.numberValue? = some d.value := by
  cases value with
  | numberInteger i =>
    simp [HeldByDouble, number?, getDouble, numberValue?, Except.toOption,
      ← Lib.Binary64.value_ofInt64_iff, eq_comm]
  | numberUnsigned u =>
    simp [HeldByDouble, number?, getDouble, numberValue?, Except.toOption,
      ← Lib.Binary64.value_ofUInt64_iff, eq_comm]
  | numberFloat d => simp [HeldByDouble, number?, getDouble, numberValue?, Except.toOption]
  | _ => simp [HeldByDouble, number?, getDouble, Except.toOption]

end Json

end SecureTelemetryGateway.Ingestion
