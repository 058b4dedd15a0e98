import SecureTelemetryGateway.Lib.Binary64

/-!
# Doubles with six decimals

What `%f` prints of a finite double is its sign and its magnitude in
millionths, rounded to nearest, ties to even. The text tells these two and
nothing else.
-/

namespace Lib

def nearestEven (q : ℚ) : ℤ :=
  if 1 / 2 < Int.fract q ∨ (Int.fract q = 1 / 2 ∧ ⌊q⌋ % 2 = 1) then ⌊q⌋ + 1 else ⌊q⌋

theorem nearestEven_div (n : ℕ) {d : ℕ} (hd : 0 < d) :
    nearestEven ((n : ℚ) / d) = roundHalfEven n d := by
  have hd' : (0 : ℚ) < d := by exact_mod_cast hd
  have hfloor : ⌊(n : ℚ) / d⌋ = ((n / d : ℕ) : ℤ) := by
    rw [← Int.natCast_floor_eq_floor (by positivity), Nat.floor_div_eq_div]
  have hlt : (1 / 2 : ℚ) < ((n % d : ℕ) : ℚ) / d ↔ d < 2 * (n % d) := by
    rw [div_lt_div_iff₀ two_pos hd', one_mul, mul_comm]
    exact_mod_cast Iff.rfl
  have heq : ((n % d : ℕ) : ℚ) / d = 1 / 2 ↔ 2 * (n % d) = d := by
    rw [div_eq_div_iff hd'.ne' two_ne_zero, one_mul, mul_comm]
    exact_mod_cast Iff.rfl
  have hodd : ((n / d : ℕ) : ℤ) % 2 = 1 ↔ n / d % 2 = 1 := by omega
  rw [nearestEven, roundHalfEven, hfloor, Int.fract_div_natCast_eq_div_natCast_mod]
  simp only [hlt, heq, hodd]
  split <;> push_cast <;> rfl

theorem nearestEven_natCast (n : ℕ) : nearestEven n = n := by
  simp [nearestEven]

theorem nearestEven_spec (q : ℚ) :
    |(nearestEven q : ℚ) - q| < 1 / 2 ∨
      |(nearestEven q : ℚ) - q| = 1 / 2 ∧ nearestEven q % 2 = 0 := by
  have hsum := Int.floor_add_fract q
  have hnonneg := Int.fract_nonneg q
  unfold nearestEven
  split
  · next h =>
    have hdist : |((⌊q⌋ + 1 : ℤ) : ℚ) - q| = 1 - Int.fract q := by
      rw [abs_of_nonneg (by push_cast; linarith [Int.fract_lt_one q])]
      push_cast
      linarith
    rw [hdist]
    rcases h with h | ⟨h, hodd⟩
    · exact .inl (by linarith)
    · exact .inr ⟨by linarith, by omega⟩
  · next h =>
    have hdist : |(⌊q⌋ : ℚ) - q| = Int.fract q := by
      rw [abs_sub_comm, abs_of_nonneg (by linarith)]
      linarith
    rw [hdist]
    rw [not_or, not_and] at h
    rcases (not_lt.mp h.1).lt_or_eq with hlt | heq
    · exact .inl hlt
    · exact .inr ⟨heq, by have := h.2 heq; omega⟩

theorem abs_nearestEven_sub_le (q : ℚ) : |(nearestEven q : ℚ) - q| ≤ 1 / 2 := by
  rcases nearestEven_spec q with h | ⟨h, -⟩
  · exact h.le
  · exact h.le

theorem eq_nearestEven {q : ℚ} {n : ℤ}
    (h : |(n : ℚ) - q| < 1 / 2 ∨ |(n : ℚ) - q| = 1 / 2 ∧ n % 2 = 0) : n = nearestEven q := by
  have htriangle : |(n : ℚ) - nearestEven q| ≤ |(n : ℚ) - q| + |(nearestEven q : ℚ) - q| := by
    rw [abs_sub_comm (nearestEven q : ℚ)]
    exact abs_sub_le _ _ _
  have hm := nearestEven_spec q
  generalize nearestEven q = m at htriangle hm ⊢
  have hle : |(n : ℚ) - m| ≤ 1 := by
    rcases h with h | ⟨h, -⟩ <;> rcases hm with hm | ⟨hm, -⟩ <;> linarith
  have hdist : |n - m| ≤ 1 := by exact_mod_cast hle
  rcases h with h | ⟨h, heven⟩
  · have hlt : |(n : ℚ) - m| < 1 := by rcases hm with hm | ⟨hm, -⟩ <;> linarith
    exact sub_eq_zero.mp (Int.abs_lt_one_iff.mp (by exact_mod_cast hlt))
  · rcases hm with hm | ⟨-, heven'⟩
    · have hlt : |(n : ℚ) - m| < 1 := by linarith
      exact sub_eq_zero.mp (Int.abs_lt_one_iff.mp (by exact_mod_cast hlt))
    · -- two even integers, no more than one apart
      rw [abs_le] at hdist
      omega

theorem nearestEven_neg (q : ℚ) : nearestEven (-q) = -nearestEven q := by
  have hdist : |((-nearestEven q : ℤ) : ℚ) - -q| = |(nearestEven q : ℚ) - q| := by
    rw [← abs_neg]
    congr 1
    push_cast
    ring
  refine (eq_nearestEven ?_).symm
  rw [hdist]
  rcases nearestEven_spec q with h | ⟨h, heven⟩
  · exact .inl h
  · exact .inr ⟨h, by omega⟩

theorem nearestEven_mono {q r : ℚ} (h : q ≤ r) : nearestEven q ≤ nearestEven r := by
  rcases h.eq_or_lt with rfl | hlt
  · exact le_rfl
  · have hq := (abs_le.mp (abs_nearestEven_sub_le q)).2
    have hr := (abs_le.mp (abs_nearestEven_sub_le r)).1
    have hsub : (nearestEven q : ℚ) < nearestEven r + 1 := by linarith
    exact Int.lt_add_one_iff.mp (by exact_mod_cast hsub)

namespace Binary64

theorem millionths_eq (d : Binary64) : (d.millionths : ℤ) = nearestEven (|d.value| * 10 ^ 6) := by
  rw [abs_value, millionths]
  split
  · next h =>
    have hcast : (d.significand : ℚ) * (2 : ℚ) ^ d.exponent * 10 ^ 6 =
        ((d.significand * 2 ^ d.exponent.toNat * 10 ^ 6 : ℕ) : ℚ) := by
      rw [← Int.toNat_of_nonneg h]
      push_cast
      rfl
    rw [hcast, nearestEven_natCast]
  · next h =>
    obtain ⟨k, hk⟩ := Int.exists_eq_neg_ofNat (by omega : d.exponent ≤ 0)
    have hcast : (d.significand : ℚ) * (2 : ℚ) ^ d.exponent * 10 ^ 6 =
        ((d.significand * 10 ^ 6 : ℕ) : ℚ) / ((2 ^ k : ℕ) : ℚ) := by
      rw [hk, zpow_neg, zpow_natCast]
      push_cast
      ring
    rw [hcast, nearestEven_div _ (Nat.two_pow_pos k), hk, neg_neg, Int.toNat_natCast]

-- ---------------------------------------------------------------------------
-- Reading the text back
-- ---------------------------------------------------------------------------

theorem length_sixDigits (k : Nat) : (sixDigits k).toList.length = 6 := by simp [sixDigits]

theorem ofDigitChars_sixDigits (h : k < 10 ^ 6) :
    Nat.ofDigitChars 10 (sixDigits k).toList 0 = k := by
  have hdigits : (sixDigits k).toList = [Nat.digitChar (k / 10 ^ 5 % 10),
      Nat.digitChar (k / 10 ^ 4 % 10), Nat.digitChar (k / 10 ^ 3 % 10),
      Nat.digitChar (k / 10 ^ 2 % 10), Nat.digitChar (k / 10 ^ 1 % 10),
      Nat.digitChar (k / 10 ^ 0 % 10)] := String.toList_ofList
  have hlt : ∀ n, n % 10 < 10 := fun n => Nat.mod_lt n (by decide)
  simp only [hdigits, Nat.ofDigitChars_cons_digitChar_of_lt_ten (hlt _), Nat.ofDigitChars_nil]
  omega

theorem sixDigits_inj (hk : k < 10 ^ 6) (hl : l < 10 ^ 6)
    (h : (sixDigits k).toList = (sixDigits l).toList) : k = l := by
  rw [← ofDigitChars_sixDigits hk, h, ofDigitChars_sixDigits hl]

theorem toDigits_inj (h : Nat.toDigits 10 m = Nat.toDigits 10 n) : m = n := by
  rw [← Nat.ofDigitChars_ten_toDigits (n := m), h, Nat.ofDigitChars_ten_toDigits]

theorem toText_eq (d : Binary64) : d.toText.toList =
    (if d.negative then ['-'] else []) ++ Nat.toDigits 10 (d.millionths / 10 ^ 6) ++ ['.'] ++
      (sixDigits (d.millionths % 10 ^ 6)).toList := by
  cases hn : d.negative <;> simp [toText, hn]

theorem minus_notMem_toDigits (n : Nat) : '-' ∉ Nat.toDigits 10 n := by
  intro h
  exact absurd (Nat.isDigit_of_mem_toDigits (by decide) (by decide) h) (by decide)

theorem whole_inj {s s' : Bool}
    (h : (if s then ['-'] else []) ++ Nat.toDigits 10 m =
      (if s' then ['-'] else []) ++ Nat.toDigits 10 n) : s = s' ∧ m = n := by
  cases s <;> cases s'
  · exact ⟨rfl, toDigits_inj h⟩
  · exact absurd (by rw [show Nat.toDigits 10 m = _ from h]; simp) (minus_notMem_toDigits m)
  · exact absurd (by rw [show Nat.toDigits 10 n = _ from h.symm]; simp) (minus_notMem_toDigits n)
  · exact ⟨rfl, toDigits_inj (List.cons.inj h).2⟩

theorem toText_inj {v w : Binary64} :
    v.toText = w.toText ↔ v.negative = w.negative ∧ v.millionths = w.millionths := by
  constructor
  · intro h
    have htext := String.toList_inj.mpr h
    rw [toText_eq, toText_eq] at htext
    obtain ⟨hpoint, hsix⟩ := List.append_inj' htext (by simp [length_sixDigits])
    obtain ⟨hsign, hwhole⟩ := whole_inj (List.append_inj_left' hpoint rfl)
    have hpart := sixDigits_inj (Nat.mod_lt _ (by decide)) (Nat.mod_lt _ (by decide)) hsix
    refine ⟨hsign, ?_⟩
    rw [← Nat.div_add_mod v.millionths (10 ^ 6), hwhole, hpart, Nat.div_add_mod]
  · rintro ⟨hsign, hmagnitude⟩
    rw [toText, toText, hsign, hmagnitude]

-- ---------------------------------------------------------------------------
-- What the text says
-- ---------------------------------------------------------------------------

def magnitudeOf (text : List Char) : ℚ :=
  let whole := text.takeWhile (· ≠ '.')
  let fraction := (text.dropWhile (· ≠ '.')).drop 1
  (Nat.ofDigitChars 10 whole 0 : ℚ) + Nat.ofDigitChars 10 fraction 0 / 10 ^ fraction.length

/-- The number of a decimal text: a sign or none, digits, a point, digits. -/
def decimalValue : List Char → ℚ
  | '-' :: text => -magnitudeOf text
  | text => magnitudeOf text

theorem point_notMem_toDigits (n : Nat) : '.' ∉ Nat.toDigits 10 n := by
  intro h
  exact absurd (Nat.isDigit_of_mem_toDigits (by decide) (by decide) h) (by decide)

theorem minus_notMem_sixDigits (k : Nat) : '-' ∉ (sixDigits k).toList := by
  intro h
  simp only [sixDigits, String.toList_ofList] at h
  obtain ⟨i, -, hi⟩ := List.mem_map.mp h
  have hdigit : (Nat.digitChar (k / 10 ^ (5 - i) % 10)).isDigit = true := by
    simpa using Nat.mod_lt _ (by decide)
  rw [hi] at hdigit
  cases hdigit

theorem decimalValue_of_notMem (h : '-' ∉ text) : decimalValue text = magnitudeOf text := by
  unfold decimalValue
  split
  · exact absurd List.mem_cons_self h
  · rfl

theorem magnitudeOf_millionths (n : Nat) :
    magnitudeOf (Nat.toDigits 10 (n / 10 ^ 6) ++ ['.'] ++ (sixDigits (n % 10 ^ 6)).toList) =
      (n : ℚ) / 10 ^ 6 := by
  have hwhole : ∀ c ∈ Nat.toDigits 10 (n / 10 ^ 6), decide (c ≠ '.') = true := by
    intro c hc
    simpa using ne_of_mem_of_not_mem hc (point_notMem_toDigits _)
  have hdigits : (n : ℚ) = (n / 10 ^ 6 : ℕ) * 10 ^ 6 + (n % 10 ^ 6 : ℕ) := by
    exact_mod_cast (Nat.div_add_mod' n (10 ^ 6)).symm
  have hlt : n % 10 ^ 6 < 10 ^ 6 := Nat.mod_lt _ (by decide)
  simp only [magnitudeOf, List.append_assoc, List.takeWhile_append_of_pos hwhole,
    List.dropWhile_append_of_pos hwhole]
  simp only [List.singleton_append, List.takeWhile_cons, List.dropWhile_cons, ne_eq,
    not_true_eq_false, decide_false, Bool.false_eq_true, ↓reduceIte, List.append_nil,
    List.drop_succ_cons, List.drop_zero, Nat.ofDigitChars_ten_toDigits, ofDigitChars_sixDigits hlt,
    length_sixDigits]
  rw [hdigits]
  ring

theorem value_eq (d : Binary64) : d.value = (if d.negative then -1 else 1) * |d.value| := by
  rw [abs_value, value, mul_assoc]

theorem decimalValue_toText (d : Binary64) :
    decimalValue d.toText.toList = nearestEven (d.value * 10 ^ 6) / 10 ^ 6 := by
  have hmillionths : ((d.millionths : ℕ) : ℚ) = nearestEven (|d.value| * 10 ^ 6) := by
    exact_mod_cast congrArg (Int.cast (R := ℚ)) d.millionths_eq
  rw [toText_eq]
  cases hn : d.negative with
  | true =>
    have hvalue : d.value * 10 ^ 6 = -(|d.value| * 10 ^ 6) := by
      nth_rewrite 1 [value_eq d]
      rw [hn, if_pos rfl]
      ring
    simp only [↓reduceIte, List.cons_append, decimalValue]
    rw [List.nil_append, magnitudeOf_millionths, hmillionths, hvalue, nearestEven_neg]
    push_cast
    ring
  | false =>
    have hvalue : d.value = |d.value| := by
      nth_rewrite 1 [value_eq d]
      simp [hn]
    have hminus : '-' ∉ Nat.toDigits 10 (d.millionths / 10 ^ 6) ++ ['.'] ++
        (sixDigits (d.millionths % 10 ^ 6)).toList := by
      simp [minus_notMem_toDigits, minus_notMem_sixDigits]
    simp only [Bool.false_eq_true, ↓reduceIte, List.nil_append]
    rw [decimalValue_of_notMem hminus, magnitudeOf_millionths, hmillionths, ← hvalue]

theorem abs_decimalValue_sub_le (d : Binary64) :
    |decimalValue d.toText.toList - d.value| ≤ 1 / 2 / 10 ^ 6 := by
  have hscaled : decimalValue d.toText.toList - d.value =
      ((nearestEven (d.value * 10 ^ 6) : ℚ) - d.value * 10 ^ 6) / 10 ^ 6 := by
    rw [decimalValue_toText]
    ring
  rw [hscaled, abs_div, abs_of_pos (by norm_num : (0 : ℚ) < 10 ^ 6)]
  exact div_le_div_of_nonneg_right (abs_nearestEven_sub_le _) (by norm_num)

theorem decimalValue_mono {v w : Binary64} (h : v.value ≤ w.value) :
    decimalValue v.toText.toList ≤ decimalValue w.toText.toList := by
  rw [decimalValue_toText, decimalValue_toText]
  have hle : nearestEven (v.value * 10 ^ 6) ≤ nearestEven (w.value * 10 ^ 6) :=
    nearestEven_mono (mul_le_mul_of_nonneg_right h (by norm_num))
  exact div_le_div_of_nonneg_right (by exact_mod_cast hle) (by norm_num)

end Binary64

end Lib
