import Mathlib.Algebra.Order.Field.Power
import Mathlib.Tactic.Linarith
import Mathlib.Tactic.Positivity
import Mathlib.Tactic.Ring
import SearchLoad.Number.Binary64

namespace SearchLoad.Number

theorem scale_eq (x : Rat) (e : Int) : scale x e = x * 2 ^ e := by
  unfold scale
  split
  · rename_i h
    obtain ⟨n, rfl⟩ := Int.eq_ofNat_of_zero_le h
    simp
  · rename_i h
    obtain ⟨n, hn⟩ := Int.eq_ofNat_of_zero_le (show 0 ≤ -e by omega)
    obtain rfl : e = -(n : Int) := by omega
    simp [div_eq_mul_inv]

theorem abs_roundHalfEven_sub_le (x : Rat) : |(roundHalfEven x : Rat) - x| ≤ 1 / 2 := by
  have below := Rat.floor_le x
  have above := Rat.lt_floor_add_one x
  push_cast at above
  unfold roundHalfEven
  dsimp only
  split_ifs <;> rw [abs_le] <;> push_cast <;> constructor <;> linarith

/-- No whole number is closer. -/
theorem roundHalfEven_closest (x : Rat) (n : Int) :
    |(roundHalfEven x : Rat) - x| ≤ |(n : Rat) - x| := by
  have error := abs_roundHalfEven_sub_le x
  by_cases same : roundHalfEven x = n
  · rw [same]
  · have apart : 1 ≤ |roundHalfEven x - n| := Int.one_le_abs (sub_ne_zero.mpr same)
    have apart' : (1 : Rat) ≤ |(roundHalfEven x : Rat) - n| := by exact_mod_cast apart
    have through := abs_sub_le (roundHalfEven x : Rat) x n
    rw [abs_sub_comm x] at through
    linarith

theorem natAbs_num_div_den {x : Rat} (pos : 0 < x) : (x.num.natAbs : Rat) / x.den = x := by
  have num : ((x.num.natAbs : Int) : Rat) = x.num :=
    congrArg _ (Int.natAbs_of_nonneg (Rat.num_pos.mpr pos).le)
  rw [← Int.cast_natCast, num, Rat.num_div_den]

theorem floorLog2_bounds {x : Rat} (pos : 0 < x) :
    (2 : Rat) ^ floorLog2 x ≤ x ∧ x < 2 ^ (floorLog2 x + 1) := by
  have num_le : (2 : Rat) ^ x.num.natAbs.log2 ≤ x.num.natAbs := by
    have num_ne : x.num.natAbs ≠ 0 := Int.natAbs_ne_zero.mpr (Rat.num_pos.mpr pos).ne'
    exact_mod_cast Nat.log2_self_le num_ne
  have num_lt : (x.num.natAbs : Rat) < 2 ^ (x.num.natAbs.log2 + 1) := by
    exact_mod_cast Nat.lt_log2_self
  have den_le : (2 : Rat) ^ x.den.log2 ≤ x.den := by
    exact_mod_cast Nat.log2_self_le x.den_ne_zero
  have den_lt : (x.den : Rat) < 2 ^ (x.den.log2 + 1) := by
    exact_mod_cast Nat.lt_log2_self
  have den_pos : (0 : Rat) < x.den := by exact_mod_cast x.den_pos
  have split : ∀ a b : Nat, (2 : Rat) ^ ((a : Int) - b) * 2 ^ b = 2 ^ a := by
    intro a b
    rw [zpow_sub₀ two_ne_zero, zpow_natCast, zpow_natCast]
    exact div_mul_cancel₀ _ (pow_ne_zero _ two_ne_zero)
  unfold floorLog2
  dsimp only
  rw [scale_eq, one_mul]
  generalize x.num.natAbs.log2 = a at num_le num_lt
  generalize x.den.log2 = b at den_le den_lt
  have upper : x < 2 ^ ((a : Int) - b + 1) := by
    rw [← natAbs_num_div_den pos, div_lt_iff₀ den_pos]
    have pow := split (a + 1) b
    rw [Nat.cast_add, Nat.cast_one, add_sub_right_comm] at pow
    rw [← pow] at num_lt
    exact num_lt.trans_le (mul_le_mul_of_nonneg_left den_le (by positivity))
  split
  · rename_i h
    exact ⟨h, upper⟩
  · rename_i h
    refine ⟨?_, by simpa using not_le.mp h⟩
    conv_rhs => rw [← natAbs_num_div_den pos]
    rw [le_div_iff₀ den_pos]
    have pow := split a (b + 1)
    rw [Nat.cast_add, Nat.cast_one, ← sub_sub] at pow
    rw [← pow] at num_le
    exact (mul_le_mul_of_nonneg_left den_lt.le (by positivity)).trans num_le

namespace Binary64

/-- The numbers that are left alone: 53 significant bits, and no unit below the least one. -/
def IsValue (x : Rat) : Prop :=
  ∃ m e : Int, |m| ≤ 2 ^ 53 ∧ -1074 ≤ e ∧ x = m * 2 ^ e

theorem isValue_intCast {n : Int} (small : |n| ≤ 2 ^ 53) : IsValue n :=
  ⟨n, 0, small, by decide, by simp⟩

theorem isValue_natCast {n : Nat} (small : n ≤ 2 ^ 53) : IsValue n := by
  have value : IsValue ((n : Int) : Rat) := isValue_intCast (by
    rw [Nat.abs_cast]
    exact_mod_cast small)
  rwa [Int.cast_natCast] at value

variable {x y v : Rat}

theorem unitExponent_eq (h : x ≠ 0) : unitExponent x = max (-1074) (floorLog2 |x| - 52) := by
  have magnitude : (if x < 0 then -x else x) = |x| := by
    split
    · rename_i neg
      exact (abs_of_neg neg).symm
    · rename_i nonneg
      exact (abs_of_nonneg (not_lt.mp nonneg)).symm
  rw [unitExponent, if_neg h, magnitude]

theorem le_unitExponent (x : Rat) : -1074 ≤ unitExponent x := by
  by_cases h : x = 0
  · simp [unitExponent, h]
  · rw [unitExponent_eq h]
    exact le_max_left _ _

theorem nearest_eq (x : Rat) :
    nearest x = roundHalfEven (x / 2 ^ unitExponent x) * 2 ^ unitExponent x := by
  rw [nearest, scale_eq, scale_eq, zpow_neg, div_eq_mul_inv]

theorem abs_lt_two_pow (x : Rat) : |x| < 2 ^ (unitExponent x + 53) := by
  by_cases h : x = 0
  · rw [h, abs_zero]
    positivity
  · refine (floorLog2_bounds (abs_pos.mpr h)).2.trans_le ?_
    refine zpow_le_zpow_right₀ one_le_two ?_
    have := le_max_right (-1074) (floorLog2 |x| - 52)
    rw [unitExponent_eq h]
    omega

/-- Above the least unit, a number has all of its 53 bits. -/
theorem two_pow_le_abs (above : -1074 < unitExponent x) : 2 ^ (unitExponent x + 52) ≤ |x| := by
  by_cases h : x = 0
  · simp [unitExponent, h] at above
  · rw [unitExponent_eq h] at above ⊢
    obtain full : max (-1074) (floorLog2 |x| - 52) = floorLog2 |x| - 52 := by omega
    rw [full, sub_add_cancel]
    exact (floorLog2_bounds (abs_pos.mpr h)).1

theorem nearest_sub_eq (n : Int) (x : Rat) :
    (n : Rat) * 2 ^ unitExponent x - x =
      (n - x / 2 ^ unitExponent x) * 2 ^ unitExponent x := by
  rw [sub_mul, div_mul_cancel₀ _ (zpow_ne_zero _ two_ne_zero)]

theorem abs_nearest_sub_le (x : Rat) : |nearest x - x| ≤ 2 ^ unitExponent x / 2 := by
  have unit_pos : (0 : Rat) < 2 ^ unitExponent x := by positivity
  have error := abs_roundHalfEven_sub_le (x / 2 ^ unitExponent x)
  rw [nearest_eq, nearest_sub_eq, abs_mul, abs_of_pos unit_pos]
  linarith [mul_le_mul_of_nonneg_right error unit_pos.le]

/-- No multiple of the unit is closer. -/
theorem nearest_closest_multiple (x : Rat) (n : Int) :
    |nearest x - x| ≤ |(n : Rat) * 2 ^ unitExponent x - x| := by
  rw [nearest_eq, nearest_sub_eq, nearest_sub_eq, abs_mul, abs_mul]
  exact mul_le_mul_of_nonneg_right (roundHalfEven_closest _ n) (abs_nonneg _)

theorem isValue_nearest (x : Rat) : IsValue (nearest x) := by
  refine ⟨roundHalfEven (x / 2 ^ unitExponent x), unitExponent x, ?_, le_unitExponent x,
    nearest_eq x⟩
  have unit_pos : (0 : Rat) < 2 ^ unitExponent x := by positivity
  have scaled : |x / 2 ^ unitExponent x| < 2 ^ 53 := by
    rw [abs_div, abs_of_pos unit_pos, div_lt_iff₀ unit_pos, mul_comm]
    have bound := abs_lt_two_pow x
    rwa [zpow_add₀ two_ne_zero, ← Nat.cast_ofNat (n := 53), zpow_natCast] at bound
  have error := abs_roundHalfEven_sub_le (x / 2 ^ unitExponent x)
  have through := abs_sub_abs_le_abs_sub (roundHalfEven (x / 2 ^ unitExponent x) : Rat)
    (x / 2 ^ unitExponent x)
  have below : ((|roundHalfEven (x / 2 ^ unitExponent x)| : Int) : Rat) < 2 ^ 53 + 1 := by
    rw [Int.cast_abs]
    linarith
  have below' : |roundHalfEven (x / 2 ^ unitExponent x)| < 2 ^ 53 + 1 := by exact_mod_cast below
  omega

/-- The least number of this unit is one of its multiples. -/
theorem abs_nearest_sub_le_edge (above : -1074 < unitExponent x) :
    |nearest x - x| ≤ |x| - 2 ^ (unitExponent x + 52) := by
  have edge := two_pow_le_abs above
  have power : (2 : Rat) ^ (unitExponent x + 52) =
      ((2 ^ 52 : Int) : Rat) * 2 ^ unitExponent x := by
    rw [zpow_add₀ two_ne_zero, mul_comm]
    norm_cast
  rcases le_total 0 x with nonneg | nonpos
  · have closest := nearest_closest_multiple x (2 ^ 52)
    rw [abs_of_nonneg nonneg] at edge ⊢
    rwa [← power, abs_of_nonpos (sub_nonpos.mpr edge), neg_sub] at closest
  · have closest := nearest_closest_multiple x (-2 ^ 52)
    rw [abs_of_nonpos nonpos] at edge ⊢
    have beyond : 0 ≤ -(2 : Rat) ^ (unitExponent x + 52) - x := by linarith
    rw [Int.cast_neg, neg_mul, ← power, abs_of_nonneg beyond] at closest
    linarith

/-- No value is closer. -/
theorem nearest_closest (value : IsValue v) (x : Rat) : |nearest x - x| ≤ |v - x| := by
  obtain ⟨m, e, small, least, rfl⟩ := value
  by_cases coarse : unitExponent x ≤ e
  · -- The value is a multiple of the unit.
    obtain ⟨k, hk⟩ := Int.eq_ofNat_of_zero_le (sub_nonneg.mpr coarse)
    have multiple : (m : Rat) * 2 ^ e = ((m * 2 ^ k : Int) : Rat) * 2 ^ unitExponent x := by
      obtain rfl : e = unitExponent x + k := by omega
      rw [zpow_add₀ two_ne_zero, zpow_natCast]
      push_cast
      ring
    rw [multiple]
    exact nearest_closest_multiple x _
  · -- The value is no larger than any number of this unit.
    have small' : |(m : Rat)| ≤ 2 ^ 53 := by exact_mod_cast small
    have below : |(m : Rat) * 2 ^ e| ≤ 2 ^ (unitExponent x + 52) := by
      have pow_pos : (0 : Rat) < 2 ^ e := by positivity
      rw [abs_mul, abs_of_pos pow_pos]
      calc |(m : Rat)| * 2 ^ e ≤ 2 ^ 53 * 2 ^ e := mul_le_mul_of_nonneg_right small' pow_pos.le
        _ = (2 : Rat) ^ (53 + e) := by rw [zpow_add₀ two_ne_zero]; norm_cast
        _ ≤ 2 ^ (unitExponent x + 52) := zpow_le_zpow_right₀ one_le_two (by omega)
    have edge := abs_nearest_sub_le_edge (x := x) (by omega)
    have apart := abs_sub_abs_le_abs_sub x ((m : Rat) * 2 ^ e)
    rw [abs_sub_comm x] at apart
    linarith

theorem nearest_of_isValue (value : IsValue x) : nearest x = x := by
  have closest := nearest_closest value x
  rw [sub_self, abs_zero] at closest
  exact sub_eq_zero.mp (abs_nonpos_iff.mp closest)

@[simp] theorem nearest_zero : nearest 0 = 0 := by
  have value : IsValue ((0 : Int) : Rat) := isValue_intCast (by decide)
  exact nearest_of_isValue (by simpa using value)

theorem nearest_mono (h : x ≤ y) : nearest x ≤ nearest y := by
  rcases h.eq_or_lt with rfl | lt
  · exact le_rfl
  · -- Were the results the other way round, each would be closer to the other's argument.
    by_contra! crossed
    have first := nearest_closest (isValue_nearest y) x
    have second := nearest_closest (isValue_nearest x) y
    rcases abs_cases (nearest x - x) with a | a <;> rcases abs_cases (nearest y - x) with b | b <;>
      rcases abs_cases (nearest y - y) with c | c <;>
      rcases abs_cases (nearest x - y) with d | d <;> linarith

theorem le_nearest (value : IsValue v) (h : v ≤ x) : v ≤ nearest x :=
  nearest_of_isValue value ▸ nearest_mono h

theorem nearest_le (value : IsValue v) (h : x ≤ v) : nearest x ≤ v :=
  nearest_of_isValue value ▸ nearest_mono h

theorem nearest_nonneg (h : 0 ≤ x) : 0 ≤ nearest x := by
  simpa using nearest_mono h

/-- Where the exact number is at most `b`, and `b` is no less than the least normal value, the error
is at most half a unit in the last of 53 bits of `b`. -/
theorem abs_nearest_sub_le_of_le {b : Rat} (bound : |x| ≤ b) (normal : 2 ^ (-1022 : Int) ≤ b) :
    |nearest x - x| ≤ b / 2 ^ 53 := by
  refine (abs_nearest_sub_le x).trans ?_
  have unit : 2 ^ (unitExponent x + 52) ≤ b := by
    rcases (le_unitExponent x).lt_or_eq with above | least
    · exact (two_pow_le_abs above).trans bound
    · rw [← least]
      exact normal
  rw [zpow_add₀ two_ne_zero] at unit
  have power : (2 : Rat) ^ (52 : Int) = 2 ^ 53 / 2 := by norm_num
  rw [power] at unit
  rw [le_div_iff₀ (by positivity)]
  linarith

theorem abs_nearest_sub_le_mul (h : x = 0 ∨ 2 ^ (-1022 : Int) ≤ x) :
    |nearest x - x| ≤ x / 2 ^ 53 := by
  rcases h with rfl | normal
  · simp
  · have nonneg : 0 ≤ x := (zpow_pos two_pos _).le.trans normal
    exact abs_nearest_sub_le_of_le (abs_of_nonneg nonneg).le normal

/-- Large values are even. -/
theorem exists_two_mul_of_isValue (value : IsValue v) (large : 2 ^ 53 ≤ v) :
    ∃ k : Int, v = 2 * k := by
  obtain ⟨m, e, small, -, rfl⟩ := value
  have small' : (m : Rat) ≤ 2 ^ 53 := by exact_mod_cast (le_abs_self m).trans small
  rcases lt_trichotomy e 0 with neg | rfl | pos
  · -- Below one, a unit is too small for a large value.
    have unit : (2 : Rat) ^ e < 1 := zpow_lt_one_of_neg₀ one_lt_two neg
    have unit_pos : (0 : Rat) < 2 ^ e := by positivity
    nlinarith
  · rw [zpow_zero, mul_one] at large ⊢
    have full : m = 2 ^ 53 := by exact_mod_cast le_antisymm small' large
    exact ⟨2 ^ 52, by rw [full]; norm_num⟩
  · obtain ⟨k, hk⟩ := Int.eq_ofNat_of_zero_le (show 0 ≤ e - 1 by omega)
    obtain rfl : e = k + 1 := by omega
    refine ⟨m * 2 ^ k, ?_⟩
    rw [zpow_add₀ two_ne_zero, zpow_natCast, zpow_one]
    push_cast
    ring

/-- A fraction is lost beside a large value. -/
theorem nearest_add_of_large (value : IsValue v) (large : 2 ^ 53 ≤ v) {f : Rat} (nonneg : 0 ≤ f)
    (small : f < 1) : nearest (v + f) = v := by
  have above : v ≤ nearest (v + f) := le_nearest value (by linarith)
  have closest := nearest_closest value (v + f)
  obtain ⟨k, hk⟩ := exists_two_mul_of_isValue value large
  obtain ⟨l, hl⟩ := exists_two_mul_of_isValue (isValue_nearest (v + f)) (large.trans above)
  rw [sub_add_cancel_left, abs_neg, abs_of_nonneg nonneg] at closest
  have near : nearest (v + f) < v + 2 := by linarith [(abs_le.mp closest).2]
  have le : (k : Rat) ≤ l := by linarith
  have lt : (l : Rat) < k + 1 := by linarith
  have same : l = k := by
    have le' : k ≤ l := by exact_mod_cast le
    have lt' : l < k + 1 := by exact_mod_cast lt
    omega
  rw [hl, hk, same]

end Binary64

end SearchLoad.Number
