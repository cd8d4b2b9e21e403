import SearchLoad.Proofs.Profile.Interpolation

namespace SearchLoad.Profile

open Number Number.Binary64

/-- The straight line from one number of users to another. -/
def exactRamp (start target elapsed duration : Nat) : Rat :=
  start + (target - start : Rat) * (elapsed / duration)

/-- How far off the line a ramp may be, in users: about a ten-billionth of one. -/
def slack : Rat := 11 * maxTarget / 2 ^ 53

def seconds (nanos : Nat) : Rat := nanos / Span.nanosPerSecond

theorem seconds_eq (nanos : Nat) : seconds nanos = (nanos / Span.nanosPerSecond : Nat) +
    seconds (nanos % Span.nanosPerSecond) := by
  have whole : (Span.nanosPerSecond : Rat) ≠ 0 := by decide
  have parts : ((Span.nanosPerSecond * (nanos / Span.nanosPerSecond) +
      nanos % Span.nanosPerSecond : Nat) : Rat) = nanos :=
    congrArg _ (Nat.div_add_mod nanos Span.nanosPerSecond)
  push_cast at parts
  rw [seconds, seconds, ← parts, add_div, mul_div_cancel_left₀ _ whole]

theorem seconds_pos {nanos : Nat} (h : 0 < nanos) : 0 < seconds nanos :=
  div_pos (Nat.cast_pos.mpr h) (by decide)

theorem le_seconds {nanos : Nat} (h : 0 < nanos) : 2 ^ (-1022 : Int) ≤ seconds nanos := by
  have least : (2 : Rat) ^ (-1022 : Int) ≤ 1 / Span.nanosPerSecond := by decide +kernel
  refine least.trans (div_le_div_of_nonneg_right ?_ (Nat.cast_nonneg _))
  exact_mod_cast h

theorem ofNat_error (n : Nat) : |ofNat n - n| ≤ n / 2 ^ 53 := by
  refine abs_nearest_sub_le_mul ?_
  rcases Nat.eq_zero_or_pos n with rfl | pos
  · exact .inl Nat.cast_zero
  · have small : (2 : Rat) ^ (-1022 : Int) ≤ 1 := zpow_le_one_of_nonpos₀ one_le_two (by decide)
    exact .inr (small.trans (Nat.one_le_cast.mpr pos))

theorem fraction_error {nanos : Nat} (small : nanos < Span.nanosPerSecond) :
    |fraction nanos - seconds nanos| ≤ seconds nanos / 2 ^ 53 := by
  have exact : ofNat nanos = nanos := ofNat_of_le (small.le.trans (by decide))
  rw [fraction, exact]
  refine abs_nearest_sub_le_mul ?_
  rcases Nat.eq_zero_or_pos nanos with rfl | pos
  · exact .inl (by simp)
  · exact .inr (le_seconds pos)

/-- Whole seconds and the rest are rounded apart, then together. -/
theorem inSeconds_error (nanos : Nat) :
    |inSeconds nanos - seconds nanos| ≤ 3 / 2 ^ 53 * seconds nanos := by
  rcases Nat.eq_zero_or_pos nanos with rfl | pos
  · simp [seconds]
  have normal := le_seconds pos
  have whole := ofNat_error (nanos / Span.nanosPerSecond)
  have rest := fraction_error (Nat.mod_lt nanos (show 0 < Span.nanosPerSecond by decide))
  have nonneg := add_nonneg (ofNat_nonneg (nanos / Span.nanosPerSecond))
    (fraction_nonneg (nanos % Span.nanosPerSecond))
  rw [inSeconds_eq]
  rw [seconds_eq] at normal ⊢
  generalize ofNat (nanos / Span.nanosPerSecond) = a at *
  generalize fraction (nanos % Span.nanosPerSecond) = b at *
  generalize ((nanos / Span.nanosPerSecond : Nat) : Rat) = q at *
  generalize seconds (nanos % Span.nanosPerSecond) = r at *
  rw [abs_le] at whole rest
  have twice : |a + b| ≤ 2 * (q + r) := by
    rw [abs_of_nonneg nonneg]
    linarith
  have sum := abs_nearest_sub_le_of_le twice (by linarith)
  rw [abs_le] at sum ⊢
  constructor <;> linarith

/-- A share of a whole, when both are off by at most three parts in `2 ^ 53`. -/
theorem abs_div_sub_le {share whole a b : Rat} (nonneg : 0 ≤ share) (le_one : share ≤ 1)
    (divisor : 0 < b) (pos : 0 < whole)
    (top : |a - share * whole| ≤ 3 / 2 ^ 53 * (share * whole))
    (bottom : |b - whole| ≤ 3 / 2 ^ 53 * whole) : |a / b - share| ≤ 7 / 2 ^ 53 := by
  have part : 0 ≤ share * whole := mul_nonneg nonneg pos.le
  have part_le : share * whole ≤ whole := mul_le_of_le_one_left pos.le le_one
  rw [abs_le] at top bottom ⊢
  constructor
  · rw [neg_le_sub_iff_le_add, ← sub_le_iff_le_add, le_div_iff₀ divisor]
    rcases le_total share (7 / 2 ^ 53) with small | large
    · calc (share - 7 / 2 ^ 53) * b ≤ 0 :=
          mul_nonpos_of_nonpos_of_nonneg (sub_nonpos.mpr small) divisor.le
        _ ≤ a := by linarith
    · have most : b ≤ (1 + 3 / 2 ^ 53) * whole := by linarith
      calc (share - 7 / 2 ^ 53) * b ≤ (share - 7 / 2 ^ 53) * ((1 + 3 / 2 ^ 53) * whole) :=
            mul_le_mul_of_nonneg_left most (sub_nonneg.mpr large)
        _ ≤ share * whole - 3 / 2 ^ 53 * (share * whole) := by nlinarith
        _ ≤ a := by linarith
  · rw [sub_le_iff_le_add, div_le_iff₀ divisor]
    have least : (1 - 3 / 2 ^ 53) * whole ≤ b := by linarith
    calc a ≤ share * whole + 3 / 2 ^ 53 * (share * whole) := by linarith
      _ ≤ (7 / 2 ^ 53 + share) * ((1 - 3 / 2 ^ 53) * whole) := by nlinarith
      _ ≤ (7 / 2 ^ 53 + share) * b := mul_le_mul_of_nonneg_left least (by positivity)

/-- Dividing two times in seconds loses no more. -/
theorem progress_error {elapsed duration : Nat} (h : elapsed < duration) :
    |progress elapsed duration - (elapsed : Rat) / duration| ≤ 8 / 2 ^ 53 := by
  have pos : 0 < duration := Nat.zero_lt_of_lt h
  have top := inSeconds_error elapsed
  have bottom := inSeconds_error duration
  have divisor := inSeconds_pos pos
  have duration_pos := seconds_pos pos
  have part : seconds elapsed = elapsed / duration * seconds duration := by
    have : (duration : Rat) ≠ 0 := Nat.cast_ne_zero.mpr pos.ne'
    rw [seconds, seconds, ← mul_div_assoc, div_mul_cancel₀ _ this]
  have share_nonneg : (0 : Rat) ≤ elapsed / duration := by positivity
  have share_le : (elapsed : Rat) / duration ≤ 1 :=
    div_le_one_of_le₀ (Nat.cast_le.mpr h.le) (Nat.cast_nonneg _)
  have ratio_nonneg : 0 ≤ inSeconds elapsed / inSeconds duration :=
    div_nonneg (inSeconds_zero ▸ inSeconds_mono (Nat.zero_le elapsed)) divisor.le
  have ratio_le : inSeconds elapsed / inSeconds duration ≤ 1 :=
    div_le_one_of_le₀ (inSeconds_mono h.le) divisor.le
  have rounded : |progress elapsed duration - inSeconds elapsed / inSeconds duration| ≤
      1 / 2 ^ 53 := by
    refine abs_nearest_sub_le_of_le ?_ (zpow_le_one_of_nonpos₀ one_le_two (by decide))
    rwa [abs_of_nonneg ratio_nonneg]
  have divided : |inSeconds elapsed / inSeconds duration - (elapsed : Rat) / duration| ≤
      7 / 2 ^ 53 := by
    rw [part] at top
    exact abs_div_sub_le share_nonneg share_le divisor duration_pos top bottom
  calc |progress elapsed duration - (elapsed : Rat) / duration|
      ≤ |progress elapsed duration - inSeconds elapsed / inSeconds duration| +
        |inSeconds elapsed / inSeconds duration - (elapsed : Rat) / duration| :=
          abs_sub_le _ _ _
    _ ≤ 1 / 2 ^ 53 + 7 / 2 ^ 53 := add_le_add rounded divided
    _ = 8 / 2 ^ 53 := by norm_num

/-- The way from one number of users to another is off by little when the share of it is. -/
theorem between_error {start target : Nat} (low : start ≤ maxTarget) (low' : target ≤ maxTarget)
    {share exact : Rat} (nonneg : 0 ≤ share) (le_one : share ≤ 1)
    (near : |share - exact| ≤ 8 / 2 ^ 53) :
    |between start target share - (start + (target - start) * exact)| ≤ slack := by
  have start_le : (start : Rat) ≤ maxTarget := Nat.cast_le.mpr low
  have target_le : (target : Rat) ≤ maxTarget := Nat.cast_le.mpr low'
  have start_nonneg : (0 : Rat) ≤ start := Nat.cast_nonneg start
  have target_nonneg : (0 : Rat) ≤ target := Nat.cast_nonneg target
  have positive : (1 : Rat) ≤ maxTarget := by decide
  have normal : (2 : Rat) ^ (-1022 : Int) ≤ maxTarget :=
    (zpow_le_one_of_nonpos₀ one_le_two (by decide)).trans positive
  rw [between, mul, add, sub_eq low low', slack]
  generalize (maxTarget : Rat) = most at *
  have width : |(target : Rat) - start| ≤ most := abs_le.mpr ⟨by linarith, by linarith⟩
  have spread : |((target : Rat) - start) * share - (target - start) * exact| ≤
      most * (8 / 2 ^ 53) := by
    rw [← mul_sub, abs_mul]
    exact mul_le_mul width near (abs_nonneg _) (by linarith)
  have size : |((target : Rat) - start) * share| ≤ most := by
    rw [abs_mul, abs_of_nonneg nonneg]
    exact (mul_le_of_le_one_right (abs_nonneg _) le_one).trans width
  have inside : |(start : Rat) + (target - start) * share| ≤ most := by
    rw [abs_le]
    constructor <;> nlinarith
  have product := abs_nearest_sub_le_of_le size normal
  generalize ((target : Rat) - start) * share = way at *
  have about : |(start : Rat) + nearest way| ≤ 2 * most := by
    rw [abs_le] at inside product ⊢
    constructor <;> linarith
  have sum := abs_nearest_sub_le_of_le about (by linarith)
  rw [abs_le] at spread product sum ⊢
  constructor <;> linarith

/-- The number is the line's, rounded down. Where the line is no more than `slack` past a whole
number it may be one less, and where it is no more than `slack` short of one it may be that one. -/
def NearlyFloor (n : Int) (line : Rat) : Prop :=
  n = line.floor ∨ n = line.floor - 1 ∧ line < line.floor + slack ∨
    n = line.floor + 1 ∧ line.floor + 1 ≤ line + slack

theorem nearlyFloor_of_near {x line : Rat} (near : |x - line| ≤ slack) :
    NearlyFloor x.floor line := by
  have small : slack < 1 := by decide +kernel
  rw [abs_le] at near
  have below := Rat.floor_le line
  have above := Rat.lt_floor_add_one line
  have below' := Rat.floor_le x
  have above' := Rat.lt_floor_add_one x
  rcases lt_trichotomy x.floor line.floor with less | same | more
  · have step : (x.floor : Rat) + 1 ≤ line.floor := by exact_mod_cast less
    have least : (line.floor : Rat) < x.floor + 2 := by
      push_cast at above'
      linarith
    have least' : line.floor < x.floor + 2 := by exact_mod_cast least
    refine .inr (.inl ⟨by omega, ?_⟩)
    push_cast at above'
    linarith
  · exact .inl same
  · have step : (line.floor : Rat) + 1 ≤ x.floor := by exact_mod_cast more
    have most : (x.floor : Rat) < line.floor + 2 := by
      push_cast at above
      linarith
    have most' : x.floor < line.floor + 2 := by exact_mod_cast most
    exact .inr (.inr ⟨by omega, by linarith⟩)

/-- Until the profile is over a stage is under way, and the number of users is that of the straight
line from the target before to the stage's own, rounded down, but for the slack. -/
theorem ramp_is_nearly_exact (p : Profile) (admitted : ofStages p.stages = .ok p) (elapsed : Nat)
    (running : elapsed < p.total.nanos) :
    ∃ before s n, p.Underway elapsed before s ∧ p.targetAt elapsed = some n ∧
      NearlyFloor n (exactRamp (lastTarget 0 before) s.target (elapsed - nanosOf before)
        s.duration.nanos) := by
  obtain ⟨before, s, underway⟩ := exists_underway admitted running
  have limit : p.highest ≤ maxTarget := highest_le (of_ofStages admitted).2.2
  have low := underway.lastTarget_le_highest.trans limit
  have low' := (le_highest underway.mem).trans limit
  have inside : elapsed - nanosOf before < s.duration.nanos := by
    have := underway.begun
    have := underway.unfinished
    omega
  have nonneg := progress_nonneg (elapsed - nanosOf before) s.duration.nanos
  have near := between_error low low' nonneg underway.progress_le_one (progress_error inside)
  refine ⟨before, s, _, underway, underway.targetAt_eq, ?_⟩
  rw [natCast_interpolate low low' nonneg underway.progress_le_one]
  exact nearlyFloor_of_near near

theorem standard_ramp_is_nearly_exact :
    8100000000 < standard.total.nanos ∧ ∃ before s n, standard.Underway 8100000000 before s ∧
      standard.targetAt 8100000000 = some n ∧
      NearlyFloor n (exactRamp (lastTarget 0 before) s.target (8100000000 - nanosOf before)
        s.duration.nanos) :=
  ⟨by decide, ramp_is_nearly_exact standard (by decide) 8100000000 (by decide)⟩

/-- Eight seconds and a tenth into the standard profile the line is at 27 users, and one of them is
lost: the share of the way times the target comes out just below. -/
theorem standard_ramp_falls_short :
    let s : Stage := ⟨.ofMillis 30000, 100⟩
    ofStages standard.stages = .ok standard ∧ standard.Underway 8100000000 [] s ∧
      exactRamp (lastTarget 0 []) s.target (8100000000 - nanosOf []) s.duration.nanos = 27 ∧
      standard.targetAt 8100000000 = some 26 := by
  refine ⟨by decide, ⟨⟨_, rfl⟩, by decide, by decide⟩, by decide +kernel, by decide +kernel⟩

end SearchLoad.Profile
