import Mathlib.Algebra.Order.Floor.Div
import Mathlib.Data.Set.Card
import Mathlib.Order.Interval.Finset.Nat
import Mathlib.Tactic.Ring
import SearchLoad.Proofs.Sampling.Queries

namespace SearchLoad

namespace Sampling

/-- How many pairs of words there are. -/
def pairCount : Nat := wordCount * wordCount

/-- The 64 bits that two words make up, the first one above the second. -/
def wide (x y : UInt32) : Nat := x.toNat * wordCount + y.toNat

/-- The index below `n` that 64 bits stand for, in one multiplication. -/
def share (n bits : Nat) : Nat := bits * n / pairCount

variable {n : Nat} {x y : UInt32}

theorem wide_injective : Function.Injective fun p : UInt32 × UInt32 => wide p.1 p.2 := by
  rintro ⟨x, y⟩ ⟨x', y'⟩ same
  have hy : y.toNat < wordCount := y.toNat_lt
  have hy' : y'.toNat < wordCount := y'.toNat_lt
  simp only [wide, wordCount] at same hy hy'
  have first : x = x' := UInt32.toNat_inj.mp (by omega)
  have second : y = y' := UInt32.toNat_inj.mp (by omega)
  rw [first, second]

theorem exists_wide {bits : Nat} (h : bits < pairCount) : ∃ x y : UInt32, wide x y = bits := by
  have upper : bits / wordCount < wordCount := Nat.div_lt_of_lt_mul h
  have lower : bits % wordCount < wordCount := Nat.mod_lt _ (by decide)
  refine ⟨.ofNatLT (bits / wordCount) upper, .ofNatLT (bits % wordCount) lower, ?_⟩
  exact Nat.div_add_mod' bits wordCount

/-- The product with both words, by the halves of the products with either. -/
theorem wide_mul (n : Nat) (x y : UInt32) :
    wide x y * n = high n x * pairCount + (low n x + high n y) * wordCount + low n y := by
  have hx : high n x * wordCount + low n x = x.toNat * n := Nat.div_add_mod' _ _
  have hy : high n y * wordCount + low n y = y.toNat * n := Nat.div_add_mod' _ _
  rw [wide, Nat.add_mul, Nat.mul_right_comm, ← hx, ← hy, pairCount]
  ring

theorem low_lt (n : Nat) (x : UInt32) : low n x < wordCount := Nat.mod_lt _ (by decide)

theorem high_lt (pos : 0 < n) (x : UInt32) : high n x < n :=
  Nat.div_lt_of_lt_mul (Nat.mul_lt_mul_of_pos_right x.toNat_lt pos)

/-- Where the first word decides, no second one carries into the index. -/
theorem isUndecided_of_carries (pos : 0 < n) (few : n < wordCount) (h : carries n x y = true) :
    isUndecided n x = true := by
  have upper := high_lt pos y
  rw [carries, decide_eq_true_eq] at h
  rw [isUndecided, decide_eq_true_eq, Nat.mod_eq_of_lt (by omega)]
  omega

/-- The draw comes to the multiplication of all 64 bits. -/
theorem indexOf_eq_share (pos : 0 < n) (few : n < wordCount) (x y : UInt32) :
    indexOf n x y = share n (wide x y) := by
  have lower := low_lt n y
  have sum : low n x + high n y < 2 * wordCount := by
    have first := low_lt n x
    have second := high_lt pos y
    omega
  have decided : (isUndecided n x && carries n x y) = carries n x y := by
    cases h : carries n x y with
    | false => exact Bool.and_false _
    | true => rw [isUndecided_of_carries pos few h, Bool.and_self]
  rw [indexOf, decided, share, wide_mul, pairCount]
  symm
  split
  · rename_i carry
    rw [carries, decide_eq_true_eq] at carry
    apply Nat.div_eq_of_lt_le
    · unfold wordCount at *
      omega
    · unfold wordCount at *
      omega
  · rename_i stay
    rw [carries, decide_eq_true_eq] at stay
    apply Nat.div_eq_of_lt_le
    · unfold wordCount at *
      omega
    · unfold wordCount at *
      omega

/-- What a draw takes from a source: one word, where it decides for all second ones, or two. -/
inductive Draws {σ : Type} [WordSource σ] (n : Nat) (s : σ) : Nat → σ → Prop
  | one {i : Nat} {x : UInt32} {after : σ} (first : WordSource.next s = (x, after))
      (decided : ∀ y, share n (wide x y) = i) : Draws n s i after
  | two {i : Nat} {x y : UInt32} {between after : σ} (first : WordSource.next s = (x, between))
      (second : WordSource.next between = (y, after)) (taken : share n (wide x y) = i) :
      Draws n s i after

section Source

variable {σ : Type} [WordSource σ]

/-- The index is that of the next two words, also where only one of them is taken. -/
theorem Draws.eq {s between after after' : σ} {i : Nat} (h : Draws n s i after)
    (first : WordSource.next s = (x, between)) (second : WordSource.next between = (y, after')) :
    i = share n (wide x y) := by
  cases h with
  | one first' decided =>
    obtain ⟨rfl, rfl⟩ := Prod.mk.inj (first'.symm.trans first)
    exact (decided y).symm
  | two first' second' taken =>
    obtain ⟨rfl, rfl⟩ := Prod.mk.inj (first'.symm.trans first)
    obtain ⟨rfl, rfl⟩ := Prod.mk.inj (second'.symm.trans second)
    exact taken.symm

theorem draws_draw (pos : 0 < n) (few : n < wordCount) (s : σ) :
    Draws n s (draw n s).1 (draw n s).2 := by
  unfold draw
  dsimp only
  split
  · exact .two rfl rfl (indexOf_eq_share pos few _ _).symm
  · rename_i decided
    have settled : ∀ y, indexOf n (WordSource.next s).1 y = high n (WordSource.next s).1 := by
      intro y
      rw [indexOf, Bool.eq_false_iff.mpr decided]
      rfl
    refine .one rfl ?_
    intro y
    rw [← indexOf_eq_share pos few]
    exact (settled y).trans (settled 0).symm

end Source

/-- The index that is drawn where two words are handed out. -/
theorem draw_replay (pos : 0 < n) (few : n < wordCount) (x y : UInt32) :
    (draw n (Replay.mk #[x, y] 0)).1 = share n (wide x y) :=
  (draws_draw pos few _).eq rfl rfl

theorem share_eq_iff (pos : 0 < n) {bits i : Nat} :
    share n bits = i ↔ bits ∈ Set.Ico (i * pairCount ⌈/⌉ n) ((i + 1) * pairCount ⌈/⌉ n) := by
  have positive : 0 < pairCount := by decide
  rw [Set.mem_Ico, ceilDiv_le_iff_le_mul pos, ← not_le, ceilDiv_le_iff_le_mul pos, not_le, share,
    Nat.div_eq_iff positive, Nat.mul_comm n bits, Nat.succ_mul]
  omega

/-- Between two numbers there are as many multiples of `n` as their difference tells, rounded down
or up. -/
theorem ceilDiv_sub_ceilDiv (pos : 0 < n) (a b : Nat) :
    (a + b) ⌈/⌉ n - a ⌈/⌉ n = b / n ∨ (a + b) ⌈/⌉ n - a ⌈/⌉ n = b ⌈/⌉ n := by
  have whole : n * (b / n) ≤ b := Nat.mul_div_le b n
  have covered : a + b ≤ n * ((a + b) ⌈/⌉ n) := le_smul_ceilDiv pos
  have fits : b / n ≤ (a + b) ⌈/⌉ n := Nat.le_of_mul_le_mul_left (by omega) pos
  have lower : a ⌈/⌉ n ≤ (a + b) ⌈/⌉ n - b / n := by
    rw [ceilDiv_le_iff_le_mul pos, Nat.mul_sub]
    omega
  have upper : (a + b) ⌈/⌉ n ≤ a ⌈/⌉ n + b ⌈/⌉ n := by
    rw [ceilDiv_le_iff_le_mul pos, Nat.mul_add]
    exact Nat.add_le_add (le_smul_ceilDiv pos) (le_smul_ceilDiv pos)
  have near : b ⌈/⌉ n ≤ b / n + 1 := by
    rw [ceilDiv_le_iff_le_mul pos]
    exact (Nat.lt_mul_div_succ b pos).le
  omega

theorem ncard_share (pos : 0 < n) {i : Nat} (inside : i < n) :
    {p : UInt32 × UInt32 | share n (wide p.1 p.2) = i}.ncard =
      (i + 1) * pairCount ⌈/⌉ n - i * pairCount ⌈/⌉ n := by
  have last : (i + 1) * pairCount ⌈/⌉ n ≤ pairCount := by
    rw [ceilDiv_le_iff_le_mul pos]
    exact Nat.mul_le_mul_right _ inside
  have image : (fun p : UInt32 × UInt32 => wide p.1 p.2) '' {p | share n (wide p.1 p.2) = i} =
      Set.Ico (i * pairCount ⌈/⌉ n) ((i + 1) * pairCount ⌈/⌉ n) := by
    ext bits
    constructor
    · rintro ⟨p, drawn, rfl⟩
      exact (share_eq_iff pos).mp drawn
    · intro between
      obtain ⟨x, y, rfl⟩ := exists_wide (Nat.lt_of_lt_of_le between.2 last)
      exact ⟨(x, y), (share_eq_iff pos).mpr between, rfl⟩
  rw [← Set.ncard_image_of_injective _ wide_injective, image, ← Finset.coe_Ico,
    Set.ncard_coe_finset, Nat.card_Ico]

end Sampling

open Sampling

/-- A sample draws both of its words in the same way, the second one from what the first left: with
one word from the source, or with two, the index is the share that these 64 bits are of all, and the
corpus has it. Of all pairs of words, an index is drawn by as many as there are for each, rounded
down or up. -/
theorem Sampler.sampling_is_uniform (s : Sampler) (few : s.corpus.size < 2 ^ 32) :
    (∀ {σ : Type} [WordSource σ] (g : σ), ∃ i j between after first second,
      Draws s.corpus.size g i between ∧ Draws s.corpus.size between j after ∧
      i < s.corpus.size ∧ j < s.corpus.size ∧
      s.corpus.get? i = some first ∧ s.corpus.get? j = some second ∧
      s.sample g = (.ofWords first second, after)) ∧
    ∀ i < s.corpus.size,
      let drawn := {p : UInt32 × UInt32 | (draw s.corpus.size (Replay.mk #[p.1, p.2] 0)).1 = i}
      drawn.ncard = 2 ^ 64 / s.corpus.size ∨ drawn.ncard = 2 ^ 64 ⌈/⌉ s.corpus.size := by
  have pos : 0 < s.corpus.size := s.size_pos
  constructor
  · intro σ _ g
    have inside := draw_lt pos g
    have inside' := draw_lt pos (draw s.corpus.size g).2
    exact ⟨_, _, _, _, _, _, draws_draw pos few g, draws_draw pos few _, inside, inside',
      Array.getElem?_eq_getElem inside, Array.getElem?_eq_getElem inside', rfl⟩
  · intro i inside drawn
    have pairs : 2 ^ 64 = pairCount := by decide
    have shared : drawn = {p : UInt32 × UInt32 | share s.corpus.size (wide p.1 p.2) = i} := by
      ext p
      exact Eq.congr_left (draw_replay pos few p.1 p.2)
    rw [shared, ncard_share pos inside, pairs, Nat.succ_mul]
    exact ceilDiv_sub_ceilDiv pos _ _

/-- Three words cannot be drawn by equally many pairs, but nearly. -/
theorem Sampler.three_words_are_drawn_alike :
    let s : Sampler := ⟨⟨#["a", "b", "c"]⟩, by decide⟩
    let drawn := {p : UInt32 × UInt32 | (draw 3 (Replay.mk #[p.1, p.2] 0)).1 = 2}
    s.corpus.size = 3 ∧
      (drawn.ncard = 6148914691236517205 ∨ drawn.ncard = 6148914691236517206) := by
  intro s drawn
  have floor : 2 ^ 64 / 3 = 6148914691236517205 := by decide
  have ceil : 2 ^ 64 ⌈/⌉ 3 = 6148914691236517206 := by decide
  rw [← floor, ← ceil]
  exact ⟨rfl, (sampling_is_uniform s (by decide)).2 2 (by decide)⟩

end SearchLoad
