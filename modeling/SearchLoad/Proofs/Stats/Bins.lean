import Mathlib.Algebra.Ring.Nat
import Mathlib.Data.List.Induction
import Mathlib.Data.List.Sort
import SearchLoad.Stats.Basic

namespace SearchLoad

variable {v w : Nat}

theorem binWidth_of_lt (small : v < 2048) : binWidth v = 1 := if_pos small

/-- The values of a wide bin have their leading eleven binary digits in common. -/
theorem two_pow_log2 (large : 2048 ≤ v) : 2 ^ v.log2 = 1024 * binWidth v := by
  have nonzero : v ≠ 0 := by omega
  have digits : 11 ≤ v.log2 := (Nat.le_log2 nonzero).mpr large
  calc 2 ^ v.log2 = 2 ^ (10 + (v.log2 - 10)) := by rw [Nat.add_sub_of_le (by omega)]
    _ = 1024 * 2 ^ (v.log2 - 10) := Nat.pow_add 2 10 _
    _ = 1024 * binWidth v := by rw [binWidth, if_neg (Nat.not_lt.mpr large), Nat.pow_eq]

theorem binWidth_bounds (large : 2048 ≤ v) :
    1024 * binWidth v ≤ v ∧ v < 2 * (1024 * binWidth v) := by
  have nonzero : v ≠ 0 := by omega
  have power := two_pow_log2 large
  constructor
  · rw [← power]
    exact Nat.log2_self_le nonzero
  · rw [← power, ← Nat.pow_add_one']
    exact Nat.lt_log2_self

theorem binWidth_pos (v : Nat) : 0 < binWidth v := by
  by_cases small : v < 2048
  · simp [binWidth_of_lt small]
  · have bounds := binWidth_bounds (Nat.le_of_not_lt small)
    omega

theorem binFirst_le (v : Nat) : binFirst v ≤ v := Nat.div_mul_le_self v (binWidth v)

theorem le_binLast (v : Nat) : v ≤ binLast v := by
  have next : v < binFirst v + binWidth v := Nat.lt_div_mul_add (binWidth_pos v)
  unfold binLast
  omega

theorem binLast_of_lt (small : v < 2048) : binLast v = v := by
  simp [binLast, binFirst, binWidth_of_lt small]

/-- The resolution: three decimal digits. -/
theorem binLast_le (v : Nat) : binLast v ≤ v + v / 1024 := by
  by_cases small : v < 2048
  · rw [binLast_of_lt small]
    exact Nat.le_add_right v _
  · have first := binFirst_le v
    have bounds := binWidth_bounds (Nat.le_of_not_lt small)
    unfold binLast
    omega

/-- A wide bin begins no earlier than the power of two that its values lie above. -/
theorem le_binFirst (large : 2048 ≤ v) : 1024 * binWidth v ≤ binFirst v := by
  have fits : 1024 ≤ v / binWidth v :=
    (Nat.le_div_iff_mul_le (binWidth_pos v)).mpr (binWidth_bounds large).1
  exact Nat.mul_le_mul_right _ fits

/-- The values from a bin's first to its last are in that bin. -/
theorem bin_eq (above : binFirst v ≤ w) (below : w ≤ binLast v) :
    binWidth w = binWidth v ∧ binFirst w = binFirst v := by
  by_cases small : v < 2048
  · have first : binFirst v = v := by simp [binFirst, binWidth_of_lt small]
    rw [binLast_of_lt small] at below
    obtain rfl : w = v := by omega
    exact ⟨rfl, rfl⟩
  · have large := Nat.le_of_not_lt small
    have bounds := binWidth_bounds large
    have first := le_binFirst large
    have fewer : v / binWidth v < 2048 := Nat.div_lt_of_lt_mul (by omega)
    have last : binFirst v + binWidth v ≤ 2048 * binWidth v := by
      rw [binFirst, ← Nat.succ_mul]
      exact Nat.mul_le_mul_right _ fewer
    have pos := binWidth_pos v
    unfold binLast at below
    have width : binWidth w = binWidth v := by
      have wide : 2048 ≤ w := by omega
      have digits : w.log2 = v.log2 := by
        apply (Nat.log2_eq_iff (by omega)).mpr
        rw [Nat.pow_add_one', two_pow_log2 large]
        omega
      have power := two_pow_log2 wide
      rw [digits, two_pow_log2 large] at power
      omega
    refine ⟨width, ?_⟩
    have place : w / binWidth v = v / binWidth v := by
      apply Nat.div_eq_of_lt_le
      · exact above
      · rw [Nat.succ_mul]
        unfold binFirst at below
        omega
    rw [binFirst, width, place, binFirst]

/-- All values of a bin are told by its first one. -/
@[simp] theorem binLast_binFirst (v : Nat) : binLast (binFirst v) = binLast v := by
  have bin := bin_eq (Nat.le_refl _) (Nat.le_trans (binFirst_le v) (le_binLast v))
  rw [binLast, bin.1, bin.2, binLast]

@[simp] theorem binLast_binLast (v : Nat) : binLast (binLast v) = binLast v := by
  have bin := bin_eq (Nat.le_trans (binFirst_le v) (le_binLast v)) (Nat.le_refl _)
  rw [binLast, bin.1, bin.2, binLast]

theorem binFirst_mono (h : v ≤ w) : binFirst v ≤ binFirst w := by
  by_cases same : binWidth v = binWidth w
  · unfold binFirst
    rw [same]
    exact Nat.mul_le_mul_right _ (Nat.div_le_div_right h)
  · -- The widths differ, so that a power of two lies between the values.
    have large : 2048 ≤ w := by
      apply Nat.le_of_not_lt
      intro small
      exact same (by rw [binWidth_of_lt small, binWidth_of_lt (Nat.lt_of_le_of_lt h small)])
    have above := le_binFirst large
    by_cases small : v < 2048
    · have wide := binWidth_bounds large
      have first := binFirst_le v
      omega
    · have large' := Nat.le_of_not_lt small
      have digits : v.log2 < w.log2 := by
        apply Nat.lt_of_le_of_ne
        · exact (Nat.le_log2 (by omega)).mpr (Nat.le_trans (Nat.log2_self_le (by omega)) h)
        · intro e
          have power := two_pow_log2 large'
          rw [e, two_pow_log2 large] at power
          omega
      have first := binFirst_le v
      have power : 2 ^ (v.log2 + 1) ≤ 2 ^ w.log2 := Nat.pow_le_pow_right (by decide) digits
      rw [two_pow_log2 large] at power
      have below : v < 2 ^ (v.log2 + 1) := Nat.lt_log2_self
      omega

theorem binWidth_mono (h : v ≤ w) : binWidth v ≤ binWidth w := by
  by_cases small : v < 2048
  · rw [binWidth_of_lt small]
    exact binWidth_pos w
  · have large := Nat.le_of_not_lt small
    have power : 2 ^ v.log2 ≤ 2 ^ w.log2 :=
      Nat.pow_le_pow_right (by decide) ((Nat.le_log2 (by omega)).mpr
        (Nat.le_trans (Nat.log2_self_le (by omega)) h))
    rw [two_pow_log2 large, two_pow_log2 (Nat.le_trans large h)] at power
    omega

theorem binLast_mono (h : v ≤ w) : binLast v ≤ binLast w := by
  have first := binFirst_mono h
  have width := binWidth_mono h
  unfold binLast
  omega

namespace Histogram

/-- The first values of bins, each as often as it was counted. -/
def valuesOf (bins : List (Nat × Nat)) : List Nat := bins.flatMap fun b => List.replicate b.2 b.1

def values (h : Histogram) : List Nat := valuesOf h.bins

/-- Bins in increasing order, none of them empty. -/
structure Ordered (bins : List (Nat × Nat)) : Prop where
  increasing : bins.Pairwise fun b c => b.1 < c.1
  counted : ∀ b ∈ bins, 0 < b.2

variable {bins : List (Nat × Nat)}

@[simp] theorem valuesOf_cons (b : Nat × Nat) (bins : List (Nat × Nat)) :
    valuesOf (b :: bins) = List.replicate b.2 b.1 ++ valuesOf bins := rfl

theorem mem_valuesOf : v ∈ valuesOf bins ↔ ∃ b ∈ bins, b.2 ≠ 0 ∧ v = b.1 := by
  simp [valuesOf, List.mem_replicate]

theorem valuesOf_addBin (first count : Nat) (bins : List (Nat × Nat)) :
    (valuesOf (addBin first count bins)).Perm (List.replicate count first ++ valuesOf bins) := by
  induction bins with
  | nil => simp [addBin]
  | cons b bins ih =>
    unfold addBin
    split
    · simp
    · split
      · rename_i same
        rw [valuesOf_cons, valuesOf_cons, same, Nat.add_comm, List.replicate_add, List.append_assoc]
      · rw [valuesOf_cons, valuesOf_cons]
        exact (ih.append_left _).trans (List.perm_append_comm_assoc _ _ _)

theorem mem_addBin {first count : Nat} {c : Nat × Nat} (h : c ∈ addBin first count bins) :
    c.1 = first ∨ ∃ b ∈ bins, b.1 = c.1 := by
  induction bins with
  | nil => simp_all [addBin]
  | cons b bins ih =>
    unfold addBin at h
    split at h
    · rcases List.mem_cons.mp h with rfl | h
      · exact .inl rfl
      · exact .inr ⟨c, h, rfl⟩
    · split at h
      · rcases List.mem_cons.mp h with rfl | h
        · exact .inl rfl
        · exact .inr ⟨c, List.mem_cons_of_mem b h, rfl⟩
      · rcases List.mem_cons.mp h with rfl | h
        · exact .inr ⟨c, List.mem_cons_self, rfl⟩
        · exact (ih h).imp_right fun ⟨d, hd, same⟩ => ⟨d, List.mem_cons_of_mem b hd, same⟩

theorem Ordered.addBin {first count : Nat} (h : Ordered bins) (pos : 0 < count) :
    Ordered (addBin first count bins) := by
  induction bins with
  | nil => exact ⟨List.pairwise_singleton _ _, by simpa [Histogram.addBin] using pos⟩
  | cons b bins ih =>
    obtain ⟨increasing, counted⟩ := h
    obtain ⟨least, increasing⟩ := List.pairwise_cons.mp increasing
    obtain ⟨here, counted⟩ := List.forall_mem_cons.mp counted
    unfold Histogram.addBin
    split
    · rename_i before
      refine ⟨List.pairwise_cons.mpr ⟨?_, List.pairwise_cons.mpr ⟨least, increasing⟩⟩, ?_⟩
      · exact List.forall_mem_cons.mpr ⟨before, fun c hc => Nat.lt_trans before (least c hc)⟩
      · exact List.forall_mem_cons.mpr ⟨pos, List.forall_mem_cons.mpr ⟨here, counted⟩⟩
    · split
      · rename_i same
        refine ⟨List.pairwise_cons.mpr ⟨?_, increasing⟩, ?_⟩
        · intro c hc
          exact same ▸ least c hc
        · exact List.forall_mem_cons.mpr ⟨Nat.add_pos_left here count, counted⟩
      · rename_i notBefore notSame
        obtain ⟨increasing', counted'⟩ := ih ⟨increasing, counted⟩
        refine ⟨List.pairwise_cons.mpr ⟨?_, increasing'⟩, List.forall_mem_cons.mpr ⟨here, counted'⟩⟩
        intro c hc
        rcases mem_addBin hc with first | ⟨d, hd, same⟩
        · omega
        · exact same ▸ least d hd

theorem Ordered.values_sorted (h : Ordered bins) : (valuesOf bins).Pairwise (· ≤ ·) := by
  apply List.pairwise_flatMap.mpr
  constructor
  · intro b _
    exact List.pairwise_replicate.mpr (.inr (Nat.le_refl _))
  · apply h.increasing.imp
    intro b c before x hx y hy
    rw [List.eq_of_mem_replicate hx, List.eq_of_mem_replicate hy]
    exact Nat.le_of_lt before

theorem Ordered.tail {b : Nat × Nat} (h : Ordered (b :: bins)) : Ordered bins :=
  ⟨(List.pairwise_cons.mp h.increasing).2, (List.forall_mem_cons.mp h.counted).2⟩

/-- The first bin is told by the values: it is the least one's. -/
theorem Ordered.count_head {b : Nat × Nat} (h : Ordered (b :: bins)) :
    (valuesOf (b :: bins)).count b.1 = b.2 := by
  have absent : b.1 ∉ valuesOf bins := by
    intro member
    obtain ⟨c, hc, -, same⟩ := mem_valuesOf.mp member
    have before := (List.pairwise_cons.mp h.increasing).1 c hc
    omega
  rw [valuesOf_cons, List.count_append, List.count_replicate_self, List.count_eq_zero.mpr absent,
    Nat.add_zero]

theorem Ordered.head_le {b : Nat × Nat} (h : Ordered (b :: bins)) (hv : v ∈ valuesOf (b :: bins)) :
    b.1 ≤ v := by
  obtain ⟨c, hc, -, rfl⟩ := mem_valuesOf.mp hv
  rcases List.mem_cons.mp hc with rfl | hc
  · exact Nat.le_refl _
  · exact Nat.le_of_lt ((List.pairwise_cons.mp h.increasing).1 c hc)

theorem Ordered.head_mem {b : Nat × Nat} (h : Ordered (b :: bins)) : b.1 ∈ valuesOf (b :: bins) :=
  mem_valuesOf.mpr ⟨b, List.mem_cons_self, (h.counted b List.mem_cons_self).ne', rfl⟩

theorem Ordered.eq_of_perm {bins' : List (Nat × Nat)} (h : Ordered bins) (h' : Ordered bins')
    (same : (valuesOf bins).Perm (valuesOf bins')) : bins = bins' := by
  induction bins generalizing bins' with
  | nil =>
    cases bins' with
    | nil => rfl
    | cons c bins' =>
      have member := same.mem_iff.mpr h'.head_mem
      simp [valuesOf] at member
  | cons b bins ih =>
    cases bins' with
    | nil =>
      have member := same.mem_iff.mp h.head_mem
      simp [valuesOf] at member
    | cons c bins' =>
      have first : b.1 = c.1 :=
        Nat.le_antisymm (h.head_le (same.mem_iff.mpr h'.head_mem))
          (h'.head_le (same.mem_iff.mp h.head_mem))
      have count : b.2 = c.2 := by
        rw [← h.count_head, ← h'.count_head, ← first]
        exact same.count_eq _
      obtain rfl : b = c := Prod.ext first count
      rw [valuesOf_cons, valuesOf_cons, List.perm_append_left_iff] at same
      rw [ih h.tail h'.tail same]

theorem values_add (h : Histogram) (v : Nat) :
    (h.add v).values.Perm (binFirst (clamp v) :: h.values) :=
  valuesOf_addBin _ 1 h.bins

theorem values_merge (h k : Histogram) : (h.merge k).values.Perm (h.values ++ k.values) := by
  have folded : ∀ (added bins : List (Nat × Nat)),
      (valuesOf (added.foldl (fun bins b => addBin b.1 b.2 bins) bins)).Perm
        (valuesOf bins ++ valuesOf added) := by
    intro added
    induction added with
    | nil => simp [valuesOf]
    | cons b added ih =>
      intro bins
      have step := (valuesOf_addBin b.1 b.2 bins).append_right (valuesOf added)
      rw [List.foldl_cons, valuesOf_cons]
      refine (ih _).trans (step.trans ?_)
      rw [List.append_assoc]
      exact (List.perm_append_comm_assoc _ _ _)
  exact folded k.bins h.bins

theorem Ordered.merge {h k : Histogram} (ordered : Ordered h.bins) (ordered' : Ordered k.bins) :
    Ordered (h.merge k).bins := by
  have folded : ∀ (added bins : List (Nat × Nat)), (∀ b ∈ added, 0 < b.2) → Ordered bins →
      Ordered (added.foldl (fun bins b => Histogram.addBin b.1 b.2 bins) bins) := by
    intro added
    induction added with
    | nil => exact fun _ _ h => h
    | cons b added ih =>
      intro bins counted h
      obtain ⟨here, counted⟩ := List.forall_mem_cons.mp counted
      exact ih _ counted (h.addBin here)
  exact folded k.bins h.bins ordered'.counted ordered

theorem total_eq (h : Histogram) : h.total = h.values.length := by
  have folded : ∀ (bins : List (Nat × Nat)) (n : Nat),
      bins.foldl (fun n b => n + b.2) n = n + (valuesOf bins).length := by
    intro bins
    induction bins with
    | nil => simp [valuesOf]
    | cons b bins ih =>
      intro n
      rw [List.foldl_cons, ih, valuesOf_cons, List.length_append, List.length_replicate]
      omega
  exact (folded h.bins 0).trans (Nat.zero_add _)

/-- The bin that a rank falls in is that of the value with the rank. -/
theorem binAt?_eq {rank : Nat} (pos : 0 < rank) (bins : List (Nat × Nat)) :
    binAt? rank bins = (valuesOf bins)[rank - 1]? := by
  induction bins generalizing rank with
  | nil => rfl
  | cons b bins ih =>
    rw [binAt?, valuesOf_cons, List.getElem?_append, List.length_replicate]
    by_cases here : rank ≤ b.2
    · have inside : rank - 1 < b.2 := by omega
      rw [if_pos here, if_pos inside, List.getElem?_replicate, if_pos inside]
    · have further : ¬ rank - 1 < b.2 := by omega
      rw [if_neg here, if_neg further, ih (by omega)]
      congr 1
      omega

/-- The largest value stands at the end. -/
theorem highest_le_iff {h : Histogram} (ordered : Ordered h.bins) {bound : Nat} :
    h.highest ≤ bound ↔ ∀ v ∈ h.values, binLast v ≤ bound := by
  obtain ⟨bins⟩ := h
  induction bins using List.reverseRecOn with
  | nil => simp [highest, values, valuesOf]
  | append_singleton bins b _ =>
    have last : (Histogram.mk (bins ++ [b])).highest = binLast b.1 := by simp [highest]
    have increasing := List.pairwise_append.mp ordered.increasing
    rw [last]
    constructor
    · intro le v hv
      obtain ⟨c, hc, -, rfl⟩ := mem_valuesOf.mp hv
      rcases List.mem_append.mp hc with hc | hc
      · have before := increasing.2.2 c hc b List.mem_cons_self
        exact Nat.le_trans (binLast_mono (Nat.le_of_lt before)) le
      · rw [List.mem_singleton.mp hc]
        exact le
    · intro all
      have here := ordered.counted b (by simp)
      exact all b.1 (mem_valuesOf.mpr ⟨b, by simp, here.ne', rfl⟩)

theorem highest_add {h : Histogram} (ordered : Ordered h.bins) (v : Nat) :
    (h.add v).highest = max h.highest (binLast (clamp v)) := by
  apply eq_of_forall_ge_iff
  intro bound
  rw [highest_le_iff (h := h.add v) (ordered.addBin Nat.one_pos), Nat.max_le,
    highest_le_iff ordered]
  simp only [(h.values_add v).mem_iff, List.forall_mem_cons, binLast_binFirst]
  exact and_comm

theorem highest_merge {h k : Histogram} (ordered : Ordered h.bins) (ordered' : Ordered k.bins) :
    (h.merge k).highest = max h.highest k.highest := by
  apply eq_of_forall_ge_iff
  intro bound
  rw [highest_le_iff (ordered.merge ordered'), Nat.max_le, highest_le_iff ordered,
    highest_le_iff ordered']
  simp only [(h.values_merge k).mem_iff, List.mem_append, or_imp, forall_and]

theorem clamp_le (v : Nat) : clamp v ≤ maxValue := by
  unfold clamp
  split
  · decide
  · rename_i inside
    exact Nat.le_of_not_lt inside

/-- The bins end where the values do. -/
theorem binLast_clamp_le (v : Nat) : binLast (clamp v) ≤ maxValue := by
  have last : binLast maxValue = maxValue := by decide
  exact last ▸ binLast_mono (clamp_le v)

end Histogram

end SearchLoad
