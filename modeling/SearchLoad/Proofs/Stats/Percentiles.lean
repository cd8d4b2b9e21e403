import SearchLoad.Proofs.Profile.Interpolation
import SearchLoad.Proofs.Stats.Merging

namespace SearchLoad

open Number

namespace Quantile

/-- The rank of a share of some values, in binary64. -/
theorem rank_share {q : Rat} (le_one : q ≤ 1) (total : Nat) :
    (share q).rank total = max 1 (Binary64.mul q (Binary64.ofNat total)).ceil.toNat := by
  have capped : (share q).capped = share q := by
    rw [Quantile.capped, if_neg (not_lt.mpr le_one)]
  rw [rank, capped]

theorem one_le_rank (q : Quantile) (total : Nat) : 1 ≤ q.rank total := by
  unfold rank
  split
  · exact Nat.le_max_left 1 _
  · exact Nat.le_refl 1

/-- As long as all values can be counted in binary64, no rank is beyond the last. -/
theorem rank_le {q : Rat} (le_one : q ≤ 1) {total : Nat} (nonempty : 1 ≤ total)
    (few : total ≤ 2 ^ 53) : (share q).rank total ≤ total := by
  rw [rank_share le_one, Nat.max_le]
  refine ⟨nonempty, Int.toNat_le.mpr (Rat.ceil_le_iff.mpr ?_)⟩
  have value : Binary64.IsValue ((total : Int) : Rat) := by
    exact_mod_cast Binary64.isValue_natCast few
  apply Binary64.nearest_le value
  rw [Profile.ofNat_of_le few]
  push_cast
  exact mul_le_of_le_one_left (Nat.cast_nonneg total) le_one

end Quantile

namespace Stats

/-- What a latency in whole microseconds may be told as, in nanoseconds: no less, no more than a
1024th above, and below 2048 just that. -/
structure Tells (told micros : Nat) : Prop where
  not_below : micros * 1000 ≤ told
  not_above : told ≤ (micros + micros / 1024) * 1000
  exact : micros < 2048 → told = micros * 1000

theorem tells_binLast (micros : Nat) : Tells (binLast micros * 1000) micros :=
  ⟨Nat.mul_le_mul_right _ (le_binLast micros), Nat.mul_le_mul_right _ (binLast_le micros),
    fun small => by rw [binLast_of_lt small]⟩

theorem counted_of_le {latency : Nat} (short : latency ≤ Histogram.hour * 1000) :
    counted latency = latency / 1000 := by
  have micros : latency / 1000 ≤ Histogram.hour := Nat.div_le_of_le_mul (Nat.mul_comm _ _ ▸ short)
  apply if_neg
  exact Nat.not_lt.mpr (Nat.le_trans micros (by decide))

namespace Counts

variable {s : Stats} {events : List (Nat × Bool)} {v : List Nat}

/-- In order, the bins that were counted are those of the latencies. -/
theorem values_eq (h : s.Counts events) (sorted : v.Pairwise (· ≤ ·))
    (same : v.Perm (events.map fun e => counted e.1)) : s.latencies.values = v.map binFirst := by
  have binned : (v.map binFirst).Pairwise (· ≤ ·) := sorted.map binFirst fun _ _ => binFirst_mono
  have perm := (same.map binFirst).symm
  rw [List.map_map] at perm
  exact (h.values.trans perm).eq_of_pairwise (fun _ _ _ _ => Nat.le_antisymm)
    h.ordered.values_sorted binned

/-- A percentile is the last value of the bin of the latency with its rank. -/
theorem latencyAt_eq (h : s.Counts events) (sorted : v.Pairwise (· ≤ ·))
    (same : v.Perm (events.map fun e => counted e.1)) {q : Rat} (pos : 0 < q) {micros : Nat}
    (ranked : v[(Quantile.share q).rank events.length - 1]? = some micros) :
    s.latencyAt (.share q) = binLast micros * 1000 := by
  have found : Histogram.binAt? ((Quantile.share q).rank s.latencies.total) s.latencies.bins =
      some (binFirst micros) := by
    rw [Histogram.binAt?_eq (Quantile.one_le_rank _ _), h.total_eq]
    change s.latencies.values[_]? = _
    rw [h.values_eq sorted same, List.getElem?_map, ranked]
    rfl
  have nonzero : (Quantile.share q).isZero = false := by simp [Quantile.isZero, pos.ne']
  rw [latencyAt, Histogram.valueAt, found]
  simp [nonzero]

theorem maxLatency_eq (h : s.Counts events) (sorted : v.Pairwise (· ≤ ·))
    (same : v.Perm (events.map fun e => counted e.1)) {micros : Nat}
    (last : v.getLast? = some micros) : s.maxLatency = binLast micros * 1000 := by
  apply Nat.le_antisymm
  · apply h.maxLatency_le_iff.mpr
    intro e he
    have member : counted e.1 ∈ v := same.mem_iff.mpr (List.mem_map_of_mem he)
    obtain ⟨init, rfl⟩ := List.getLast?_eq_some_iff.mp last
    rcases List.mem_append.mp member with member | member
    · exact binLast_mono ((List.pairwise_append.mp sorted).2.2 _ member _ List.mem_cons_self)
    · rw [List.mem_singleton.mp member]
  · obtain ⟨e, he, rfl⟩ := List.mem_map.mp (same.mem_iff.mp (List.mem_of_getLast? last))
    exact Nat.mul_le_mul_right _ (h.maxLatency_le_iff.mp (Nat.le_refl _) e he)

end Counts

/-- The latencies that were recorded are an hour at most, and `v` has them in whole microseconds and
in order. A percentile of more than none of them tells the one with its rank, which is there as long
as no more are recorded than binary64 can count, and the longest latency tells the last one. -/
theorem percentiles_are_accurate (events : List (Nat × Bool)) (recorded : events ≠ [])
    (short : ∀ e ∈ events, e.1 ≤ Histogram.hour * 1000) (v : List Nat)
    (sorted : v.Pairwise (· ≤ ·)) (same : v.Perm (events.map fun e => e.1 / 1000)) :
    (∀ q : Rat, 0 < q → q ≤ 1 →
      let k := max 1 (Binary64.mul q (Binary64.ofNat events.length)).ceil.toNat
      (∀ micros, v[k - 1]? = some micros → Tells ((ofEvents events).latencyAt (.share q)) micros) ∧
      (events.length ≤ 2 ^ 53 → ∃ micros, v[k - 1]? = some micros)) ∧
    ∃ micros, v.getLast? = some micros ∧ Tells (ofEvents events).maxLatency micros := by
  have counts := Counts.ofEvents events
  have same' : v.Perm (events.map fun e => counted e.1) := by
    rw [List.map_congr_left fun e he => counted_of_le (short e he)]
    exact same
  have length : v.length = events.length := by rw [same.length_eq, List.length_map]
  have nonempty : 0 < events.length := List.length_pos_iff.mpr recorded
  constructor
  · intro q pos le_one
    rw [← Quantile.rank_share le_one]
    constructor
    · intro micros ranked
      rw [counts.latencyAt_eq sorted same' pos ranked]
      exact tells_binLast micros
    · intro few
      have last := Quantile.rank_le le_one nonempty few
      have first := Quantile.one_le_rank (.share q) events.length
      exact ⟨_, List.getElem?_eq_getElem (by omega)⟩
  · have last := List.getLast?_eq_some_getLast (List.length_pos_iff.mp (length ▸ nonempty))
    refine ⟨_, last, ?_⟩
    rw [counts.maxLatency_eq sorted same' last]
    exact tells_binLast _

/-- Three latencies, the longest of an hour: a quarter tells the shortest, and the median the middle
one. -/
theorem median_is_accurate :
    let s := ofEvents [(3600000000000, true), (5000, false), (2050999, true)]
    Tells (s.latencyAt (.share (1 / 2))) 2050 ∧ s.latencyAt (.share (1 / 4)) = 5000 ∧
      Tells s.maxLatency 3600000000 := by
  intro s
  have accurate := percentiles_are_accurate [(3600000000000, true), (5000, false), (2050999, true)]
    (by decide) (by decide) [5, 2050, 3600000000] (by decide) (by decide)
  have middle : max 1 (Binary64.mul (1 / 2) (Binary64.ofNat 3)).ceil.toNat = 2 := by decide +kernel
  have least : max 1 (Binary64.mul (1 / 4) (Binary64.ofNat 3)).ceil.toNat = 1 := by decide +kernel
  refine ⟨?_, ?_, ?_⟩
  · apply (accurate.1 (1 / 2) (by norm_num) (by norm_num)).1
    rw [List.length_cons, List.length_cons, List.length_cons, List.length_nil, middle]
    rfl
  · have told := (accurate.1 (1 / 4) (by norm_num) (by norm_num)).1 5
    rw [List.length_cons, List.length_cons, List.length_cons, List.length_nil, least] at told
    exact (told rfl).exact (by decide)
  · obtain ⟨micros, last, told⟩ := accurate.2
    obtain rfl := Option.some.inj last
    exact told

end Stats

end SearchLoad
