import SearchLoad.Proofs.Stats.LongLatencies

namespace SearchLoad

open Number

namespace Quantile

variable {p q : Rat}

theorem rank_mono (le : p ≤ q) (le_one : q ≤ 1) (total : Nat) :
    (share p).rank total ≤ (share q).rank total := by
  rw [rank_share (le_trans le le_one), rank_share le_one]
  have product : p * Binary64.ofNat total ≤ q * Binary64.ofNat total :=
    mul_le_mul_of_nonneg_right le (Profile.ofNat_nonneg total)
  have ceil : (Binary64.mul p (Binary64.ofNat total)).ceil ≤
      (Binary64.mul q (Binary64.ofNat total)).ceil :=
    Rat.ceil_le_iff.mpr (le_trans (Binary64.nearest_mono product) Rat.le_ceil)
  exact max_le_max_left 1 (Int.toNat_le_toNat ceil)

/-- All of the values lie at or below the percentile of all. -/
theorem rank_one {total : Nat} (nonempty : 1 ≤ total) (few : total ≤ 2 ^ 53) :
    (share 1).rank total = total := by
  have value : Binary64.mul 1 (Binary64.ofNat total) = ((total : Int) : Rat) := by
    rw [Binary64.mul, one_mul, Profile.ofNat_of_le few,
      Binary64.nearest_of_isValue (Binary64.isValue_natCast few), Int.cast_natCast]
  rw [rank_share le_rfl, value, Rat.ceil_intCast, Int.toNat_natCast]
  exact Nat.max_eq_right nonempty

end Quantile

namespace Histogram

variable {h : Histogram} {q : Quantile}

theorem valueAt_of_ranked {first : Nat}
    (ranked : h.values[q.rank h.total - 1]? = some first) :
    h.valueAt q = if q.isZero then first else binLast first := by
  have found : binAt? (q.rank h.total) h.bins = some first := by
    rw [binAt?_eq (Quantile.one_le_rank q _)]
    exact ranked
  rw [valueAt, found]

theorem valueAt_of_empty (empty : h.values = []) : h.valueAt q = 0 := by
  have missing : binAt? (q.rank h.total) h.bins = none := by
    rw [binAt?_eq (Quantile.one_le_rank q _)]
    change h.values[_]? = _
    rw [empty, List.getElem?_nil]
  rw [valueAt, missing]

theorem exists_ranked {q : Rat} (le_one : q ≤ 1) (recorded : 1 ≤ h.total) (few : h.total ≤ 2 ^ 53) :
    ∃ v, h.values[(Quantile.share q).rank h.total - 1]? = some v := by
  have last := Quantile.rank_le le_one recorded few
  have first := Quantile.one_le_rank (.share q) h.total
  have length := h.total_eq
  exact ⟨_, List.getElem?_eq_getElem (by omega)⟩

theorem Ordered.le_of_getElem? (ordered : Ordered h.bins) {i j v w : Nat} (le : i ≤ j)
    (first : h.values[i]? = some v) (second : h.values[j]? = some w) : v ≤ w := by
  obtain ⟨hi, rfl⟩ := List.getElem?_eq_some_iff.mp first
  obtain ⟨hj, rfl⟩ := List.getElem?_eq_some_iff.mp second
  rcases Nat.lt_or_eq_of_le le with before | rfl
  · exact List.pairwise_iff_getElem.mp ordered.values_sorted i j hi hj before
  · exact Nat.le_refl _

/-- Only the share zero is told by the first value of a bin, and no other share comes before it. -/
theorem valueAt_mono (ordered : Ordered h.bins) (few : h.total ≤ 2 ^ 53) {p q : Rat}
    (nonneg : 0 ≤ p) (le : p ≤ q) (le_one : q ≤ 1) :
    h.valueAt (.share p) ≤ h.valueAt (.share q) := by
  rcases Nat.eq_zero_or_pos h.total with empty | recorded
  · rw [total_eq, List.length_eq_zero_iff] at empty
    rw [valueAt_of_empty empty]
    exact Nat.zero_le _
  obtain ⟨v, ranked⟩ := exists_ranked (le_trans le le_one) recorded few
  obtain ⟨w, ranked'⟩ := exists_ranked le_one recorded few
  have rank := Quantile.rank_mono le le_one h.total
  have values : v ≤ w := ordered.le_of_getElem? (Nat.sub_le_sub_right rank 1) ranked ranked'
  rw [valueAt_of_ranked ranked, valueAt_of_ranked ranked']
  by_cases zero : q = 0
  · have zero' : p = 0 := le_antisymm (zero ▸ le) nonneg
    simp [Quantile.isZero, zero, zero', values]
  · have positive : (Quantile.share q).isZero = false := decide_eq_false zero
    rw [positive, if_neg Bool.false_ne_true]
    split
    · exact Nat.le_trans values (le_binLast w)
    · exact binLast_mono values

theorem highest_le_valueAt_one (ordered : Ordered h.bins) (few : h.total ≤ 2 ^ 53) :
    h.highest ≤ h.valueAt (.share 1) := by
  apply (highest_le_iff ordered).mpr
  intro v hv
  have recorded : 1 ≤ h.total := by
    rw [total_eq]
    exact List.length_pos_of_mem hv
  obtain ⟨w, ranked⟩ := exists_ranked le_rfl recorded few
  obtain ⟨i, hi, rfl⟩ := List.getElem_of_mem hv
  have inside : i ≤ (Quantile.share 1).rank h.total - 1 := by
    rw [Quantile.rank_one recorded few, total_eq]
    exact Nat.le_sub_one_of_lt hi
  have values := ordered.le_of_getElem? inside (List.getElem?_eq_getElem hi) ranked
  have positive : (Quantile.share 1).isZero = false := by decide
  rw [valueAt_of_ranked ranked, positive, if_neg Bool.false_ne_true]
  exact binLast_mono values

end Histogram

namespace Stats.Counts

variable {s : Stats} {events : List (Nat × Bool)}

theorem failures_le (h : s.Counts events) : s.failures ≤ s.iterations := by
  rw [h.failures, h.iterations]
  exact List.countP_le_length

theorem latencyAt_mono (h : s.Counts events) (few : s.iterations ≤ 2 ^ 53) {p q : Rat}
    (nonneg : 0 ≤ p) (le : p ≤ q) (le_one : q ≤ 1) :
    s.latencyAt (.share p) ≤ s.latencyAt (.share q) := by
  rw [h.iterations, ← h.total_eq] at few
  exact Nat.mul_le_mul_right _ (Histogram.valueAt_mono h.ordered few nonneg le le_one)

theorem latencyAt_one (h : s.Counts events) (few : s.iterations ≤ 2 ^ 53) :
    s.latencyAt (.share 1) = s.maxLatency := by
  rw [h.iterations, ← h.total_eq] at few
  apply Nat.le_antisymm (h.latencyAt_le_maxLatency _)
  exact Nat.mul_le_mul_right _ (Histogram.highest_le_valueAt_one h.ordered few)

end Stats.Counts

/-- How statistics come about: from nothing, by recording an iteration, or by merging others in. -/
inductive Origin
  | nothing
  | recorded (before : Origin) (latency : Nat) (succeeded : Bool)
  | merged (into other : Origin)
deriving Repr

namespace Origin

def stats : Origin → Stats
  | nothing => .empty
  | recorded before latency succeeded => before.stats.record latency succeeded
  | merged into other => into.stats.merge other.stats

/-- The same with all checks. -/
def gauge : Origin → Except StatsFault Gauge
  | nothing => .ok .empty
  | recorded before latency succeeded => do
    let g ← before.gauge
    g.record latency succeeded
  | merged into other => do
    let g ← into.gauge
    let k ← other.gauge
    g.merge k

/-- All iterations that were recorded. -/
def events : Origin → List (Nat × Bool)
  | nothing => []
  | recorded before latency succeeded => (latency, succeeded) :: before.events
  | merged into other => into.events ++ other.events

theorem counts (o : Origin) : o.stats.Counts o.events := by
  induction o with
  | nothing => exact .empty
  | recorded before latency succeeded ih => exact ih.record latency succeeded
  | merged into other ih ih' => exact ih.merge ih'

theorem measures {o : Origin} (few : o.events.length < counterLimit) :
    ∃ g, o.gauge = .ok g ∧ g.stats = o.stats ∧ g.Measures o.events := by
  induction o with
  | nothing => exact ⟨.empty, rfl, rfl, .empty⟩
  | recorded before latency succeeded ih =>
    rw [events, List.length_cons] at few
    obtain ⟨g, made, stats, measures⟩ := ih (by omega)
    obtain ⟨g', recorded, stats', measures'⟩ := measures.record few latency succeeded
    refine ⟨g', ?_, ?_, measures'⟩
    · rw [gauge, made]
      exact recorded
    · rw [stats', stats]
      rfl
  | merged into other ih ih' =>
    rw [events, List.length_append] at few
    obtain ⟨g, made, stats, measures⟩ := ih (by omega)
    obtain ⟨k, made', stats', measures'⟩ := ih' (by omega)
    obtain ⟨m, merged, stats'', measures''⟩ := measures.merge measures' few
    refine ⟨m, ?_, ?_, measures''⟩
    · rw [gauge, made, made']
      exact merged
    · rw [stats'', stats, stats']
      rfl

/-- Statistics that came about by any recording and merging, with fewer iterations than binary64 can
tell apart. No counter fails, there are no more failures than iterations and as many values in the
bins as these, and the largest value that stands beside the bins is that of the last bin. A larger
share has no smaller percentile, none exceeds the longest latency, and that of all is the longest
latency. Where nothing was recorded, all of it is zero. -/
theorem percentiles_are_ordered (o : Origin) (few : o.stats.iterations < 2 ^ 53) :
    (∃ g, o.gauge = .ok g ∧ g.stats = o.stats ∧ g.reported * 1000 = o.stats.maxLatency) ∧
    o.stats.failures ≤ o.stats.iterations ∧ o.stats.latencies.total = o.stats.iterations ∧
    (∀ p q : Rat, 0 ≤ p → p ≤ q → q ≤ 1 →
      o.stats.latencyAt (.share p) ≤ o.stats.latencyAt (.share q) ∧
      o.stats.latencyAt (.share q) ≤ o.stats.maxLatency) ∧
    o.stats.latencyAt (.share 1) = o.stats.maxLatency ∧
    (o.events = [] → o.stats.iterations = 0 ∧ o.stats.failures = 0 ∧ o.stats.maxLatency = 0 ∧
      ∀ q, o.stats.latencyAt q = 0) := by
  have counts := o.counts
  refine ⟨?_, counts.failures_le, ?_, ?_, counts.latencyAt_one few.le, ?_⟩
  · have inside : o.events.length < counterLimit := by
      rw [← counts.iterations]
      exact Nat.lt_trans few (by decide)
    obtain ⟨g, made, stats, measures⟩ := measures inside
    refine ⟨g, made, stats, ?_⟩
    rw [measures.reported, stats]
    rfl
  · rw [counts.total_eq, counts.iterations]
  · intro p q nonneg le le_one
    exact ⟨counts.latencyAt_mono few.le nonneg le le_one, counts.latencyAt_le_maxLatency _⟩
  · intro empty
    have empty : o.stats = .empty := (empty ▸ counts).unique .empty
    rw [empty]
    refine ⟨rfl, rfl, rfl, ?_⟩
    intro q
    rw [Stats.latencyAt, Histogram.valueAt_of_empty rfl]

/-- An iteration is recorded after a merge whose other side has a latency of more than an hour. -/
theorem recorded_after_merge_is_ordered :
    let o : Origin := ((Origin.nothing.recorded 2049000 true).merged
      (Origin.nothing.recorded 5000000000000 false)).recorded 7000 true
    o.stats.latencyAt (.share 0) ≤ o.stats.latencyAt (.share (1 / 2)) ∧
      o.stats.latencyAt (.share 1) = 3600809983000 ∧
      ∃ g, o.gauge = .ok g ∧ g.reported = 3600809983 := by
  intro o
  obtain ⟨⟨g, made, stats, reported⟩, -, -, ordered, one, -⟩ :=
    percentiles_are_ordered o (by decide)
  have longest : o.stats.maxLatency = 3600809983000 := by decide
  refine ⟨(ordered 0 (1 / 2) (by norm_num) (by norm_num) (by norm_num)).1, one.trans longest, g,
    made, ?_⟩
  omega

end Origin

end SearchLoad
