import SearchLoad.Proofs.Stats.Percentiles

namespace SearchLoad.Stats

/-- More than an hour, but with a bin of its own. -/
def PastTheHour (latency : Nat) : Prop :=
  Histogram.hour < latency / 1000 ∧ latency / 1000 ≤ Histogram.maxValue

def BeyondBins (latency : Nat) : Prop := Histogram.maxValue < latency / 1000

variable {s : Stats} {events : List (Nat × Bool)} {latency shorter longer : Nat}

theorem counted_of_beyondBins (h : BeyondBins latency) : counted latency = Histogram.hour :=
  if_pos h

theorem counted_of_not_beyondBins (h : ¬ BeyondBins latency) : counted latency = latency / 1000 :=
  if_neg h

theorem counted_mono (le : shorter ≤ longer) (apart : PastTheHour shorter → ¬ BeyondBins longer) :
    counted shorter ≤ counted longer := by
  have micros : shorter / 1000 ≤ longer / 1000 := Nat.div_le_div_right le
  by_cases beyond : BeyondBins longer
  · rw [counted_of_beyondBins beyond]
    by_cases beyond' : BeyondBins shorter
    · rw [counted_of_beyondBins beyond']
    · rw [counted_of_not_beyondBins beyond']
      apply Nat.le_of_not_lt
      intro past
      exact apart ⟨past, Nat.le_of_not_lt beyond'⟩ beyond
  · have beyond' : ¬ BeyondBins shorter := fun h => beyond (Nat.lt_of_lt_of_le h micros)
    rw [counted_of_not_beyondBins beyond, counted_of_not_beyondBins beyond']
    exact micros

/-- The first bin that is told as more than 61 minutes begins at this many microseconds. -/
def firstPastMinute : Nat := 3659530240

theorem binLast_counted_le_iff : binLast (counted latency) ≤ 3660000000 ↔
    latency / 1000 < firstPastMinute ∨ BeyondBins latency := by
  have hour : binLast Histogram.hour ≤ 3660000000 := by decide
  have last : binLast (firstPastMinute - 1) ≤ 3660000000 := by decide
  have first : 3660000000 < binLast firstPastMinute := by decide
  by_cases beyond : BeyondBins latency
  · rw [counted_of_beyondBins beyond]
    exact iff_of_true hour (.inr beyond)
  · rw [counted_of_not_beyondBins beyond, or_iff_left beyond]
    constructor
    · intro le
      apply Nat.lt_of_not_le
      intro past
      exact Nat.not_lt.mpr le (Nat.lt_of_lt_of_le first (binLast_mono past))
    · intro before
      exact Nat.le_trans (binLast_mono (Nat.le_sub_one_of_lt before)) last

theorem record_eq_of_counted (s : Stats) (same : counted shorter = counted longer)
    (succeeded : Bool) : s.record shorter succeeded = s.record longer succeeded := by
  have add : s.latencies.add (shorter / 1000) = s.latencies.add (longer / 1000) :=
    congrArg (fun v => Histogram.mk (Histogram.addBin (binFirst v) 1 s.latencies.bins)) same
  rw [record, record, add]

/-- Beyond the bins a latency is as good as an hour. -/
theorem ofEvents_of_beyondBins (beyond : BeyondBins longer) (before after : List (Nat × Bool))
    (succeeded : Bool) : ofEvents (before ++ (longer, succeeded) :: after) =
      ofEvents (before ++ (Histogram.hour * 1000, succeeded) :: after) := by
  have same : counted longer = counted (Histogram.hour * 1000) := by
    rw [counted_of_beyondBins beyond]
    decide
  simp only [ofEvents, List.foldl_append, List.foldl_cons]
  rw [record_eq_of_counted _ same]

theorem maxLatency_mono (le : shorter ≤ longer) (apart : PastTheHour shorter → ¬ BeyondBins longer)
    (before after : List (Nat × Bool)) (succeeded : Bool) :
    (ofEvents (before ++ (shorter, succeeded) :: after)).maxLatency ≤
      (ofEvents (before ++ (longer, succeeded) :: after)).maxLatency := by
  have told := (Counts.ofEvents (before ++ (longer, succeeded) :: after)).maxLatency_le_iff.mp
    (Nat.le_refl _)
  apply (Counts.ofEvents _).maxLatency_le_iff.mpr
  simp only [List.forall_mem_append, List.forall_mem_cons] at told ⊢
  obtain ⟨earlier, here, later⟩ := told
  exact ⟨earlier, Nat.le_trans (binLast_mono (counted_mono le apart)) here, later⟩

namespace Counts

theorem latencyAt_le_maxLatency (h : s.Counts events) (q : Quantile) :
    s.latencyAt q ≤ s.maxLatency := by
  apply Nat.mul_le_mul_right
  unfold Histogram.valueAt
  split
  · rename_i first found
    rw [Histogram.binAt?_eq (Quantile.one_le_rank q _)] at found
    have told := (Histogram.highest_le_iff h.ordered).mp (Nat.le_refl _) first
      (List.mem_of_getElem? found)
    split
    · exact Nat.le_trans (le_binLast first) told
    · exact told
  · exact Nat.zero_le _

end Counts

/-- What is told of any latencies. No percentile is longer than the longest latency; this is below
2 ^ 32 microseconds, and it is 61 minutes at most just if no latency lies between these and the last
bin. A latency beyond the bins counts as an hour; and in the place of a shorter one, a longer
latency yields a longest one that is no shorter, unless only the longer one is beyond the bins and
the other is more than an hour. -/
theorem latencies_beyond_the_bins_are_clamped (events : List (Nat × Bool)) :
    (∀ q, (ofEvents events).latencyAt q ≤ (ofEvents events).maxLatency) ∧
    (ofEvents events).maxLatency < 2 ^ 32 * 1000 ∧
    ((ofEvents events).maxLatency ≤ 3660 * Span.nanosPerSecond ↔
      ∀ e ∈ events, e.1 / 1000 < firstPastMinute ∨ BeyondBins e.1) ∧
    ∀ (before after : List (Nat × Bool)) (shorter longer : Nat) (succeeded : Bool),
      (BeyondBins longer → ofEvents (before ++ (longer, succeeded) :: after) =
        ofEvents (before ++ (Histogram.hour * 1000, succeeded) :: after)) ∧
      (shorter ≤ longer → (PastTheHour shorter → ¬ BeyondBins longer) →
        (ofEvents (before ++ (shorter, succeeded) :: after)).maxLatency ≤
          (ofEvents (before ++ (longer, succeeded) :: after)).maxLatency) := by
  have counts := Counts.ofEvents events
  refine ⟨counts.latencyAt_le_maxLatency, ?_, ?_, ?_⟩
  · have last : (ofEvents events).maxLatency ≤ Histogram.maxValue * 1000 :=
      counts.maxLatency_le_iff.mpr fun e _ => Histogram.binLast_clamp_le (e.1 / 1000)
    exact Nat.lt_of_le_of_lt last (by decide)
  · have minutes : 3660 * Span.nanosPerSecond = 3660000000 * 1000 := by decide
    rw [minutes, counts.maxLatency_le_iff]
    exact forall₂_congr fun e _ => binLast_counted_le_iff
  · intro before after shorter longer succeeded
    exact ⟨fun beyond => ofEvents_of_beyondBins beyond before after succeeded,
      fun le apart => maxLatency_mono le apart before after succeeded⟩

/-- A latency of 4000 seconds is told as longer than 61 minutes, and as longer than one of 5000. -/
theorem seconds_past_the_hour_are_told :
    (ofEvents [(4000 * Span.nanosPerSecond, true)]).maxLatency = 4001366015000 ∧
      (ofEvents [(5000 * Span.nanosPerSecond, true)]).maxLatency = 3600809983000 ∧
      3660 * Span.nanosPerSecond <
        (ofEvents [(4000 * Span.nanosPerSecond, true)]).maxLatency := by
  decide

end SearchLoad.Stats
