import Mathlib.Order.MinMax
import SearchLoad.Proofs.Stats.Bins

namespace SearchLoad

namespace Stats

/-- The statistics of iterations, each with its latency in nanoseconds and whether it succeeded. -/
def ofEvents (events : List (Nat × Bool)) : Stats :=
  events.foldl (fun s e => s.record e.1 e.2) .empty

/-- What a latency in nanoseconds is counted as, in microseconds. -/
def counted (latency : Nat) : Nat := Histogram.clamp (latency / 1000)

/-- Statistics that count just these iterations, in whatever order and however they came about. -/
structure Counts (s : Stats) (events : List (Nat × Bool)) : Prop where
  iterations : s.iterations = events.length
  failures : s.failures = events.countP fun e => !e.2
  ordered : Histogram.Ordered s.latencies.bins
  values : s.latencies.values.Perm (events.map fun e => binFirst (counted e.1))

namespace Counts

variable {s t : Stats} {events others : List (Nat × Bool)}

theorem empty : Counts .empty [] :=
  ⟨rfl, rfl, ⟨List.Pairwise.nil, by simp [Stats.empty, Histogram.empty]⟩, .refl _⟩

theorem record (h : s.Counts events) (latency : Nat) (succeeded : Bool) :
    (s.record latency succeeded).Counts ((latency, succeeded) :: events) := by
  refine ⟨congrArg (· + 1) h.iterations, ?_, h.ordered.addBin Nat.one_pos, ?_⟩
  · have failures := h.failures
    cases succeeded <;> simp [Stats.record, failures]
  · exact (s.latencies.values_add _).trans (h.values.cons _)

theorem merge (h : s.Counts events) (h' : t.Counts others) :
    (s.merge t).Counts (events ++ others) := by
  refine ⟨?_, ?_, h.ordered.merge h'.ordered, ?_⟩
  · rw [List.length_append, ← h.iterations, ← h'.iterations]
    rfl
  · rw [List.countP_append, ← h.failures, ← h'.failures]
    rfl
  · rw [List.map_append]
    exact (s.latencies.values_merge _).trans (h.values.append h'.values)

theorem perm (h : s.Counts events) (same : events.Perm others) : s.Counts others :=
  ⟨h.iterations.trans same.length_eq, h.failures.trans (same.countP_eq _), h.ordered,
    h.values.trans (same.map _)⟩

/-- Statistics are told by what they count. -/
theorem unique (h : s.Counts events) (h' : t.Counts events) : s = t := by
  obtain ⟨iterations, failures, ⟨bins⟩⟩ := s
  obtain ⟨iterations', failures', ⟨bins'⟩⟩ := t
  obtain rfl : iterations = iterations' := h.iterations.trans h'.iterations.symm
  obtain rfl : failures = failures' := h.failures.trans h'.failures.symm
  obtain rfl : bins = bins' := h.ordered.eq_of_perm h'.ordered (h.values.trans h'.values.symm)
  rfl

theorem ofEvents (events : List (Nat × Bool)) : (ofEvents events).Counts events := by
  induction events using List.reverseRecOn with
  | nil => exact empty
  | append_singleton events e ih =>
    rw [Stats.ofEvents, List.foldl_append]
    exact (ih.record e.1 e.2).perm (List.perm_append_singleton e events).symm

theorem maxLatency_le_iff (h : s.Counts events) {micros : Nat} :
    s.maxLatency ≤ micros * 1000 ↔ ∀ e ∈ events, binLast (counted e.1) ≤ micros := by
  rw [maxLatency, Nat.mul_le_mul_right_iff (by decide), Histogram.highest_le_iff h.ordered]
  constructor
  · intro all e he
    have binned := all _ (h.values.mem_iff.mpr (List.mem_map_of_mem he))
    rwa [binLast_binFirst] at binned
  · intro all v hv
    obtain ⟨e, he, rfl⟩ := List.mem_map.mp (h.values.mem_iff.mp hv)
    rw [binLast_binFirst]
    exact all e he

theorem total_eq (h : s.Counts events) : s.latencies.total = events.length := by
  rw [Histogram.total_eq, h.values.length_eq, List.length_map]

end Counts

end Stats

/-- Counters of 64 bits count to below this. -/
def counterLimit : Nat := 2 ^ 64

inductive StatsFault
  | counterOverflow
  | beyondRange
deriving DecidableEq, Repr

/-- Statistics as they are kept in words of 64 bits. The largest value stands beside the bins: as it
was counted or, if it was taken over in a merge, as the last value of its bin. -/
structure Gauge where
  stats : Stats
  largest : Nat
deriving DecidableEq, Repr

namespace Gauge

def empty : Gauge := ⟨.empty, 0⟩

/-- What is told as the largest value. -/
def reported (g : Gauge) : Nat := binLast g.largest

def record (g : Gauge) (latency : Nat) (succeeded : Bool) : Except StatsFault Gauge :=
  let s := g.stats.record latency succeeded
  if s.iterations < counterLimit then .ok ⟨s, max g.largest (Stats.counted latency)⟩
  else .error .counterOverflow

/-- Refuses values that lie beyond the bins. -/
def merge (g k : Gauge) : Except StatsFault Gauge :=
  let s := g.stats.merge k.stats
  if s.iterations < counterLimit then
    if Histogram.maxValue < k.reported then .error .beyondRange
    else .ok ⟨s, if g.reported < k.reported then k.reported else g.largest⟩
  else .error .counterOverflow

def ofEvents (events : List (Nat × Bool)) : Except StatsFault Gauge :=
  events.foldlM (fun g e => g.record e.1 e.2) .empty

/-- A gauge that counts just these iterations and tells their largest value. -/
structure Measures (g : Gauge) (events : List (Nat × Bool)) : Prop where
  counts : g.stats.Counts events
  reported : g.reported = g.stats.latencies.highest

namespace Measures

variable {g k : Gauge} {events others : List (Nat × Bool)}

theorem empty : Measures .empty [] := ⟨.empty, rfl⟩

theorem reported_le (h : g.Measures events) : g.reported ≤ Histogram.maxValue := by
  rw [h.reported, Histogram.highest_le_iff h.counts.ordered]
  intro v hv
  obtain ⟨e, -, rfl⟩ := List.mem_map.mp (h.counts.values.mem_iff.mp hv)
  rw [binLast_binFirst]
  exact Histogram.binLast_clamp_le _

theorem record (h : g.Measures events) (few : events.length + 1 < counterLimit) (latency : Nat)
    (succeeded : Bool) : ∃ g', g.record latency succeeded = .ok g' ∧
      g'.stats = g.stats.record latency succeeded ∧
      g'.Measures ((latency, succeeded) :: events) := by
  have counts := h.counts.record latency succeeded
  have inside : (g.stats.record latency succeeded).iterations < counterLimit := by
    rw [counts.iterations]
    exact few
  refine ⟨_, if_pos inside, rfl, counts, ?_⟩
  calc binLast (max g.largest (Stats.counted latency))
      = max g.reported (binLast (Stats.counted latency)) :=
        Monotone.map_max fun _ _ => binLast_mono
    _ = max g.stats.latencies.highest (binLast (Stats.counted latency)) := by rw [h.reported]
    _ = _ := (Histogram.highest_add h.counts.ordered _).symm

/-- The largest value is taken over as the last one of its bin, which tells the same bin. -/
theorem merge (h : g.Measures events) (h' : k.Measures others)
    (few : events.length + others.length < counterLimit) :
    ∃ g', g.merge k = .ok g' ∧ g'.stats = g.stats.merge k.stats ∧
      g'.Measures (events ++ others) := by
  have counts := h.counts.merge h'.counts
  have inside : (g.stats.merge k.stats).iterations < counterLimit := by
    rw [counts.iterations, List.length_append]
    exact few
  have covered : ¬ Histogram.maxValue < k.reported := Nat.not_lt.mpr h'.reported_le
  refine ⟨_, (if_pos inside).trans (if_neg covered), rfl, counts, ?_⟩
  have highest : (g.stats.merge k.stats).latencies.highest = max g.reported k.reported := by
    rw [h.reported, h'.reported]
    exact Histogram.highest_merge h.counts.ordered h'.counts.ordered
  show binLast (if g.reported < k.reported then k.reported else g.largest) = _
  rw [highest]
  split
  · rename_i larger
    rw [Nat.max_eq_right (Nat.le_of_lt larger)]
    exact binLast_binLast k.largest
  · rename_i smaller
    rw [Nat.max_eq_left (Nat.le_of_not_lt smaller)]
    rfl

theorem ofEvents (few : events.length < counterLimit) :
    ∃ g, Gauge.ofEvents events = .ok g ∧ g.stats = Stats.ofEvents events ∧ g.Measures events := by
  induction events using List.reverseRecOn with
  | nil => exact ⟨.empty, rfl, rfl, empty⟩
  | append_singleton events e ih =>
    rw [List.length_append, List.length_singleton] at few
    obtain ⟨g, made, stats, measures⟩ := ih (by omega)
    obtain ⟨g', recorded, stats', measures'⟩ := measures.record few e.1 e.2
    refine ⟨g', ?_, ?_, ?_⟩
    · rw [Gauge.ofEvents, List.foldlM_append]
      rw [Gauge.ofEvents] at made
      rw [made]
      exact (bind_pure (g.record e.1 e.2)).trans recorded
    · rw [stats', stats, Stats.ofEvents, Stats.ofEvents, List.foldl_append]
      rfl
    · have same := (List.perm_append_singleton e events).symm
      exact ⟨measures'.counts.perm same, measures'.reported⟩

end Measures

end Gauge

/-- How statistics are put together: a part is recorded by itself, and one thing is merged into
another. -/
inductive Assembly
  | part (events : List (Nat × Bool))
  | merged (into other : Assembly)
deriving Repr

namespace Assembly

def parts : Assembly → List (List (Nat × Bool))
  | part events => [events]
  | merged into other => into.parts ++ other.parts

def stats : Assembly → Stats
  | part events => .ofEvents events
  | merged into other => into.stats.merge other.stats

/-- The same with all checks. -/
def gauge : Assembly → Except StatsFault Gauge
  | part events => Gauge.ofEvents events
  | merged into other => do
    let g ← into.gauge
    let k ← other.gauge
    g.merge k

theorem measures {a : Assembly} (few : a.parts.flatten.length < counterLimit) :
    ∃ g, a.gauge = .ok g ∧ g.stats = a.stats ∧ g.Measures a.parts.flatten := by
  induction a with
  | part events =>
    rw [parts, List.flatten_singleton] at *
    exact Gauge.Measures.ofEvents few
  | merged into other ih ih' =>
    rw [parts, List.flatten_append] at *
    rw [List.length_append] at few
    obtain ⟨g, made, stats, measures⟩ := ih (by omega)
    obtain ⟨k, made', stats', measures'⟩ := ih' (by omega)
    obtain ⟨m, merged, stats'', measures''⟩ := measures.merge measures' few
    refine ⟨m, ?_, ?_, measures''⟩
    · rw [gauge, made, made']
      exact merged
    · rw [stats'', stats, stats']
      rfl

/-- A family of parts, each recorded by itself, is merged in any order and any grouping; all is
recorded in one place, in any order. Neither fails, and they come to the same statistics, so that
they agree on all there is to ask of them; the largest value is told alike too, though one has it as
it was counted and the other as it was taken over. -/
theorem merging_is_recording (family : List (List (Nat × Bool)))
    (few : family.flatten.length < 2 ^ 53) (a : Assembly) (parts : a.parts.Perm family)
    (events : List (Nat × Bool)) (all : events.Perm family.flatten) :
    ∃ g k, a.gauge = .ok g ∧ Gauge.ofEvents events = .ok k ∧
      g.stats = a.stats ∧ k.stats = .ofEvents events ∧ a.stats = .ofEvents events ∧
      g.reported = k.reported ∧ a.stats.maxLatency = g.reported * 1000 := by
  have same : a.parts.flatten.Perm events := parts.flatten.trans all.symm
  have fits : ∀ {others : List (Nat × Bool)}, others.Perm family.flatten →
      others.length < counterLimit := by
    intro others permuted
    rw [permuted.length_eq]
    exact Nat.lt_trans few (by decide)
  obtain ⟨g, made, stats, measures⟩ := a.measures (fits (same.trans all))
  obtain ⟨k, made', stats', measures'⟩ := Gauge.Measures.ofEvents (fits all)
  have equal : g.stats = k.stats := (measures.counts.perm same).unique measures'.counts
  refine ⟨g, k, made, made', stats, stats', ?_, ?_, ?_⟩
  · rw [← stats, ← stats', equal]
  · rw [measures.reported, measures'.reported, equal]
  · rw [measures.reported, ← stats]
    rfl

/-- Two parts and nothing, the later part first. A latency of more than an hour is told as the last
value of the hour's bin on both ways, though only one of them has it so. -/
theorem later_part_merges_first :
    let a : Assembly := .merged (.part [(2049000, false)])
      (.merged (.part []) (.part [(1000, true), (5000000000000, false)]))
    let events := [(5000000000000, false), (2049000, false), (1000, true)]
    ∃ g k, a.gauge = .ok g ∧ Gauge.ofEvents events = .ok k ∧ g.stats = k.stats ∧
      (g.largest, k.largest) = (3600809983, 3600000000) ∧ g.reported = k.reported := by
  intro a events
  obtain ⟨g, k, made, recorded, stats, stats', equal, told, -⟩ :=
    merging_is_recording [[(1000, true), (5000000000000, false)], [], [(2049000, false)]]
      (by decide) a (by decide) events (by decide)
  have taken : a.gauge.map Gauge.largest = .ok 3600809983 := by decide
  have counted : (Gauge.ofEvents events).map Gauge.largest = .ok 3600000000 := by decide
  rw [made] at taken
  rw [recorded] at counted
  have largest : (g.largest, k.largest) = (3600809983, 3600000000) :=
    Prod.ext (Except.ok.inj taken) (Except.ok.inj counted)
  exact ⟨g, k, made, recorded, by rw [stats, stats', equal], largest, told⟩

end Assembly

end SearchLoad
