import SearchLoad.Number.Binary64

namespace SearchLoad

/-- The number of values in the bin of a value. Below 2048 each has its own; beyond, those share one
that agree in the eleven leading binary digits. -/
def binWidth (v : Nat) : Nat := if v < 2048 then 1 else Nat.pow 2 (v.log2 - 10)

def binFirst (v : Nat) : Nat := v / binWidth v * binWidth v

def binLast (v : Nat) : Nat := binFirst v + binWidth v - 1

/-- The share of the values that a percentile leaves below it. -/
inductive Quantile
  | share (q : Rat)
  | infinite (negative : Bool)
  | undefined
deriving DecidableEq, Repr

namespace Quantile

def capped : Quantile → Quantile
  | share q => share (if 1 < q then 1 else q)
  | infinite false => share 1
  | q => q

/-- How many of so many values lie at or below the percentile: one at least. -/
def rank (q : Quantile) (total : Nat) : Nat :=
  match q.capped with
  | share q => max 1 (Number.Binary64.mul q (Number.Binary64.ofNat total)).ceil.toNat
  | _ => 1

def isZero : Quantile → Bool
  | share q => q = 0
  | _ => false

end Quantile

/-- The counts of the bins that hold a value, by their first values in increasing order. -/
structure Histogram where
  bins : List (Nat × Nat)
deriving DecidableEq, Repr

namespace Histogram

def empty : Histogram := ⟨[]⟩

def addBin (first count : Nat) : List (Nat × Nat) → List (Nat × Nat)
  | [] => [(first, count)]
  | b :: bs =>
    if first < b.1 then (first, count) :: b :: bs
    else if first = b.1 then (first, b.2 + count) :: bs
    else b :: addBin first count bs

def maxValue : Nat := 4294967295

/-- An hour, which a value without a bin is counted as. -/
def hour : Nat := 3600000000

def clamp (v : Nat) : Nat := if maxValue < v then hour else v

def add (h : Histogram) (v : Nat) : Histogram := ⟨addBin (binFirst (clamp v)) 1 h.bins⟩

def merge (h k : Histogram) : Histogram :=
  ⟨k.bins.foldl (fun bins b => addBin b.1 b.2 bins) h.bins⟩

def total (h : Histogram) : Nat := h.bins.foldl (fun n b => n + b.2) 0

/-- The last value of the last bin. -/
def highest (h : Histogram) : Nat :=
  match h.bins.getLast? with
  | some b => binLast b.1
  | none => 0

/-- The bin that a rank falls in, counted from the first. -/
def binAt? (rank : Nat) : List (Nat × Nat) → Option Nat
  | [] => none
  | b :: bs => if rank ≤ b.2 then some b.1 else binAt? (rank - b.2) bs

/-- The last value of the bin that a percentile falls in, but the first one for the share zero. -/
def valueAt (h : Histogram) (q : Quantile) : Nat :=
  match binAt? (q.rank h.total) h.bins with
  | some b => if q.isZero then b else binLast b
  | none => 0

end Histogram

structure Stats where
  iterations : Nat
  failures : Nat
  latencies : Histogram
deriving DecidableEq, Repr

namespace Stats

def empty : Stats := ⟨0, 0, .empty⟩

/-- Counts an iteration; its latency is given in nanoseconds and kept in whole microseconds. -/
def record (s : Stats) (latency : Nat) (succeeded : Bool) : Stats :=
  ⟨s.iterations + 1, if succeeded then s.failures else s.failures + 1,
    s.latencies.add (latency / 1000)⟩

def merge (s t : Stats) : Stats :=
  ⟨s.iterations + t.iterations, s.failures + t.failures, s.latencies.merge t.latencies⟩

/-- A percentile of the latencies, in nanoseconds. -/
def latencyAt (s : Stats) (q : Quantile) : Nat := s.latencies.valueAt q * 1000

/-- The longest latency, in nanoseconds. -/
def maxLatency (s : Stats) : Nat := s.latencies.highest * 1000

end Stats

end SearchLoad
