import SearchLoad.Number.Digits
import SearchLoad.Profile.Basic
import SearchLoad.Span.Text
import SearchLoad.Stats.Basic

namespace SearchLoad

/-- The profile's time leaves out the wait after it. Users are aborted when that wait ran out before
they were done; what they did is lost. -/
structure Report where
  stats : Stats
  elapsed : Nat
  peakUsers : Nat
  abortedUsers : Nat
deriving DecidableEq, Repr

namespace Report

open Number

/-- Iterations per second, as binary64. -/
def throughput (r : Report) : Rat :=
  if r.elapsed = 0 then 0
  else Binary64.div (Binary64.ofNat r.stats.iterations) (Profile.inSeconds r.elapsed)

def percentile (r : Report) (share : Rat) : String :=
  Span.brief (r.stats.latencyAt (.share (Binary64.nearest share)))

/-- Two lines: the counts, then the latencies. -/
def summary (r : Report) : String :=
  "iterations: " ++ toString r.stats.iterations ++ " (" ++ toString r.stats.failures ++
    " failed) in " ++ Span.briefFixed 1 r.elapsed ++ ", " ++ fixed 1 r.throughput ++
    "/s, peak users: " ++ toString r.peakUsers ++ ", aborted users: " ++
    toString r.abortedUsers ++ "\nlatency p50: " ++ r.percentile (1 / 2) ++ ", p90: " ++
    r.percentile (9 / 10) ++ ", p99: " ++ r.percentile (99 / 100) ++ ", max: " ++
    Span.brief r.stats.maxLatency

end Report

end SearchLoad
