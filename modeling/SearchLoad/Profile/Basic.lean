import SearchLoad.Number.Binary64
import SearchLoad.Profile.Stage

namespace SearchLoad

structure Profile where
  stages : List Stage
  total : Span
deriving DecidableEq, Repr

namespace Profile

/-- Adds the durations of stages, each after a look at its target. -/
def addStages : Span → List Stage → Except ProfileFault Span
  | total, [] => .ok total
  | total, s :: ss =>
    if maxTarget < s.target then .error (.targetTooHigh s.target)
    else
      match total.add? s.duration with
      | some total => addStages total ss
      | none => .error .durationOverflow

/-- A profile of one stage or more, none too high and not too long together. -/
def ofStages (stages : List Stage) : Except ProfileFault Profile :=
  if stages.isEmpty then .error .noStages
  else (addStages .zero stages).map fun total => ⟨stages, total⟩

/-- Up to 100 users in half a minute, two minutes of them, and down again. -/
def standard : Profile where
  stages := [⟨.ofMillis 30000, 100⟩, ⟨.ofMillis 120000, 100⟩,
    ⟨.ofMillis 30000, 0⟩]
  total := .ofMillis 180000

/-- Reads stages between commas; what is blank between them is passed over. -/
def read (s : List Char) : Except ProfileFault Profile := do
  let stages ← ((s.splitOn ',').filter fun piece => !Text.isAllBlank piece).mapM Stage.read
  ofStages stages

def parse (text : String) : Except ProfileFault Profile := read text.toList

def display (p : Profile) : String := String.intercalate "," (p.stages.map Stage.display)

def highest (p : Profile) : Nat := p.stages.foldl (fun n s => max n s.target) 0

section Ramp

open Number

/-- Nanoseconds in seconds: whole seconds and the rest are rounded apart, then together. -/
def inSeconds (nanos : Nat) : Rat :=
  Binary64.add (Binary64.ofNat (nanos / Span.nanosPerSecond))
    (Binary64.div (Binary64.ofNat (nanos % Span.nanosPerSecond)) Span.nanosPerSecond)

/-- A part of the way from one number of users to another, rounded down. -/
def interpolate (start target : Nat) (progress : Rat) : Nat :=
  (Binary64.add start (Binary64.mul (Binary64.sub target start) progress)).floor.toNat

def progress (elapsed duration : Nat) : Rat :=
  Binary64.div (inSeconds elapsed) (inSeconds duration)

/-- The number of users at a time, where the first stage begins at `start` with `previous`
users. -/
def targetFrom (start previous elapsed : Nat) : List Stage → Option Nat
  | [] => none
  | s :: ss =>
    let stop := start + s.duration.nanos
    if elapsed < stop then
      some (interpolate previous s.target (progress (elapsed - start) s.duration.nanos))
    else targetFrom stop s.target elapsed ss

/-- How many users should run at a time in nanoseconds; nothing once the profile is over. -/
def targetAt (p : Profile) (elapsed : Nat) : Option Nat := targetFrom 0 0 elapsed p.stages

end Ramp

end Profile

end SearchLoad
