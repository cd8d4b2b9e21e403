import SearchLoad.Number.Integer
import SearchLoad.Profile.Basic
import SearchLoad.Run.Fleet
import SearchLoad.Span.Basic
import SearchLoad.Stats.Report

namespace SearchLoad.Run

/-- The times that a clock can show are below this many nanoseconds. -/
def clockLimit : Nat := Number.minSignedMagnitude * Span.nanosPerSecond

/-- Thirty years, in nanoseconds: nobody sleeps longer. -/
def longestSleep : Nat := 30 * 365 * 86400 * Span.nanosPerSecond

def wakeTime (now nanos : Nat) : Nat := now + min nanos longestSleep

/-- A time that is so far ahead; none if the clock cannot show it. -/
def deadline? (now : Nat) (ahead : Span) : Option Nat :=
  if now + ahead.nanos < clockLimit then some (now + ahead.nanos) else none

structure Options where
  profile : Profile
  tick : Span
  gracefulStop : Span
  seed : Option UInt64

namespace Options

def standard : Options where
  profile := .standard
  tick := .ofMillis 100
  gracefulStop := .ofMillis 30000
  seed := none

/-- Each user's generator: from the seed and the user's number, or from fresh keys without a
seed. -/
def generator (o : Options) (fresh : Nat → Sampling.Key) (id : Nat) : Sampling.Generator :=
  match o.seed with
  | some seed => .ofSeed (seed + id.toUInt64)
  | none => .ofKey (fresh id)

end Options

structure Controller where
  time : Nat
  fleet : Fleet
deriving DecidableEq, Repr

namespace Controller

def start : Controller := ⟨0, .empty⟩

/-- One wake: the fleet is resized, the controller sleeps, and the users go on meanwhile. -/
def wake (scene : Scene) (tick : Span) (target : Nat) (c : Controller) : Controller :=
  let next := wakeTime c.time tick.nanos
  ⟨next, (c.fleet.resize scene c.time target).advance scene next⟩

/-- Wakes until the profile is over, so many times at most; nothing if it is not over then. -/
def follow (scene : Scene) (o : Options) : Nat → Controller → Option Controller
  | 0, _ => none
  | fuel + 1, c =>
    match o.profile.targetAt c.time with
    | none => some c
    | some target => follow scene o fuel (c.wake scene o.tick target)

/-- How many wakes a profile takes at most. Without a tick only one that is over at once ends. -/
def maxWakes (o : Options) : Nat :=
  if o.tick.nanos = 0 then 1 else o.profile.total.nanos / min o.tick.nanos longestSleep + 2

end Controller

/-- What became of a user that was awaited. -/
inductive Verdict
  | joined (stats : Stats)
  | crashed (message : String)
  | aborted
deriving DecidableEq, Repr

/-- A user after the wait for it, and when that wait ended. -/
structure Awaited where
  user : User
  verdict : Verdict
  time : Nat
deriving DecidableEq, Repr

def User.verdict (u : User) : Option (Nat × Verdict) :=
  match u.phase with
  | .ended time => some (time, .joined u.stats)
  | .crashed time message => some (time, .crashed message)
  | _ => none

/-- Awaits a stopped user. One that is not done before the deadline is aborted at it; without a
deadline the wait may never end. -/
def await (scene : Scene) (deadline : Option Nat) (now : Nat) (u : User) : Option Awaited :=
  let done := (u.settle? scene).bind fun v => v.verdict.map fun (time, verdict) =>
    (time, Awaited.mk v verdict (max now time))
  match deadline with
  | none => done.map Prod.snd
  | some d =>
    match done with
    | some (time, a) => some (if time < d then a else ⟨u, .aborted, max now d⟩)
    | none => some ⟨u, .aborted, max now d⟩

def awaitAll (scene : Scene) (deadline : Option Nat) : Nat → List User → Option (List Awaited)
  | _, [] => some []
  | now, u :: us => do
    let a ← await scene deadline now u
    let rest ← awaitAll scene deadline a.time us
    some (a :: rest)

/-- What a run leaves behind: its report, when it returned, the users in the order of their
numbers, and the log. -/
structure Result where
  report : Report
  finishedAt : Nat
  users : List User
  log : List Entry
deriving DecidableEq, Repr

/-- The statistics of the users that were joined. -/
def merged (awaited : List Awaited) : Stats :=
  awaited.foldl (fun total a =>
    match a.verdict with
    | .joined stats => total.merge stats
    | _ => total) .empty

def abortedCount (awaited : List Awaited) : Nat :=
  (awaited.filter fun a => a.verdict = .aborted).length

def Awaited.entry? (gracefulStop : Span) (a : Awaited) : Option (Nat × Entry) :=
  let user := "virtual user " ++ toString a.user.id
  match a.verdict with
  | .joined _ => none
  | .crashed message => some (a.time, .error (user ++ " failed: task N panicked with message " ++
      Text.quote message))
  | .aborted => some (a.time, .warn (user ++ " did not finish within " ++
      Span.brief gracefulStop.nanos ++ ", aborting"))

/-- Entries in the order of their times; of one time the first list's come first. -/
def inOrder (first second third : List (Nat × Entry)) : List Entry :=
  ((first ++ second ++ third).mergeSort fun a b => a.1 ≤ b.1).map Prod.snd

def openingEntry (sampler : Sampler) (o : Options) : Entry :=
  ⟨.info, "starting the load test",
    [("profile", o.profile.display), ("words", toString sampler.corpus.size)]⟩

def stoppingEntry (f : Fleet) : Entry :=
  .info ("profile finished, stopping " ++ toString f.active.length ++ " virtual users")

def closingEntry : Entry := .info "load test finished"

def logOf (scene : Scene) (o : Options) (c : Controller) (awaited : List Awaited) : List Entry :=
  openingEntry scene.sampler o :: inOrder (c.fleet.entries ++ [(c.time, stoppingEntry c.fleet)])
    (awaited.flatMap fun a => a.user.entries)
    (awaited.filterMap (Awaited.entry? o.gracefulStop)) ++ [closingEntry]

/-- Ends a run: all users are stopped and awaited. -/
def finish (scene : Scene) (o : Options) (c : Controller) : Option Result := do
  let awaited ← awaitAll scene (deadline? c.time o.gracefulStop) c.time c.fleet.stopAll.awaited
  let report : Report := ⟨merged awaited, c.time, c.fleet.peak, abortedCount awaited⟩
  let finishedAt := (awaited.getLast?.map Awaited.time).getD c.time
  let users := (awaited.map Awaited.user).mergeSort fun u v => u.id ≤ v.id
  some ⟨report, finishedAt, users, logOf scene o c awaited⟩

/-- Runs a load test on a virtual clock, where computing takes no time; nothing if it never returns.
-/
def simulate (scene : Scene) (o : Options) : Option Result := do
  let c ← Controller.start.follow scene o (Controller.maxWakes o)
  finish scene o c

end SearchLoad.Run
