import SearchLoad.Live.Tcp
import SearchLoad.Run.Controller

namespace SearchLoad.Live

open Std.Async

/-- What a test works with. Its clock shows the time since `started`. -/
structure Bench where
  connection : Connection Async
  sampler : Sampler
  options : Run.Options
  journal : Journal
  started : Nat

/-- A task that a user goes on in, and the flag that stops it. -/
structure LiveUser where
  stop : IO.Ref Bool
  task : AsyncTask Run.User

/-- The fleet as its controller knows it, and what its users go on in, by their numbers. -/
structure Crew where
  fleet : Run.Fleet
  users : Array LiveUser

def Crew.raise (crew : Crew) (id : Nat) : BaseIO Unit := do
  if let some user := crew.users[id]? then user.stop.set true

def sleepNanos (n : Nat) : Async Unit := sleep (.ofNat ((n + 999999) / 1000000))

/-- A key of random bytes. -/
def randomKey : IO Sampling.Key := do
  let bytes ← IO.getRandomBytes 8
  return .ofSeed (bytes.toList.foldl (fun n b => n * 256 + b.toUInt64) 0)

namespace Bench

def now (b : Bench) : BaseIO Nat := do return (← IO.monoNanosNow) - b.started

def write (b : Bench) (entries : List (Nat × Entry)) : IO Unit :=
  entries.forM fun e => b.journal.write e.2

/-- Nothing answers in the scene itself: what becomes of a search is put in when it is known. -/
def scene (b : Bench) (fresh : Nat → Sampling.Key) : Run.Scene where
  sampler := b.sampler
  target := ⟨fun _ _ _ => .silent⟩
  generator := b.options.generator fresh

def respond (b : Bench) (since : Nat) (q : Query) : Async Run.Response := do
  try
    let outcome ← b.connection.execute (.search q)
    let after := (← b.now) - since
    match outcome with
    | .ok () => return .answered after .succeeded
    | .error f => return .answered after (.failed f.message)
  catch error => return .crashed ((← b.now) - since) (toString error)

/-- The user with what its next step goes by: the time and its stop flag, or the response to its
search. -/
def ready (b : Bench) (stop : IO.Ref Bool) (u : Run.User) : Async Run.User := do
  match u.phase with
  | .idle _ =>
    let u := if ← stop.get then u.stop else u
    return { u with phase := .idle (← b.now) }
  | .searching _ q _ =>
    let since ← b.now
    return { u with phase := .searching since q (← b.respond since q) }
  | _ => return u

/-- Takes a user from step to step until its task is over. What is written is forgotten. -/
def drive (b : Bench) (scene : Run.Scene) (stop : IO.Ref Bool) (u : Run.User) :
    Async Run.User := do
  let mut u := u
  b.write u.entries
  while u.verdict.isNone do
    let ready ← b.ready stop { u with history := [] }
    u := ready.step scene
    b.write u.entries
  return u

/-- Does to a task what was done to its user. -/
def perform (b : Bench) (scene : Run.Scene) (crew : Crew) : Run.FleetEvent → Async Crew
  | .spawned id => do
    let some u := crew.fleet.active.find? (·.id = id) | return crew
    let stop ← IO.mkRef false
    let task ← async (b.drive scene stop u)
    return { crew with users := crew.users.push ⟨stop, task⟩ }
  | .retired id => do
    crew.raise id
    return crew
  | .peaked _ => return crew

def resize (b : Bench) (crew : Crew) (now target : Nat) : Async Crew := do
  let first := crew.fleet.spawned
  let keys ← (List.range (target - crew.fleet.active.length)).mapM fun _ => randomKey
  let scene := b.scene fun id => keys.getD (id - first) (.ofSeed 0)
  let fleet := { crew.fleet with history := [] }.resize scene now target
  let crew ← fleet.history.reverse.foldlM (fun crew e => b.perform scene crew e.2)
    { crew with fleet }
  b.write fleet.entries
  return crew

/-- Follows the profile to its end. -/
def follow (b : Bench) : Async Crew := do
  let mut crew : Crew := ⟨.empty, #[]⟩
  repeat
    let now ← b.now
    let some target := b.options.profile.targetAt now | break
    crew ← b.resize crew now target
    sleepNanos (min b.options.tick.nanos Run.longestSleep)
  return crew

/-- The user that a task ends with; nothing at the deadline. A task that is over is never late. -/
def joinBefore (b : Bench) (deadline : Option Nat) (user : LiveUser) :
    Async (Option Run.User) := do
  let join : Async (Option Run.User) := do return some (← await user.task)
  match deadline with
  | none => join
  | some limit =>
    if (← user.task.getState) = .finished then join
    else Async.race join (do
      sleepNanos (limit - (← b.now))
      return none)

def awaitUser (b : Bench) (crew : Crew) (deadline : Option Nat) (u : Run.User) :
    Async Run.Awaited := do
  let ended ← match crew.users[u.id]? with
    | some user => b.joinBefore deadline user
    | none => pure none
  let now ← b.now
  match ended.bind fun v => v.verdict.map fun (_, verdict) => (v, verdict) with
  | some (v, verdict) => return ⟨v, verdict, now⟩
  | none => return ⟨u, .aborted, now⟩

end Bench

def runTest (journal : Journal) (connection : Connection Async) (sampler : Sampler)
    (options : Run.Options) : Async Report := do
  journal.write (Run.openingEntry sampler options)
  let b : Bench := ⟨connection, sampler, options, journal, ← IO.monoNanosNow⟩
  let crew ← b.follow
  let elapsed ← b.now
  journal.write (Run.stoppingEntry crew.fleet)
  let fleet := crew.fleet.stopAll
  fleet.active.reverse.forM fun u => crew.raise u.id
  let deadline := Run.deadline? (← b.now) options.gracefulStop
  let awaited ← fleet.awaited.mapM fun u => do
    let a ← b.awaitUser crew deadline u
    b.write (a.entry? options.gracefulStop).toList
    return a
  journal.write Run.closingEntry
  return ⟨Run.merged awaited, elapsed, fleet.peak, Run.abortedCount awaited⟩

end SearchLoad.Live
