import SearchLoad.Run.User

namespace SearchLoad.Run

inductive FleetEvent
  | spawned (id : Nat)
  | retired (id : Nat)
  | peaked (users : Nat)
deriving DecidableEq, Repr

/-- Last retired first, and latest event first. -/
structure Fleet where
  active : List User
  retired : List User
  peak : Nat
  history : List (Nat × FleetEvent)
deriving DecidableEq, Repr

namespace Fleet

def empty : Fleet := ⟨[], [], 0, []⟩

/-- The number of users so far, which is the next user's number. -/
def spawned (f : Fleet) : Nat := f.active.length + f.retired.length

def spawn (scene : Scene) (now : Nat) (f : Fleet) : Fleet :=
  { f with
    active := .spawn scene now f.spawned :: f.active
    history := (now, .spawned f.spawned) :: f.history }

/-- Stops the newest user. -/
def retire (now : Nat) (f : Fleet) : Fleet :=
  match f.active with
  | [] => f
  | u :: us =>
    { f with
      active := us
      retired := u.stop :: f.retired
      history := (now, .retired u.id) :: f.history }

def grow (scene : Scene) (now : Nat) : Nat → Fleet → Fleet
  | 0, f => f
  | n + 1, f => grow scene now n (f.spawn scene now)

def shrink (now : Nat) : Nat → Fleet → Fleet
  | 0, f => f
  | n + 1, f => shrink now n (f.retire now)

def notePeak (now : Nat) (f : Fleet) : Fleet :=
  if f.peak < f.active.length then
    { f with peak := f.active.length, history := (now, .peaked f.active.length) :: f.history }
  else f

/-- Spawns or retires users until so many are active. -/
def resize (scene : Scene) (now target : Nat) (f : Fleet) : Fleet :=
  let f := f.grow scene now (target - f.active.length)
  (f.shrink now (f.active.length - target)).notePeak now

def advance (scene : Scene) (limit : Nat) (f : Fleet) : Fleet :=
  { f with
    active := f.active.map (User.advance scene limit)
    retired := f.retired.map (User.advance scene limit) }

/-- Raises the stop flag of every active user. -/
def stopAll (f : Fleet) : Fleet := { f with active := f.active.map User.stop }

/-- The order in which users are awaited: the active ones as they were spawned, then the others as
they were retired. -/
def awaited (f : Fleet) : List User := f.active.reverse ++ f.retired.reverse

def entries (f : Fleet) : List (Nat × Entry) :=
  f.history.reverse.filterMap fun (time, event) =>
    match event with
    | .peaked n => some (time, .debug (toString n ++ " virtual users running"))
    | _ => none

end Fleet

end SearchLoad.Run
