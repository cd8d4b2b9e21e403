import SearchLoad.Command
import SearchLoad.Sampling.Generator
import SearchLoad.Sampling.Sampler
import SearchLoad.Stats.Basic

namespace SearchLoad.Run

inductive Outcome
  | succeeded
  | failed (message : String)
deriving DecidableEq, Repr

def Outcome.isSuccess : Outcome → Bool
  | .succeeded => true
  | .failed _ => false

/-- What becomes of a search, after so many nanoseconds: it returns, or it takes the user's task
down with it. A silent one never returns. -/
inductive Response
  | answered (after : Nat) (outcome : Outcome)
  | crashed (after : Nat) (message : String)
  | silent
deriving DecidableEq, Repr

/-- A response to every search of every user: users and their searches are counted from zero. -/
structure Target where
  respond : Nat → Nat → Command → Response

/-- What a run is made with: where queries come from, what they are sent to, and the generator
that each user begins with. -/
structure Scene where
  sampler : Sampler
  target : Target
  generator : Nat → Sampling.Generator

/-- What a user is doing, with the time of it in nanoseconds. -/
inductive Phase
  | idle (since : Nat)
  | searching (since : Nat) (query : Query) (response : Response)
  | ended (time : Nat)
  | crashed (time : Nat) (message : String)
deriving DecidableEq, Repr

/-- What happened to a user. -/
inductive UserEvent
  | started
  | sent (query : Query)
  | returned (query : Query) (outcome : Outcome)
  | stopped
  | crashed (message : String)
deriving DecidableEq, Repr

/-- The history is kept with its latest event first. -/
structure User where
  id : Nat
  generator : Sampling.Generator
  sent : Nat
  stats : Stats
  stopping : Bool
  phase : Phase
  history : List (Nat × UserEvent)
deriving DecidableEq, Repr

namespace User

def spawn (scene : Scene) (now id : Nat) : User :=
  ⟨id, scene.generator id, 0, .empty, false, .idle now, [(now, .started)]⟩

def stop (u : User) : User := { u with stopping := true }

def send (scene : Scene) (now : Nat) (u : User) : User :=
  let (q, g) := scene.sampler.sample u.generator
  { u with
    generator := g
    sent := u.sent + 1
    phase := .searching now q (scene.target.respond u.id u.sent (.search q))
    history := (now, .sent q) :: u.history }

def take (since now : Nat) (q : Query) (outcome : Outcome) (u : User) : User :=
  { u with
    stats := u.stats.record (now - since) outcome.isSuccess
    phase := .idle now
    history := (now, .returned q outcome) :: u.history }

def finish (now : Nat) (u : User) : User :=
  { u with phase := .ended now, history := (now, .stopped) :: u.history }

def crash (now : Nat) (message : String) (u : User) : User :=
  { u with phase := .crashed now message, history := (now, .crashed message) :: u.history }

/-- When the user's next step is due; nothing if it has none. -/
def due? (u : User) : Option Nat :=
  match u.phase with
  | .idle since => some since
  | .searching since _ (.answered after _) => some (since + after)
  | .searching since _ (.crashed after _) => some (since + after)
  | .searching _ _ .silent => none
  | .ended _ => none
  | .crashed .. => none

/-- The user's next step: an idle user ends if its stop flag is up and sends a search if not. -/
def step (scene : Scene) (u : User) : User :=
  match u.phase with
  | .idle now => if u.stopping then u.finish now else u.send scene now
  | .searching since q (.answered after outcome) => u.take since (since + after) q outcome
  | .searching since _ (.crashed after message) => u.crash (since + after) message
  | .searching _ _ .silent => u
  | .ended _ => u
  | .crashed .. => u

def stepBefore (scene : Scene) (limit : Nat) : Nat → User → User
  | 0, u => u
  | fuel + 1, u =>
    match u.due? with
    | some t => if t < limit then stepBefore scene limit fuel (u.step scene) else u
    | none => u

/-- Takes all steps that are due before a time, if every search takes a nanosecond or more. -/
def advance (scene : Scene) (limit : Nat) (u : User) : User :=
  stepBefore scene limit (2 * limit + 2) u

/-- The user after its last step, with its stop flag up: a search under way is the last one. Nothing
if that search never returns. -/
def settle? (scene : Scene) (u : User) : Option User :=
  match u.phase with
  | .searching _ _ .silent => none
  | _ => some ((u.step scene).step scene)

/-- What the history says in the log. -/
def entries (u : User) : List (Nat × Entry) :=
  let count := toString u.stats.iterations
  u.history.reverse.filterMap fun (time, event) =>
    match event with
    | .started => some (time, .debug "started")
    | .returned q (.failed message) =>
      some (time, ⟨.debug, "iteration failed: " ++ message, [("query", q.text)]⟩)
    | .stopped => some (time, .debug ("stopped after " ++ count ++ " iterations"))
    | _ => none

/-- The searches that were sent, with their times. -/
def searches (u : User) : List (Nat × Query) :=
  u.history.reverse.filterMap fun (time, event) =>
    match event with
    | .sent q => some (time, q)
    | _ => none

end User

end SearchLoad.Run
