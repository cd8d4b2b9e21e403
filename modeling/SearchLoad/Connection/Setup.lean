import SearchLoad.Command
import SearchLoad.Endpoint.Basic
import SearchLoad.Wire.Reply

namespace SearchLoad.Connection

/-- A command of the setup, by what its refusal means. -/
inductive SetupStep
  | hello (command : Command)
  | authenticate (command : Command)
  | select (command : Command)
  | introduce (command : Command)
deriving DecidableEq, Repr

/-- What an answer to a step means, unless it ends the setup. -/
inductive Acceptance
  | accepted
  | withoutUser
deriving DecidableEq, Repr

namespace SetupStep

def command : SetupStep → Command
  | hello c => c
  | authenticate c => c
  | select c => c
  | introduce c => c

def authenticationFailed : Wire.Failure :=
  .described .authenticationFailed "Password authentication failed" none

def userRefusal : String := "wrong number of arguments for 'auth' command"

def helloRefusal : String := "unknown command `HELLO`"

def standsIn (part : List Char) : List Char → Bool
  | [] => part.isEmpty
  | c :: s => part.isPrefixOf (c :: s) || standsIn part s

def checkAuthentication : Wire.Reply → Except Wire.Failure Acceptance
  | .okay => .ok .accepted
  | .error _ none => .error authenticationFailed
  | .error _ (some detail) =>
    if standsIn userRefusal.toList detail.toList then .ok .withoutUser
    else .error authenticationFailed
  | _ =>
    .error (.described .response
      "Redis server refused to authenticate, returns Ok() != Value::Okay" none)

def helloFailure (code : String) (detail : Option String) : Wire.Failure :=
  if (detail.getD "").startsWith helloRefusal then
    .described .helloNotSupported
      "Redis Server doesn't support HELLO command therefore resp3 cannot be used" none
  else .ofErrorReply code detail

/-- The answer to a step, checked. Who is calling may be refused. -/
def check : SetupStep → Wire.Reply → Except Wire.Failure Acceptance
  | hello _, .error code detail => .error (helloFailure code detail)
  | authenticate _, r => checkAuthentication r
  | select _, .error _ detail =>
    .error (.described .response "Redis server refused to switch database" detail)
  | _, _ => .ok .accepted

def checkAll : List (SetupStep × Wire.Reply) → Except Wire.Failure Acceptance
  | [] => .ok .accepted
  | (step, r) :: rest =>
    match step.check r with
    | .ok .accepted => checkAll rest
    | verdict => verdict

end SetupStep

/-- What authenticates: a greeting in the third version of the protocol, else a password if there is
one. -/
def authentication (e : Endpoint) : List SetupStep :=
  match e.protocol, e.password with
  | .three, none => [.hello ⟨["HELLO", "3"]⟩]
  | .three, some password =>
    [.hello ⟨["HELLO", "3", "AUTH", e.username.getD "default", password]⟩]
  | .two, none => []
  | .two, some password => [.authenticate ⟨"AUTH" :: e.username.toList ++ [password]⟩]

def selection (e : Endpoint) : List SetupStep :=
  if e.database = 0 then [] else [.select ⟨["SELECT", toString e.database]⟩]

def introduction : List SetupStep :=
  [.introduce ⟨["CLIENT", "SETINFO", "LIB-NAME", "redis-rs"]⟩,
    .introduce ⟨["CLIENT", "SETINFO", "LIB-VER", "0.27.6"]⟩]

def setup (e : Endpoint) : List SetupStep := authentication e ++ selection e ++ introduction

end SearchLoad.Connection
