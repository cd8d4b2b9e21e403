import SearchLoad.CommandLine.Invocation

namespace SearchLoad.CommandLine

/-- What has been read of a scope's arguments. The last option is pending, with its value if that
has come. -/
structure Reading where
  given : Given
  used : Used
  pending : Option (Flag × Option String)

namespace Reading

def start : Reading := ⟨.nothing, [], none⟩

/-- Takes a value, which may be wrong, and an option counts as used even so. One that is given again
is used no more. -/
def take (s : Scope) (f : Flag) (value : String) (r : Reading) : Reading × Option Stop :=
  if f ∈ r.used then ({ r with used := r.used.erase f }, some (.repeated s f))
  else
    let r := { r with used := r.used.add f }
    match r.given.put f value with
    | .ok given => ({ r with given }, none)
    | .error stop => (r, some stop)

def settle (s : Scope) (r : Reading) : Reading × Option Stop :=
  match r.pending with
  | none => (r, none)
  | some (f, none) => ({ r with pending := none }, some (.missingValue f))
  | some (f, some value) => { r with pending := none }.take s f value

/-- The reading without a pending option, unless that is wrong. -/
def settled (s : Scope) (r : Reading) : Except Stop Reading :=
  match r.settle s with
  | (r, none) => .ok r
  | (_, some stop) => .error stop

/-- Goes on to an option. A value that stands in the same argument is taken at once. -/
def next (s : Scope) (f : Flag) (value : Option String) (r : Reading) : Except Stop Reading := do
  let r ← r.settled s
  let r : Reading := { r with pending := some (f, value) }
  if value.isSome then r.settled s else .ok r

def isWaiting (r : Reading) : Bool :=
  match r.pending with
  | some (_, none) => true
  | _ => false

end Reading

def mostSimilar? (s : Scope) (name : String) : Option Flag :=
  (similarTo name Flag.name s.flags).getLast?

/-- A flag like an unknown one: of the same scope, or else of the subcommand that comes first among
the arguments after it. -/
def hint? (s : Scope) (name : String) (rest : List String) : Option Hint :=
  match mostSimilar? s name with
  | some f => some (.flag f)
  | none => rest.findSome? fun a => do
    let sub ← s.subcommand? a
    let f ← mostSimilar? sub name
    some (.subcommandFlag sub f)

/-- The stop at an unknown long option; a flag like it counts as used. -/
def unknownLong (s : Scope) (name : String) (rest : List String) (r : Reading) : Stop :=
  let hint := hint? s name rest
  let used := (r.settle s).1.used
  .unknownFlag s ("--" ++ name) hint <|
    match hint with
    | some (.flag f) => used.add f
    | _ => used

def Flag.reaction (s : Scope) (long : Bool) : Flag → Stop
  | .version => .version
  | _ => .help ⟨s, long⟩

def readLong (s : Scope) (name : String) (value : Option String) (rest : List String)
    (r : Reading) : Except Stop Reading :=
  match s.flag? name with
  | none => .error (unknownLong s name rest r)
  | some f =>
    if f.takesValue then r.next s f value
    else
      match value with
      | some v => .error (.unexpectedValue s f v (r.used.add f))
      | none => do
        let _ ← r.settled s
        .error (f.reaction s true)

/-- Short options are flags without values, so the first one ends the reading. -/
def readShort (s : Scope) (c : Char) (r : Reading) : Stop :=
  match s.shortFlag? c with
  | none => .unexpected s ("-" ++ String.singleton c)
  | some f =>
    match r.settled s with
    | .ok _ => f.reaction s false
    | .error stop => stop

def stray (s : Scope) (afterDashes : Bool) (a : String) : Stop :=
  if s.subcommands.isEmpty then .unexpected s a
  else if afterDashes && (s.subcommand? a).isSome then .subcommandAfterDashes a
  else .unknownSubcommand s a (similarTo a Scope.name s.subcommands)

inductive Form
  | dashes
  | long (name : String) (value : Option String)
  | short (c : Char)
  | word
deriving DecidableEq, Repr

/-- A name and what stands behind its first equals sign. -/
def splitEquals (s : List Char) : String × Option String :=
  (String.ofList (s.takeWhile (· != '=')),
    match s.dropWhile (· != '=') with
    | [] => none
    | _ :: value => some (String.ofList value))

def Form.of : List Char → Form
  | ['-', '-'] => .dashes
  | '-' :: '-' :: s =>
    let (name, value) := splitEquals s
    .long name value
  | '-' :: c :: _ => .short c
  | _ => .word

/-- Reads the arguments of a scope up to a subcommand, which comes with the arguments after it. A
subcommand's name is a value where an option waits for one. -/
def readArguments (s : Scope) :
    Reading → List String → Except Stop (Reading × Option (Scope × List String))
  | r, [] => .ok (r, none)
  | r, a :: rest =>
    match if r.isWaiting then none else s.subcommand? a with
    | some sub => .ok (r, some (sub, rest))
    | none =>
      match Form.of a.toList with
      | .dashes =>
        match rest with
        | [] => .ok (r, none)
        | b :: _ => .error (stray s true b)
      | .long name value =>
        match readLong s name value rest r with
        | .ok r => readArguments s r rest
        | .error stop => .error stop
      | .short c => .error (readShort s c r)
      | .word =>
        match r.pending with
        | some (f, none) => readArguments s { r with pending := some (f, some a) } rest
        | _ => .error (stray s false a)

def helpOn (s : Scope) : List String → Stop
  | [] => .help ⟨s, true⟩
  | a :: rest =>
    match s.subcommand? a with
    | some sub => helpOn sub rest
    | none => .unknownSubcommand s a []

/-- Reads a subcommand's arguments; only then the program's own last option is looked at. -/
def enter (top : Reading) (s : Scope) (rest : List String) (task : Given → Except Stop Task) :
    Except Stop Invocation := do
  let (inner, _) ← readArguments s .start rest
  let inner ← inner.settled s
  let top ← top.settled .program
  let task ← task inner.given
  .ok ⟨task, inner.given.logFile.or top.given.logFile⟩

def parse (arguments : List String) : Except Stop Invocation := do
  match ← readArguments .program .start arguments with
  | (top, none) =>
    let top ← top.settled .program
    .error (if top.used.isEmpty then .nothingGiven else .missingSubcommand)
  | (top, some (.run, rest)) => enter top .run rest Given.runTask
  | (top, some (.load, rest)) => enter top .load rest Given.loadTask
  | (_, some (_, rest)) => .error (helpOn .program rest)

end SearchLoad.CommandLine
