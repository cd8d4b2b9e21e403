import SearchLoad.CommandLine.Stop

namespace SearchLoad.CommandLine

inductive Task
  | run (dataset : String) (options : Run.Options)
  | load (dataset : String)

structure Invocation where
  task : Task
  logFile : Option String

/-- The values that one scope was given. -/
structure Given where
  dataset : Option String
  stages : Option Profile
  seed : Option UInt64
  gracefulStop : Option Span
  tick : Option Span
  logFile : Option String

namespace Given

def nothing : Given := ⟨none, none, none, none, none, none⟩

/-- A path has a character at least. -/
def readPath (f : Flag) (value : String) : Except Stop String :=
  if value.isEmpty then .error (.missingValue f) else .ok value

def readProfile (f : Flag) (value : String) : Except Stop Profile :=
  (Profile.parse value).mapError fun fault => .badValue f value (.profile fault)

def readSpan (f : Flag) (value : String) : Except Stop Span :=
  (Span.parse value).mapError fun fault => .badValue f value (.span fault)

def readSeed (f : Flag) (value : String) : Except Stop UInt64 :=
  match Number.readUnsigned value.toList with
  | .ok n => .ok n.toUInt64
  | .error fault => .error (.badValue f value (.number fault))

def put (g : Given) (f : Flag) (value : String) : Except Stop Given :=
  match f with
  | .dataset => (readPath f value).map fun x => { g with dataset := some x }
  | .logFile => (readPath f value).map fun x => { g with logFile := some x }
  | .stages => (readProfile f value).map fun x => { g with stages := some x }
  | .seed => (readSeed f value).map fun x => { g with seed := some x }
  | .gracefulStop => (readSpan f value).map fun x => { g with gracefulStop := some x }
  | .tick => (readSpan f value).map fun x => { g with tick := some x }
  | .help | .version => .ok g

/-- The value of an option, read from its standard text if none was given. -/
def orStandard {α : Type} (f : Flag) (standard : String) (read : Flag → String → Except Stop α) :
    Option α → Except Stop α
  | some value => .ok value
  | none => read f standard

def datasetOrStandard (g : Given) : Except Stop String :=
  orStandard .dataset standardDataset readPath g.dataset

def options (g : Given) : Except Stop Run.Options := do
  let profile ← orStandard .stages standardStages readProfile g.stages
  let gracefulStop ← orStandard .gracefulStop standardGracefulStop readSpan g.gracefulStop
  let tick ← orStandard .tick standardTick readSpan g.tick
  .ok ⟨profile, tick, gracefulStop, g.seed⟩

def runTask (g : Given) : Except Stop Task := do
  let dataset ← g.datasetOrStandard
  let options ← g.options
  .ok (.run dataset options)

def loadTask (g : Given) : Except Stop Task := do
  let dataset ← g.datasetOrStandard
  .ok (.load dataset)

end Given

end SearchLoad.CommandLine
