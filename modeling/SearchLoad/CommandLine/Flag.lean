import SearchLoad.Run.Controller

namespace SearchLoad.CommandLine

def programName : String := "ftbench-client"

def versionText : String := programName ++ " 0.1.0\n"

inductive Flag
  | dataset
  | logFile
  | stages
  | seed
  | gracefulStop
  | tick
  | help
  | version
deriving DecidableEq, Repr

namespace Flag

def name : Flag → String
  | dataset => "dataset"
  | logFile => "log-file"
  | stages => "stages"
  | seed => "seed"
  | gracefulStop => "graceful-stop"
  | tick => "tick"
  | help => "help"
  | version => "version"

/-- What stands for the value; nothing for a flag without one. -/
def placeholder? : Flag → Option String
  | dataset => some "DATASET"
  | logFile => some "LOG_FILE"
  | stages => some "STAGES"
  | seed => some "SEED"
  | gracefulStop => some "GRACEFUL_STOP"
  | tick => some "TICK"
  | help | version => none

def takesValue (f : Flag) : Bool := f.placeholder?.isSome

def short? : Flag → Option Char
  | help => some 'h'
  | version => some 'V'
  | _ => none

/-- A flag as messages show it. -/
def form (f : Flag) : String :=
  match f.placeholder? with
  | some p => "--" ++ f.name ++ " <" ++ p ++ ">"
  | none => "--" ++ f.name

end Flag

/-- The program, or a subcommand of it. -/
inductive Scope
  | program
  | run
  | load
  | help
deriving DecidableEq, Repr

namespace Scope

def name : Scope → String
  | program => programName
  | run => "run"
  | load => "load"
  | help => "help"

def title : Scope → String
  | program => programName
  | s => programName ++ " " ++ s.name

def subcommands : Scope → List Scope
  | program => [run, load, help]
  | _ => []

def subcommand? (s : Scope) (name : String) : Option Scope :=
  s.subcommands.find? fun c => c.name = name

/-- The options that a scope has of its own, beside those of every scope. -/
def ownOptions : Scope → List Flag
  | program => [.logFile]
  | run => [.dataset, .stages, .seed, .gracefulStop, .tick]
  | load => [.dataset]
  | help => []

def flags : Scope → List Flag
  | program => program.ownOptions ++ [.help, .version]
  | run => run.ownOptions ++ [.logFile, .help]
  | load => load.ownOptions ++ [.logFile, .help]
  | help => []

def flag? (s : Scope) (name : String) : Option Flag := s.flags.find? fun f => f.name = name

def shortFlag? (s : Scope) (c : Char) : Option Flag := s.flags.find? fun f => f.short? = some c

end Scope

/-- The flags that a command line gave, in their order. -/
abbrev Used := List Flag

namespace Used

def add (f : Flag) (u : Used) : Used := if f ∈ u then u else u ++ [f]

end Used

namespace Scope

def plainUsage : Scope → String
  | program => program.title ++ " [OPTIONS] <COMMAND>"
  | help => help.title ++ " [COMMAND]..."
  | s => s.title ++ " [OPTIONS]"

def usageWith (s : Scope) (options : List String) : String :=
  let command := if s = program then ["<COMMAND>"] else []
  if options.isEmpty then s.plainUsage
  else String.intercalate " " (s.title :: options ++ command)

def usage (s : Scope) (u : Used) : String := s.usageWith (u.map Flag.form)

/-- The usage of a scope where one of its own options stands for any of them. -/
def groupedUsage (s : Scope) (u : Used) : String :=
  let own := "<" ++ String.intercalate "|" (s.ownOptions.map Flag.form) ++ ">"
  let shared := (u.filter fun f => f ∉ s.ownOptions).map Flag.form
  s.usageWith (if u.any (· ∈ s.ownOptions) then shared ++ [own] else shared)

end Scope

end SearchLoad.CommandLine
