import SearchLoad.CommandLine.Flag

namespace SearchLoad.CommandLine

def standardDataset : String := "test_data/News_Category_Dataset_v3.json"

def standardStages : String := Profile.standard.display

def standardGracefulStop : String := "30s"

def standardTick : String := "100ms"

structure Page where
  scope : Scope
  long : Bool
deriving DecidableEq, Repr

namespace Scope

def about : Scope → String
  | program => "Load test for an FT.SEARCH endpoint"
  | run => "Send random two-word FT.SEARCH queries following the load profile"
  | load => "Flush the primary store and load every dataset record into it as a hash"
  | help => "Print this message or the help of the given subcommand(s)"

/-- The flags of a scope in the order of its page. -/
def listed : Scope → List Flag
  | run => [.dataset, .logFile, .stages, .seed, .gracefulStop, .tick, .help]
  | s => s.flags

end Scope

namespace Page

def about (p : Page) : String :=
  if p.scope = .program && p.long then
    Scope.program.about ++ ".\n\nEndpoints come from REDIS_ADDRS/REDIS_PASSWORD (primary) and " ++
      "REDISEARCH_ADDRS/REDISEARCH_PASSWORD (search)."
  else p.scope.about

def standardOf : Flag → Option String
  | .dataset => some standardDataset
  | .stages => some standardStages
  | .gracefulStop => some standardGracefulStop
  | .tick => some standardTick
  | _ => none

def purpose (p : Page) : Flag → String
  | .dataset =>
    if p.scope = .run then "Newline-delimited JSON dataset the query words are taken from"
    else "Newline-delimited JSON dataset to load"
  | .logFile => "Write logs to this file instead of stderr"
  | .stages => "Comma-separated `<duration>:<target>` stages"
  | .seed => "Seed for the query sampling, random when not given"
  | .gracefulStop => "How long in-flight queries may take to finish after the last stage"
  | .tick => "How often the number of virtual users is adjusted"
  | .help =>
    if p.scope != .program then "Print help"
    else if p.long then "Print help (see a summary with '-h')"
    else "Print help (see more with '--help')"
  | .version => "Print version"

/-- What a flag is for, and what holds without it. -/
def description (p : Page) (f : Flag) : String :=
  match standardOf f with
  | some value => p.purpose f ++ " [default: " ++ value ++ "]"
  | none => p.purpose f

def lead (f : Flag) : String :=
  match f.short? with
  | some c => "  -" ++ String.singleton c ++ ", " ++ f.form
  | none => "      " ++ f.form

/-- Lines of two columns, the second of which begins two places after the widest entry of the
first. -/
def columns (rows : List (String × String)) : List String :=
  let width := (rows.map fun r => r.1.length).foldl max 0 + 2
  rows.map fun (l, r) => l ++ String.ofList (List.replicate (width - l.length) ' ') ++ r

/-- A section with a heading; nothing if it is empty. -/
def listing? (heading : String) (lines : List String) : Option String :=
  if lines.isEmpty then none else some (heading ++ ":\n" ++ String.intercalate "\n" lines)

def commands (p : Page) : Option String :=
  listing? "Commands" (columns (p.scope.subcommands.map fun s => ("  " ++ s.name, s.about)))

def arguments (p : Page) : Option String :=
  let rows :=
    if p.scope = .help then [("  [COMMAND]...", "Print help for the subcommand(s)")] else []
  listing? "Arguments" (columns rows)

/-- The flags in two columns, or on two lines each with blank lines between them. -/
def options (p : Page) : Option String :=
  if p.scope = .program && p.long then
    let paragraphs := p.scope.listed.map fun f => lead f ++ "\n          " ++ p.description f
    listing? "Options" (if paragraphs.isEmpty then [] else [String.intercalate "\n\n" paragraphs])
  else listing? "Options" (columns (p.scope.listed.map fun f => (lead f, p.description f)))

def text (p : Page) : String :=
  let sections := [p.commands, p.arguments, p.options].filterMap id
  String.intercalate "\n\n" (p.about :: ("Usage: " ++ p.scope.plainUsage) :: sections) ++ "\n"

end Page

end SearchLoad.CommandLine
