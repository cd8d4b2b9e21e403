import SearchLoad.CommandLine.Help
import SearchLoad.CommandLine.Similarity
import SearchLoad.Text.Plain

namespace SearchLoad.CommandLine

inductive BadValue
  | profile (fault : ProfileFault)
  | span (fault : Span.Fault)
  | number (fault : Number.UnsignedFault)
deriving DecidableEq, Repr

namespace BadValue

def message : BadValue → String
  | profile f => f.message
  | span f => f.message
  | number f => f.message

def isAbort : BadValue → Bool
  | profile .aborted | span .carryOverflow => true
  | _ => false

end BadValue

/-- What may have been meant by an unknown option: one of the same scope, or one of a subcommand
that comes later. -/
inductive Hint
  | flag (f : Flag)
  | subcommandFlag (s : Scope) (f : Flag)
deriving DecidableEq, Repr

def Hint.text : Hint → String
  | flag f => "a similar argument exists: '--" ++ f.name ++ "'"
  | subcommandFlag s f => "'" ++ s.name ++ " --" ++ f.name ++ "' exists"

inductive Stop
  | help (page : Page)
  | version
  | nothingGiven
  | missingSubcommand
  | missingValue (f : Flag)
  | badValue (f : Flag) (value : String) (why : BadValue)
  | repeated (s : Scope) (f : Flag)
  | unexpectedValue (s : Scope) (f : Flag) (value : String) (used : Used)
  | unknownFlag (s : Scope) (argument : String) (hint : Option Hint) (used : Used)
  | unexpected (s : Scope) (argument : String)
  | subcommandAfterDashes (name : String)
  | unknownSubcommand (s : Scope) (name : String) (similar : List Scope)
deriving DecidableEq, Repr

namespace Stop

/-- Whether the stop is what the user asked for. -/
def isAnswer : Stop → Bool
  | help _ | version => true
  | _ => false

def similarText (similar : List Scope) : Option String :=
  let names := similar.map fun s => "'" ++ s.name ++ "'"
  match names with
  | [] => none
  | [name] => some ("a similar subcommand exists: " ++ name)
  | _ => some ("some similar subcommands exist: " ++ String.intercalate ", " names)

def highlight (given : String) : String := "'\x1b[33m" ++ given ++ "\x1b[0m'"

/-- An error with a tip and a usage, and a pointer to the help if there is any. -/
def report (headline : String) (tip usage : Option String) (helpful : Bool) : String :=
  let pointer := if helpful then some "For more information, try '--help'." else none
  let paragraphs := [some ("error: " ++ headline), tip.map ("  tip: " ++ ·),
    usage.map ("Usage: " ++ ·), pointer]
  String.intercalate "\n\n" (paragraphs.filterMap id) ++ "\n"

def styled : Stop → String
  | help p => p.text
  | version => versionText
  | nothingGiven => Page.text ⟨.program, false⟩
  | missingSubcommand =>
    let names := String.intercalate ", " (Scope.program.subcommands.map Scope.name)
    report ("'" ++ programName ++ "' requires a subcommand but one was not provided\n" ++
      "  [subcommands: " ++ names ++ "]") none (some Scope.program.plainUsage) true
  | missingValue f =>
    report ("a value is required for '" ++ f.form ++ "' but none was supplied") none none true
  | badValue f value why =>
    report ("invalid value " ++ highlight value ++ " for '" ++ f.form ++ "': " ++ why.message)
      none none true
  | repeated s f =>
    report ("the argument '" ++ f.form ++ "' cannot be used multiple times") none
      (some s.plainUsage) true
  | unexpectedValue s f value used =>
    report ("unexpected value " ++ highlight value ++ " for '" ++ f.form ++
      "' found; no more were expected") none (some (s.groupedUsage used)) true
  | unknownFlag s argument hint used =>
    report ("unexpected argument " ++ highlight argument ++ " found") (hint.map Hint.text)
      (some (s.usage used)) true
  | unexpected s argument =>
    report ("unexpected argument " ++ highlight argument ++ " found") none (some s.plainUsage) true
  | subcommandAfterDashes name =>
    report ("unexpected argument " ++ highlight name ++ " found")
      (some ("subcommand '" ++ name ++ "' exists; to use it, remove the '--' before it"))
      (some Scope.program.plainUsage) true
  | unknownSubcommand s name similar =>
    report ("unrecognized subcommand " ++ highlight name) (similarText similar) (some s.plainUsage)
      (s != .help)

def text (s : Stop) : String := Text.plain false s.styled

/-- The text of a stop as it is printed where there is no terminal. -/
def printed (s : Stop) : String := Text.plain true s.styled

end Stop

end SearchLoad.CommandLine
