namespace SearchLoad

inductive Level
  | error
  | warn
  | info
  | debug
deriving DecidableEq, Repr

namespace Level

def name : Level → String
  | error => "ERROR"
  | warn => "WARN"
  | info => "INFO"
  | debug => "DEBUG"

def rank : Level → Nat
  | error => 0
  | warn => 1
  | info => 2
  | debug => 3

end Level

structure Entry where
  level : Level
  message : String
  fields : List (String × String)
deriving DecidableEq, Repr

namespace Entry

def error (message : String) : Entry := ⟨.error, message, []⟩

def warn (message : String) : Entry := ⟨.warn, message, []⟩

def info (message : String) : Entry := ⟨.info, message, []⟩

def debug (message : String) : Entry := ⟨.debug, message, []⟩

/-- One line: the level, the message, then each value after its name. -/
def render (e : Entry) : String :=
  e.level.name ++ " " ++ e.message ++
    String.join (e.fields.map fun (name, value) => " " ++ name ++ "=" ++ value)

def upTo (level : Level) (es : List Entry) : List Entry :=
  es.filter fun e => e.level.rank ≤ level.rank

end Entry

end SearchLoad
