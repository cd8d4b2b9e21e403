import SearchLoad.Json.Value

namespace SearchLoad

structure Record where
  link : String
  headline : String
  shortDescription : String
deriving DecidableEq, Repr

namespace Record

/-- Why a line is no record. A field is looked at only when the whole line is an object. -/
inductive Fault
  | malformed (fault : Json.Fault)
  | mismatch (found : Json.Shape)
  | missing (field : String)
deriving DecidableEq, Repr

def Fault.message : Fault → String
  | .malformed f => f.message
  | .mismatch found => Json.mismatchText found .string
  | .missing field => "missing field `" ++ field ++ "`"

/-- The text of a field: its last value counts, and nothing stands for a field that is missing. -/
def field (members : List (String × Json.Value)) (key : String) :
    Except Fault (Option String) :=
  match Json.lookupLast key members with
  | none => .ok none
  | some (.string s) => .ok (some s)
  | some v => .error (.mismatch v.shape)

def require (key : String) : Option String → Except Fault String
  | some s => .ok s
  | none => .error (.missing key)

/-- Fields are checked in the order of their names, and missed in the order of the record. -/
def ofMembers (members : List (String × Json.Value)) : Except Fault Record := do
  let headline ← field members "headline"
  let link ← field members "link"
  let description ← field members "short_description"
  let link ← require "link" link
  let headline ← require "headline" headline
  let description ← require "short_description" description
  .ok ⟨link, headline, description⟩

def parse (line : String) : Except Fault Record := do
  let members ← (Json.parseObject line).mapError .malformed
  ofMembers members

def text (r : Record) : String := r.headline ++ " " ++ r.shortDescription

end Record

end SearchLoad
