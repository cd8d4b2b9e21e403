import SearchLoad.Command
import SearchLoad.Json.Value

namespace SearchLoad

/-- Each field once, in the order of the names. -/
structure Document where
  link : String
  fields : List (String × String)
deriving DecidableEq, Repr

namespace Document

/-- Puts a field in its place, over one of the same name. -/
def insertField (name value : String) : List (String × String) → List (String × String)
  | [] => [(name, value)]
  | f :: fs =>
    if name < f.1 then (name, value) :: f :: fs
    else if name = f.1 then (name, value) :: fs
    else f :: insertField name value fs

/-- The fields that members set, one after the other. -/
def fieldsOf (members : List (String × String)) : List (String × String) :=
  members.foldl (fun fs m => insertField m.1 m.2 fs) []

inductive Fault
  | malformed (fault : Json.Fault)
  | missingLink
deriving DecidableEq, Repr

/-- A document needs a link that is not empty. -/
def ofMembers (members : List (String × String)) : Except Fault Document :=
  match Json.lookupLast "link" members with
  | some link => if link.isEmpty then .error .missingLink else .ok ⟨link, fieldsOf members⟩
  | none => .error .missingLink

def parse (line : String) : Except Fault Document := do
  let members ← (Json.parseStrings line).mapError .malformed
  ofMembers members

def command (d : Document) : Command := .store d.link d.fields

end Document

end SearchLoad
