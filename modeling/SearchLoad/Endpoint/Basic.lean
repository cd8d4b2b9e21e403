import SearchLoad.Endpoint.Locator
import SearchLoad.Number.Integer
import SearchLoad.Text.Quoted
import SearchLoad.Wire.Failure

namespace SearchLoad

inductive Protocol
  | two
  | three
deriving DecidableEq, Repr

structure Endpoint where
  host : String
  port : Nat
  database : Int
  username : Option String
  password : Option String
  protocol : Protocol
deriving DecidableEq, Repr

namespace Endpoint

inductive Fault
  | unreadable
  | noHost
  | badDatabase
  | badUsername
  | badPassword
  | badProtocol (text : String)
deriving DecidableEq, Repr

def Fault.failure : Fault → Wire.Failure
  | .unreadable => .described .invalidConfig "Redis URL did not parse" none
  | .noHost => .described .invalidConfig "Missing hostname" none
  | .badDatabase => .described .invalidConfig "Invalid database number" none
  | .badUsername => .described .invalidConfig "Username is not valid UTF-8 string" none
  | .badPassword => .described .invalidConfig "Password is not valid UTF-8 string" none
  | .badProtocol text => .described .invalidConfig "Invalid protocol version" (some text)

def defaultPort : Nat := 6379

/-- The database is what the path holds between its outer slashes. -/
def readDatabase (path : List (List Char)) : Except Fault Int :=
  let outer := fun (segments : List (List Char)) => segments.dropWhile List.isEmpty
  match (outer (outer path).reverse).reverse with
  | [] => .ok 0
  | [segment] =>
    match Number.readSigned? segment with
    | some n => .ok n
    | none => .error .badDatabase
  | _ => .error .badDatabase

/-- Decodes a user or a password; an empty one is none. -/
def readSecret (fault : Fault) (s : List Char) : Except Fault (Option String) :=
  if s.isEmpty then .ok none
  else
    match Text.Utf8.decode (Percent.decode s) with
    | .ok cs => .ok (some (String.ofList cs))
    | .error _ => .error fault

/-- Decodes a name or a value of a query, where a plus sign is a space. -/
def readQueryText (s : List Char) : String :=
  String.ofList (Text.Utf8.decodeLossy
    (Percent.decode (s.map fun c => if c = '+' then ' ' else c)))

def queryPairs (query : List Char) : List (String × String) :=
  ((query.splitOn '&').filter fun piece => !piece.isEmpty).map fun piece =>
    (readQueryText (piece.takeWhile (· != '=')),
      readQueryText ((piece.dropWhile (· != '=')).drop 1))

/-- The last protocol that a query names counts. -/
def readProtocol (query : List Char) : Except Fault Protocol :=
  match ((queryPairs query).filter fun p => p.1 = "protocol").getLast? with
  | none => .ok .two
  | some (_, text) =>
    if text = "2" || text = "resp2" then .ok .two
    else if text = "3" || text = "resp3" then .ok .three
    else .error (.badProtocol text)

def ofLocator (l : Locator) : Except Fault Endpoint := do
  if l.host.isEmpty then .error .noHost
  let database ← readDatabase l.path
  let username ← readSecret .badUsername l.username
  let password ← readSecret .badPassword l.password
  let protocol ← readProtocol l.query
  .ok ⟨l.host, l.port.getD defaultPort, database, username, password, protocol⟩

def parse (address : String) : Except Fault Endpoint :=
  match Locator.read? address.toList with
  | some l => ofLocator l
  | none => .error .unreadable

/-- A password that is not empty takes the place of the endpoint's own. -/
def withPassword (e : Endpoint) (password : String) : Endpoint :=
  if password.isEmpty then e else { e with password := some password }

def text (e : Endpoint) : String := e.host ++ ":" ++ toString e.port

end Endpoint

end SearchLoad
