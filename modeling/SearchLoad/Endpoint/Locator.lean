import SearchLoad.Endpoint.Ipv6
import SearchLoad.Endpoint.Percent
import SearchLoad.Number.Integer

namespace SearchLoad.Endpoint

/-- The parts of an address. The path is a list of the segments between slashes. -/
structure Locator where
  username : List Char
  password : List Char
  host : String
  port : Option Nat
  path : List (List Char)
  query : List Char
deriving DecidableEq, Repr

namespace Locator

def isControlOrSpace (c : Char) : Bool := c ≤ ' '

def isBreak (c : Char) : Bool := c = '\t' || c = '\n' || c = '\r'

/-- An address without what its readers pass over. -/
def clean (s : List Char) : List Char :=
  (s.reverse.dropWhile isControlOrSpace).reverse.filter fun c => !isBreak c

def endsAuthority (c : Char) : Bool := c = '/' || c = '?' || c = '#'

def splitLastAt (s : List Char) : Option (List Char × List Char) :=
  let back := (s.reverse.takeWhile (· != '@')).reverse
  match s.reverse.dropWhile (· != '@') with
  | [] => none
  | _ :: front => some (front.reverse, back)

/-- Splits before the colon that ends the host: the first one outside brackets. -/
def splitHost (inside : Bool) : List Char → List Char × List Char
  | [] => ([], [])
  | c :: s =>
    if c = ':' && !inside then ([], c :: s)
    else
      let inside := if c = '[' then true else if c = ']' then false else inside
      let (host, rest) := splitHost inside s
      (c :: host, rest)

def isForbidden (c : Char) : Bool := "\x00\t\n\r #/:<>?@[\\]^|".toList.contains c

/-- A host in brackets is an IPv6 address, any other one is kept as written. -/
def readHost? (s : List Char) : Option String :=
  match s with
  | '[' :: inner =>
    if inner.getLast? = some ']' then (Ipv6.read? inner.dropLast).map Ipv6.text else none
  | s => if s.any isForbidden then none else some (String.ofList (Percent.encodeControls s))

/-- The digits of a port, up to the end or a backslash. -/
def readPort? (s : List Char) : Option (Option Nat × List Char) :=
  let digits := s.takeWhile Number.isDigit
  let rest := s.dropWhile Number.isDigit
  if 65535 < Number.ofDigits digits then none
  else if rest.isEmpty || rest.head? = some '\\' then
    some (if digits.isEmpty then none else some (Number.ofDigits digits), rest)
  else none

/-- A letter and a colon or bar, which two dots do not leave behind. -/
def isDrive : List Char → Bool
  | [a, b] => a.isAlpha && (b = ':' || b = '|')
  | _ => false

def dots : List (List Char) := [".", "%2e", "%2E"].map String.toList

def isDot (segment : List Char) : Bool := dots.contains segment

def isDoubleDot (segment : List Char) : Bool :=
  dots.any fun a => dots.any fun b => segment = a ++ b

/-- Leaves the last segment behind, if it may be left. -/
def shorten (path : List (List Char)) : List (List Char) :=
  if (path.getLast?.map isDrive).getD false then path else path.dropLast

/-- Resolves the segments of dots: one stands for nothing, two for a step back. An address that
ends in one ends in a slash. -/
def resolve (path : List (List Char)) : List (List Char) → List (List Char)
  | [] => path
  | s :: rest =>
    let path :=
      if isDoubleDot s then
        if rest.isEmpty then shorten path ++ [[]] else shorten path
      else if isDot s then
        if rest.isEmpty then path ++ [[]] else path
      else path ++ [s]
    resolve path rest

def readPath (s : List Char) : List (List Char) :=
  match s with
  | [] => []
  | '/' :: s => resolve [] (s.splitOn '/')
  | s => resolve [] (s.splitOn '/')

/-- A host and a port, and what a backslash behind the port begins. An empty host takes neither a
port nor, where there was one, a user. -/
def readHostAndPort? (named : Bool) (s : List Char) :
    Option (String × Option Nat × List Char) := do
  let (host, rest) := splitHost false s
  let name ← readHost? host
  match rest with
  | [] => if host.isEmpty && named then none else some (name, none, [])
  | _ :: rest =>
    if host.isEmpty then none
    else
      let (port, rest) ← readPort? rest
      some (name, port, rest)

def splitUser (s : List Char) : List Char × List Char :=
  (s.takeWhile (· != ':'), (s.dropWhile (· != ':')).drop 1)

/-- Takes an address apart by the separators between its parts; nothing is decoded yet but the host.
-/
def read? (address : List Char) : Option Locator := do
  let s := clean address
  let authority := s.takeWhile fun c => !endsAuthority c
  let rest := s.dropWhile fun c => !endsAuthority c
  let beforeFragment := rest.takeWhile (· != '#')
  let path := beforeFragment.takeWhile (· != '?')
  let query := (beforeFragment.dropWhile (· != '?')).drop 1
  let (user, place) := (splitLastAt authority).getD ([], authority)
  if authority = ['@'] && !rest.isEmpty then none
  else
    let (username, password) := splitUser user
    let named := !username.isEmpty || !password.isEmpty
    let (host, port, tail) ← readHostAndPort? named place
    some ⟨username, password, host, port, readPath (tail ++ path), query⟩

end Locator

end SearchLoad.Endpoint
