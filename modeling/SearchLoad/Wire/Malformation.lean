import SearchLoad.Text.Utf8
import SearchLoad.Wire.Failure
import SearchLoad.Command

namespace SearchLoad.Wire

inductive Wanted
  | integer
  | boolean
  | bigNumber
  | double (empty : Bool)
  | verbatim
  | pushKind
deriving DecidableEq, Repr

def Wanted.message : Wanted → String
  | integer => "Expected integer, got garbage"
  | boolean => "Expected boolean, got garbage"
  | bigNumber => "Expected bigint, got garbage"
  | double true => "cannot parse float from empty string"
  | double false => "invalid float literal"
  | verbatim => "parse error when decoding verbatim string"
  | pushKind => "parse error when decoding push"

inductive Complaint
  | unexpected (b : UInt8)
  | tooDeep
  | tooManyMembers
  | tooManyAttributes
  | noLineEnd
  | noLineFeed
  | notText (fault : Text.Utf8.Fault)
  | mismatch (wanted : Wanted)
  | missing (items : Nat)
deriving DecidableEq, Repr

namespace Complaint

/-- Complaints are told in three groups: what was not expected, what was, and all else. -/
def group : Complaint → Nat
  | unexpected _ | tooDeep | tooManyMembers | tooManyAttributes => 0
  | noLineEnd | noLineFeed => 1
  | notText _ | mismatch _ | missing _ => 2

def message : Complaint → String
  | unexpected b => "Unexpected `" ++ toString b.toNat ++ "`"
  | tooDeep => "Unexpected Maximum recursion depth exceeded"
  | tooManyMembers => "Unexpected Key-value length is too large"
  | tooManyAttributes => "Unexpected Attribute key-value length is too large"
  | noLineEnd => "Expected crlf newline"
  | noLineFeed => "Expected lf newline"
  | notText f => f.message
  | mismatch wanted => wanted.message
  | missing items => "expected " ++ toString items ++ " more elements"

end Complaint

/-- The complaints about the bytes that are left, each once. -/
structure Malformation where
  rest : Bytes
  complaints : List Complaint
deriving DecidableEq, Repr

namespace Malformation

def add (c : Complaint) (m : Malformation) : Malformation :=
  if c ∈ m.complaints then m else { m with complaints := m.complaints ++ [c] }

/-- A complaint about the next byte, which was not expected whatever it is. -/
def atNext (rest : Bytes) (c : Complaint) : Malformation :=
  (Malformation.mk rest ((rest.take 1).map .unexpected)).add c

/-- What is wrong, with its place counted from so many bytes before the end. -/
def message (counted : Nat) (m : Malformation) : String :=
  let lines := (List.range 3).flatMap fun g => m.complaints.filter fun c => c.group = g
  "Parse error at " ++ toString (counted - m.rest.length) ++ "\n" ++
    String.join (lines.map fun c => c.message ++ "\n")

def failure (counted : Nat) (m : Malformation) : Failure :=
  .described .parse "parse error" (some (m.message counted))

end Malformation

end SearchLoad.Wire
