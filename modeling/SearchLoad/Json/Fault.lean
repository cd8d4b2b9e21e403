import SearchLoad.Json.Number
import SearchLoad.Text.Quoted
import SearchLoad.Text.Utf8

namespace SearchLoad.Json

inductive Shape
  | null
  | boolean (b : Bool)
  | number (n : Number)
  | string (s : String)
  | sequence
  | map
deriving DecidableEq, Repr

def Shape.text : Shape → String
  | .null => "null"
  | .boolean b => "boolean `" ++ toString b ++ "`"
  | .number (.integer n) => "integer `" ++ (Number.integer n).text ++ "`"
  | .number n => "floating point `" ++ n.text ++ "`"
  | .string s => "string " ++ Text.quote s
  | .sequence => "sequence"
  | .map => "map"

inductive Expected
  | map
  | string
deriving DecidableEq, Repr

def Expected.text : Expected → String
  | .map => "a map"
  | .string => "a string"

/-- A value of another shape than the reader wants. -/
def mismatchText (found : Shape) (expected : Expected) : String :=
  "invalid type: " ++ found.text ++ ", expected " ++ expected.text

inductive Cause
  | endInValue
  | endInString
  | endInObject
  | endInList
  | expectedValue
  | expectedIdent
  | expectedColon
  | expectedObjectEnd
  | expectedListEnd
  | keyNotString
  | trailingComma
  | trailingCharacters
  | invalidNumber
  | numberOutOfRange
  | invalidEscape
  | controlCharacter
  | loneSurrogate
  | unfinishedSurrogate
  | recursionLimit
  | mismatch (found : Shape) (expected : Expected)
deriving DecidableEq, Repr

def Cause.message : Cause → String
  | .endInValue => "EOF while parsing a value"
  | .endInString => "EOF while parsing a string"
  | .endInObject => "EOF while parsing an object"
  | .endInList => "EOF while parsing a list"
  | .expectedValue => "expected value"
  | .expectedIdent => "expected ident"
  | .expectedColon => "expected `:`"
  | .expectedObjectEnd => "expected `,` or `\x7d`"
  | .expectedListEnd => "expected `,` or `]`"
  | .keyNotString => "key must be a string"
  | .trailingComma => "trailing comma"
  | .trailingCharacters => "trailing characters"
  | .invalidNumber => "invalid number"
  | .numberOutOfRange => "number out of range"
  | .invalidEscape => "invalid escape"
  | .controlCharacter => "control character (\\u0000-\\u001F) found while parsing a string"
  | .loneSurrogate => "lone leading surrogate in hex escape"
  | .unfinishedSurrogate => "unexpected end of hex escape"
  | .recursionLimit => "recursion limit exceeded"
  | .mismatch found expected => mismatchText found expected

/-- Where a reader stopped: the text that is left, and how many bytes of it were looked at. -/
structure Stop where
  cause : Cause
  rest : List Char
  past : Nat
deriving DecidableEq, Repr

def Stop.before (cause : Cause) (rest : List Char) : Stop := ⟨cause, rest, 0⟩

/-- Stops behind the first byte of what is left. -/
def Stop.onNext (cause : Cause) (rest : List Char) : Stop := ⟨cause, rest, 1⟩

/-- Lines count from one; the column is the number of bytes since the line began. -/
structure Position where
  line : Nat
  column : Nat
deriving DecidableEq, Repr

def Position.after (bytes : List UInt8) : Position :=
  bytes.foldl (fun p b => if b = 10 then ⟨p.line + 1, 0⟩ else ⟨p.line, p.column + 1⟩) ⟨1, 0⟩

structure Fault where
  cause : Cause
  position : Position
deriving DecidableEq, Repr

def Fault.message (f : Fault) : String :=
  f.cause.message ++ " at line " ++ toString f.position.line ++
    " column " ++ toString f.position.column

def Stop.locate (text : List Char) (stop : Stop) : Fault :=
  let consumed := Text.Utf8.size text - Text.Utf8.size stop.rest
  ⟨stop.cause, Position.after ((Text.Utf8.encode text).take (consumed + stop.past))⟩

end SearchLoad.Json
