namespace SearchLoad.Number

def maxUnsigned : Nat := 18446744073709551615

def isDigit (c : Char) : Bool := '0' ≤ c && c ≤ '9'

def digitValue (c : Char) : Nat := c.toNat - '0'.toNat

def ofDigits (s : List Char) : Nat := s.foldl (fun n c => n * 10 + digitValue c) 0

inductive UnsignedFault
  | empty
  | invalidDigit
  | overflow
deriving DecidableEq, Repr

def UnsignedFault.message : UnsignedFault → String
  | .empty => "cannot parse integer from empty string"
  | .invalidDigit => "invalid digit found in string"
  | .overflow => "number too large to fit in target type"

/-- Takes the digits from the left, so that of two faults the first one counts. -/
def readDigits (n : Nat) : List Char → Except UnsignedFault Nat
  | [] => .ok n
  | c :: s =>
    if !isDigit c then .error .invalidDigit
    else if maxUnsigned < n * 10 + digitValue c then .error .overflow
    else readDigits (n * 10 + digitValue c) s

def readUnsigned : List Char → Except UnsignedFault Nat
  | [] => .error .empty
  | ['+'] => .error .invalidDigit
  | '+' :: s => readDigits 0 s
  | s => readDigits 0 s

def minSignedMagnitude : Nat := 9223372036854775808

/-- The number that ASCII digits write, if there are any and it is below a limit. -/
def digitsBelow? (limit : Nat) (s : List Char) : Option Nat :=
  if s.isEmpty || !s.all isDigit || limit ≤ ofDigits s then none else some (ofDigits s)

def readSigned? : List Char → Option Int
  | '-' :: s => (digitsBelow? (minSignedMagnitude + 1) s).map fun n => -(n : Int)
  | '+' :: s => (digitsBelow? minSignedMagnitude s).map fun n => (n : Int)
  | s => (digitsBelow? minSignedMagnitude s).map fun n => (n : Int)

end SearchLoad.Number
