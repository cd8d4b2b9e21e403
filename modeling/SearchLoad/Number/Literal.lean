import SearchLoad.Number.Integer

namespace SearchLoad.Number

/-- A number without its sign. A second plus sign is no sign. -/
def readMagnitude? (s : List Char) : Option Nat :=
  let digits :=
    match s with
    | '+' :: '+' :: _ => s
    | '+' :: t => t
    | _ => s
  match digits with
  | [] => none
  | '_' :: _ => none
  | _ =>
    if digits.all fun c => isDigit c || c = '_' then
      some (ofDigits (digits.filter (· != '_')))
    else none

def readWhole? : List Char → Option Int
  | '-' :: '+' :: _ => none
  | '-' :: s => (readMagnitude? s).map fun n => -(n : Int)
  | s => (readMagnitude? s).map fun n => (n : Int)

def dropSign : List Char → List Char
  | '-' :: s => s
  | '+' :: s => s
  | s => s

def isSpecialName (s : List Char) : Bool :=
  String.ofList (s.map Char.toLower) ∈ ["inf", "infinity", "nan"]

/-- Whether a text is empty or an exponent. -/
def isExponent : List Char → Bool
  | [] => true
  | c :: s =>
    let digits := dropSign s
    c.toLower = 'e' && !digits.isEmpty && digits.all isDigit

/-- Whether a text is a decimal number: digits, which a point may stand among, and an exponent. -/
def isDecimal (s : List Char) : Bool :=
  let s := dropSign s
  let whole := s.takeWhile isDigit
  let (fraction, tail) :=
    match s.dropWhile isDigit with
    | '.' :: t => (t.takeWhile isDigit, t.dropWhile isDigit)
    | t => ([], t)
  isSpecialName s || (!(whole ++ fraction).isEmpty && isExponent tail)

example : readWhole? "-1_000".toList = some (-1000) := by decide +kernel

example : isDecimal "-1.5e+3".toList && isDecimal "Infinity".toList && !isDecimal ".".toList := by
  decide +kernel

end SearchLoad.Number
