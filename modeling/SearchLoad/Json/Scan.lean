import SearchLoad.Json.Fault

namespace SearchLoad.Json

/-- Takes something from the front of a text. -/
abbrev Reader (α : Type) := List Char → Except Stop (α × List Char)

def isSpace (c : Char) : Bool := c = ' ' || c = '\t' || c = '\n' || c = '\r'

def skipSpace (s : List Char) : List Char := s.dropWhile isSpace

def readWord : List Char → List Char → Except Stop (List Char)
  | [], s => .ok s
  | _ :: _, [] => .error (.before .endInValue [])
  | e :: es, c :: s => if c = e then readWord es s else .error (.onNext .expectedIdent (c :: s))

def readDigits : Reader (List Char) := fun s =>
  match s with
  | [] => .error (.before .endInValue [])
  | c :: _ =>
    if Number.isDigit c then .ok (s.takeWhile Number.isDigit, s.dropWhile Number.isDigit)
    else .error (.onNext .invalidNumber s)

/-- Takes the digits before the point: no zero stands before another digit. -/
def readWhole : Reader (List Char) := fun s => do
  match ← readDigits s with
  | ('0' :: d :: ds, rest) => .error (.onNext .invalidNumber (d :: ds ++ rest))
  | r => .ok r

/-- Takes a point and the digits behind it, if there is a point. -/
def readFraction : Reader (Option (List Char)) := fun s =>
  match s with
  | '.' :: s => do
    let (ds, s) ← readDigits s
    .ok (some ds, s)
  | s => .ok (none, s)

structure Exponent where
  negative : Bool
  digits : List Char

def Exponent.value (e : Exponent) : Int :=
  let n : Int := Number.ofDigits e.digits
  if e.negative then -n else n

/-- Takes an exponent, if there is one. -/
def readExponent : Reader (Option Exponent) := fun s =>
  let digits := fun (negative : Bool) (s : List Char) => do
    let (ds, s) ← readDigits s
    .ok (some ⟨negative, ds⟩, s)
  match s with
  | 'e' :: '-' :: s | 'E' :: '-' :: s => digits true s
  | 'e' :: '+' :: s | 'E' :: '+' :: s => digits false s
  | 'e' :: s | 'E' :: s => digits false s
  | s => .ok (none, s)

/-- The digits of an exponent behind the first that takes it beyond 31 bits. -/
def beyond31Bits (n : Nat) : List Char → Option (List Char)
  | [] => none
  | c :: s =>
    let m := n * 10 + Number.digitValue c
    if 2147483648 ≤ m then some s else beyond31Bits m s

/-- Whether digits are zero as far as they fit 64 bits. -/
def isZero (whole fraction : List Char) : Bool :=
  (whole ++ fraction).all (· = '0')

def readUnsigned (negative : Bool) : Reader Number := fun s => do
  let (whole, s) ← readWhole s
  let (fraction, s) ← readFraction s
  let (exponent, s) ← readExponent s
  let found : Option Number ×  List Char :=
    match fraction, exponent with
    | none, none => (Number.ofWhole? negative whole, s)
    | fraction, none => (Number.ofParts? negative whole (fraction.getD []) 0, s)
    | fraction, some e =>
      let fraction := fraction.getD []
      match beyond31Bits 0 e.digits with
      | none => (Number.ofParts? negative whole fraction e.value, s)
      | some left =>
        if e.negative || isZero whole fraction then (some (.float negative 0), s)
        else (none, left ++ s)
  match found with
  | (some n, s) => .ok (n, s)
  | (none, s) => .error (.before .numberOutOfRange s)

def hexValue? (c : Char) : Option Nat :=
  if '0' ≤ c && c ≤ '9' then some (c.toNat - '0'.toNat)
  else if 'a' ≤ c && c ≤ 'f' then some (c.toNat - 'a'.toNat + 10)
  else if 'A' ≤ c && c ≤ 'F' then some (c.toNat - 'A'.toNat + 10)
  else none

def hexNumber? (ds : List Char) : Option Nat :=
  ds.foldlM (fun n c => (hexValue? c).map (n * 16 + ·)) 0

/-- Takes four hexadecimal digits; what takes their place is four bytes long. -/
def readHex : Reader Nat := fun s =>
  match s with
  | a :: b :: c :: d :: rest =>
    match hexNumber? [a, b, c, d] with
    | some n => .ok (n, rest)
    | none => .error ⟨.invalidEscape, s, 4⟩
  | s =>
    if 4 ≤ Text.Utf8.size s then .error ⟨.invalidEscape, s, 4⟩
    else .error (.before .endInString [])

def isLeading (n : Nat) : Bool := 0xD800 ≤ n && n ≤ 0xDBFF

def isTrailing (n : Nat) : Bool := 0xDC00 ≤ n && n ≤ 0xDFFF

/-- Takes the escape of the second half of a pair. -/
def readTrailing (leading : Nat) : Reader Char := fun s =>
  match s with
  | '\\' :: 'u' :: s => do
    let (n, s) ← readHex s
    if isTrailing n then
      .ok (Char.ofNat ((leading - 0xD800) * 0x400 + (n - 0xDC00) + 0x10000), s)
    else .error (.before .loneSurrogate s)
  | ['\\'] | [] => .error (.before .endInString [])
  | '\\' :: s => .error (.onNext .unfinishedSurrogate s)
  | s => .error (.onNext .unfinishedSurrogate s)

/-- Takes the digits of an escape, and a second escape where the first is half of a pair. -/
def readCodePoint : Reader Char := fun s => do
  let (n, s) ← readHex s
  if isTrailing n then .error (.before .loneSurrogate s)
  else if isLeading n then readTrailing n s
  else .ok (Char.ofNat n, s)

def plainEscape? : Char → Option Char
  | '"' => some '"'
  | '\\' => some '\\'
  | '/' => some '/'
  | 'b' => some '\x08'
  | 'f' => some '\x0c'
  | 'n' => some '\n'
  | 'r' => some '\r'
  | 't' => some '\t'
  | _ => none

def readEscape : Reader Char := fun s =>
  match s with
  | [] => .error (.before .endInString [])
  | 'u' :: s => readCodePoint s
  | c :: rest =>
    match plainEscape? c with
    | some d => .ok (d, rest)
    | none => .error (.onNext .invalidEscape s)

/-- Takes a character of a string, or the quote that ends it. -/
def readCharacter : Reader (Option Char) := fun s =>
  match s with
  | [] => .error (.before .endInString [])
  | '"' :: rest => .ok (none, rest)
  | '\\' :: rest => do
    let (c, rest) ← readEscape rest
    .ok (some c, rest)
  | c :: rest =>
    if c < ' ' then .error (.onNext .controlCharacter s) else .ok (some c, rest)

/-- Takes the characters up to the closing quote; there are fewer of them than `fuel`. -/
def readCharacters (read : List Char) : Nat → Reader (List Char)
  | 0, s => .error (.before .endInString s)
  | fuel + 1, s => do
    match ← readCharacter s with
    | (none, s) => .ok (read.reverse, s)
    | (some c, s) => readCharacters (c :: read) fuel s

def readString : Reader String := fun s => do
  let (cs, s) ← readCharacters [] (s.length + 1) s
  .ok (String.ofList cs, s)

end SearchLoad.Json
