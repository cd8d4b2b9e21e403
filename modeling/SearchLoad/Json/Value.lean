import SearchLoad.Json.Scan

namespace SearchLoad.Json

/-- The members of an object stand in the order of the text, repeated keys included. -/
inductive Value
  | null
  | boolean (b : Bool)
  | number (n : Number)
  | string (s : String)
  | array (items : List Value)
  | object (members : List (String × Value))

def Value.shape : Value → Shape
  | null => .null
  | boolean b => .boolean b
  | number n => .number n
  | string s => .string s
  | array _ => .sequence
  | object _ => .map

/-- The value that a key has in the end: its last one. -/
def lookupLast {α : Type} (key : String) (members : List (String × α)) : Option α :=
  members.foldl (fun found m => if m.1 = key then some m.2 else found) none

/-- What stands before an item: the closing bracket, or nothing more. -/
inductive Turn
  | close
  | item

/-- Takes the comma before an element, or the bracket that ends the array. -/
def readElementTurn (first : Bool) : Reader Turn := fun s =>
  match skipSpace s with
  | [] => .error (.before .endInList [])
  | ']' :: s => .ok (.close, s)
  | c :: s =>
    if first then .ok (.item, c :: s)
    else if c = ',' then
      match skipSpace s with
      | [] => .error (.before .endInValue [])
      | ']' :: s => .error (.onNext .trailingComma (']' :: s))
      | s => .ok (.item, s)
    else .error (.onNext .expectedListEnd (c :: s))

/-- Takes what stands before a key and its opening quote, or the brace that ends the object. -/
def readMemberTurn (first : Bool) : Reader Turn := fun s =>
  match skipSpace s with
  | [] => .error (.before .endInObject [])
  | '\x7d' :: s => .ok (.close, s)
  | c :: s =>
    if first then
      if c = '"' then .ok (.item, s) else .error (.onNext .keyNotString (c :: s))
    else if c = ',' then
      match skipSpace s with
      | [] => .error (.before .endInValue [])
      | '"' :: s => .ok (.item, s)
      | '\x7d' :: s => .error (.onNext .trailingComma ('\x7d' :: s))
      | s => .error (.onNext .keyNotString s)
    else .error (.onNext .expectedObjectEnd (c :: s))

def readColon (s : List Char) : Except Stop (List Char) :=
  match skipSpace s with
  | [] => .error (.before .endInObject [])
  | ':' :: s => .ok s
  | s => .error (.onNext .expectedColon s)

/-- Takes the elements of an array behind its bracket; there are fewer of them than `fuel`. -/
def readElements {α : Type} (item : Reader α) : Nat → Bool → Reader (List α)
  | 0, _, s => .error (.before .endInList s)
  | fuel + 1, first, s => do
    match ← readElementTurn first s with
    | (.close, s) => .ok ([], s)
    | (.item, s) =>
      let (x, s) ← item s
      let (xs, s) ← readElements item fuel false s
      .ok (x :: xs, s)

/-- Takes the members of an object behind its brace; there are fewer of them than `fuel`. -/
def readMembers {α : Type} (item : Reader α) : Nat → Bool → Reader (List (String × α))
  | 0, _, s => .error (.before .endInObject s)
  | fuel + 1, first, s => do
    match ← readMemberTurn first s with
    | (.close, s) => .ok ([], s)
    | (.item, s) =>
      let (key, s) ← readString s
      let s ← readColon s
      let (x, s) ← item s
      let (xs, s) ← readMembers item fuel false s
      .ok ((key, x) :: xs, s)

/-- Takes a value with at most so many brackets open at a time. -/
def readValue (depth : Nat) : Reader Value := fun s =>
  match skipSpace s with
  | [] => .error (.before .endInValue [])
  | 'n' :: s => (readWord ['u', 'l', 'l'] s).map (.null, ·)
  | 't' :: s => (readWord ['r', 'u', 'e'] s).map (.boolean true, ·)
  | 'f' :: s => (readWord ['a', 'l', 's', 'e'] s).map (.boolean false, ·)
  | '"' :: s => (readString s).map fun (x, s) => (.string x, s)
  | '-' :: s => (readUnsigned true s).map fun (x, s) => (.number x, s)
  | '[' :: s =>
    match depth with
    | 0 => .error (.onNext .recursionLimit ('[' :: s))
    | d + 1 => (readElements (readValue d) (s.length + 1) true s).map fun (x, s) => (.array x, s)
  | '\x7b' :: s =>
    match depth with
    | 0 => .error (.onNext .recursionLimit ('\x7b' :: s))
    | d + 1 => (readMembers (readValue d) (s.length + 1) true s).map fun (x, s) => (.object x, s)
  | c :: s =>
    if Number.isDigit c then (readUnsigned false (c :: s)).map fun (x, s) => (.number x, s)
    else .error (.onNext .expectedValue (c :: s))

def maxDepth : Nat := 127

/-- Stops at a value that has not the shape it should have: behind a scalar, before a bracket, or
at the fault of the value itself. -/
def mismatch {α : Type} (expected : Expected) : Reader α := fun s =>
  match skipSpace s with
  | '[' :: s => .error (.before (.mismatch .sequence expected) ('[' :: s))
  | '\x7b' :: s => .error (.before (.mismatch .map expected) ('\x7b' :: s))
  | s => do
    let (v, s) ← readValue 0 s
    .error (.before (.mismatch v.shape expected) s)

def readStringValue : Reader String := fun s =>
  match skipSpace s with
  | '"' :: s => readString s
  | s => mismatch .string s

def readObject {α : Type} (item : Reader α) : Reader (List (String × α)) := fun s =>
  match skipSpace s with
  | '\x7b' :: s => readMembers item (s.length + 1) true s
  | s => mismatch .map s

def parse {α : Type} (read : Reader α) (text : String) : Except Fault α :=
  let s := text.toList
  let result : Except Stop α := do
    let (x, rest) ← read s
    match skipSpace rest with
    | [] => .ok x
    | rest => .error (.onNext .trailingCharacters rest)
  result.mapError (Stop.locate s)

def parseObject (text : String) : Except Fault (List (String × Value)) :=
  parse (readObject (readValue (maxDepth - 1))) text

def parseStrings (text : String) : Except Fault (List (String × String)) :=
  parse (readObject readStringValue) text

end SearchLoad.Json
