import SearchLoad.Number.Integer
import SearchLoad.Span.Basic
import SearchLoad.Span.Unit
import SearchLoad.Text.Blank
import SearchLoad.Text.Utf8

namespace SearchLoad.Span

/-- Why a text is no span. Positions are byte offsets. -/
inductive Fault
  | empty
  | expectedNumber (offset : Nat)
  | invalidCharacter (offset : Nat)
  | overflow
  | unitNeeded (number : Nat)
  | unknownUnit (name : String)
  | carryOverflow
deriving DecidableEq, Repr

def Fault.message : Fault → String
  | .empty => "value was empty"
  | .expectedNumber offset => "expected number at " ++ toString offset
  | .invalidCharacter offset => "invalid character at " ++ toString offset
  | .overflow => "number is too large or cannot be represented without a lack of precision " ++
      "(values below 1ns are not supported)"
  | .unitNeeded n =>
    "time unit needed, for example " ++ toString n ++ "sec or " ++ toString n ++ "ms"
  | .unknownUnit name => "unknown time unit \"" ++ name ++ "\", supported units: " ++
      "ns, us/µs, ms, sec, min, hours, days, weeks, months, years (and few variations)"
  | .carryOverflow => "overflow in Duration::new"

/-- Why reading stopped, with the text that was left where a position is told. -/
inductive Stop
  | expectedNumber (rest : List Char)
  | invalidCharacter (rest : List Char)
  | fault (f : Fault)

def Stop.locate (text : List Char) : Stop → Fault
  | .expectedNumber rest => .expectedNumber (Text.Utf8.size text - Text.Utf8.size rest)
  | .invalidCharacter rest => .invalidCharacter (Text.Utf8.size text - Text.Utf8.size rest)
  | .fault f => f

structure Fraction where
  numerator : Nat
  denominator : Nat
deriving DecidableEq, Repr

structure Item where
  count : Nat
  fraction : Option Fraction
  timeUnit : TimeUnit
deriving DecidableEq, Repr

def fit (n : Nat) : Except Stop Nat :=
  if n ≤ Number.maxUnsigned then .ok n else .error (.fault .overflow)

def isUnitLetter (c : Char) : Bool :=
  ('a' ≤ c && c ≤ 'z') || ('A' ≤ c && c ≤ 'Z') || c = 'µ'

/-- Takes the digits behind a point, up to a letter. A stop points behind the last character that
was taken, and at the point if there is none. -/
def readFraction (f : Fraction) (place : List Char) :
    List Char → Except Stop (Fraction × List Char)
  | [] => if f.denominator = 1 then .error (.invalidCharacter place) else .ok (f, [])
  | c :: s =>
    if Number.isDigit c then do
      let denominator ← fit (f.denominator * 10)
      let numerator ← fit (f.numerator * 10 + Number.digitValue c)
      readFraction ⟨numerator, denominator⟩ s s
    else if Text.isBlank c then readFraction f s s
    else if isUnitLetter c then
      if f.denominator = 1 then .error (.invalidCharacter place) else .ok (f, c :: s)
    else .error (.invalidCharacter place)

structure Amount where
  count : Nat
  fraction : Option Fraction

/-- Takes a number whose first digits are known, up to its unit. -/
def readAmount (n : Nat) : List Char → Except Stop (Amount × List Char)
  | [] => .ok (⟨n, none⟩, [])
  | c :: s =>
    if Number.isDigit c then do
      let n ← fit (n * 10 + Number.digitValue c)
      readAmount n s
    else if Text.isBlank c then readAmount n s
    else if isUnitLetter c then .ok (⟨n, none⟩, c :: s)
    else if c = '.' then do
      let (f, s) ← readFraction ⟨0, 1⟩ (c :: s) s
      .ok (⟨n, some f⟩, s)
    else .error (.invalidCharacter (c :: s))

def findUnit (n : Nat) (name : String) : Except Stop TimeUnit :=
  match TimeUnit.ofName? name with
  | some u => .ok u
  | none => .error (.fault (if name.isEmpty then .unitNeeded n else .unknownUnit name))

/-- Takes an item whose first digits are known. A unit ends at a blank, a digit or the end. -/
def readItem (n : Nat) (s : List Char) : Except Stop (Item × List Char) := do
  let (amount, s) ← readAmount n s
  let rest := s.dropWhile isUnitLetter
  if rest.head?.any fun c => !Number.isDigit c && !Text.isBlank c then
    .error (.invalidCharacter rest)
  let u ← findUnit amount.count (String.ofList (s.takeWhile isUnitLetter))
  .ok (⟨amount.count, amount.fraction, u⟩, rest)

/-- Takes the first digit of an item; nothing at the end. -/
def readFirst (s : List Char) : Except Stop (Option (Nat × List Char)) :=
  match s.dropWhile Text.isBlank with
  | [] => .ok none
  | c :: rest =>
    if Number.isDigit c then .ok (some (Number.digitValue c, rest))
    else .error (.expectedNumber s)

/-- Takes the first digit of the next item, which may follow its predecessor at once. -/
def readNext : List Char → Except Stop (Option (Nat × List Char))
  | [] => .ok none
  | c :: s =>
    if Number.isDigit c then .ok (some (Number.digitValue c, s)) else readFirst s

/-- Adds seconds or nanoseconds of 64 bits each. One second exactly is carried only after the
seconds were found to fit. -/
def addLength (sum : Span) : TimeUnit.Length → Except Stop Span
  | .seconds n =>
    match ofNanos? (sum.nanos + nanosPerSecond * n) with
    | some sum => .ok sum
    | none => .error (.fault .overflow)
  | .nanos n => do
    let part ← fit (sum.subNanos + n)
    match ofNanos? (sum.nanos + n) with
    | some sum => .ok sum
    | none =>
      if part = nanosPerSecond then .error (.fault .carryOverflow)
      else .error (.fault .overflow)

def scaleLength (n : Nat) : TimeUnit.Length → Except Stop TimeUnit.Length
  | .nanos k => (fit (n * k)).map .nanos
  | .seconds k => (fit (n * k)).map .seconds

/-- A fraction of a unit that comes out even. -/
def divideLength (denominator : Nat) : TimeUnit.Length → Except Stop TimeUnit.Length
  | .nanos n =>
    if n % denominator = 0 then .ok (.nanos (n / denominator)) else .error (.fault .overflow)
  | .seconds n =>
    if n % denominator = 0 then .ok (.seconds (n / denominator)) else .error (.fault .overflow)

def addFraction (sum : Span) (u : TimeUnit) (f : Fraction) : Except Stop Span :=
  match u.fractionLength with
  | none => .error (.fault .overflow)
  | some k => do
    let whole ← scaleLength f.numerator k
    let part ← divideLength f.denominator whole
    addLength sum part

/-- Adds the whole units of an item, then its fraction. -/
def addItem (sum : Span) (item : Item) : Except Stop Span := do
  let whole ← scaleLength item.count item.timeUnit.length
  let sum ← addLength sum whole
  match item.fraction with
  | none => .ok sum
  | some f => addFraction sum item.timeUnit f

/-- Adds the items of a text, the first digit of which is known; there are fewer than `fuel`. -/
def addItems : Nat → Span → Nat → List Char → Except Stop Span
  | 0, sum, _, _ => .ok sum
  | fuel + 1, sum, n, s => do
    let (item, s) ← readItem n s
    let sum ← addItem sum item
    match ← readNext s with
    | none => .ok sum
    | some (n, s) => addItems fuel sum n s

/-- Reads a text whose ends are not blank. Zero may stand without a unit. -/
def read (text : List Char) : Except Fault Span :=
  if text = ['0'] then .ok zero
  else
    let result : Except Stop Span := do
      match ← readFirst text with
      | none => .error (.fault .empty)
      | some (n, s) => addItems (s.length + 1) zero n s
    result.mapError (Stop.locate text)

def parse (text : String) : Except Fault Span := read text.toList

end SearchLoad.Span
