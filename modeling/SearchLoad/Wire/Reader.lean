import SearchLoad.Number.Literal
import SearchLoad.Number.Integer
import SearchLoad.Text.Blank
import SearchLoad.Wire.Malformation
import SearchLoad.Wire.Reply

namespace SearchLoad.Wire

/-- Why no reply was read: the bytes that are left are not enough yet, or they are no reply. -/
inductive ReplyStop
  | incomplete (rest : Bytes)
  | malformed (m : Malformation)
deriving DecidableEq, Repr

/-- Adds what is missing around the place of the stop. -/
def ReplyStop.within (items : Nat) : ReplyStop → ReplyStop
  | incomplete rest => incomplete rest
  | malformed m => malformed (m.add (.missing items))

abbrev Reader (α : Type) := Bytes → Except ReplyStop (α × Bytes)

namespace Reader

def refuse {α : Type} (c : Complaint) : Reader α := fun s => .error (.malformed (.atNext s c))

/-- Takes something that has to be of a kind; if it is not, the complaint is about all of it. -/
def checked {α β : Type} (reader : Reader α) (check : α → Except Complaint β) : Reader β := fun s =>
  match reader s with
  | .error stop => .error stop
  | .ok (x, rest) =>
    match check x with
    | .ok y => .ok (y, rest)
    | .error c => .error (.malformed ⟨s, [c]⟩)

/-- Takes something and reads it as what is wanted; if it is not that, the complaint names
the kind. -/
def wanted {α β : Type} (reader : Reader α) (w : Wanted) (read? : α → Option β) : Reader β :=
  checked reader fun x =>
    match read? x with
    | some y => .ok y
    | none => .error (.mismatch w)

def splitLine : Bytes → Option (Bytes × Bytes)
  | [] => none
  | [_] => none
  | a :: b :: s =>
    if a = 13 && b = 10 then some ([], s)
    else (splitLine (b :: s)).map fun (line, rest) => (a :: line, rest)

def bytesOfLine : Reader Bytes := fun s =>
  match splitLine s with
  | none => .error (.incomplete s)
  | some x => .ok x

def textOf (bytes : Bytes) : Except Complaint (List Char) :=
  (Text.Utf8.decode bytes).mapError .notText

def line : Reader (List Char) := checked bytesOfLine textOf

def number : Reader Int := wanted line .integer fun s => Number.readSigned? (Text.trim s)

def lineEnd : Reader Unit
  | [] => .error (.incomplete [])
  | [13] => .error (.incomplete [13])
  | 13 :: 10 :: s => .ok ((), s)
  | 13 :: s => refuse .noLineFeed s
  | s => refuse .noLineEnd s

/-- Takes so many bytes and the end of a line behind them. A length below zero is never reached. -/
def chunk (length : Int) : Reader Bytes := fun s =>
  if length < 0 || s.length < length.toNat then .error (.incomplete s)
  else (lineEnd (s.drop length.toNat)).map fun ((), rest) => (s.take length.toNat, rest)

/-- Takes a length and so many bytes of text, where anything is put up with. -/
def blob : Reader (List Char) := fun s => do
  let (length, s) ← number s
  (chunk length s).map fun (bytes, s) => (Text.Utf8.decodeLossy bytes, s)

/-- Takes so many items. -/
def items {α : Type} (item : Reader α) : Nat → Reader (List α)
  | 0, s => .ok ([], s)
  | n + 1, s =>
    match item s with
    | .error stop => .error (stop.within (n + 1))
    | .ok (x, s) => (items item n s).map fun (xs, s) => (x :: xs, s)

def double : Reader Reply :=
  checked line fun s =>
    let s := Text.trim s
    if Number.isDecimal s then .ok (.double (String.ofList s))
    else .error (.mismatch (.double s.isEmpty))

def boolean : Reader Reply :=
  wanted line .boolean fun s =>
    match s with
    | ['t'] => some (.boolean true)
    | ['f'] => some (.boolean false)
    | _ => none

/-- The format of a verbatim string stands before its first colon. -/
def verbatim : Reader Reply :=
  wanted blob .verbatim fun s =>
    match s.dropWhile (· != ':') with
    | [] => none
    | _ :: text => some (.verbatim (String.ofList (s.takeWhile (· != ':'))) (String.ofList text))

/-- The first item of a push says of what kind it is. -/
def pushOf : List Reply → Except Complaint Reply
  | .bulk bytes :: items => (textOf bytes).map fun kind => .push (String.ofList kind) items
  | .simple kind :: items => .ok (.push kind items)
  | _ => .error (.mismatch .pushKind)

def maxDepth : Nat := 100

/-- Takes a reply in which others stand to a depth at most. -/
def replyTo : Nat → Reader Reply
  | _, [] => .error (.incomplete [])
  | 0, _ :: s => refuse .tooDeep s
  | depth + 1, mark :: s =>
    let inner := items (replyTo depth)
    match Char.ofNat mark.toNat with
    | '+' => (line s).map fun (text, s) =>
      (if text = ['O', 'K'] then .okay else .simple (String.ofList text), s)
    | '-' => (line s).map fun (text, s) => (.ofErrorLine text, s)
    | ':' => (number s).map fun (n, s) => (.int n, s)
    | '$' => do
      let (n, s) ← number s
      if n < 0 then .ok (.nil, s) else (chunk n s).map fun (bytes, s) => (.bulk bytes, s)
    | '*' => do
      let (n, s) ← number s
      if n < 0 then .ok (.nil, s) else (inner n.toNat s).map fun (rs, s) => (.array rs, s)
    | '~' => do
      let (n, s) ← number s
      if n < 0 then .ok (.nil, s) else (inner n.toNat s).map fun (rs, s) => (.set rs, s)
    | '%' => do
      let (n, s) ← number s
      if n < 0 then refuse .tooManyMembers s
      else (inner (2 * n.toNat) s).map fun (rs, s) => (.map rs, s)
    | '|' => do
      let (n, s) ← number s
      if n < 0 then refuse .tooManyAttributes s
      else (inner (2 * n.toNat + 1) s).map fun (rs, s) =>
        (.attributed (rs.getLastD .nil) rs.dropLast, s)
    | '>' => do
      let (n, s) ← number s
      if n ≤ 0 then .ok (.push "" [], s) else checked (inner n.toNat) pushOf s
    | '_' => (line s).map fun (_, s) => (.nil, s)
    | ',' => double s
    | '#' => boolean s
    | '!' => (blob s).map fun (text, s) => (.ofErrorLine text, s)
    | '=' => verbatim s
    | '(' => (wanted line .bigNumber Number.readWhole? s).map fun (n, s) => (.big n, s)
    | _ => refuse (.unexpected mark) s

def reply : Reader Reply := replyTo maxDepth

end Reader

end SearchLoad.Wire
