namespace SearchLoad.Text

/-- Where a reader of terminal text is: in plain text, after an escape character, behind the
intermediate characters of an escape sequence, or in a control sequence; in one of the three parts
of a device string's header, in a string that is meant for the terminal, or in a command to it,
which a bell may end. -/
inductive TerminalMode
  | text
  | escape
  | intermediate
  | control
  | device
  | deviceParameters
  | deviceIntermediate
  | message
  | command
deriving DecidableEq, Repr

namespace TerminalMode

def isLayout (c : Char) : Bool :=
  c = ' ' || c = '\t' || c = '\n' || c = '\x0c' || c = '\r'

def isControl (c : Char) : Bool := c.toNat < 32 || c.toNat = 127

inductive Steering
  | intermediate
  | parameter
  | final
deriving DecidableEq, Repr

def Steering.of? (c : Char) : Option Steering :=
  let n := c.toNat
  if n < 0x20 then none
  else if n < 0x30 then some .intermediate
  else if n < 0x40 then some .parameter
  else if n < 0x7F then some .final
  else none

def afterEscape (c : Char) : TerminalMode :=
  if c = '[' then control
  else if c = ']' then command
  else if c = 'P' then device
  else if c = 'X' || c = '^' || c = '_' then message
  else text

/-- Whether one of the bytes of a character is the one that ends strings. -/
def holdsTerminator (c : Char) : Bool := 0x9C ∈ String.utf8EncodeChar c

/-- The mode after a character that is neither plain text nor the end of all sequences. -/
def next (mode : TerminalMode) (c : Char) : TerminalMode :=
  match mode, Steering.of? c with
  | escape, some .intermediate => intermediate
  | escape, some _ => afterEscape c
  | intermediate, some .parameter | intermediate, some .final => text
  | control, some .final => text
  | device, some .intermediate | deviceParameters, some .intermediate => deviceIntermediate
  | device, some .parameter => deviceParameters
  | deviceParameters, some .parameter => if ';' < c then message else deviceParameters
  | deviceIntermediate, some .parameter => message
  | device, some .final | deviceParameters, some .final | deviceIntermediate, some .final => message
  | message, none => if holdsTerminator c then text else message
  | command, none => if c = '\x07' then text else command
  | mode, _ => mode

/-- Whether a character is plain text. White space is, within a sequence too unless that is a
string; other characters are outside sequences only. -/
def keeps (mode : TerminalMode) (c : Char) : Bool :=
  match mode with
  | text => isLayout c || !isControl c
  | escape | intermediate | control => isLayout c && c != ' '
  | _ => false

end TerminalMode

/-- A reader of terminal text: its mode, and the mode of a sequence that white space has
interrupted. -/
structure TerminalReader where
  mode : TerminalMode
  interrupted : TerminalMode
deriving DecidableEq, Repr

namespace TerminalReader

def start : TerminalReader := ⟨.text, .text⟩

/-- The reader after a character, and whether that is plain text. A sequence that white space has
interrupted may go on at the next control character. -/
def step (resumes : Bool) (r : TerminalReader) (c : Char) : TerminalReader × Bool :=
  if c = '\x1b' then (⟨.escape, .text⟩, false)
  else if c = '\x18' || c = '\x1a' then (start, false)
  else if r.mode.keeps c then
    if r.mode = .text then (if c.toNat < 128 then r else start, true)
    else (⟨.text, if resumes then r.mode else .text⟩, true)
  else if r.mode = .text then (⟨r.interrupted, .text⟩, false)
  else (⟨r.mode.next c, .text⟩, false)

end TerminalReader

def plainChars (resumes : Bool) : TerminalReader → List Char → List Char
  | _, [] => []
  | r, c :: cs =>
    let (r, keep) := r.step resumes c
    if keep then c :: plainChars resumes r cs else plainChars resumes r cs

/-- The plain text of a text for a terminal, without escape sequences and without control characters
other than white space. White space ends a sequence that it stands in, or only interrupts it. -/
def plain (resumes : Bool) (s : String) : String :=
  String.ofList (plainChars resumes .start s.toList)

end SearchLoad.Text
