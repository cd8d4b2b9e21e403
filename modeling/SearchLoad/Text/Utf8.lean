namespace SearchLoad.Text.Utf8

/-- Where bytes stop being UTF-8: the first byte of the offending sequence and the number of bytes
in it, or no number when the bytes end inside a sequence. -/
structure Fault where
  index : Nat
  length : Option Nat
deriving DecidableEq, Repr

def Fault.message (f : Fault) : String :=
  match f.length with
  | some n => "invalid utf-8 sequence of " ++ toString n ++ " bytes from index " ++ toString f.index
  | none => "incomplete utf-8 byte sequence from index " ++ toString f.index

/-- A sequence that has begun: how many bytes are missing, between which bounds the next one has
to lie, the code point so far, and how many bytes were taken. -/
structure Pending where
  missing : Nat
  low : UInt8
  high : UInt8
  code : Nat
  taken : Nat
deriving DecidableEq, Repr

/-- The sequence that a byte of `0x80` or more begins. The bounds on the second byte leave out
overlong forms, surrogates and what lies beyond the last code point. -/
def Pending.start (b : UInt8) : Option Pending :=
  if b < 0xC2 then none
  else if b < 0xE0 then some ⟨1, 0x80, 0xBF, b.toNat - 0xC0, 1⟩
  else if b = 0xE0 then some ⟨2, 0xA0, 0xBF, 0, 1⟩
  else if b = 0xED then some ⟨2, 0x80, 0x9F, 0xD, 1⟩
  else if b < 0xF0 then some ⟨2, 0x80, 0xBF, b.toNat - 0xE0, 1⟩
  else if b = 0xF0 then some ⟨3, 0x90, 0xBF, 0, 1⟩
  else if b < 0xF4 then some ⟨3, 0x80, 0xBF, b.toNat - 0xF0, 1⟩
  else if b = 0xF4 then some ⟨3, 0x80, 0x8F, 4, 1⟩
  else none

def Pending.accepts (p : Pending) (b : UInt8) : Bool := p.low ≤ b && b ≤ p.high

def Pending.push (p : Pending) (b : UInt8) : Pending :=
  ⟨p.missing - 1, 0x80, 0xBF, p.code * 64 + (b.toNat - 0x80), p.taken + 1⟩

/-- The characters read so far, last one first, and the sequence that has begun. -/
structure Decoder where
  read : List Char
  pending : Option Pending
  index : Nat

def Decoder.empty : Decoder := ⟨[], none, 0⟩

def Decoder.begin? (d : Decoder) (b : UInt8) : Option Decoder :=
  if b < 0x80 then some ⟨Char.ofNat b.toNat :: d.read, none, d.index + 1⟩
  else (Pending.start b).map fun p => ⟨d.read, some p, d.index + 1⟩

def Decoder.continue (d : Decoder) (p : Pending) (b : UInt8) : Decoder :=
  if p.missing ≤ 1 then ⟨Char.ofNat (p.push b).code :: d.read, none, d.index + 1⟩
  else ⟨d.read, some (p.push b), d.index + 1⟩

def Decoder.push (d : Decoder) (b : UInt8) : Except Fault Decoder :=
  match d.pending with
  | none =>
    match d.begin? b with
    | some e => .ok e
    | none => .error ⟨d.index, some 1⟩
  | some p =>
    if p.accepts b then .ok (d.continue p b) else .error ⟨d.index - p.taken, some p.taken⟩

def Decoder.finish (d : Decoder) : Except Fault (List Char) :=
  match d.pending with
  | none => .ok d.read.reverse
  | some p => .error ⟨d.index - p.taken, none⟩

def decode (bytes : List UInt8) : Except Fault (List Char) :=
  bytes.foldlM Decoder.push Decoder.empty >>= Decoder.finish

def replacement : Char := '\ufffd'

def Decoder.replace (d : Decoder) : Decoder := ⟨replacement :: d.read, none, d.index⟩

def Decoder.beginLossy (d : Decoder) (b : UInt8) : Decoder :=
  match d.begin? b with
  | some e => e
  | none => ⟨replacement :: d.read, none, d.index + 1⟩

def Decoder.pushLossy (d : Decoder) (b : UInt8) : Decoder :=
  match d.pending with
  | none => d.beginLossy b
  | some p => if p.accepts b then d.continue p b else d.replace.beginLossy b

/-- Reads bytes with a replacement character for each longest sequence that begins like UTF-8
and does not go on. -/
def decodeLossy (bytes : List UInt8) : List Char :=
  let d := bytes.foldl Decoder.pushLossy Decoder.empty
  (if d.pending.isSome then d.replace else d).read.reverse

def encode (s : List Char) : List UInt8 := s.flatMap String.utf8EncodeChar

/-- The number of bytes of a text. -/
def size (s : List Char) : Nat := s.foldl (fun n c => n + c.utf8Size) 0

example : decode (encode "é中😀".toList) = .ok "é中😀".toList := by rfl

example : decode [0x61, 0xE4, 0xB8, 0x61] = .error ⟨1, some 2⟩ := by rfl

example : decodeLossy [0xF0, 0x9F, 0x61, 0xFF] = [replacement, 'a', replacement] := by
  decide +kernel

end SearchLoad.Text.Utf8
