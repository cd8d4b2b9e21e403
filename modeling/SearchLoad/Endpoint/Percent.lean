import SearchLoad.Text.Utf8

namespace SearchLoad.Endpoint.Percent

def hexValue? (b : UInt8) : Option UInt8 :=
  if 0x30 ≤ b && b ≤ 0x39 then some (b - 0x30)
  else if 0x61 ≤ b && b ≤ 0x66 then some (b - 0x57)
  else if 0x41 ≤ b && b ≤ 0x46 then some (b - 0x37)
  else none

def escaped? : List UInt8 → Option UInt8
  | a :: b :: _ =>
    match hexValue? a, hexValue? b with
    | some x, some y => some (x * 16 + y)
    | _, _ => none
  | _ => none

/-- Replaces escapes by their bytes; `skip` counts the digits of the last one still to pass. A
percent sign without two digits behind it stands for itself. -/
def decodeFrom : Nat → List UInt8 → List UInt8
  | _, [] => []
  | skip + 1, _ :: s => decodeFrom skip s
  | 0, b :: s =>
    if b = 0x25 then
      match escaped? s with
      | some x => x :: decodeFrom 2 s
      | none => b :: decodeFrom 0 s
    else b :: decodeFrom 0 s

def decode (s : List Char) : List UInt8 := decodeFrom 0 (Text.Utf8.encode s)

def hexDigit (n : Nat) : Char := (Nat.digitChar n).toUpper

def encodeByte (b : UInt8) : List Char := ['%', hexDigit (b.toNat / 16), hexDigit (b.toNat % 16)]

def encodeControls (s : List Char) : List Char :=
  s.flatMap fun c =>
    if ' ' ≤ c && c ≤ '~' then [c] else (String.utf8EncodeChar c).flatMap encodeByte

end SearchLoad.Endpoint.Percent
