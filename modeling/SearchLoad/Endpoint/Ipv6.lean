namespace SearchLoad.Endpoint.Ipv6

def hexValue? (c : Char) : Option Nat :=
  if '0' ≤ c && c ≤ '9' then some (c.toNat - 48)
  else if 'a' ≤ c && c ≤ 'f' then some (c.toNat - 87)
  else if 'A' ≤ c && c ≤ 'F' then some (c.toNat - 55)
  else none

def readGroup? (s : List Char) : Option Nat :=
  if s.isEmpty || 4 < s.length then none
  else s.foldlM (fun n c => (hexValue? c).map (n * 16 + ·)) 0

/-- A decimal number of a byte, without zeros in front. -/
def readByte? (s : List Char) : Option Nat :=
  if s.isEmpty || 3 < s.length || (s.head? = some '0' && 1 < s.length) then none
  else
    let n? := s.foldlM (fun n c => if c.isDigit then some (n * 10 + (c.toNat - 48)) else none) 0
    n?.filter (· ≤ 255)

def readDotted? (s : List Char) : Option (List Nat) :=
  match (s.splitOn '.').mapM readByte? with
  | some [a, b, c, d] => some [a * 256 + b, c * 256 + d]
  | _ => none

/-- Groups between colons; the last one may be dotted where the address ends with it. -/
def readGroups? (final : Bool) (s : List Char) : Option (List Nat) :=
  if s.isEmpty then some []
  else do
    let pieces := s.splitOn ':'
    let last := pieces.getLastD []
    let front ← pieces.dropLast.mapM readGroup?
    if final && last.contains '.' then
      let back ← readDotted? last
      some (front ++ back)
    else
      let back ← readGroup? last
      some (front ++ [back])

def splitDouble : List Char → Option (List Char × List Char)
  | ':' :: ':' :: s => some ([], s)
  | c :: s => (splitDouble s).map fun (front, back) => (c :: front, back)
  | [] => none

/-- The eight groups of an address. Two colons may stand for groups of zeros, and the last two
groups may be written like an IPv4 address. -/
def read? (s : List Char) : Option (List Nat) :=
  match splitDouble s with
  | none => (readGroups? true s).filter fun gs => gs.length = 8
  | some (front, back) => do
    let front ← readGroups? false front
    let back ← readGroups? true back
    let given := front.length + back.length
    if given ≤ 7 then some (front ++ List.replicate (8 - given) 0 ++ back) else none

def zeros (groups : List Nat) : Nat := (groups.takeWhile (· = 0)).length

def longestZeros (groups : List Nat) : Nat × Nat :=
  (List.range groups.length).foldl (fun best i =>
    let n := zeros (groups.drop i)
    if best.2 < n then (i, n) else best) (0, 0)

def groupText (n : Nat) : String := String.ofList (Nat.toDigits 16 n)

def groupsText (groups : List Nat) : String := String.intercalate ":" (groups.map groupText)

/-- The text of an address: a run of two zeros or more is left out, the longest one, and an embedded
IPv4 address is dotted. -/
def text (groups : List Nat) : String :=
  match groups with
  | [0, 0, 0, 0, 0, 0xffff, a, b] =>
    "::ffff:" ++ String.intercalate "."
      ([a / 256, a % 256, b / 256, b % 256].map fun n : Nat => toString n)
  | _ =>
    let (start, length) := longestZeros groups
    if length ≤ 1 then groupsText groups
    else groupsText (groups.take start) ++ "::" ++ groupsText (groups.drop (start + length))

end SearchLoad.Endpoint.Ipv6
