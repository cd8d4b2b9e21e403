import SearchLoad.Number.Digits
import SearchLoad.Span.Basic

namespace SearchLoad.Span

/-- A number with a unit that takes an `s` when there are several. -/
def plural (n : Nat) (name : String) : List String :=
  if n = 0 then [] else if n = 1 then ["1" ++ name] else [toString n ++ name ++ "s"]

def counted (n : Nat) (name : String) : List String :=
  if n = 0 then [] else [toString n ++ name]

/-- The items of a span, from years down to nanoseconds; zeros are left out. -/
def items (s : Span) : List String :=
  let years := s.seconds / 31557600
  let inYear := s.seconds % 31557600
  let months := inYear / 2630016
  let inMonth := inYear % 2630016
  let days := inMonth / 86400
  let inDay := inMonth % 86400
  plural years "year" ++ plural months "month" ++ plural days "day" ++
    counted (inDay / 3600) "h" ++ counted (inDay % 3600 / 60) "m" ++ counted (inDay % 60) "s" ++
    counted (s.subNanos / 1000000) "ms" ++ counted (s.subNanos / 1000 % 1000) "us" ++
    counted (s.subNanos % 1000) "ns"

def display (s : Span) : String :=
  if s.nanos = 0 then "0s" else String.intercalate " " s.items

/-- The unit of the brief form: the largest one with a whole part. -/
def briefUnit (nanos : Nat) : Nat × String :=
  if 1000000000 ≤ nanos then (1000000000, "s")
  else if 1000000 ≤ nanos then (1000000, "ms")
  else if 1000 ≤ nanos then (1000, "µs")
  else (1, "ns")

def brief (nanos : Nat) : String :=
  let (size, name) := briefUnit nanos
  let digits := (Number.padded 9 (nanos % size * (1000000000 / size))).toList
  let fraction := (digits.reverse.dropWhile (· = '0')).reverse
  toString (nanos / size) ++
    (if fraction.isEmpty then "" else "." ++ String.ofList fraction) ++ name

def briefFixed (places nanos : Nat) : String :=
  let (size, name) := briefUnit nanos
  Number.fixed places (mkRat nanos size) ++ name

example : brief 7003000 = "7.003ms" := by decide +kernel

example : briefFixed 1 999950 = "1000.0µs" := by decide +kernel

end SearchLoad.Span
