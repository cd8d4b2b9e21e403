import SearchLoad.Number.Binary64

namespace SearchLoad.Number

/-- A positive number as decimal digits before a power of ten. -/
structure Scientific where
  digits : Nat
  exponent : Int
deriving DecidableEq, Repr

def scaleTen (x : Rat) (e : Int) : Rat :=
  if 0 ≤ e then x * (Nat.pow 10 e.toNat : Nat) else x / (Nat.pow 10 (-e).toNat : Nat)

def digitCount (n : Nat) : Nat := (Nat.toDigits 10 n).length

/-- The exponent of the largest power of ten that is at most a positive rational. -/
def floorLog10 (x : Rat) : Int :=
  let k : Int := (digitCount x.num.natAbs : Int) - (digitCount x.den : Int)
  if scaleTen 1 k ≤ x then k else k - 1

/-- Whether a rational rounds to a positive binary64 value. -/
def readsAs (v x : Rat) : Bool :=
  let e := Binary64.unitExponent v
  let m := (scale v (-e)).floor
  let half := scale (1 / 2) e
  let low := if m = Binary64.leastNormal && -1074 < e then v - half / 2 else v - half
  let high := v + half
  if m % 2 = 0 then low ≤ x && x ≤ high else low < x && x < high

/-- The number of at most so many digits that reads back as `v` and is nearest to it. -/
def shortestOf? (v : Rat) (digits : Nat) : Option Scientific :=
  let e := floorLog10 v - (digits : Int) + 1
  let low := (scaleTen v (-e)).floor.toNat
  let value := fun n : Nat => scaleTen n e
  match readsAs v (value low), readsAs v (value (low + 1)) with
  | false, false => none
  | true, false => some ⟨low, e⟩
  | false, true => some ⟨low + 1, e⟩
  | true, true => some ⟨(roundHalfEven (scaleTen v (-e))).toNat, e⟩

/-- Drops trailing zeros of the digits, so many at most. -/
def Scientific.strip : Nat → Scientific → Scientific
  | 0, s => s
  | n + 1, s => if s.digits % 10 = 0 then strip n ⟨s.digits / 10, s.exponent + 1⟩ else s

/-- Seventeen digits are always enough. -/
def shortest (v : Rat) : Scientific :=
  let found := ((List.range 17).map (· + 1)).findSome? (shortestOf? v)
  (found.getD ⟨(scaleTen v 1074).floor.toNat, -1074⟩).strip 17

def padded (width : Nat) (n : Nat) : String :=
  let ds := Nat.toDigits 10 n
  String.ofList (List.replicate (width - ds.length) '0' ++ ds)

/-- A rational that is not negative, rounded to one decimal place or more, a half to the even
neighbour. -/
def fixed (places : Nat) (x : Rat) : String :=
  let n := (roundHalfEven (x * (Nat.pow 10 places : Nat))).toNat
  toString (n / Nat.pow 10 places) ++ "." ++ padded places (n % Nat.pow 10 places)

end SearchLoad.Number
