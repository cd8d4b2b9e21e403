namespace SearchLoad.Number

/-- The whole number nearest to a rational, an even one of two. -/
def roundHalfEven (x : Rat) : Int :=
  let f := x.floor
  let r := x - f
  if r < 1 / 2 then f else if 1 / 2 < r then f + 1 else if f % 2 = 0 then f else f + 1

def scale (x : Rat) (e : Int) : Rat :=
  if 0 ≤ e then x * (Nat.pow 2 e.toNat : Nat) else x / (Nat.pow 2 (-e).toNat : Nat)

/-- The exponent of the largest power of two that is at most a positive rational. -/
def floorLog2 (x : Rat) : Int :=
  let k : Int := (x.num.natAbs.log2 : Int) - (x.den.log2 : Int)
  if scale 1 k ≤ x then k else k - 1

namespace Binary64

def leastNormal : Nat := 4503599627370496

def unitExponent (x : Rat) : Int :=
  if x = 0 then -1074 else max (-1074) (floorLog2 (if x < 0 then -x else x) - 52)

/-- The binary64 value nearest to a rational, the one with the even significand of two: 53
significant bits, and a unit of at least `2 ^ -1074`. -/
def nearest (x : Rat) : Rat :=
  let e := unitExponent x
  scale (roundHalfEven (scale x (-e))) e

/-- Whether a rounded magnitude is beyond the largest value, and so infinite. -/
def overflows (x : Rat) : Bool := (Nat.pow 2 1024 : Nat) ≤ x

def add (x y : Rat) : Rat := nearest (x + y)

def sub (x y : Rat) : Rat := nearest (x - y)

def mul (x y : Rat) : Rat := nearest (x * y)

def div (x y : Rat) : Rat := nearest (x / y)

def ofNat (n : Nat) : Rat := nearest n

/-- The interchange format of a value that is not negative: the biased exponent before the 52 bits
of the fraction. -/
def bits (x : Rat) : Nat :=
  let e := unitExponent x
  let m := (scale x (-e)).floor.toNat
  if m < leastNormal then m else (e + 1075).toNat * leastNormal + (m - leastNormal)

end Binary64

end SearchLoad.Number
