import SearchLoad.Number.Digits
import SearchLoad.Number.Integer

namespace SearchLoad.Json

open SearchLoad.Number

inductive Number
  | integer (n : Int)
  | float (negative : Bool) (magnitude : Rat)
deriving DecidableEq, Repr

namespace Number

/-- Takes digits while the number they extend fits 64 bits; returns the digits left over. -/
def significand (n : Nat) : List Char → Nat × List Char
  | [] => (n, [])
  | c :: s =>
    if maxUnsigned < n * 10 + digitValue c then (n, c :: s)
    else significand (n * 10 + digitValue c) s

/-- A rounded magnitude times a power of ten that is too small for one step, 308 places at a
time. -/
def shrink : Nat → Rat → Nat → Rat
  | 0, f, _ => f
  | fuel + 1, f, places =>
    if places ≤ 308 then Binary64.div f (Binary64.ofNat (Nat.pow 10 places))
    else if f = 0 then 0
    else shrink fuel (Binary64.div f (Binary64.ofNat (Nat.pow 10 308))) (places - 308)

/-- A whole number times a power of ten; nothing if it is too large. -/
def scaled? (n : Nat) (exponent : Int) : Option Rat :=
  let f := Binary64.ofNat n
  if exponent < 0 then
    let places := (-exponent).toNat
    some (shrink (places / 308 + 1) f places)
  else if 308 < exponent then
    if n = 0 then some 0 else none
  else
    let x := Binary64.mul f (Binary64.ofNat (Nat.pow 10 exponent.toNat))
    if Binary64.overflows x then none else some x

/-- The value of digits before and after the point, times a power of ten: as many leading digits as
fit 64 bits and the power are rounded, then their product. -/
def ofParts? (negative : Bool) (whole fraction : List Char) (exponent : Int) : Option Number :=
  let (n, dropped) := significand 0 whole
  let (m, ignored) := significand n fraction
  let e := (dropped.length : Int) - ((fraction.length : Int) - (ignored.length : Int)) + exponent
  (scaled? m e).map (float negative)

/-- The value of digits alone. Minus zero and what needs more than 64 bits are floats. -/
def ofWhole? (negative : Bool) (whole : List Char) : Option Number :=
  match significand 0 whole with
  | (n, []) =>
    if !negative then some (integer n)
    else if n = 0 || minSignedMagnitude < n then some (float true (Binary64.ofNat n))
    else some (integer (-n))
  | _ => ofParts? negative whole [] 0

/-- The text of a positive float: positional between five zeros after the point and sixteen places
before it, an exponent with its sign beyond. -/
def magnitudeText (x : Rat) : String :=
  if x = 0 then "0.0"
  else
    let s := shortest x
    let ds := Nat.toDigits 10 s.digits
    let place : Int := ds.length + s.exponent
    if place < -4 || 16 < place then
      let tail := if ds.length ≤ 1 then "" else "." ++ String.ofList (ds.drop 1)
      let e := place - 1
      String.ofList (ds.take 1) ++ tail ++ "e" ++ (if e < 0 then "-" else "+") ++
        toString e.natAbs
    else if place ≤ 0 then
      "0." ++ String.ofList (List.replicate (-place).toNat '0' ++ ds)
    else if ds.length ≤ place.toNat then
      String.ofList (ds ++ List.replicate (place.toNat - ds.length) '0') ++ ".0"
    else
      String.ofList (ds.take place.toNat) ++ "." ++ String.ofList (ds.drop place.toNat)

def text : Number → String
  | integer n => toString n
  | float negative x => (if negative then "-" else "") ++ magnitudeText x

example : (float false (Binary64.nearest (1 / 10))).text = "0.1" := by decide +kernel

example : (float true (2 ^ 64)).text = "-1.8446744073709552e+19" := by decide +kernel

end Number

end SearchLoad.Json
