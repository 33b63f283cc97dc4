/-!
# Remainders

Remainders of 64-bit integers and of floating point numbers that are never negative.  The
floating point remainder is computed exactly: both numbers are whole multiples of one power of two.
-/

namespace TransformChain
namespace Number

/-- A finite number as a whole multiple of a power of two, without its sign. -/
def magnitude (x : Float) : Nat × Int :=
  let bits := x.toBits.toNat
  let exponent := bits / Nat.pow 2 52 % Nat.pow 2 11
  let fraction := bits % Nat.pow 2 52
  if exponent = 0 then (fraction, -1074) else (Nat.pow 2 52 + fraction, Int.ofNat exponent - 1075)

def isNegative (x : Float) : Bool :=
  Nat.pow 2 63 ≤ x.toBits.toNat

/-- The remainder with the sign of the dividend, for a divisor other than zero. -/
def truncatedRemainder (x y : Float) : Float :=
  if x.isNaN || y.isNaN || x.isInf then 0.0 / 0.0
  else if y.isInf || x.abs < y.abs then x
  else
    let (m, p) := magnitude x
    let (n, q) := magnitude y
    let e := if p ≤ q then p else q
    let rest := (m * Nat.pow 2 (p - e).toNat) % (n * Nat.pow 2 (q - e).toNat)
    let size := Float.scaleB (Float.ofNat rest) e
    if isNegative x then -size else size

/-- The remainder that is at least zero, for a divisor other than zero. -/
def floatRemainder (x y : Float) : Float :=
  let r := truncatedRemainder x y
  if r < 0.0 then r + y.abs else r

/-- The remainder that is at least zero; none for a zero divisor, and none where the quotient
leaves the 64-bit range. -/
def intRemainder? (a b : Int64) : Option Int64 :=
  if b = 0 then none
  else if a = Int64.minValue ∧ b = -1 then none
  else some (Int64.ofInt (a.toInt % b.toInt))

def negated? (a : Int64) : Option Int64 :=
  if a = Int64.minValue then none else some (-a)

end Number
end TransformChain
