/-!
# Reading decimals

Digit lists as numbers, and the floating point number nearest to a decimal.
-/

namespace TransformChain
namespace Decimal

def digitValue (c : Char) : Nat :=
  c.toNat - '0'.toNat

def natOfDigits (cs : List Char) : Nat :=
  cs.foldl (fun n c => 10 * n + digitValue c) 0

/-- The double nearest to `digits * 10 ^ exponent`.  Numbers of more than 310 places are infinite
and numbers with more than 400 leading zeros are zero, whatever their digits. -/
def toFloat (digits : Nat) (exponent : Int) : Float :=
  let places : Int := Int.ofNat (Nat.toDigits 10 digits).length + exponent
  if digits = 0 then 0.0
  else if 310 < places then 1.0 / 0.0
  else if places < -400 then 0.0
  else if 0 ≤ exponent then Float.ofScientific digits false exponent.toNat
  else Float.ofScientific digits true (-exponent).toNat

def smallestInt : Int := -9223372036854775808

def greatestInt : Int := 9223372036854775807

def toInt64? (n : Int) : Option Int64 :=
  if smallestInt ≤ n && n ≤ greatestInt then some (Int64.ofInt n) else none

end Decimal
end TransformChain
