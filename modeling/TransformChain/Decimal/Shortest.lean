/-!
# Shortest decimals

The fewest decimal digits that identify a binary floating point number.  A number `m * 2 ^ q`
stands for the reals that round to it; among the decimals in that interval the ones on the
coarsest grid of powers of ten are sought, and of two neighbours on that grid the nearer wins.  A
`Tie` decides between two that are equally near.
-/

namespace TransformChain

/-- The number `digits * 10 ^ exponent`. -/
structure Decimal where
  digits : Nat
  exponent : Int
deriving Repr, DecidableEq

namespace Decimal

/-- Which of two equally near decimals is taken: the greater, or the one with an even last digit. -/
inductive Tie where
  | up
  | even
deriving Repr, DecidableEq

/-!
## Exact comparison

Numbers are compared as fractions of naturals, so no step rounds.
-/

def binaryFraction (x : Nat) (q : Int) : Nat × Nat :=
  if 0 ≤ q then (x * Nat.pow 2 q.toNat, 1) else (x, Nat.pow 2 (-q).toNat)

/-- The reals that round to a binary number, as fractions over one denominator. -/
structure Interval where
  low : Nat
  mid : Nat
  high : Nat
  denominator : Nat
  closed : Bool

namespace Interval

/-- The interval of `m * 2 ^ q`; the lower half is shorter when `narrow` holds. -/
def ofBinary (m : Nat) (q : Int) (narrow : Bool) : Interval :=
  let scaled (x : Nat) : Nat := (binaryFraction x (q - 2)).1
  { low := scaled (4 * m - if narrow then 1 else 2)
    mid := scaled (4 * m)
    high := scaled (4 * m + 2)
    denominator := (binaryFraction 1 (q - 2)).2
    closed := m % 2 == 0 }

/-- `d * 10 ^ k` and `x` over the interval's denominator, brought to one scale. -/
def onGrid (interval : Interval) (d : Nat) (k : Int) (x : Nat) : Nat × Nat :=
  if 0 ≤ k then (d * Nat.pow 10 k.toNat * interval.denominator, x)
  else (d * interval.denominator, x * Nat.pow 10 (-k).toNat)

def contains (interval : Interval) (d : Nat) (k : Int) : Bool :=
  let (a, low) := interval.onGrid d k interval.low
  let (b, high) := interval.onGrid d k interval.high
  if interval.closed then low ≤ a && b ≤ high else low < a && b < high

def floorOn (interval : Interval) (k : Int) : Nat :=
  if 0 ≤ k then interval.mid / (interval.denominator * Nat.pow 10 k.toNat)
  else interval.mid * Nat.pow 10 (-k).toNat / interval.denominator

def prefersAbove (interval : Interval) (tie : Tie) (d : Nat) (k : Int) : Bool :=
  let (a, mid) := interval.onGrid d k interval.mid
  let (b, _) := interval.onGrid (d + 1) k interval.mid
  if b - mid = mid - a then
    match tie with
    | .up => true
    | .even => d % 2 == 1
  else
    b - mid < mid - a

def hit? (interval : Interval) (tie : Tie) (k : Int) : Option Nat :=
  let d := interval.floorOn k
  match interval.contains d k, interval.contains (d + 1) k with
  | true, true => some (if interval.prefersAbove tie d k then d + 1 else d)
  | true, false => some d
  | false, true => some (d + 1)
  | false, false => none

/-- Tries ever finer grids, from the one of `10 ^ k` on. -/
def refine (interval : Interval) (tie : Tie) : Nat → Int → Decimal
  | 0, k => ⟨interval.floorOn k, k⟩
  | budget + 1, k =>
      match interval.hit? tie k with
      | some d => if d = 0 then refine interval tie budget (k - 1) else ⟨d, k⟩
      | none => refine interval tie budget (k - 1)

end Interval

/-- The exponent of a power of ten that no number in the interval reaches. -/
def ceilingExponent (numerator denominator : Nat) : Int :=
  let bits : Int := Int.ofNat (Nat.log2 (numerator + 1)) - Int.ofNat (Nat.log2 denominator)
  -- one bit is about 0.30103 decimal digits
  bits * 30103 / 100000 + 2

/-- The shortest decimal that rounds to `m * 2 ^ q`, for `0 < m`. -/
def shortest (tie : Tie) (m : Nat) (q : Int) (narrow : Bool) : Decimal :=
  let interval := Interval.ofBinary m q narrow
  interval.refine tie 25 (ceilingExponent interval.mid interval.denominator)

/-!
## Floating point numbers
-/

inductive Shape where
  | nan
  | infinite (negative : Bool)
  | zero (negative : Bool)
  | finite (negative : Bool) (magnitude : Decimal)

def Shape.ofFloat (tie : Tie) (x : Float) : Shape :=
  let bits := x.toBits.toNat
  let negative := Nat.pow 2 63 ≤ bits
  let exponent := bits / Nat.pow 2 52 % Nat.pow 2 11
  let fraction := bits % Nat.pow 2 52
  if exponent = 2047 then
    if fraction = 0 then .infinite negative else .nan
  else if exponent = 0 then
    if fraction = 0 then .zero negative
    else .finite negative (shortest tie fraction (-1074) false)
  else
    let digits :=
      shortest tie (Nat.pow 2 52 + fraction) (Int.ofNat exponent - 1075)
        (fraction == 0 && exponent != 1)
    .finite negative digits

/-!
## Positional text
-/

def digitText (n : Nat) : String :=
  String.ofList (Nat.toDigits 10 n)

def positional (x : Decimal) : String :=
  let digits := Nat.toDigits 10 x.digits
  if 0 ≤ x.exponent then
    String.ofList (digits ++ List.replicate x.exponent.toNat '0')
  else
    let places := (-x.exponent).toNat
    if digits.length ≤ places then
      String.ofList ("0.".toList ++ List.replicate (places - digits.length) '0' ++ digits)
    else
      let whole := digits.length - places
      String.ofList (digits.take whole ++ '.' :: digits.drop whole)

def signed (negative : Bool) (text : String) : String :=
  if negative then "-" ++ text else text

/-- A number's text without exponent: the shortest digits, the greater of two equally near
decimals, and no point after a whole number. -/
def plainText (x : Float) : String :=
  match Shape.ofFloat .up x with
  | .nan => "NaN"
  | .infinite negative => signed negative "inf"
  | .zero negative => signed negative "0"
  | .finite negative magnitude => signed negative magnitude.positional

end Decimal
end TransformChain
