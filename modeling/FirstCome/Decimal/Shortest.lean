import FirstCome.Decimal.Binary

/-!
The fewest significant digits that read back as a given binary number, and of those the nearest.

The reals that round to `m * 2^e` form an interval around it, with its ends exactly when `m` is even.
All comparisons are made on natural numbers, in quarters of `2^e`.
-/
namespace FirstCome.Decimal

/-- The number `d.ddd * 10^exponent` with these digits, the first of which is not zero. -/
structure Scientific where
  digits : List Char
  exponent : Int
deriving DecidableEq

namespace Shortest

/-- The greatest `p` with `10^p ≤ num / den`, for a positive fraction. -/
def log10 (num den : Nat) : Int :=
  if den ≤ num then ((Nat.toDigits 10 (num / den)).length : Int) - 1
  else -((Nat.toDigits 10 ((den - 1) / num)).length : Int)

/-- Lower end, value and upper end of the rounding interval, in quarters of a unit. The gap below a
power of two is half the gap above it. -/
def interval (x : Binary) : Nat × Nat × Nat :=
  let m := 4 * x.significand
  let narrow := x.significand = 1 <<< (Binary.precision - 1) ∧ Binary.leastExponent < x.exponent
  (if narrow then m - 1 else m - 2, m, m + 2)

/-- The multiple of `10^k` inside the rounding interval that is nearest to `x`, if there is one;
of two at the same distance the even one. -/
def onGrid (x : Binary) (k : Int) : Option Nat :=
  let (lo, mid, hi) := interval x
  let up := tenTo (-k).toNat <<< (x.exponent - 2).toNat
  let den := tenTo k.toNat <<< (2 - x.exponent).toNat
  let inside := fun c : Nat =>
    if x.significand % 2 = 0 then decide (lo * up ≤ c * den ∧ c * den ≤ hi * up)
    else decide (lo * up < c * den ∧ c * den < hi * up)
  let c := roundDiv (mid * up) den
  if inside c then some c
  else
    let floor := mid * up / den
    if inside floor then some floor
    else if inside (floor + 1) then some (floor + 1)
    else none

def search (x : Binary) (p : Int) : (tries n : Nat) → Nat × Int
  | 0, _ => (0, 0)
  | tries + 1, n =>
    let k := p + 1 - n
    match onGrid x k with
    | some c => (c, k)
    | none => search x p tries (n + 1)

end Shortest

def shortest (x : Binary) : Scientific :=
  let (num, den) := x.fraction
  let (c, k) := Shortest.search x (Shortest.log10 num den) 17 1
  let ds := Nat.toDigits 10 c
  let kept := (ds.reverse.dropWhile (· = '0')).reverse
  ⟨kept, k + (ds.length : Int) - 1⟩

/-- Plain notation, always with a fraction, for exponents from -5 to 15; outside them one digit
before the point and a signed exponent. -/
def Scientific.text (s : Scientific) : String :=
  let n := s.digits.length
  if -5 ≤ s.exponent ∧ s.exponent < 16 then
    if s.exponent < 0 then
      "0." ++ String.ofList (List.replicate (-s.exponent - 1).toNat '0' ++ s.digits)
    else
      let whole := s.exponent.toNat + 1
      let fraction := s.digits.drop whole
      String.ofList (s.digits.take whole ++ List.replicate (whole - n) '0') ++ "." ++
        String.ofList (if fraction.isEmpty then ['0'] else fraction)
  else
    let mantissa := s.digits.take 1 ++ (if n = 1 then [] else '.' :: s.digits.drop 1)
    let sign := if s.exponent < 0 then "-" else "+"
    String.ofList mantissa ++ "e" ++ sign ++ toString s.exponent.natAbs

def Binary.text (x : Binary) : String :=
  if x.isZero then "0.0" else (shortest x).text

end FirstCome.Decimal
