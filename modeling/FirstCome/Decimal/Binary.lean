/-!
Nonnegative binary floating-point numbers with 53 significant bits, and the correctly rounded
operations on them: nearest, a half to the even significand, gradual underflow at `2^(-1074)`.
Exponents are unbounded above; a number past the greatest finite one is told by `overflows`.
A number is written with a fixed count of decimal places from its exact value, rounded likewise.
-/
namespace FirstCome.Decimal

def tenTo (k : Nat) : Nat := Nat.pow 10 k

/-- The quotient rounded to the nearest integer, a half to the even neighbour. -/
def roundDiv (num den : Nat) : Nat :=
  let q := num / den
  let r := num % den
  if 2 * r < den then q
  else if den < 2 * r then q + 1
  else q + q % 2

theorem roundDiv_one (n : Nat) : roundDiv n 1 = n := by
  simp [roundDiv, Nat.mod_one]

theorem roundDiv_mul (n : Nat) {den : Nat} (h : 0 < den) : roundDiv (n * den) den = n := by
  simp [roundDiv, Nat.mul_mod_left, Nat.mul_div_cancel _ h, h]

theorem roundDiv_near (num : Nat) {den : Nat} (h : 0 < den) :
    2 * num ≤ 2 * (roundDiv num den * den) + den ∧
      2 * (roundDiv num den * den) ≤ 2 * num + den := by
  have hn := Nat.div_add_mod num den
  have hr := Nat.mod_lt num h
  rw [Nat.mul_comm] at hn
  unfold roundDiv
  dsimp only
  split
  · omega
  · split
    · rw [Nat.add_mul]; omega
    · rcases Nat.mod_two_eq_zero_or_one (num / den) with he | he
      · rw [he]; simp only [Nat.add_zero]; omega
      · rw [he, Nat.add_mul]; omega

/-- The number `significand * 2^exponent`. -/
structure Binary where
  significand : Nat := 0
  exponent : Int := -1074
deriving DecidableEq

namespace Binary

def precision : Nat := 53

def leastExponent : Int := -1074

def greatestExponent : Int := 971

def scaled (num den : Nat) (e : Int) : Nat × Nat :=
  (num <<< (-e).toNat, den <<< e.toNat)

/-- The greatest `e` with `2^e ≤ num / den`, for a positive fraction. -/
def log2 (num den : Nat) : Int :=
  let e : Int := (num.log2 : Int) - den.log2
  let (n, d) := scaled num den e
  if d ≤ n then e else e - 1

/-- The number nearest to `num / den`. -/
def ofRatio (num den : Nat) : Binary :=
  if num = 0 ∨ den = 0 then {}
  else
    let e := max leastExponent (log2 num den - (precision - 1))
    let (n, d) := scaled num den e
    let m := roundDiv n d
    if m = 1 <<< precision then ⟨1 <<< (precision - 1), e + 1⟩ else ⟨m, e⟩

def ofNat (n : Nat) : Binary := ofRatio n 1

def fraction (x : Binary) : Nat × Nat :=
  (x.significand <<< x.exponent.toNat, 1 <<< (-x.exponent).toNat)

def mul (x y : Binary) : Binary :=
  let (n, d) := x.fraction
  let (n', d') := y.fraction
  ofRatio (n * n') (d * d')

def div (x y : Binary) : Binary :=
  let (n, d) := x.fraction
  let (n', d') := y.fraction
  ofRatio (n * d') (d * n')

def isZero (x : Binary) : Bool := x.significand = 0

def overflows (x : Binary) : Bool := greatestExponent < x.exponent

def places (x : Binary) (n : Nat) : String :=
  let (num, den) := x.fraction
  let scaled := roundDiv (num * tenTo n) den
  let fraction := Nat.toDigits 10 (scaled % tenTo n)
  toString (scaled / tenTo n) ++ "." ++
    String.ofList (List.replicate (n - fraction.length) '0' ++ fraction)

end Binary
end FirstCome.Decimal
