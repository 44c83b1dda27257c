import FirstCome.Json.Fault

/-!
Numbers of a JSON text, and the integer or binary number each stands for.
-/
namespace FirstCome.Json

open Decimal (Binary tenTo)

/-- A number as written. The fraction is empty if there is no point. -/
structure Numeral where
  negative : Bool := false
  whole : List Char
  fraction : List Char := []
  exponent : Option Int := none
deriving DecidableEq

inductive NumeralBreak where
  | atEnd
  | malformed
deriving DecidableEq

def needDigits (cs : List Char) : Except NumeralBreak (List Char × List Char) :=
  match cs with
  | [] => .error .atEnd
  | c :: _ => if c.isDigit then .ok (cs.span Char.isDigit) else .error .malformed

def readWhole (cs : List Char) : Except NumeralBreak (List Char × List Char) :=
  match cs with
  | '0' :: rest =>
    if (rest.head?.map Char.isDigit).getD false then .error .malformed else .ok (['0'], rest)
  | cs => needDigits cs

def readFraction (cs : List Char) : Except NumeralBreak (List Char × List Char) :=
  match cs with
  | '.' :: rest => needDigits rest
  | cs => .ok ([], cs)

def readSign : List Char → Bool × List Char
  | '-' :: rest => (true, rest)
  | '+' :: rest => (false, rest)
  | cs => (false, cs)

def readExponent (cs : List Char) : Except NumeralBreak (Option Int × List Char) :=
  match cs with
  | [] => .ok (none, [])
  | c :: rest =>
    if c = 'e' ∨ c = 'E' then do
      let (negative, rest) := readSign rest
      let (digits, rest) ← needDigits rest
      let n : Int := Nat.ofDigitChars 10 digits 0
      return (some (if negative then -n else n), rest)
    else .ok (none, cs)

def readNumeral (negative : Bool) (cs : List Char) : Except NumeralBreak (Numeral × List Char) := do
  let (whole, cs) ← readWhole cs
  let (fraction, cs) ← readFraction cs
  let (exponent, cs) ← readExponent cs
  return ({ negative, whole, fraction, exponent }, cs)

inductive Number where
  | integer (n : Int)
  | real (negative : Bool) (x : Binary)
deriving DecidableEq

def Number.found : Number → Found
  | integer n => .integer n
  | real negative x => .real negative x

namespace Numeral

/-- Take digits on as long as the number they extend stays below `2^64`; the digits not taken are
left over. -/
def absorb (n : Nat) : List Char → Nat × List Char
  | [] => (n, [])
  | c :: cs =>
    let next := n * 10 + (c.toNat - 48)
    if next < 1 <<< 64 then absorb next cs else (n, c :: cs)

/-- `x / 10^k`, in steps of at most 308 places. -/
def shiftDown (x : Binary) (k : Nat) : Binary :=
  if k ≤ 308 then x.div (Binary.ofNat (tenTo k))
  else if x.isZero then x
  else shiftDown (x.div (Binary.ofNat (tenTo 308))) (k - 308)
termination_by k

def scale (n : Nat) (e : Int) : Except Fault Binary :=
  let x := Binary.ofNat n
  if e < 0 then .ok (shiftDown x (-e).toNat)
  else if x.isZero then .ok x
  else if e ≤ 308 then
    let y := x.mul (Binary.ofNat (tenTo e.toNat))
    if y.overflows then .error .numberOutOfRange else .ok y
  else .error .numberOutOfRange

/-- A number without fraction and exponent is an integer if it fits 64 bits, signed if it has a
sign; `-0` is not. Of all others as many leading digits count as fit 64 bits. -/
def value (n : Numeral) : Except Fault Number := do
  let (whole, more) := absorb 0 n.whole
  if more.isEmpty ∧ n.fraction.isEmpty ∧ n.exponent.isNone then
    if !n.negative then return .integer whole
    else if whole = 0 ∨ 1 <<< 63 < whole then return .real true (Binary.ofNat whole)
    else return .integer (-whole)
  else
    let (digits, unused) := absorb whole n.fraction
    let places : Int := more.length - ((n.fraction.length - unused.length : Nat) : Int)
    let x ← scale digits (places + n.exponent.getD 0)
    return .real n.negative x

end Numeral
end FirstCome.Json
