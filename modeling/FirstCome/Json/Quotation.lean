import FirstCome.Json.Fault

/-!
Strings of a JSON text: their escapes, and how a string can break off.
-/
namespace FirstCome.Json

/-- One character of a string, or one code unit written as a `\u` escape. -/
inductive Piece where
  | char (c : Char)
  | unit (n : Nat)
deriving DecidableEq

/-- How a string stops: at its quotation mark, at the end of the text, at a raw control character,
or at an escape that is none. -/
inductive Stop where
  | closed
  | atEnd
  | control
  | badLetter
  | badDigits
deriving DecidableEq

structure Quotation where
  pieces : List Piece
  stop : Stop
deriving DecidableEq

def hexDigit? (c : Char) : Option Nat :=
  if '0' ≤ c ∧ c ≤ '9' then some (c.toNat - 48)
  else if 'a' ≤ c ∧ c ≤ 'f' then some (c.toNat - 87)
  else if 'A' ≤ c ∧ c ≤ 'F' then some (c.toNat - 55)
  else none

def hexUnit? (a b c d : Char) : Option Nat := do
  let a ← hexDigit? a
  let b ← hexDigit? b
  let c ← hexDigit? c
  let d ← hexDigit? d
  return ((a * 16 + b) * 16 + c) * 16 + d

def escape? : Char → Option Char
  | '"' => some '"'
  | '\\' => some '\\'
  | '/' => some '/'
  | 'b' => some '\x08'
  | 'f' => some '\x0c'
  | 'n' => some '\n'
  | 'r' => some '\r'
  | 't' => some '\t'
  | _ => none

def Quotation.cons (p : Piece) (q : Quotation) : Quotation := { q with pieces := p :: q.pieces }

/-- A string from behind its opening mark, and the text behind it; nothing is left behind one that
breaks off. A `\u` escape is cut off if fewer than four bytes follow it. -/
def readQuotation : List Char → Quotation × List Char
  | [] => (⟨[], .atEnd⟩, [])
  | '"' :: cs => (⟨[], .closed⟩, cs)
  | '\\' :: 'u' :: a :: b :: c :: d :: cs =>
    match hexUnit? a b c d with
    | some n =>
      let (q, rest) := readQuotation cs
      (q.cons (.unit n), rest)
    | none => (⟨[], .badDigits⟩, [])
  | '\\' :: 'u' :: cs =>
    (⟨[], if (String.ofList cs).utf8ByteSize < 4 then .atEnd else .badDigits⟩, [])
  | ['\\'] => (⟨[], .atEnd⟩, [])
  | '\\' :: c :: cs =>
    match escape? c with
    | some e =>
      let (q, rest) := readQuotation cs
      (q.cons (.char e), rest)
    | none => (⟨[], .badLetter⟩, [])
  | c :: cs =>
    if c.toNat < 0x20 then (⟨[], .control⟩, [])
    else
      let (q, rest) := readQuotation cs
      (q.cons (.char c), rest)

def isHighSurrogate (n : Nat) : Bool := decide (0xD800 ≤ n ∧ n ≤ 0xDBFF)

def isLowSurrogate (n : Nat) : Bool := decide (0xDC00 ≤ n ∧ n ≤ 0xDFFF)

def pairUp (high low : Nat) : Char :=
  Char.ofNat (0x10000 + (high - 0xD800) * 0x400 + (low - 0xDC00))

namespace Quotation

def check (q : Quotation) : Except Fault Unit :=
  match q.stop with
  | .closed => .ok ()
  | .atEnd => .error .endInString
  | .control => .error .controlCharacter
  | .badLetter | .badDigits => .error .badEscape

def afterHigh : Stop → Fault
  | .atEnd => .endInString
  | .badDigits => .badEscape
  | _ => .unpairedSurrogate

/-- The characters of the pieces, where each high surrogate comes right before a low one and no
low one comes alone. -/
def join (stop : Stop) : List Piece → Except Fault (List Char)
  | [] => .ok []
  | .char c :: ps => (c :: ·) <$> join stop ps
  | .unit n :: ps =>
    if isLowSurrogate n then .error .loneSurrogate
    else if isHighSurrogate n then
      match ps with
      | .unit m :: ps =>
        if isLowSurrogate m then (pairUp n m :: ·) <$> join stop ps else .error .loneSurrogate
      | .char _ :: _ => .error .unpairedSurrogate
      | [] => .error (afterHigh stop)
    else (Char.ofNat n :: ·) <$> join stop ps

def text (q : Quotation) : Except Fault String := do
  let cs ← join q.stop q.pieces
  q.check
  return String.ofList cs

end Quotation
end FirstCome.Json
