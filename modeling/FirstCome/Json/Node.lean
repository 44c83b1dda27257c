import FirstCome.Json.Numeral
import FirstCome.Json.Quotation

/-!
What a JSON text holds, up to its first break.

Reading never fails: a text that breaks off gives a tree with the break at its place. Whoever walks
the tree in the order of the text meets the same faults in the same order as in the text, and may
look at a part strictly or only pass over it.
-/
namespace FirstCome.Json

/-- What can stand where a value should. -/
inductive Break where
  /-- The end of the text. -/
  | atEnd
  /-- The end of the text inside `null`, `true` or `false`. -/
  | wordAtEnd
  /-- Another letter inside `null`, `true` or `false`. -/
  | badWord
  /-- A character that begins no value. -/
  | noValue
  | number (b : NumeralBreak)
deriving DecidableEq

inductive ListEnd where
  | closed
  /-- The end of the text where a comma or the bracket could stand. -/
  | atEnd
  /-- A comma, then the bracket. -/
  | trailingComma
  /-- A comma, then the end of the text. -/
  | commaAtEnd
  /-- Something else behind an element. -/
  | noComma
deriving DecidableEq

mutual

inductive Node where
  | null
  | boolean (b : Bool)
  | number (n : Numeral)
  | text (q : Quotation)
  | list (items : Items)
  | object (members : Members)
  | broken (b : Break)

inductive Items where
  | done (stop : ListEnd)
  | cons (head : Node) (tail : Items)

/-- An object stops like a list, or at its next key: at something that is no string, at a string
that breaks off, or for want of a colon. -/
inductive Members where
  | done (stop : ListEnd)
  | noKey (found : Node)
  | badKey (key : Quotation)
  | noColon (key : Quotation) (atEnd : Bool)
  | cons (key : Quotation) (value : Node) (tail : Members)

end

def isSpace (c : Char) : Bool := c == ' ' || c == '\n' || c == '\t' || c == '\r'

def skipSpace (cs : List Char) : List Char := cs.dropWhile isSpace

def readWord (node : Node) : (word cs : List Char) → Node × List Char
  | [], cs => (node, cs)
  | _ :: _, [] => (.broken .wordAtEnd, [])
  | w :: ws, c :: cs => if c = w then readWord node ws cs else (.broken .badWord, [])

def readNumber (negative : Bool) (cs : List Char) : Node × List Char :=
  match readNumeral negative cs with
  | .ok (n, rest) => (.number n, rest)
  | .error b => (.broken (.number b), [])

/-- A node and the text behind it; nothing is left behind a break. The first argument bounds the
depth of the calls. -/
def readAt (fuel : Nat) (cs : List Char) : Node × List Char :=
  match fuel, skipSpace cs with
  | 0, _ => (.broken .noValue, [])
  | _, [] => (.broken .atEnd, [])
  | _, 'n' :: cs => readWord .null ['u', 'l', 'l'] cs
  | _, 't' :: cs => readWord (.boolean true) ['r', 'u', 'e'] cs
  | _, 'f' :: cs => readWord (.boolean false) ['a', 'l', 's', 'e'] cs
  | _, '"' :: cs =>
    let (q, rest) := readQuotation cs
    (.text q, rest)
  | fuel + 1, '[' :: cs =>
    let (items, rest) := readItems fuel true cs
    (.list items, rest)
  | fuel + 1, '\x7b' :: cs =>
    let (members, rest) := readMembers fuel true cs
    (.object members, rest)
  | _, '-' :: cs => readNumber true cs
  | _, c :: cs => if c.isDigit then readNumber false (c :: cs) else (.broken .noValue, [])
where
  /-- The elements of a list from behind its bracket, or from behind an element. -/
  readItems (fuel : Nat) (first : Bool) (cs : List Char) : Items × List Char :=
    match fuel, first, skipSpace cs with
    | 0, _, _ => (.done .noComma, [])
    | _, _, [] => (.done .atEnd, [])
    | _, _, ']' :: cs => (.done .closed, cs)
    | fuel + 1, true, cs => readItem fuel cs
    | fuel + 1, false, ',' :: cs =>
      match skipSpace cs with
      | [] => (.done .commaAtEnd, [])
      | ']' :: _ => (.done .trailingComma, [])
      | cs => readItem fuel cs
    | _, false, _ => (.done .noComma, [])
  /-- One element and those behind it. -/
  readItem (fuel : Nat) (cs : List Char) : Items × List Char :=
    match fuel with
    | 0 => (.done .noComma, [])
    | fuel + 1 =>
      let (node, rest) := readAt fuel cs
      let (items, rest) := readItems fuel false rest
      (.cons node items, rest)
  /-- The members of an object from behind its brace, or from behind a member. -/
  readMembers (fuel : Nat) (first : Bool) (cs : List Char) : Members × List Char :=
    match fuel, first, skipSpace cs with
    | 0, _, _ => (.done .noComma, [])
    | _, _, [] => (.done .atEnd, [])
    | _, _, '\x7d' :: cs => (.done .closed, cs)
    | fuel + 1, true, cs => readMember fuel cs
    | fuel + 1, false, ',' :: cs =>
      match skipSpace cs with
      | [] => (.done .commaAtEnd, [])
      | '\x7d' :: _ => (.done .trailingComma, [])
      | cs => readMember fuel cs
    | _, false, _ => (.done .noComma, [])
  /-- One member and those behind it. -/
  readMember (fuel : Nat) (cs : List Char) : Members × List Char :=
    match fuel, cs with
    | 0, _ => (.done .noComma, [])
    | fuel + 1, '"' :: cs =>
      let (key, rest) := readQuotation cs
      if key.stop ≠ .closed then (.badKey key, [])
      else match skipSpace rest with
        | ':' :: rest =>
          let (node, rest) := readAt fuel rest
          let (members, rest) := readMembers fuel false rest
          (.cons key node members, rest)
        | rest => (.noColon key rest.isEmpty, [])
    | fuel + 1, cs => (.noKey (readAt fuel cs).1, [])

def read (cs : List Char) : Node × List Char :=
  readAt (4 * cs.length + 4) cs

end FirstCome.Json
