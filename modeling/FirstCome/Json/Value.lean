import FirstCome.Decimal.Shortest

/-!
JSON values and their text: compact, or with one item a line and two spaces for each level.
-/
namespace FirstCome.Json

open Decimal (Binary)

inductive Value where
  | null
  | boolean (b : Bool)
  | natural (n : Nat)
  | real (x : Binary)
  | text (s : String)
  | list (items : List Value)
  | object (members : List (String × Value))

def escape (c : Char) : List Char :=
  match c with
  | '"' => ['\\', '"']
  | '\\' => ['\\', '\\']
  | '\x08' => ['\\', 'b']
  | '\t' => ['\\', 't']
  | '\n' => ['\\', 'n']
  | '\x0c' => ['\\', 'f']
  | '\r' => ['\\', 'r']
  | c =>
    if c.toNat < 0x20 then
      ['\\', 'u', '0', '0', Nat.digitChar (c.toNat / 16), Nat.digitChar (c.toNat % 16)]
    else [c]

def writeText (s : String) : String :=
  String.ofList ('"' :: s.toList.flatMap escape ++ ['"'])

/-- Items between brackets, each on its own line one level deeper; nothing between empty ones. -/
def layOut (depth : Nat) (opening closing : String) (items : List String) : String :=
  if items.isEmpty then opening ++ closing
  else
    let margin := fun n => "\n" ++ String.ofList (List.replicate (2 * n) ' ')
    opening ++ margin (depth + 1) ++ ("," ++ margin (depth + 1)).intercalate items ++
      margin depth ++ closing

namespace Value

mutual

def compact : Value → String
  | null => "null"
  | boolean b => if b then "true" else "false"
  | natural n => toString n
  | real x => x.text
  | text s => writeText s
  | list items => "[" ++ ",".intercalate (compactItems items) ++ "]"
  | object members => "\x7b" ++ ",".intercalate (compactMembers members) ++ "\x7d"

def compactItems : List Value → List String
  | [] => []
  | v :: vs => v.compact :: compactItems vs

def compactMembers : List (String × Value) → List String
  | [] => []
  | (k, v) :: ms => (writeText k ++ ":" ++ v.compact) :: compactMembers ms

end

mutual

def pretty (depth : Nat) : Value → String
  | list items => layOut depth "[" "]" (prettyItems (depth + 1) items)
  | object members => layOut depth "\x7b" "\x7d" (prettyMembers (depth + 1) members)
  | v => v.compact

def prettyItems (depth : Nat) : List Value → List String
  | [] => []
  | v :: vs => v.pretty depth :: prettyItems depth vs

def prettyMembers (depth : Nat) : List (String × Value) → List String
  | [] => []
  | (k, v) :: ms => (writeText k ++ ": " ++ v.pretty depth) :: prettyMembers depth ms

end

def ofFields (fields : List (String × Option Value)) : Value :=
  object (fields.filterMap fun (name, v) => v.map fun v => (name, v))

def unlessZero (n : Nat) : Option Value := if n = 0 then none else some (natural n)

end Value
end FirstCome.Json
