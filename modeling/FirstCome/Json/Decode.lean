import FirstCome.Json.Node

/-!
From what a JSON text holds to typed values. A node is either decoded, in the order of the text and
up to the first fault, or passed over with the syntax alone checked, or held for later.
-/
namespace FirstCome.Json

def Break.fault : Break → Fault
  | atEnd | wordAtEnd | number .atEnd => .endInValue
  | badWord => .badWord
  | noValue => .noValue
  | number .malformed => .badNumber

def Break.passFault : Break → Fault
  | number _ => .badNumber
  | b => b.fault

namespace ListEnd

def inList : ListEnd → Except Fault Unit
  | closed => .ok ()
  | atEnd => .error .endInList
  | trailingComma => .error .trailingComma
  | commaAtEnd => .error .endInValue
  | noComma => .error .noListEnd

/-- Where the list is passed over, the bracket behind a comma stands in place of a value. -/
def inPassedList : ListEnd → Except Fault Unit
  | trailingComma => .error .noValue
  | stop => stop.inList

def inFullList : ListEnd → Except Fault Unit
  | commaAtEnd | noComma => .error .trailingCharacters
  | stop => stop.inList

def inObject : ListEnd → Except Fault Unit
  | closed => .ok ()
  | atEnd => .error .endInObject
  | trailingComma => .error .trailingComma
  | commaAtEnd => .error .endInValue
  | noComma => .error .noObjectEnd

/-- Where the object is passed over, what follows a comma stands in place of a key. -/
def inPassedObject : ListEnd → Except Fault Unit
  | trailingComma => .error .keyNotString
  | commaAtEnd => .error .endInObject
  | stop => stop.inObject

end ListEnd

def colonFault (atEnd : Bool) : Fault := if atEnd then .endInObject else .noColon

def Quotation.fault (q : Quotation) : Fault :=
  match q.text with
  | .error f => f
  | .ok _ => .endInString

mutual

/-- Pass over a node: numbers of any size and unpaired surrogates go through. -/
def Node.pass : Node → Except Fault Unit
  | .null | .boolean _ | .number _ => .ok ()
  | .text q => q.check
  | .list items => items.pass
  | .object members => members.pass
  | .broken b => .error b.passFault

def Items.pass : Items → Except Fault Unit
  | .done stop => stop.inPassedList
  | .cons head tail => do
    head.pass
    tail.pass

def Members.pass : Members → Except Fault Unit
  | .done stop => stop.inPassedObject
  | .noKey _ => .error .keyNotString
  | .badKey key => do
    key.check
    .error .endInString
  | .noColon _ atEnd => .error (colonFault atEnd)
  | .cons _ value tail => do
    value.pass
    tail.pass

end

mutual

/-- Look at all of a node that is to be decoded later; at most `depth` lists and objects may lie
within each other. -/
def Node.hold (depth : Nat) : Node → Except Fault Unit
  | .null | .boolean _ => .ok ()
  | .number n => do let _ ← n.value
  | .text q => do let _ ← q.text
  | .list items => if depth = 0 then .error .tooDeep else items.hold (depth - 1)
  | .object members => if depth = 0 then .error .tooDeep else members.hold (depth - 1)
  | .broken b => .error b.fault

def Items.hold (depth : Nat) : Items → Except Fault Unit
  | .done stop => stop.inList
  | .cons head tail => do
    head.hold depth
    tail.hold depth

def Members.hold (depth : Nat) : Members → Except Fault Unit
  | .done stop => stop.inObject
  | .noKey _ => .error .keyNotString
  | .badKey key => .error key.fault
  | .noColon key atEnd => do
    let _ ← key.text
    .error (colonFault atEnd)
  | .cons key value tail => do
    let _ ← key.text
    value.hold depth
    tail.hold depth

end

namespace Node

def mismatch (wanted : String) : Node → Fault
  | null => .wrongType .null wanted
  | boolean b => .wrongType (.boolean b) wanted
  | number n =>
    match n.value with
    | .ok x => .wrongType x.found wanted
    | .error f => f
  | text q =>
    match q.text with
    | .ok s => .wrongType (.text s) wanted
    | .error f => f
  | list _ => .wrongType .sequence wanted
  | object _ => .wrongType .map wanted
  | broken b => b.fault

def natural (bits : Nat) (wanted : String) : Node → Except Fault Nat
  | number n => do
    match ← n.value with
    | .integer i =>
      if 0 ≤ i ∧ i.toNat < 1 <<< bits then return i.toNat else .error (.wrongValue i wanted)
    | x => .error (.wrongType x.found wanted)
  | node => .error (node.mismatch wanted)

def word64 : Node → Except Fault Nat := natural 64 "u64"

def word32 (node : Node) : Except Fault UInt32 := UInt32.ofNat <$> natural 32 "u32" node

def string : Node → Except Fault String
  | text q => q.text
  | node => .error (node.mismatch "a string")

def bool : Node → Except Fault Bool
  | boolean b => .ok b
  | node => .error (node.mismatch "a boolean")

def optional {α : Type} (decode : Node → Except Fault α) : Node → Except Fault (Option α)
  | null => .ok none
  | node => some <$> decode node

end Node

def Items.collect {α : Type} (decode : Node → Except Fault α) : Items → Except Fault (List α)
  | .done stop => do
    stop.inList
    return []
  | .cons head tail => do
    let a ← decode head
    let as ← tail.collect decode
    return a :: as

def Node.sequence {α : Type} (decode : Node → Except Fault α) : Node → Except Fault (List α)
  | .list items => items.collect decode
  | node => .error (node.mismatch "a sequence")

def decode {α : Type} (f : Node → Except Fault α) (text : String) : Except Fault α := do
  let (node, rest) := read text.toList
  let a ← f node
  if (skipSpace rest).isEmpty then return a else .error .trailingCharacters

end FirstCome.Json
