import FirstCome.Fault
import FirstCome.Json.Record
import FirstCome.Json.Value

/-!
Faults as JSON: the kind under one key and its details under another. Either may come first; details
that come first are held until the kind is known.
-/
namespace FirstCome.Fault

open Json (Node Items Members Value Slot Shape require)

def kindKey : String := "error_type"

def detailsKey : String := "details"

def subject : String := "adjacently tagged enum SimError"

def heldDepth : Nat := 126

def details : Fault → Value
  | duplicatePid pid => .natural pid.toNat
  | invalidJob pid reason => .object [("pid", .natural pid.toNat), ("reason", .text reason)]
  | badLine line message => .object [("line", .natural line), ("message", .text message)]
  | badJson message | io message | configuration message => .text message

def toJson (f : Fault) : Value :=
  .object [(kindKey, .text f.kind.name), (detailsKey, f.details)]

structure Draft where
  number : Option Nat := none
  text : Option String := none

def numberField (name : String) (decode : Node → Except Json.Fault Nat) : Slot Draft :=
  .of name decode (·.number) fun a d => { d with number := some a }

def textField (name : String) : Slot Draft :=
  .of name Node.string (·.text) fun a d => { d with text := some a }

def invalidJobShape : Shape Draft Fault where
  subject := "struct variant SimError::InvalidProcess"
  draft := {}
  fields := [numberField "pid" (Node.natural 32 "u32"), textField "reason"]
  make missing d := do
    let pid ← require missing "pid" d.number
    let reason ← require missing "reason" d.text
    return invalidJob (.ofNat pid) reason

def badLineShape : Shape Draft Fault where
  subject := "struct variant SimError::Parse"
  draft := {}
  fields := [numberField "line" (Node.natural 64 "usize"), textField "message"]
  make missing d := do
    let line ← require missing "line" d.number
    let message ← require missing "message" d.text
    return badLine line message

def ofDetails (node : Node) : Kind → Except Json.Fault Fault
  | .duplicatePid => duplicatePid <$> node.word32
  | .invalidJob => invalidJobShape.ofObject node
  | .badLine => badLineShape.ofObject node
  | .badJson => badJson <$> node.string
  | .io => io <$> node.string
  | .configuration => configuration <$> node.string

def Kind.ofName (name : String) : Except Json.Fault Kind :=
  match Kind.all.find? (·.name = name) with
  | some k => .ok k
  | none => .error (.unknownVariant name (Kind.all.map Kind.name))

/-- A kind by its name, alone or as the one key of an object with the value `null`. -/
def Kind.ofNode : Node → Except Json.Fault Kind
  | .text q => do ofName (← q.text)
  | .broken .atEnd => .error .endInValue
  | .object (.done .atEnd) => .error .endInObject
  | .object (.noKey _) => .error .keyNotString
  | .object (.badKey key) => .error key.fault
  | .object (.noColon key atEnd) => do
    let _ ← ofName (← key.text)
    .error (Json.colonFault atEnd)
  | .object (.cons key value tail) => do
    let kind ← ofName (← key.text)
    match value, tail with
    | .null, .done .closed => return kind
    | .null, .done .atEnd => .error .endInObject
    | .null, _ => .error .noValue
    | value, _ => .error (value.mismatch "unit")
  | _ => .error .noValue

def Kind.ofText : Node → Except Json.Fault Kind
  | .text q => do ofName (← q.text)
  | node => .error (node.mismatch "variant identifier")

/-- Pass over members up to the next kind or details: its key, its value, the members behind it. -/
def seek : Members → Except Json.Fault (Option (String × Except Json.Fault Node × Members))
  | .done stop => do
    stop.inObject
    return none
  | .noKey _ => .error .keyNotString
  | .badKey key => .error key.fault
  | .noColon key atEnd => do
    let name ← key.text
    let fault := Json.colonFault atEnd
    if name = kindKey ∨ name = detailsKey then return some (name, .error fault, .done .closed)
    else .error fault
  | .cons key value tail => do
    let name ← key.text
    if name = kindKey ∨ name = detailsKey then return some (name, .ok value, tail)
    else
      value.pass
      seek tail

def finish (f : Fault) (members : Members) : Except Json.Fault Fault := do
  match ← seek members with
  | none => return f
  | some (name, _) => .error (.duplicateField name)

def ofMembers (members : Members) : Except Json.Fault Fault := do
  match ← seek members with
  | none => .error (.missingField kindKey)
  | some (first, value, members) =>
    if first = kindKey then
      let kind ← Kind.ofNode (← value)
      match ← seek members with
      | none => .error (.missingField detailsKey)
      | some (second, value, members) =>
        if second = kindKey then .error (.duplicateField kindKey)
        else finish (← ofDetails (← value) kind) members
    else
      let held ← value
      held.hold heldDepth
      match ← seek members with
      | none => .error (.missingField kindKey)
      | some (second, value, members) =>
        if second = detailsKey then .error (.duplicateField detailsKey)
        else finish (← ofDetails held (← Kind.ofNode (← value))) members

def ofItems : Items → Except Json.Fault Fault
  | .done stop => do
    stop.inList
    .error (.wrongLength 0 subject)
  | .cons head tail => do
    let kind ← Kind.ofText head
    match tail with
    | .done stop =>
      stop.inList
      .error (.wrongLength 1 subject)
    | .cons head tail =>
      let f ← ofDetails head kind
      match tail with
      | .done stop =>
        stop.inFullList
        return f
      | .cons _ _ => .error .trailingCharacters

def ofNode : Node → Except Json.Fault Fault
  | .object members => ofMembers members
  | .list items => ofItems items
  | node => .error (node.mismatch subject)

def ofJson (text : String) : Except Json.Fault Fault := Json.decode ofNode text

end FirstCome.Fault
