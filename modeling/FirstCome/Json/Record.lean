import FirstCome.Json.Decode

/-!
Records: an object with named fields in any order, or a list of the fields in their own order. The
fields gather in a draft, from which the record is made once the text has no more of them.
-/
namespace FirstCome.Json

/-- A field of a record, and its place in the draft `σ`. -/
structure Slot (σ : Type) where
  name : String
  isSet : σ → Bool
  read : Node → σ → Except Fault σ

def Slot.of {σ α : Type} (name : String) (decode : Node → Except Fault α)
    (get : σ → Option α) (set : α → σ → σ) : Slot σ :=
  ⟨name, fun s => (get s).isSome, fun node s => do return set (← decode node) s⟩

def require {α : Type} (missing : String → Fault) (name : String) : Option α → Except Fault α
  | some a => .ok a
  | none => .error (missing name)

def pick {σ : Type} (fields : List (Slot σ)) (s : σ) (name : String) :
    Except Fault (Option (Slot σ)) :=
  match fields.find? (·.name = name) with
  | some f => if f.isSet s then .error (.duplicateField name) else .ok (some f)
  | none => .ok none

/-- The draft filled from the members of an object. A name is judged before its value is read. -/
def Members.fill {σ : Type} (fields : List (Slot σ)) (s : σ) : Members → Except Fault σ
  | .done stop => do
    stop.inObject
    return s
  | .noKey _ => .error .keyNotString
  | .badKey key => .error key.fault
  | .noColon key atEnd => do
    let _ ← pick fields s (← key.text)
    .error (colonFault atEnd)
  | .cons key value tail => do
    match ← pick fields s (← key.text) with
    | some f => tail.fill fields (← f.read value s)
    | none =>
      value.pass
      tail.fill fields s

/-- The draft filled from the elements of a list, which may end early but not late. -/
def Items.fill {σ : Type} : List (Slot σ) → σ → Items → Except Fault σ
  | f :: fields, s, .cons head tail => do tail.fill fields (← f.read head s)
  | _ :: _, s, .done stop => do
    stop.inList
    return s
  | [], s, .done stop => do
    stop.inFullList
    return s
  | [], _, .cons _ _ => .error .trailingCharacters

structure Shape (σ α : Type) where
  /-- What a fault calls the record. -/
  subject : String
  draft : σ
  fields : List (Slot σ)
  /-- The record, or what `missing` says of the first field that is wanting. -/
  make : (missing : String → Fault) → σ → Except Fault α

namespace Shape

variable {σ α : Type}

def ofMembers (r : Shape σ α) (members : Members) : Except Fault α := do
  r.make .missingField (← members.fill r.fields r.draft)

def ofItems (r : Shape σ α) (items : Items) : Except Fault α := do
  let missing := fun name =>
    Fault.wrongLength (r.fields.findIdx (·.name = name))
      (r.subject ++ " with " ++ toString r.fields.length ++ " elements")
  r.make missing (← items.fill r.fields r.draft)

def ofNode (r : Shape σ α) : Node → Except Fault α
  | .object members => r.ofMembers members
  | .list items => r.ofItems items
  | node => .error (node.mismatch r.subject)

def ofObject (r : Shape σ α) : Node → Except Fault α
  | .object members => r.ofMembers members
  | node => .error (node.mismatch r.subject)

end Shape
end FirstCome.Json
