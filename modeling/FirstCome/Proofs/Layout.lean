import FirstCome.Proofs.Spelling

/-!
Documents as they are written: one text with its white space as a parameter, of which the compact text and
the one over many lines are cases.
-/
namespace FirstCome.Json

/-- Where a document has white space: before the items of a level and its closing mark, and behind a
colon. -/
structure Layout where
  margin : Nat → List Char
  gap : List Char
  margin_space : ∀ depth, ∀ c ∈ margin depth, isSpace c = true
  gap_space : ∀ c ∈ gap, isSpace c = true

namespace Layout

def tight : Layout where
  margin _ := []
  gap := []
  margin_space := by simp
  gap_space := by simp

def indented : Layout where
  margin depth := '\n' :: List.replicate (2 * depth) ' '
  gap := [' ']
  margin_space depth c hc := by
    obtain rfl | hc := List.mem_cons.mp hc
    · rfl
    · rw [List.eq_of_mem_replicate hc]
      rfl
  gap_space := by simp [isSpace]

variable (l : Layout)

def follow (depth : Nat) (items : List (List Char)) : List Char :=
  items.flatMap fun item => ',' :: l.margin depth ++ item

/-- Items of the level `depth` between its marks; nothing between empty ones. -/
def enclose (depth : Nat) (opening closing : Char) : List (List Char) → List Char
  | [] => [opening, closing]
  | item :: items =>
    opening :: (l.margin (depth + 1) ++ item ++ l.follow (depth + 1) items ++ l.margin depth ++ [closing])

mutual

def spell (depth : Nat) : Value → List Char
  | .null => ['n', 'u', 'l', 'l']
  | .boolean b => if b then ['t', 'r', 'u', 'e'] else ['f', 'a', 'l', 's', 'e']
  | .natural n => Nat.toDigits 10 n
  | .real x => x.text.toList
  | .text s => (writeText s).toList
  | .list items => l.enclose depth '[' ']' (spellItems (depth + 1) items)
  | .object members => l.enclose depth '\x7b' '\x7d' (spellMembers (depth + 1) members)

def spellItems (depth : Nat) : List Value → List (List Char)
  | [] => []
  | v :: vs => spell depth v :: spellItems depth vs

def spellMembers (depth : Nat) : List (String × Value) → List (List Char)
  | [] => []
  | (k, v) :: ms => ((writeText k).toList ++ ':' :: l.gap ++ spell depth v) :: spellMembers depth ms

end

theorem intercalate_cons (sep item : List Char) (items : List (List Char)) :
    sep.intercalate (item :: items) = item ++ items.flatMap (sep ++ ·) := by
  induction items generalizing item with
  | nil => simp
  | cons next items ih =>
    rw [List.intercalate_cons_cons, ih, List.flatMap_cons, List.append_assoc, List.append_assoc]

theorem toList_writeText (s : String) :
    (writeText s).toList = '"' :: s.toList.flatMap escape ++ ['"'] := by
  simp [writeText]

theorem tight_enclose (depth : Nat) (opening closing : Char) (items : List (List Char)) :
    tight.enclose depth opening closing items = opening :: [','].intercalate items ++ [closing] := by
  cases items with
  | nil => rfl
  | cons item items => simp [enclose, follow, tight, intercalate_cons]

theorem indented_enclose {opening closing : String} {a z : Char} (ha : opening.toList = [a])
    (hz : closing.toList = [z]) (depth : Nat) (items : List String) :
    (layOut depth opening closing items).toList =
      indented.enclose depth a z (items.map String.toList) := by
  cases items with
  | nil => simp [layOut, enclose, ha, hz]
  | cons item items =>
    simp [layOut, enclose, follow, indented, intercalate_cons, ha, hz]

mutual

theorem compact_eq (depth : Nat) : ∀ v : Value, v.compact.toList = tight.spell depth v
  | .null => rfl
  | .boolean true => rfl
  | .boolean false => rfl
  | .natural n => by simp [Value.compact, spell]
  | .real _ => rfl
  | .text _ => rfl
  | .list items => by
    simp [Value.compact, spell, tight_enclose, compactItems_eq (depth + 1) items]
  | .object members => by
    simp [Value.compact, spell, tight_enclose, compactMembers_eq (depth + 1) members]

theorem compactItems_eq (depth : Nat) : ∀ items : List Value,
    (Value.compactItems items).map String.toList = tight.spellItems depth items
  | [] => rfl
  | v :: vs => by simp [Value.compactItems, spellItems, compact_eq depth v, compactItems_eq depth vs]

theorem compactMembers_eq (depth : Nat) : ∀ members : List (String × Value),
    (Value.compactMembers members).map String.toList = tight.spellMembers depth members
  | [] => rfl
  | (k, v) :: ms => by
    simp [Value.compactMembers, spellMembers, compact_eq depth v, compactMembers_eq depth ms, tight]

end

mutual

theorem pretty_eq (depth : Nat) : ∀ v : Value, (v.pretty depth).toList = indented.spell depth v
  | .null => by simp [Value.pretty, Value.compact, spell]
  | .boolean b => by cases b <;> simp [Value.pretty, Value.compact, spell]
  | .natural n => by simp [Value.pretty, Value.compact, spell]
  | .real _ => rfl
  | .text _ => rfl
  | .list items => by
    rw [Value.pretty, spell, indented_enclose (a := '[') (z := ']') rfl rfl, prettyItems_eq]
  | .object members => by
    rw [Value.pretty, spell, indented_enclose (a := '\x7b') (z := '\x7d') rfl rfl, prettyMembers_eq]

theorem prettyItems_eq (depth : Nat) : ∀ items : List Value,
    (Value.prettyItems depth items).map String.toList = indented.spellItems depth items
  | [] => rfl
  | v :: vs => by simp [Value.prettyItems, spellItems, pretty_eq depth v, prettyItems_eq depth vs]

theorem prettyMembers_eq (depth : Nat) : ∀ members : List (String × Value),
    (Value.prettyMembers depth members).map String.toList = indented.spellMembers depth members
  | [] => rfl
  | (k, v) :: ms => by
    simp [Value.prettyMembers, spellMembers, pretty_eq depth v, prettyMembers_eq depth ms, indented]

end

end Layout
end FirstCome.Json
