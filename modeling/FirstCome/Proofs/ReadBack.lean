import FirstCome.Proofs.Layout

/-!
The node that a written document is read as: one constructor for each constructor of its value, whatever
white space stands between the parts.
-/
namespace FirstCome.Json

mutual

/-- The node that a document with this value is read as. A binary number counts as `null`: no document
with one is read back here. -/
def Value.node : Value → Node
  | .null | .real _ => .null
  | .boolean b => .boolean b
  | .natural n => .number (.spelling n)
  | .text s => .text (.spelling s)
  | .list items => .list (Value.itemNodes items)
  | .object members => .object (Value.memberNodes members)

def Value.itemNodes : List Value → Items
  | [] => .done .closed
  | v :: vs => .cons v.node (Value.itemNodes vs)

def Value.memberNodes : List (String × Value) → Members
  | [] => .done .closed
  | (k, v) :: ms => .cons (.spelling k) v.node (Value.memberNodes ms)

end

inductive Value.Discrete : Value → Prop
  | null : Discrete .null
  | boolean (b : Bool) : Discrete (.boolean b)
  | natural (n : Nat) : Discrete (.natural n)
  | text (s : String) : Discrete (.text s)
  | list {items : List Value} (h : ∀ v ∈ items, Discrete v) : Discrete (.list items)
  | object {members : List (String × Value)} (h : ∀ m ∈ members, Discrete m.2) :
    Discrete (.object members)

theorem skipSpace_append {gap cs : List Char} (h : ∀ c ∈ gap, isSpace c = true) :
    skipSpace (gap ++ cs) = skipSpace cs :=
  List.dropWhile_append_of_pos h

theorem skipSpace_cons {c : Char} {cs : List Char} (h : isSpace c = false) :
    skipSpace (c :: cs) = c :: cs := by
  simp [skipSpace, h]

theorem readAt_append (fuel : Nat) {gap cs : List Char} (h : ∀ c ∈ gap, isSpace c = true) :
    readAt fuel (gap ++ cs) = readAt fuel cs := by
  rw [readAt.eq_def, skipSpace_append h, ← readAt.eq_def]

theorem isSpace_of_isDigit {c : Char} (h : c.isDigit = true) : isSpace c = false := by
  simp only [isSpace, Bool.or_eq_false_iff, beq_eq_false_iff_ne]
  refine ⟨⟨⟨?_, ?_⟩, ?_⟩, ?_⟩ <;> (rintro rfl; exact absurd h (by decide))

theorem readAt_digit (fuel : Nat) {c : Char} {cs : List Char} (h : c.isDigit = true) :
    readAt (fuel + 1) (c :: cs) = readNumber false (c :: cs) := by
  rw [readAt.eq_def, skipSpace_cons (isSpace_of_isDigit h)]
  split <;> simp_all

theorem extendsNumeral_of_isSpace {c : Char} (h : isSpace c = true) : extendsNumeral c = false := by
  simp only [isSpace, Bool.or_eq_true, beq_iff_eq] at h
  obtain ((rfl | rfl) | rfl) | rfl := h <;> rfl

theorem EndsNumeral.cons {c : Char} (cs : List Char) (h : extendsNumeral c = false) :
    EndsNumeral (c :: cs) := by
  intro d hd
  obtain rfl : c = d := by simpa using hd
  exact h

theorem EndsNumeral.spaces_append {gap cs : List Char} (hgap : ∀ c ∈ gap, isSpace c = true)
    (hcs : EndsNumeral cs) : EndsNumeral (gap ++ cs) := by
  cases gap with
  | nil => exact hcs
  | cons c gap => exact .cons _ (extendsNumeral_of_isSpace (hgap c List.mem_cons_self))

/-- How the items between two marks are read, by one function that looks for the next item or the closing
mark and one that reads an item and goes on. Lists and objects differ in their items only. -/
structure Bracketed (β : Type) where
  closing : Char
  done : β
  next : Nat → Bool → List Char → β × List Char
  item : Nat → List Char → β × List Char
  isSpace_closing : isSpace closing = false
  extendsNumeral_closing : extendsNumeral closing = false
  next_closing {fuel first cs rest} : skipSpace cs = closing :: rest →
    next (fuel + 1) first cs = (done, rest)
  next_first {fuel cs c rest} : skipSpace cs = c :: rest → c ≠ closing →
    next (fuel + 1) true cs = item fuel (c :: rest)
  next_comma {fuel cs ds c rest} : skipSpace cs = ',' :: ds → skipSpace ds = c :: rest →
    c ≠ closing → next (fuel + 1) false cs = item fuel (c :: rest)

def Bracketed.list : Bracketed Items where
  closing := ']'
  done := .done .closed
  next := readAt.readItems
  item := readAt.readItem
  isSpace_closing := rfl
  extendsNumeral_closing := rfl
  next_closing h := by
    rw [readAt.readItems.eq_def]
    simp [h]
  next_first h hc := by
    rw [readAt.readItems.eq_def]
    simp [h, hc]
  next_comma h h' hc := by
    rw [readAt.readItems.eq_def]
    simp [h, h', hc]

def Bracketed.object : Bracketed Members where
  closing := '\x7d'
  done := .done .closed
  next := readAt.readMembers
  item := readAt.readMember
  isSpace_closing := rfl
  extendsNumeral_closing := rfl
  next_closing h := by
    rw [readAt.readMembers.eq_def]
    simp [h]
  next_first h hc := by
    rw [readAt.readMembers.eq_def]
    simp [h, hc]
  next_comma h h' hc := by
    rw [readAt.readMembers.eq_def]
    simp [h, h', hc]

theorem Bracketed.closing_list : Bracketed.list.closing = ']' := rfl

theorem Bracketed.closing_object : Bracketed.object.closing = '\x7d' := rfl

theorem readAt_quote (fuel : Nat) (cs : List Char) :
    readAt (fuel + 1) ('"' :: cs) = (.text (readQuotation cs).1, (readQuotation cs).2) := rfl

theorem readAt_bracket (fuel : Nat) (cs : List Char) : readAt (fuel + 1) ('[' :: cs) =
    (.list (Bracketed.list.next fuel true cs).1, (Bracketed.list.next fuel true cs).2) := rfl

theorem readAt_brace (fuel : Nat) (cs : List Char) : readAt (fuel + 1) ('\x7b' :: cs) =
    (.object (Bracketed.object.next fuel true cs).1, (Bracketed.object.next fuel true cs).2) := rfl

namespace Bracketed

variable {β : Type} (r : Bracketed β)

structure ReadsItem (text : List Char) (add : β → β) : Prop where
  opens : ∃ c cs, text = c :: cs ∧ isSpace c = false ∧ c ≠ r.closing
  item_eq {fuel rest} : 4 * text.length ≤ fuel + 2 → EndsNumeral rest →
    r.item (fuel + 1) (text ++ rest) = (add (r.next fuel false rest).1, (r.next fuel false rest).2)

inductive ReadsItems : List (List Char) → β → Prop
  | nil : ReadsItems [] r.done
  | cons {text texts add b} (head : r.ReadsItem text add) (tail : ReadsItems texts b) :
    ReadsItems (text :: texts) (add b)

variable {r} {text : List Char} {add : β → β} {gap : List Char} {rest : List Char}

theorem ReadsItem.skipSpace_eq (h : r.ReadsItem text add) (hgap : ∀ c ∈ gap, isSpace c = true)
    (rest : List Char) :
    ∃ c cs, text ++ rest = c :: cs ∧ skipSpace (gap ++ (text ++ rest)) = c :: cs ∧
      c ≠ r.closing := by
  obtain ⟨c, cs, rfl, hspace, hc⟩ := h.opens
  exact ⟨c, cs ++ rest, rfl, by rw [skipSpace_append hgap, List.cons_append, skipSpace_cons hspace], hc⟩

theorem ReadsItem.next_first (h : r.ReadsItem text add) (fuel : Nat) (hgap : ∀ c ∈ gap, isSpace c = true)
    (hfuel : 4 * text.length ≤ fuel + 2) (hrest : EndsNumeral rest) :
    r.next (fuel + 2) true (gap ++ (text ++ rest)) =
      (add (r.next fuel false rest).1, (r.next fuel false rest).2) := by
  obtain ⟨c, cs, htext, hskip, hc⟩ := h.skipSpace_eq hgap rest
  rw [r.next_first hskip hc, ← htext, h.item_eq hfuel hrest]

theorem ReadsItem.next_comma (h : r.ReadsItem text add) (fuel : Nat) (hgap : ∀ c ∈ gap, isSpace c = true)
    (hfuel : 4 * text.length ≤ fuel + 2) (hrest : EndsNumeral rest) :
    r.next (fuel + 2) false (',' :: (gap ++ (text ++ rest))) =
      (add (r.next fuel false rest).1, (r.next fuel false rest).2) := by
  obtain ⟨c, cs, htext, hskip, hc⟩ := h.skipSpace_eq hgap rest
  rw [r.next_comma (skipSpace_cons rfl) hskip hc, ← htext, h.item_eq hfuel hrest]

end Bracketed

namespace Layout

variable {l : Layout} {β : Type} {r : Bracketed β} {texts : List (List Char)} {b : β} {fuel : Nat}

theorem follow_cons (depth : Nat) (text : List Char) (texts : List (List Char)) :
    l.follow depth (text :: texts) = ',' :: (l.margin depth ++ (text ++ l.follow depth texts)) := by
  simp [follow]

theorem enclose_eq (depth : Nat) (opening closing : Char) (items : List (List Char)) :
    l.enclose depth opening closing items =
      opening :: (l.enclose depth opening closing items).tail := by
  cases items <;> rfl

theorem endsNumeral_follow (depth : Nat) (texts : List (List Char)) {gap : List Char} (rest : List Char)
    (hgap : ∀ c ∈ gap, isSpace c = true) :
    EndsNumeral (l.follow depth texts ++ (gap ++ r.closing :: rest)) := by
  cases texts with
  | nil => simpa [follow] using EndsNumeral.spaces_append hgap (.cons rest r.extendsNumeral_closing)
  | cons text texts => exact .cons _ rfl

theorem next_follow (h : r.ReadsItems texts b) (depth : Nat) {gap : List Char} (rest : List Char)
    (hgap : ∀ c ∈ gap, isSpace c = true) (hfuel : 4 * (l.follow depth texts).length + 1 ≤ fuel) :
    r.next fuel false (l.follow depth texts ++ (gap ++ r.closing :: rest)) = (b, rest) := by
  -- four units of fuel for each character are more than the two calls that each item uses up
  induction h generalizing fuel with
  | nil =>
    obtain ⟨k, rfl⟩ : ∃ k, fuel = k + 1 := Nat.exists_eq_add_one.mpr (by omega)
    refine r.next_closing ?_
    rw [follow, List.flatMap_nil, List.nil_append, skipSpace_append hgap, skipSpace_cons r.isSpace_closing]
  | @cons text texts add b head tail ih =>
    rw [follow_cons] at hfuel ⊢
    simp only [List.length_append, List.length_cons] at hfuel
    obtain ⟨k, rfl⟩ : ∃ k, fuel = k + 2 := Nat.exists_eq_add_of_le' (by omega)
    have hends := endsNumeral_follow (l := l) (r := r) depth texts rest hgap
    have hnext := head.next_comma k (l.margin_space depth) (by omega) hends
    rw [ih (by omega)] at hnext
    simpa using hnext

theorem next_enclose (h : r.ReadsItems texts b) (depth : Nat) (opening : Char) (rest : List Char)
    (hfuel : 4 * (l.enclose depth opening r.closing texts).length ≤ fuel + 3) :
    r.next fuel true ((l.enclose depth opening r.closing texts).tail ++ rest) = (b, rest) := by
  cases h with
  | nil =>
    simp only [enclose, List.length_cons] at hfuel
    obtain ⟨k, rfl⟩ : ∃ k, fuel = k + 1 := Nat.exists_eq_add_one.mpr (by omega)
    exact r.next_closing (skipSpace_cons r.isSpace_closing)
  | @cons text texts add b head tail =>
    simp only [enclose, List.length_cons, List.length_append] at hfuel
    obtain ⟨k, rfl⟩ : ∃ k, fuel = k + 2 := Nat.exists_eq_add_of_le' (by omega)
    have hmargin := l.margin_space depth
    have hends := endsNumeral_follow (l := l) (r := r) (depth + 1) texts rest hmargin
    have hnext := head.next_first k (l.margin_space (depth + 1)) (by omega) hends
    rw [next_follow tail (depth + 1) rest hmargin (by omega)] at hnext
    simpa [enclose] using hnext

/-- Wherever the value stands in a document, it is read as its node. -/
def ReadsBack (l : Layout) (v : Value) : Prop :=
  ∀ (depth fuel : Nat) (rest : List Char), 4 * (l.spell depth v).length ≤ fuel + 2 →
    EndsNumeral rest → readAt fuel (l.spell depth v ++ rest) = (v.node, rest)

theorem spell_opens {v : Value} (h : v.Discrete) (depth : Nat) :
    ∃ c cs, l.spell depth v = c :: cs ∧ isSpace c = false ∧ c ≠ ']' := by
  cases h with
  | null => exact ⟨_, _, rfl, rfl, by decide⟩
  | boolean b => cases b <;> exact ⟨_, _, rfl, rfl, by decide⟩
  | natural n =>
    cases hn : Nat.toDigits 10 n with
    | nil => exact absurd hn Nat.toDigits_ne_nil
    | cons d ds =>
      have hd : d.isDigit = true :=
        Nat.isDigit_of_mem_toDigits (by decide) (by decide) (hn ▸ List.mem_cons_self)
      refine ⟨d, ds, hn, isSpace_of_isDigit hd, ?_⟩
      rintro rfl
      exact absurd hd (by decide)
  | text s => exact ⟨_, _, toList_writeText s, rfl, by decide⟩
  | @list items _ => cases items <;> exact ⟨_, _, rfl, rfl, by decide⟩
  | @object members _ => cases members <;> exact ⟨_, _, rfl, rfl, by decide⟩

theorem readsItem_list {v : Value} (hd : v.Discrete) (h : l.ReadsBack v) (depth : Nat) :
    Bracketed.list.ReadsItem (l.spell depth v) (Items.cons v.node) where
  opens := spell_opens hd depth
  item_eq {fuel rest} hfuel hrest := by
    have hread := h depth fuel rest hfuel hrest
    simp [Bracketed.list, readAt.readItem, hread]

theorem readsItem_object {v : Value} (h : l.ReadsBack v) (key : String) (depth : Nat) :
    Bracketed.object.ReadsItem ((writeText key).toList ++ ':' :: l.gap ++ l.spell depth v)
      (Members.cons (.spelling key) v.node) where
  opens := by
    rw [toList_writeText]
    exact ⟨_, _, rfl, rfl, by decide⟩
  item_eq {fuel rest} hfuel hrest := by
    simp only [List.length_append] at hfuel
    have hkey := readQuotation_spelling key.toList (':' :: (l.gap ++ (l.spell depth v ++ rest)))
    have hcolon : skipSpace (':' :: (l.gap ++ (l.spell depth v ++ rest))) = _ := skipSpace_cons rfl
    have hread := h depth fuel rest (by omega) hrest
    rw [← readAt_append fuel l.gap_space] at hread
    simp [Bracketed.object, readAt.readMember, toList_writeText, hkey, hcolon, hread, Quotation.spelling]

theorem readsItems_list {items : List Value} (hd : ∀ v ∈ items, v.Discrete)
    (h : ∀ v ∈ items, l.ReadsBack v) (depth : Nat) :
    Bracketed.list.ReadsItems (l.spellItems depth items) (Value.itemNodes items) := by
  induction items with
  | nil => exact .nil
  | cons v vs ih =>
    rw [List.forall_mem_cons] at hd h
    exact .cons (readsItem_list hd.1 h.1 depth) (ih hd.2 h.2)

theorem readsItems_object {members : List (String × Value)} (h : ∀ m ∈ members, l.ReadsBack m.2)
    (depth : Nat) :
    Bracketed.object.ReadsItems (l.spellMembers depth members) (Value.memberNodes members) := by
  induction members with
  | nil => exact .nil
  | cons m ms ih =>
    rw [List.forall_mem_cons] at h
    exact .cons (readsItem_object h.1 m.1 depth) (ih h.2)

theorem readsBack_of_succ {v : Value} (hd : v.Discrete)
    (h : ∀ (depth fuel : Nat) (rest : List Char), 4 * (l.spell depth v).length ≤ fuel + 3 →
      EndsNumeral rest → readAt (fuel + 1) (l.spell depth v ++ rest) = (v.node, rest)) :
    l.ReadsBack v := by
  intro depth fuel rest hfuel hrest
  -- no written value is empty, so there is fuel for one call
  obtain ⟨c, cs, hspell, -, -⟩ := spell_opens (l := l) hd depth
  have hlength : 1 ≤ (l.spell depth v).length := by simp [hspell]
  obtain ⟨k, rfl⟩ : ∃ k, fuel = k + 1 := Nat.exists_eq_add_one.mpr (by omega)
  exact h depth k rest hfuel hrest

theorem readsBack {v : Value} (h : v.Discrete) : l.ReadsBack v := by
  induction h with
  | null => exact readsBack_of_succ .null fun _ _ _ _ _ => rfl
  | boolean b => exact readsBack_of_succ (.boolean b) fun _ _ _ _ _ => by cases b <;> rfl
  | natural n =>
    refine readsBack_of_succ (.natural n) fun depth fuel rest _ hrest => ?_
    have hnumeral := readNumeral_toDigits n hrest
    rw [spell]
    cases hn : Nat.toDigits 10 n with
    | nil => exact absurd hn Nat.toDigits_ne_nil
    | cons d ds =>
      have hd : d.isDigit = true :=
        Nat.isDigit_of_mem_toDigits (by decide) (by decide) (hn ▸ List.mem_cons_self)
      rw [hn, List.cons_append] at hnumeral
      rw [List.cons_append, readAt_digit fuel hd, readNumber, hnumeral]
      rfl
  | text s =>
    refine readsBack_of_succ (.text s) fun depth fuel rest _ _ => ?_
    have htext : l.spell depth (.text s) ++ rest = '"' :: (s.toList.flatMap escape ++ '"' :: rest) := by
      simp [spell, toList_writeText]
    rw [htext, readAt_quote, readQuotation_spelling]
    rfl
  | @list items hd ih =>
    refine readsBack_of_succ (.list hd) fun depth fuel rest hfuel _ => ?_
    have hitems := next_enclose (readsItems_list hd ih (depth + 1)) depth '[' rest hfuel
    rw [spell, enclose_eq, List.cons_append, readAt_bracket, ← Bracketed.closing_list, hitems]
    rfl
  | @object members hd ih =>
    refine readsBack_of_succ (.object hd) fun depth fuel rest hfuel _ => ?_
    have hmembers := next_enclose (readsItems_object ih (depth + 1)) depth '\x7b' rest hfuel
    rw [spell, enclose_eq, List.cons_append, readAt_brace, ← Bracketed.closing_object, hmembers]
    rfl

end Layout

/-- The documents with this value that are written: compact, or over many lines from some level on. -/
inductive Value.PrintsAs (v : Value) : String → Prop
  | compact : PrintsAs v v.compact
  | pretty (depth : Nat) : PrintsAs v (v.pretty depth)

variable {v : Value} {text : String}

theorem Value.PrintsAs.exists_layout (h : v.PrintsAs text) :
    ∃ (l : Layout) (depth : Nat), text.toList = l.spell depth v := by
  cases h with
  | compact => exact ⟨.tight, 0, Layout.compact_eq 0 v⟩
  | pretty depth => exact ⟨.indented, depth, Layout.pretty_eq depth v⟩

theorem read_of_printsAs (hv : v.Discrete) (h : v.PrintsAs text) : read text.toList = (v.node, []) := by
  obtain ⟨l, depth, hspell⟩ := h.exists_layout
  have hread := Layout.readsBack (l := l) hv depth (4 * text.toList.length + 4) []
    (by rw [← hspell]; omega) (by simp [EndsNumeral])
  rwa [List.append_nil, ← hspell] at hread

theorem decode_of_printsAs {α : Type} (f : Node → Except Fault α) (hv : v.Discrete)
    (h : v.PrintsAs text) : decode f text = f v.node := by
  have hread := read_of_printsAs hv h
  cases hf : f v.node <;>
    simp [decode, hread, hf, skipSpace]

end FirstCome.Json
