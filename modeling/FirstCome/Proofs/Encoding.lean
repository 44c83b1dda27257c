import FirstCome.Json.Record
import FirstCome.Proofs.ReadBack

/-!
Which values encode what, from the parts to the whole: numbers, strings, lists, and records whose fields
are written in their own order with some of them left out.
-/
namespace FirstCome.Json

variable {σ α β : Type}

/-- A written document with the value `v` is decoded as `a`. -/
structure Encodes (decode : Node → Except Fault α) (v : Value) (a : α) : Prop where
  discrete : v.Discrete
  decode_eq : decode v.node = .ok a

theorem Encodes.decode_printed {decode : Node → Except Fault α} {v : Value} {a : α} {text : String}
    (h : Encodes decode v a) (htext : v.PrintsAs text) : Json.decode decode text = .ok a := by
  rw [decode_of_printsAs decode h.discrete htext, h.decode_eq]

theorem Encodes.natural {bits n : Nat} (wanted : String) (h : n < 2 ^ bits) (hword : n < 2 ^ 64) :
    Encodes (Node.natural bits wanted) (.natural n) n where
  discrete := .natural n
  decode_eq := by
    have hbound : n < 1 <<< bits := by rwa [Nat.one_shiftLeft]
    simp only [Node.natural, Value.node, value_spelling hword, Except.ok_bind]
    exact if_pos ⟨Int.natCast_nonneg n, hbound⟩

theorem Encodes.map {decode : Node → Except Fault α} {v : Value} {a : α} (h : Encodes decode v a)
    (f : α → β) : Encodes (fun node => f <$> decode node) v (f a) :=
  ⟨h.discrete, by rw [h.decode_eq]; rfl⟩

theorem Encodes.word64 {n : Nat} (h : n < 2 ^ 64) : Encodes Node.word64 (.natural n) n :=
  .natural "u64" h h

theorem Encodes.word32 (n : UInt32) : Encodes Node.word32 (.natural n.toNat) n := by
  have hnatural := Encodes.natural "u32" n.toNat_lt (Nat.lt_trans n.toNat_lt (by decide))
  have hmap := hnatural.map UInt32.ofNat
  rwa [UInt32.ofNat_toNat] at hmap

theorem Encodes.string (s : String) : Encodes Node.string (.text s) s :=
  ⟨.text s, text_spelling s⟩

theorem Encodes.bool (b : Bool) : Encodes Node.bool (.boolean b) b :=
  ⟨.boolean b, rfl⟩

theorem collect_itemNodes {decode : Node → Except Fault α} {encode : α → Value} {as : List α}
    (h : ∀ a ∈ as, decode (encode a).node = .ok a) :
    (Value.itemNodes (as.map encode)).collect decode = .ok as := by
  induction as with
  | nil => rfl
  | cons a as ih =>
    rw [List.forall_mem_cons] at h
    simp [Value.itemNodes, Items.collect, h.1, ih h.2]

theorem Encodes.list {decode : Node → Except Fault α} {encode : α → Value} {as : List α}
    (h : ∀ a ∈ as, Encodes decode (encode a) a) :
    Encodes (Node.sequence decode) (.list (as.map encode)) as where
  discrete := by
    refine .list fun v hv => ?_
    obtain ⟨a, ha, rfl⟩ := List.mem_map.mp hv
    exact (h a ha).discrete
  decode_eq := collect_itemNodes fun a ha => (h a ha).decode_eq

def written (es : List (String × Option Value)) : List (String × Value) :=
  es.filterMap fun (name, v) => v.map fun v => (name, v)

theorem written_none (name : String) (es : List (String × Option Value)) :
    written ((name, none) :: es) = written es := rfl

theorem written_some (name : String) (v : Value) (es : List (String × Option Value)) :
    written ((name, some v) :: es) = (name, v) :: written es := rfl

/-- The entries of a written record fill the slots one after the other, from one draft to another. An
entry that is left out changes nothing. -/
inductive Fills : List (Slot σ) → List (String × Option Value) → σ → σ → Prop
  | nil (s : σ) : Fills [] [] s s
  | absent {f fs es s t} (tail : Fills fs es s t) : Fills (f :: fs) ((f.name, none) :: es) s t
  | present {f fs es v s s' t} (hv : v.Discrete) (hfree : f.isSet s = false)
    (hread : f.read v.node s = .ok s') (tail : Fills fs es s' t) :
    Fills (f :: fs) ((f.name, some v) :: es) s t

namespace Fills

variable {fields fs : List (Slot σ)} {es : List (String × Option Value)} {s t : σ} {name : String}
  {decode : Node → Except Fault β} {get : σ → Option β} {set : β → σ → σ}

theorem required {v : Value} {b : β} (h : Encodes decode v b) (hget : get s = none)
    (tail : Fills fs es (set b s) t) :
    Fills (.of name decode get set :: fs) ((name, some v) :: es) s t := by
  refine .present (f := .of name decode get set) h.discrete ?_ ?_ tail
  · simp [Slot.of, hget]
  · simp [Slot.of, h.decode_eq]

theorem optional (put : Option β → σ → σ) {o : Option Value} {b : Option β}
    (h : Option.Rel (Encodes decode) o b) (hget : get s = none) (hnone : put none s = s)
    (hsome : ∀ b, put (some b) s = set b s) (tail : Fills fs es (put b s) t) :
    Fills (.of name decode get set :: fs) ((name, o) :: es) s t := by
  cases h with
  | none =>
    rw [hnone] at tail
    exact .absent (f := .of name decode get set) tail
  | some h =>
    rw [hsome] at tail
    exact required h hget tail

theorem discrete (h : Fills fs es s t) : (Value.ofFields es).Discrete := by
  refine .object ?_
  change ∀ m ∈ written es, m.2.Discrete
  induction h with
  | nil => simp [written]
  | absent _ ih => rwa [written_none]
  | present hv _ _ _ ih =>
    rw [written_some, List.forall_mem_cons]
    exact ⟨hv, ih⟩

theorem find?_name (hnames : (fields.map Slot.name).Nodup) {f : Slot σ} (hf : f ∈ fields) :
    fields.find? (·.name = f.name) = some f := by
  induction fields with
  | nil => exact absurd hf List.not_mem_nil
  | cons g fields ih =>
    rw [List.map_cons, List.nodup_cons] at hnames
    obtain rfl | hf := List.mem_cons.mp hf
    · simp
    · have hne : g.name ≠ f.name := fun heq => hnames.1 (heq ▸ List.mem_map_of_mem hf)
      rw [List.find?_cons_of_neg (by simpa using hne), ih hnames.2 hf]

theorem fill_eq (h : Fills fs es s t) (hnames : (fields.map Slot.name).Nodup) (hfs : fs ⊆ fields) :
    (Value.memberNodes (written es)).fill fields s = .ok t := by
  induction h with
  | nil => rfl
  | absent tail ih => exact ih (List.subset_of_cons_subset hfs)
  | @present f fs es v s s' t _ hfree hread tail ih =>
    have hfind := find?_name hnames (hfs List.mem_cons_self)
    have hpick : pick fields s f.name = .ok (some f) := by simp [pick, hfind, hfree]
    have htail := ih (List.subset_of_cons_subset hfs)
    simp only [written_some, Value.memberNodes, Members.fill, text_spelling, hpick, hread,
      Except.ok_bind]
    exact htail

end Fills

variable {r : Shape σ α} {es : List (String × Option Value)} {t : σ} {a : α}

theorem ofMembers_eq (hnames : (r.fields.map Slot.name).Nodup) (h : Fills r.fields es r.draft t)
    (hmake : r.make .missingField t = .ok a) : r.ofMembers (Value.memberNodes (written es)) = .ok a := by
  have hfill := h.fill_eq hnames (List.Subset.refl _)
  rw [Shape.ofMembers, hfill]
  exact hmake

theorem Encodes.record (hnames : (r.fields.map Slot.name).Nodup) (h : Fills r.fields es r.draft t)
    (hmake : r.make .missingField t = .ok a) : Encodes r.ofNode (.ofFields es) a :=
  ⟨h.discrete, ofMembers_eq hnames h hmake⟩

theorem Encodes.objectOnly (hnames : (r.fields.map Slot.name).Nodup) (h : Fills r.fields es r.draft t)
    (hmake : r.make .missingField t = .ok a) : Encodes r.ofObject (.ofFields es) a :=
  ⟨h.discrete, ofMembers_eq hnames h hmake⟩

end FirstCome.Json
