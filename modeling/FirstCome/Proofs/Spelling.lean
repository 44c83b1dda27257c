import Mathlib.Algebra.GroupWithZero.Nat
import Mathlib.Data.List.TakeDrop
import FirstCome.Fault
import FirstCome.Json.Decode
import FirstCome.Json.Value

/-!
Strings and natural numbers as a document spells them are read back whole, whatever follows; a number
only if what follows cannot be more of it.
-/
namespace FirstCome.Json

def Piece.spelling (c : Char) : Piece :=
  match c with
  | '\x08' | '\t' | '\n' | '\x0c' | '\r' => .char c
  | c => if c.toNat < 0x20 then .unit c.toNat else .char c

def Quotation.spelling (s : String) : Quotation := ⟨s.toList.map Piece.spelling, .closed⟩

theorem hexDigit?_digitChar : ∀ n < 16, hexDigit? (Nat.digitChar n) = some n := by
  decide

theorem hexUnit?_control {n : Nat} (h : n < 0x20) :
    hexUnit? '0' '0' (Nat.digitChar (n / 16)) (Nat.digitChar (n % 16)) = some n := by
  have hzero : hexDigit? '0' = some 0 := rfl
  have hhigh := hexDigit?_digitChar (n / 16) (by omega)
  have hlow := hexDigit?_digitChar (n % 16) (by omega)
  simp only [hexUnit?, hzero, hhigh, hlow, Option.bind_eq_bind, Option.bind_some, Option.pure_def,
    Option.some.injEq]
  omega

theorem readQuotation_cons {c : Char} (hquote : c ≠ '"') (hslash : c ≠ '\\') (hplain : 0x20 ≤ c.toNat)
    (cs : List Char) :
    readQuotation (c :: cs) = ((readQuotation cs).1.cons (.char c), (readQuotation cs).2) := by
  rw [readQuotation.eq_def]
  split
  case h_7 heq =>
    obtain ⟨rfl, rfl⟩ := List.cons.inj heq
    rw [if_neg (Nat.not_lt.mpr hplain)]
  all_goals simp_all

theorem spelling_eq {c : Char} (h8 : c ≠ '\x08') (h9 : c ≠ '\t') (h10 : c ≠ '\n') (h12 : c ≠ '\x0c')
    (h13 : c ≠ '\r') : Piece.spelling c = if c.toNat < 0x20 then .unit c.toNat else .char c := by
  unfold Piece.spelling
  split <;> first | contradiction | rfl

theorem readQuotation_escape (c : Char) (cs : List Char) :
    readQuotation (escape c ++ cs) =
      ((readQuotation cs).1.cons (.spelling c), (readQuotation cs).2) := by
  unfold escape
  split
  case h_8 _ hquote hslash h8 h9 h10 h12 h13 =>
    rw [spelling_eq h8 h9 h10 h12 h13]
    by_cases hcontrol : c.toNat < 0x20
    · have hunit := hexUnit?_control hcontrol
      rw [if_pos hcontrol, if_pos hcontrol]
      simp only [List.cons_append, List.nil_append]
      rw [readQuotation, hunit]
    · rw [if_neg hcontrol, if_neg hcontrol]
      exact readQuotation_cons hquote hslash (Nat.not_lt.mp hcontrol) cs
  all_goals rfl

theorem readQuotation_spelling (s : List Char) (rest : List Char) :
    readQuotation (s.flatMap escape ++ '"' :: rest) =
      (⟨s.map Piece.spelling, .closed⟩, rest) := by
  induction s with
  | nil => rfl
  | cons c s ih =>
    rw [List.flatMap_cons, List.append_assoc, readQuotation_escape, ih]
    rfl

theorem spelling_cases (c : Char) :
    Piece.spelling c = .char c ∨ c.toNat < 0x20 ∧ Piece.spelling c = .unit c.toNat := by
  unfold Piece.spelling
  split
  case h_6 => by_cases hcontrol : c.toNat < 0x20 <;> simp [hcontrol]
  all_goals exact .inl rfl

theorem join_spelling (stop : Stop) (s : List Char) :
    Quotation.join stop (s.map Piece.spelling) = .ok s := by
  induction s with
  | nil => rfl
  | cons c s ih =>
    obtain hchar | ⟨hcontrol, hunit⟩ := spelling_cases c
    · rw [List.map_cons, hchar, Quotation.join, ih]
      rfl
    · -- units are written for control characters only, so none is half of a pair
      have hhigh : isHighSurrogate c.toNat = false := by simp [isHighSurrogate]; omega
      have hlow : isLowSurrogate c.toNat = false := by simp [isLowSurrogate]; omega
      rw [List.map_cons, hunit, Quotation.join.eq_def]
      simp only [hlow, hhigh, ih, Char.ofNat_toNat, Bool.false_eq_true, if_false]
      rfl

theorem text_spelling (s : String) : (Quotation.spelling s).text = .ok s := by
  have hjoin := join_spelling .closed s.toList
  simp [Quotation.text, Quotation.spelling, hjoin, Quotation.check]

def Numeral.spelling (n : Nat) : Numeral := { whole := Nat.toDigits 10 n }

/-- A character that a number before it would take in. -/
def extendsNumeral (c : Char) : Bool := c.isDigit || c == '.' || c == 'e' || c == 'E'

/-- A number before this text ends where the text begins. -/
def EndsNumeral (cs : List Char) : Prop := ∀ c ∈ cs.head?, extendsNumeral c = false

theorem eq_zero_of_head?_toDigits {n : Nat} (h : (Nat.toDigits 10 n).head? = some '0') : n = 0 := by
  induction n using Nat.strongRecOn with
  | ind n ih =>
    by_cases hn : n < 10
    · have hdigit : ∀ m < 10, (Nat.digitChar m) = '0' → m = 0 := by decide
      rw [Nat.toDigits_of_lt_base hn] at h
      exact hdigit n hn (by simpa using h)
    · have hhead : (Nat.toDigits 10 (n / 10)).head? = some '0' := by
        rw [Nat.toDigits_of_base_le (by decide) (by omega)] at h
        cases hquot : Nat.toDigits 10 (n / 10) with
        | nil => exact absurd hquot Nat.toDigits_ne_nil
        | cons d ds => simpa [hquot] using h
      have hquot := ih (n / 10) (by omega) hhead
      omega

theorem span_digits {ds rest : List Char} (hds : ∀ c ∈ ds, c.isDigit = true)
    (hrest : EndsNumeral rest) : (ds ++ rest).span Char.isDigit = (ds, rest) := by
  rw [List.span_eq_takeWhile_dropWhile, List.takeWhile_append_of_pos hds, List.dropWhile_append_of_pos hds]
  cases rest with
  | nil => simp
  | cons c rest =>
    have hc : c.isDigit = false := by
      have hextends := hrest c rfl
      simp only [extendsNumeral, Bool.or_eq_false_iff] at hextends
      exact hextends.1.1.1
    simp [hc]

theorem readWhole_toDigits (n : Nat) {rest : List Char} (hrest : EndsNumeral rest) :
    readWhole (Nat.toDigits 10 n ++ rest) = .ok (Nat.toDigits 10 n, rest) := by
  have hall : ∀ c ∈ Nat.toDigits 10 n, c.isDigit = true :=
    fun c => Nat.isDigit_of_mem_toDigits (by decide) (by decide)
  have hspan := span_digits hall hrest
  cases hn : Nat.toDigits 10 n with
  | nil => exact absurd hn Nat.toDigits_ne_nil
  | cons d ds =>
    rw [hn] at hall hspan
    by_cases hd : d = '0'
    · have hzero : n = 0 := eq_zero_of_head?_toDigits (by rw [hn, hd]; rfl)
      obtain ⟨rfl, rfl⟩ : d = '0' ∧ ds = [] := by simpa [hzero, eq_comm] using hn
      cases rest with
      | nil => rfl
      | cons c rest =>
        have hc := hrest c rfl
        simp_all [readWhole, extendsNumeral]
    · rw [List.cons_append, readWhole.eq_def]
      split
      · simp_all
      · rw [needDigits, if_pos (hall d List.mem_cons_self), ← List.cons_append, hspan]

theorem readNumeral_toDigits (n : Nat) {rest : List Char} (hrest : EndsNumeral rest) :
    readNumeral false (Nat.toDigits 10 n ++ rest) = .ok (.spelling n, rest) := by
  have hwhole := readWhole_toDigits n hrest
  have hfraction : readFraction rest = .ok ([], rest) := by
    cases rest with
    | nil => rfl
    | cons c rest =>
      have hc := hrest c rfl
      rw [readFraction.eq_def]
      split <;> simp_all [extendsNumeral]
  have hexponent : readExponent rest = .ok (none, rest) := by
    cases rest with
    | nil => rfl
    | cons c rest =>
      have hc := hrest c rfl
      simp_all [readExponent, extendsNumeral]
  simp [readNumeral, hwhole, hfraction, hexponent, Numeral.spelling]

theorem absorb_eq {n : Nat} {ds : List Char} (h : Nat.ofDigitChars 10 ds n < 2 ^ 64) :
    Numeral.absorb n ds = (Nat.ofDigitChars 10 ds n, []) := by
  induction ds generalizing n with
  | nil => rfl
  | cons d ds ih =>
    rw [Nat.ofDigitChars_cons, Nat.mul_comm] at h ⊢
    have hle : n * 10 + (d.toNat - 48) ≤ Nat.ofDigitChars 10 ds (n * 10 + (d.toNat - 48)) := by
      rw [Nat.ofDigitChars_eq_ofDigitChars_zero]
      exact Nat.le_trans (Nat.le_mul_of_pos_left _ (Nat.pow_pos (by decide))) (Nat.le_add_right _ _)
    rw [Numeral.absorb, if_pos (by rw [Nat.one_shiftLeft]; exact Nat.lt_of_le_of_lt hle h)]
    exact ih h

theorem value_spelling {n : Nat} (h : n < 2 ^ 64) : (Numeral.spelling n).value = .ok (.integer n) := by
  have habsorb : Numeral.absorb 0 (Nat.toDigits 10 n) = (n, []) := by
    rw [absorb_eq] <;> rw [Nat.ofDigitChars_ten_toDigits]
    exact h
  simp [Numeral.value, Numeral.spelling, habsorb]

end FirstCome.Json
