import FirstCome.Proofs.Tokens

/-!
The lines of a text with their numbers: what the numbering of the lines that hold something keeps, however
a text is cut in two and whatever white space its lines end with. And the lines of a text that is put together
from pieces with a line feed behind each, where a piece is more than one line if it holds line feeds itself.
-/
namespace FirstCome

/-! ### White space at the end of a line -/

namespace Text

variable {bs : List Char}

theorem trimEnd_append_rest (cs : List Char) :
    trimEnd cs ++ (cs.reverse.takeWhile isBlank).reverse = cs := by
  rw [trimEnd, ← List.reverse_append, List.takeWhile_append_dropWhile, List.reverse_reverse]

theorem blank_of_mem_rest (cs : List Char) :
    ∀ b ∈ (cs.reverse.takeWhile isBlank).reverse, isBlank b = true :=
  fun _ hb => List.mem_takeWhile_imp (List.mem_reverse.mp hb)

theorem trimEnd_append (cs : List Char) (hb : ∀ b ∈ bs, isBlank b = true) :
    trimEnd (cs ++ bs) = trimEnd cs := by
  rw [trimEnd, List.reverse_append,
    List.dropWhile_append_of_pos fun b h => hb b (List.mem_reverse.mp h), trimEnd]

theorem trim_append (cs : List Char) (hb : ∀ b ∈ bs, isBlank b = true) : trim (cs ++ bs) = trim cs := by
  rw [trim, trim, trimStart, trimStart, List.dropWhile_append]
  split
  next hempty =>
    rw [List.isEmpty_iff.mp hempty, List.dropWhile_eq_nil_iff.mpr hb]
  next => exact trimEnd_append _ hb

theorem feed_induction {motive : List Char → Prop} (last : ∀ cs, '\n' ∉ cs → motive cs)
    (feed : ∀ as bs, '\n' ∉ as → motive bs → motive (as ++ '\n' :: bs)) (cs : List Char) :
    motive cs := by
  by_cases hfeed : '\n' ∈ cs
  · obtain ⟨as, bs, rfl, has⟩ := List.eq_append_cons_of_mem hfeed
    exact feed as bs has (feed_induction last feed bs)
  · exact last cs hfeed
termination_by cs.length

theorem feed_not_mem_of_mem_splitOn {l cs : List Char} (h : l ∈ cs.splitOn '\n') : '\n' ∉ l := by
  induction cs using feed_induction with
  | last cs hcs =>
    rw [List.splitOn_eq_singleton hcs, List.mem_singleton] at h
    rwa [h]
  | feed as bs has ih =>
    rw [List.splitOn_append_cons_self_of_not_mem has, List.mem_cons] at h
    obtain rfl | h := h
    · exact has
    · exact ih h

end Text

namespace Workload.Text

open FirstCome.Text

variable {bs : List Char} {n : Nat}

theorem cutComment_blanks (opens : Bool) (hb : ∀ b ∈ bs, isBlank b = true) :
    cutComment opens bs = bs := by
  induction bs generalizing opens with
  | nil => rfl
  | cons b bs ih =>
    obtain ⟨hb, hbs⟩ := List.forall_mem_cons.mp hb
    have hhash : (b == '#') = false := beq_false_of_ne fun he => absurd (he ▸ hb) (by decide)
    rw [cutComment, hhash, Bool.and_false, ih _ hbs]
    rfl

theorem cutComment_append (opens : Bool) (cs : List Char) (hb : ∀ b ∈ bs, isBlank b = true) :
    cutComment opens (cs ++ bs) = cutComment opens cs ∨
      cutComment opens (cs ++ bs) = cutComment opens cs ++ bs := by
  induction cs generalizing opens with
  | nil => exact .inr (cutComment_blanks opens hb)
  | cons c cs ih =>
    rw [List.cons_append, cutComment, cutComment]
    split
    · exact .inl rfl
    · exact (ih (isBlank c)).imp (congrArg (c :: ·)) (congrArg (c :: ·))

theorem trim_uncommented_append (cs : List Char) (hb : ∀ b ∈ bs, isBlank b = true) :
    trim (uncommented (cs ++ bs)) = trim (uncommented cs) := by
  rw [uncommented, uncommented]
  obtain h | h := cutComment_append true cs hb
  · rw [h]
  · rw [h, trim_append _ hb]

theorem trim_uncommented_trimEnd (cs : List Char) :
    trim (uncommented (trimEnd cs)) = trim (uncommented cs) := by
  conv => rhs; rw [← trimEnd_append_rest cs]
  exact (trim_uncommented_append _ (blank_of_mem_rest cs)).symm

theorem filledFrom_congr {as bs : List (List Char)} (h : as.map trimEnd = bs.map trimEnd) (n : Nat) :
    filledFrom n as = filledFrom n bs := by
  induction as generalizing bs n with
  | nil =>
    obtain rfl := List.map_eq_nil_iff.mp h.symm
    rfl
  | cons a as ih =>
    obtain ⟨b, bs, rfl, hab, htail⟩ := List.map_eq_cons_iff.mp h.symm
    have htext : trim (uncommented b) = trim (uncommented a) := by
      rw [← trim_uncommented_trimEnd, hab, trim_uncommented_trimEnd]
    rw [filledFrom, filledFrom, htext, ih htail.symm]

theorem filledFrom_lines (n : Nat) (cs : List Char) :
    filledFrom n (lines cs) = filledFrom n (cs.splitOn '\n') := by
  induction cs using feed_induction generalizing n with
  | last cs hcs =>
    rw [List.splitOn_eq_singleton hcs]
    by_cases hne : cs = []
    · rw [hne]
      rfl
    · rw [lines_of_not_mem hcs hne]
  | feed as bs has ih =>
    obtain ⟨line, hline, hends⟩ := lines_append_feed has
    have hsame : trimEnd line = trimEnd as := by
      obtain rfl | rfl := hends
      · rfl
      · exact (trimEnd_append line (List.forall_mem_singleton.mpr rfl)).symm
    calc
      filledFrom n (lines (as ++ '\n' :: bs)) = filledFrom n (line :: bs.splitOn '\n') := by
        rw [hline, filledFrom, filledFrom, ih]
      _ = filledFrom n (as :: bs.splitOn '\n') :=
        filledFrom_congr (by rw [List.map_cons, List.map_cons, hsame]) n
      _ = filledFrom n ((as ++ '\n' :: bs).splitOn '\n') := by
        rw [List.splitOn_append_cons_self_of_not_mem has]

theorem read_eq (text : String) :
    read text = readLines (filledFrom 0 (text.toList.splitOn '\n')) := by
  rw [read, filledLines, filledFrom_lines]

theorem filledFrom_append (n : Nat) (as bs : List (List Char)) :
    filledFrom n (as ++ bs) = filledFrom n as ++ filledFrom (n + as.length) bs := by
  induction as generalizing n with
  | nil => rfl
  | cons a as ih =>
    have hn : n + (as.length + 1) = n + 1 + as.length := by omega
    rw [List.cons_append, filledFrom, filledFrom, List.length_cons, hn, ih (n + 1)]
    split
    · rfl
    · rw [List.cons_append]

theorem isEmpty_uncommented_iff {line : List Char} :
    (trim (uncommented line)).isEmpty = true ↔ contentOf line = [] := by
  rw [List.isEmpty_iff, trim_eq_nil_iff, tokens_uncommented]

theorem filledFrom_singleton {line : List Char} (h : contentOf line ≠ []) (n : Nat) :
    filledFrom n [line] = [⟨n + 1, trim (uncommented line)⟩] :=
  if_neg (mt isEmpty_uncommented_iff.mp h)

theorem exists_of_filledFrom {rows : List (List Char)} {pre post : List Line} {l : Line}
    (h : filledFrom n rows = pre ++ l :: post) :
    ∃ before line after, rows = before ++ line :: after ∧ contentOf line ≠ [] ∧
      filledFrom n before = pre ∧ l = ⟨n + before.length + 1, trim (uncommented line)⟩ ∧
      filledFrom (n + before.length + 1) after = post := by
  induction rows generalizing n pre with
  | nil => simp [filledFrom] at h
  | cons row rows ih =>
    have hn (before : List (List Char)) : n + 1 + before.length = n + (before.length + 1) := by omega
    rw [filledFrom] at h
    split at h
    next hempty =>
      obtain ⟨before, line, after, rfl, hne, hbefore, rfl, hafter⟩ := ih h
      rw [hn] at hafter ⊢
      exact ⟨row :: before, line, after, rfl, hne, (if_pos hempty).trans hbefore, rfl, hafter⟩
    next hfilled =>
      cases pre with
      | nil =>
        obtain ⟨rfl, rfl⟩ := List.cons.inj h
        exact ⟨[], row, rows, rfl, mt isEmpty_uncommented_iff.mpr hfilled, rfl, rfl, rfl⟩
      | cons p pre =>
        obtain ⟨rfl, hrest⟩ := List.cons.inj h
        obtain ⟨before, line, after, rfl, hne, hbefore, rfl, hafter⟩ := ih hrest
        rw [hn] at hafter ⊢
        refine ⟨row :: before, line, after, rfl, hne, ?_, rfl, hafter⟩
        exact (if_neg hfilled).trans (congrArg _ hbefore)

end Workload.Text

/-! ### Pieces with a line feed behind each -/

namespace Text

variable {c : Char} {l cs : List Char}

theorem lines_append_feed_append (as bs : List Char) :
    lines (as ++ '\n' :: bs) = lines (as ++ ['\n']) ++ lines bs := by
  induction as using feed_induction with
  | last as has =>
    obtain ⟨line, hline, -⟩ := lines_append_feed has
    rw [hline, hline, lines, List.singleton_append]
  | feed as rest has ih =>
    obtain ⟨line, hline, -⟩ := lines_append_feed has
    rw [List.append_assoc, List.append_assoc, List.cons_append, List.cons_append, hline, hline, ih,
      List.cons_append]

theorem lines_flatMap_feed (ls : List (List Char)) :
    lines (ls.flatMap (· ++ ['\n'])) = ls.flatMap fun l => lines (l ++ ['\n']) := by
  induction ls with
  | nil => rfl
  | cons l ls ih =>
    rw [List.flatMap_cons, List.flatMap_cons, List.append_assoc, List.singleton_append,
      lines_append_feed_append, ih]

theorem length_lines_feed (cs : List Char) : (lines (cs ++ ['\n'])).length = cs.count '\n' + 1 := by
  induction cs using feed_induction with
  | last cs hcs =>
    obtain ⟨line, hline, -⟩ := lines_append_feed hcs
    rw [hline, List.count_eq_zero.mpr hcs]
    rfl
  | feed as bs has ih =>
    obtain ⟨line, hline, -⟩ := lines_append_feed has
    rw [List.append_assoc, List.cons_append, hline, List.length_cons, ih, List.count_append,
      List.count_cons_self, List.count_eq_zero.mpr has, Nat.zero_add]

/-- The only white space in it are spaces. -/
def Unbroken (l : List Char) : Prop := ∀ c ∈ l, isBlank c = true → c = ' '

instance (l : List Char) : Decidable (Unbroken l) :=
  decidable_of_iff (l.all fun c => !isBlank c || c == ' ') <| by
    simp [Unbroken, ← Bool.not_eq_true, imp_iff_not_or]

theorem Unbroken.feed_not_mem (h : Unbroken l) : '\n' ∉ l := fun hm => absurd (h '\n' hm rfl) (by decide)

theorem Unbroken.return_not_mem (h : Unbroken l) : '\r' ∉ l := fun hm => absurd (h '\r' hm rfl) (by decide)

theorem unbroken_append_iff {l' : List Char} : Unbroken (l ++ l') ↔ Unbroken l ∧ Unbroken l' :=
  List.forall_mem_append

theorem unbroken_of_solid (h : ∀ c ∈ l, isBlank c = false) : Unbroken l := fun c hc hb => by
  rw [h c hc] at hb
  contradiction

theorem lines_of_unbroken (h : Unbroken l) : lines (l ++ ['\n']) = [l] := by
  obtain ⟨line, hline, rfl | rfl⟩ := lines_append_feed h.feed_not_mem
  · rw [hline, lines]
  · exact absurd (List.mem_append_right line List.mem_cons_self) h.return_not_mem

theorem lines_cons (hfeed : c ≠ '\n') (hreturn : c ≠ '\r') (cs : List Char) :
    lines (c :: cs) = joinFirst c (lines cs) := by
  rw [lines]
  · exact hfeed
  · exact fun _ h => absurd h hreturn

theorem exists_prefix_lines (h : Unbroken l) (cs : List Char) :
    ∃ line rest, lines (l ++ (cs ++ ['\n'])) = line :: rest ∧ l <+: line := by
  induction l with
  | nil =>
    have hlength := length_lines_feed cs
    obtain ⟨line, rest, hlines⟩ := List.exists_cons_of_length_eq_add_one hlength
    exact ⟨line, rest, hlines, List.nil_prefix⟩
  | cons c l ih =>
    obtain ⟨line, rest, hlines, hprefix⟩ := ih fun d hd => h d (List.mem_cons_of_mem c hd)
    have hfeed : c ≠ '\n' := fun he => h.feed_not_mem (he ▸ List.mem_cons_self)
    have hreturn : c ≠ '\r' := fun he => h.return_not_mem (he ▸ List.mem_cons_self)
    refine ⟨c :: line, rest, ?_, List.cons_prefix_cons.mpr ⟨rfl, hprefix⟩⟩
    rw [List.cons_append, lines_cons hfeed hreturn, hlines, joinFirst]

end Text
end FirstCome
