import FirstCome.Workload.Text
import Mathlib.Data.List.TakeWhile

/-!
What a text holds, told by splitting alone: lines at the line feeds, tokens at the white space, and no
comments. Trimming, cutting off a comment and cutting into words and lines are all read through it.
-/
namespace FirstCome

namespace Text

/-- The pieces between white space that are not empty. -/
def tokens (cs : List Char) : List (List Char) := (cs.splitOnP isBlank).filter (!·.isEmpty)

variable {b c : Char} {cs as bs w t : List Char}

theorem tokens_nil : tokens [] = [] := rfl

theorem tokens_append_blank (as : List Char) (hb : isBlank b = true) (bs : List Char) :
    tokens (as ++ b :: bs) = tokens as ++ tokens bs := by
  rw [tokens, List.splitOnP_append_cons as bs hb, List.filter_append, tokens, tokens]

theorem tokens_of_isBlank (hb : isBlank b = true) (cs : List Char) : tokens (b :: cs) = tokens cs :=
  tokens_append_blank [] hb cs

theorem tokens_of_solid (hw : ∀ c ∈ w, isBlank c = false) (hne : w ≠ []) : tokens w = [w] := by
  rw [tokens, List.splitOnP_eq_singleton hw]
  simp [hne]

theorem tokens_blanks_append (hb : ∀ b ∈ bs, isBlank b = true) (cs : List Char) :
    tokens (bs ++ cs) = tokens cs := by
  induction bs with
  | nil => rfl
  | cons b bs ih =>
    obtain ⟨hb, hbs⟩ := List.forall_mem_cons.mp hb
    rw [List.cons_append, tokens_of_isBlank hb, ih hbs]

theorem tokens_blanks (hb : ∀ b ∈ bs, isBlank b = true) : tokens bs = [] := by
  have h := tokens_blanks_append hb []
  rwa [List.append_nil] at h

theorem tokens_append_blanks (cs : List Char) (hb : ∀ b ∈ bs, isBlank b = true) :
    tokens (cs ++ bs) = tokens cs := by
  cases bs with
  | nil => rw [List.append_nil]
  | cons b bs =>
    obtain ⟨hb, hbs⟩ := List.forall_mem_cons.mp hb
    rw [tokens_append_blank cs hb bs, tokens_blanks hbs, List.append_nil]

theorem solid_token (hc : isBlank c = false) (cs : List Char) :
    ∀ d ∈ c :: cs.takeWhile (!isBlank ·), isBlank d = false := by
  intro d hd
  obtain rfl | hd := List.mem_cons.mp hd
  · exact hc
  · simpa using List.mem_takeWhile_imp hd

theorem token_append_rest (c : Char) (cs : List Char) :
    (c :: cs.takeWhile (!isBlank ·)) ++ cs.dropWhile (!isBlank ·) = c :: cs := by
  rw [List.cons_append, List.takeWhile_append_dropWhile]

theorem tokens_cons (hc : isBlank c = false) (cs : List Char) :
    tokens (c :: cs) = (c :: cs.takeWhile (!isBlank ·)) :: tokens (cs.dropWhile (!isBlank ·)) := by
  have hsolid := solid_token hc cs
  have hcs := (token_append_rest c cs).symm
  cases hrest : cs.dropWhile (!isBlank ·) with
  | nil =>
    rw [hcs, hrest, List.append_nil, tokens_of_solid hsolid (List.cons_ne_nil _ _), tokens_nil]
  | cons b bs =>
    have hb : isBlank b = true := by
      have hhead := List.head_dropWhile_not (!isBlank ·) (l := cs) (by simp [hrest])
      simpa [hrest] using hhead
    rw [hcs, hrest, tokens_append_blank _ hb, tokens_of_isBlank hb,
      tokens_of_solid hsolid (List.cons_ne_nil _ _)]
    rfl

structure IsToken (t : List Char) : Prop where
  ne_nil : t ≠ []
  solid : ∀ c ∈ t, isBlank c = false

theorem tokens_eq_nil_iff : tokens cs = [] ↔ ∀ c ∈ cs, isBlank c = true := by
  refine ⟨fun h => ?_, tokens_blanks⟩
  induction cs with
  | nil => simp
  | cons c cs ih =>
    cases hc : isBlank c with
    | false => simp [tokens_cons hc] at h
    | true =>
      rw [tokens_of_isBlank hc] at h
      exact List.forall_mem_cons.mpr ⟨hc, ih h⟩

theorem words_eq_tokens (cs : List Char) : words cs = tokens cs := by
  fun_induction words cs with
  | case1 => rfl
  | case2 c cs hc ih => rw [tokens_of_isBlank hc, ih]
  | case3 c hc =>
    rw [Bool.not_eq_true] at hc
    rw [tokens_of_solid (by simpa using hc) (List.cons_ne_nil _ _)]
  | case4 c hc d cs hd ih =>
    rw [Bool.not_eq_true] at hc
    rw [tokens_cons hc, ih]
    simp [hd]
  | case5 c hc d cs hd ih =>
    rw [Bool.not_eq_true] at hc hd
    rw [ih, tokens_cons hd, tokens_cons hc]
    simp [hd, joinFirst]

/-! ### Trimming -/

theorem tokens_trimStart (cs : List Char) : tokens (trimStart cs) = tokens cs := by
  have h : tokens (cs.takeWhile isBlank ++ trimStart cs) = tokens (trimStart cs) :=
    tokens_blanks_append (fun _ => List.mem_takeWhile_imp) _
  rw [trimStart, List.takeWhile_append_dropWhile] at h
  exact h.symm

theorem tokens_trimEnd (cs : List Char) : tokens (trimEnd cs) = tokens cs := by
  have hcs : cs = trimEnd cs ++ (cs.reverse.takeWhile isBlank).reverse := by
    rw [trimEnd, ← List.reverse_append, List.takeWhile_append_dropWhile, List.reverse_reverse]
  conv => rhs; rw [hcs]
  refine (tokens_append_blanks _ fun b hb => ?_).symm
  exact List.mem_takeWhile_imp (List.mem_reverse.mp hb)

theorem tokens_trim (cs : List Char) : tokens (trim cs) = tokens cs := by
  rw [trim, tokens_trimEnd, tokens_trimStart]

theorem trimEnd_append_blanks (hw : ∀ c ∈ w, isBlank c = false) (hb : ∀ b ∈ bs, isBlank b = true) :
    trimEnd (w ++ bs) = w := by
  have hself : w.reverse.dropWhile isBlank = w.reverse := by
    rw [List.dropWhile_eq_self_iff]
    intro h
    rw [Bool.not_eq_true]
    exact hw _ (List.mem_reverse.mp (List.getElem_mem h))
  rw [trimEnd, List.reverse_append,
    List.dropWhile_append_of_pos fun b h => hb b (List.mem_reverse.mp h), hself, List.reverse_reverse]

theorem trim_eq_nil_iff : trim cs = [] ↔ tokens cs = [] := by
  constructor
  · intro h
    rw [← tokens_trim, h, tokens_nil]
  · intro h
    rw [trim, trimStart, List.dropWhile_eq_nil_iff.mpr (tokens_eq_nil_iff.mp h)]
    rfl

theorem isBlank_of_trimStart (h : trimStart cs = c :: as) : isBlank c = false := by
  rw [trimStart] at h
  have hhead := List.head_dropWhile_not isBlank (l := cs) (by simp [h])
  simpa only [h, List.head_cons] using hhead

theorem trim_eq_of_tokens (h : tokens cs = [t]) : trim cs = t := by
  rw [← tokens_trimStart] at h
  cases hs : trimStart cs with
  | nil => simp [hs, tokens_nil] at h
  | cons c as =>
    have hc : isBlank c = false := isBlank_of_trimStart hs
    rw [hs, tokens_cons hc, List.cons.injEq, tokens_eq_nil_iff] at h
    obtain ⟨rfl, hblank⟩ := h
    rw [trim, hs, ← token_append_rest c as]
    exact trimEnd_append_blanks (solid_token hc as) hblank

/-! ### Lines -/

theorem lines_of_not_mem (h : '\n' ∉ cs) (hne : cs ≠ []) : lines cs = [cs] := by
  fun_induction lines cs with
  | case1 => contradiction
  | case2 => simp at h
  | case3 => simp at h
  | case4 c cs hfeed hreturn ih =>
    cases cs with
    | nil => rfl
    | cons d ds =>
      rw [ih (fun hm => h (List.mem_cons_of_mem c hm)) (List.cons_ne_nil d ds)]
      rfl

theorem lines_append_feed (h : '\n' ∉ as) :
    ∃ line, (∀ bs, lines (as ++ '\n' :: bs) = line :: lines bs) ∧ (as = line ∨ as = line ++ ['\r']) := by
  induction as with
  | nil => exact ⟨[], fun bs => by rw [List.nil_append, lines], .inl rfl⟩
  | cons c as ih =>
    obtain ⟨hc, has⟩ : '\n' ≠ c ∧ '\n' ∉ as := by simpa using h
    by_cases hreturn : c = '\r' ∧ as = []
    · obtain ⟨rfl, rfl⟩ := hreturn
      exact ⟨[], fun bs => rfl, .inr rfl⟩
    · obtain ⟨line, hline, hends⟩ := ih has
      refine ⟨c :: line, fun bs => ?_, ?_⟩
      · rw [List.cons_append, lines, hline, joinFirst]
        · exact fun he => hc he.symm
        · intro cs hcr hcs
          cases as with
          | nil => exact hreturn ⟨hcr, rfl⟩
          | cons d ds => exact has (by simp [(List.cons.inj hcs).1])
      · exact hends.imp (congrArg (c :: ·)) (congrArg (c :: ·))

end Text

namespace Workload.Text

open FirstCome.Text

def opensComment (token : List Char) : Bool := token.head? == some '#'

def contentOf (line : List Char) : List (List Char) := (tokens line).takeWhile (!opensComment ·)

def contents (lines : List (List Char)) : List (List (List Char)) :=
  (lines.map contentOf).filter (!·.isEmpty)

def content (text : List Char) : List (List (List Char)) := contents (text.splitOn '\n')

variable {pre cs : List Char} {n : Nat} {l : Line} {raws : List (List Char)}

theorem contents_cons (raw : List Char) (raws : List (List Char)) :
    contents (raw :: raws) = contents [raw] ++ contents raws := by
  rw [contents, List.map_cons, ← List.singleton_append, List.filter_append]
  rfl

theorem opensComment_of_mem_tokens (hpre : ∀ c ∈ pre, isBlank c = false)
    (hopens : opensComment pre = false) : ∀ t ∈ tokens pre, (!opensComment t) = true := by
  intro t ht
  by_cases hne : pre = []
  · simp [hne, tokens_nil] at ht
  · rw [tokens_of_solid hpre hne, List.mem_singleton] at ht
    rw [ht, hopens]
    rfl

/-- The cut falls in front of the first token that opens a comment. The characters `pre` have been read
already, and are the start of a token unless there are none. -/
theorem tokens_append_cutComment (pre : List Char) (hpre : ∀ c ∈ pre, isBlank c = false)
    (hopens : opensComment pre = false) (cs : List Char) :
    tokens (pre ++ cutComment pre.isEmpty cs) = contentOf (pre ++ cs) := by
  have hkept := opensComment_of_mem_tokens hpre hopens
  induction cs generalizing pre with
  | nil => rw [cutComment, contentOf, List.append_nil, List.takeWhile_eq_self_iff.mpr hkept]
  | cons c cs ih =>
    rw [cutComment]
    split
    next hcut =>
      obtain ⟨rfl, rfl⟩ : pre = [] ∧ c = '#' := by simpa using hcut
      rw [List.nil_append, List.nil_append, contentOf, tokens_cons (by decide) cs]
      rfl
    next hcut =>
      cases hc : isBlank c with
      | true =>
        have hrest := ih [] (by simp) rfl (by simp [tokens_nil])
        rw [tokens_append_blank pre hc, contentOf, tokens_append_blank pre hc,
          List.takeWhile_append_of_pos hkept]
        exact congrArg (tokens pre ++ ·) hrest
      | false =>
        have hpre' : ∀ d ∈ pre ++ [c], isBlank d = false := by
          intro d hd
          obtain hd | hd := List.mem_append.mp hd
          · exact hpre d hd
          · rwa [List.mem_singleton.mp hd]
        have hopens' : opensComment (pre ++ [c]) = false := by
          cases pre with
          | nil => simpa [opensComment] using hcut
          | cons => exact hopens
        have hrest := ih (pre ++ [c]) hpre' hopens' (opensComment_of_mem_tokens hpre' hopens')
        have hbegun : (pre ++ [c]).isEmpty = false := by simp
        rwa [hbegun, List.append_assoc, List.append_assoc] at hrest

theorem tokens_uncommented (cs : List Char) : tokens (uncommented cs) = contentOf cs :=
  tokens_append_cutComment [] (by simp) rfl cs

theorem map_tokens_filledFrom (n : Nat) (raws : List (List Char)) :
    (filledFrom n raws).map (tokens ·.text) = contents raws := by
  induction raws generalizing n with
  | nil => rfl
  | cons raw raws ih =>
    have hraw : tokens (trim (uncommented raw)) = contentOf raw := by
      rw [tokens_trim, tokens_uncommented]
    rw [filledFrom, contents_cons, contents, List.map_singleton]
    split
    next hempty =>
      rw [List.isEmpty_iff, trim_eq_nil_iff, tokens_uncommented] at hempty
      rw [ih, hempty]
      rfl
    next hfilled =>
      rw [List.isEmpty_iff, trim_eq_nil_iff, tokens_uncommented] at hfilled
      rw [List.map_cons, hraw, ih]
      simp [hfilled]

theorem exists_trim_eq_text (h : l ∈ filledFrom n raws) : ∃ cs, trim cs = l.text := by
  induction raws generalizing n with
  | nil => simp [filledFrom] at h
  | cons raw raws ih =>
    rw [filledFrom] at h
    split at h
    · exact ih h
    · obtain rfl | h := List.mem_cons.mp h
      · exact ⟨_, rfl⟩
      · exact ih h

theorem contents_append_return (line : List Char) : contents [line ++ ['\r']] = contents [line] := by
  have htokens : tokens (line ++ ['\r']) = tokens line :=
    tokens_append_blanks line (List.forall_mem_singleton.mpr rfl)
  rw [contents, List.map_singleton, contentOf, htokens]
  rfl

theorem contents_lines (cs : List Char) : contents (lines cs) = content cs := by
  by_cases hfeed : '\n' ∈ cs
  · obtain ⟨as, bs, rfl, has⟩ := List.eq_append_cons_of_mem hfeed
    obtain ⟨line, hline, hends⟩ := lines_append_feed has
    have hraw : contents [line] = contents [as] := by
      obtain rfl | rfl := hends
      · rfl
      · exact (contents_append_return line).symm
    have hsplit : (as ++ '\n' :: bs).splitOn '\n' = as :: bs.splitOn '\n' := by
      refine List.splitOnP_append_cons_of_forall_mem (fun c hc => ?_) '\n' rfl bs
      exact beq_false_of_ne fun he => has (he ▸ hc)
    rw [hline, content, hsplit, contents_cons, contents_cons as, hraw, contents_lines bs, content]
  · rw [content, List.splitOn_eq_singleton hfeed]
    by_cases hne : cs = []
    · rw [hne]
      rfl
    · rw [lines_of_not_mem hfeed hne]
termination_by cs.length

theorem map_tokens_filledLines (cs : List Char) :
    (filledLines cs).map (tokens ·.text) = content cs := by
  rw [filledLines, map_tokens_filledFrom, contents_lines]

end Workload.Text
end FirstCome
