import FirstCome.Proofs.Tokens

/-!
Comments, told in two ways: a line is cut at the first `#` with nothing or white space before it, and over
tokens a comment begins with the first token that begins with `#`. Both leave the same tokens.
-/
namespace FirstCome.Workload.Text

open FirstCome.Text

/-- There is a `#` at place `i`, and nothing or white space before it. -/
def OpensAt (cs : List Char) (i : Nat) : Prop :=
  cs[i]? = some '#' ∧ (cs.take i).getLast?.all isBlank = true

theorem opensAt_append_iff {pre cs : List Char} {i : Nat} :
    OpensAt (pre ++ cs) (pre.length + i) ↔
      cs[i]? = some '#' ∧ (pre ++ cs.take i).getLast?.all isBlank = true := by
  rw [OpensAt, List.getElem?_append_right (Nat.le_add_right _ _), Nat.add_sub_cancel_left,
    List.take_length_add_append]

theorem exists_cutComment_eq_take (pre cs : List Char) :
    ∃ n, cutComment (pre.getLast?.all isBlank) cs = cs.take n ∧
      (∀ i < n, ¬OpensAt (pre ++ cs) (pre.length + i)) ∧
      (n = cs.length ∨ OpensAt (pre ++ cs) (pre.length + n)) := by
  induction cs generalizing pre with
  | nil => exact ⟨0, rfl, by simp, .inl rfl⟩
  | cons c cs ih =>
    have hhere : OpensAt (pre ++ c :: cs) (pre.length + 0) ↔
        (pre.getLast?.all isBlank && c == '#') = true := by
      rw [opensAt_append_iff]
      simp [and_comm]
    rw [cutComment]
    split
    next hcut => exact ⟨0, rfl, by simp, .inr (hhere.mpr hcut)⟩
    next hkept =>
      have hlast : (pre ++ [c]).getLast?.all isBlank = isBlank c := by simp
      obtain ⟨n, hn, hbefore, hat⟩ := ih (pre ++ [c])
      simp only [hlast, List.append_assoc, List.singleton_append, List.length_append,
        List.length_singleton] at hn hbefore hat
      refine ⟨n + 1, ?_, fun i hi => ?_, hat.imp (congrArg (· + 1)) fun h => ?_⟩
      · rw [hn, List.take_succ_cons]
      · cases i with
        | zero => exact mt hhere.mp hkept
        | succ i =>
          have hnext := hbefore i (Nat.lt_of_succ_lt_succ hi)
          rwa [Nat.add_right_comm] at hnext
      · rwa [Nat.add_right_comm] at h

theorem exists_uncommented_eq_take (cs : List Char) :
    ∃ n, uncommented cs = cs.take n ∧ (∀ i < n, ¬OpensAt cs i) ∧ (n = cs.length ∨ OpensAt cs n) := by
  have h := exists_cutComment_eq_take [] cs
  simpa [uncommented] using h

theorem cutComment_cutComment (opens : Bool) (cs : List Char) :
    cutComment opens (cutComment opens cs) = cutComment opens cs := by
  induction cs generalizing opens with
  | nil => rfl
  | cons c cs ih =>
    rw [cutComment]
    split
    · rfl
    next hkept => rw [cutComment, if_neg hkept, ih (isBlank c)]

/-- A line loses what stands behind the first place where a comment opens. What is left has the tokens before
the first one that begins with `#`, and no comment. -/
theorem uncommented_agrees (raw : List Char) :
    tokens (trim (uncommented raw)) = (tokens raw).takeWhile (!opensComment ·) ∧
      uncommented raw <+: raw ∧ uncommented (uncommented raw) = uncommented raw ∧
      ∃ n, uncommented raw = raw.take n ∧ (∀ i < n, ¬OpensAt raw i) ∧
        (n = raw.length ∨ OpensAt raw n) := by
  have hcut := exists_uncommented_eq_take raw
  refine ⟨?_, ?_, cutComment_cutComment true raw, hcut⟩
  · rw [tokens_trim, tokens_uncommented, contentOf]
  · obtain ⟨n, hn, -⟩ := hcut
    rw [hn]
    exact List.take_prefix n raw

end FirstCome.Workload.Text
