import FirstCome.Workload.Text
import Mathlib.Data.List.TakeWhile

/-!
What the faults of a text say: which of them speak of lines that are missing, and that no fault of a single
line does.
-/
namespace FirstCome

namespace LineFault

/-! ### Messages -/

theorem toDigits_inj {m n : Nat} (h : Nat.toDigits 10 m = Nat.toDigits 10 n) : m = n := by
  rw [← Nat.ofDigitChars_ten_toDigits (n := m), h, Nat.ofDigitChars_ten_toDigits]

theorem toDigits_append_inj {m n : Nat} {c d : Char} {x y : List Char} (hc : c.isDigit = false)
    (hd : d.isDigit = false) (h : Nat.toDigits 10 m ++ c :: x = Nat.toDigits 10 n ++ d :: y) :
    m = n ∧ c :: x = d :: y := by
  have htake : ∀ (k : Nat) (b : Char) (z : List Char), b.isDigit = false →
      (Nat.toDigits 10 k ++ b :: z).takeWhile Char.isDigit = Nat.toDigits 10 k := by
    intro k b z hb
    rw [List.takeWhile_append_of_pos fun _ h => Nat.isDigit_of_mem_toDigits (by decide) (by decide) h,
      List.takeWhile_cons_of_neg (by simp [hb]), List.append_nil]
  have hdigits : Nat.toDigits 10 m = Nat.toDigits 10 n := by rw [← htake m c x hc, h, htake n d y hd]
  have hmn : m = n := toDigits_inj hdigits
  rw [hdigits] at h
  exact ⟨hmn, List.append_cancel_left h⟩

variable {f : LineFault} {n k : Nat} {s : String}

theorem message_eq_expected (h : f.message = "expected " ++ toString n ++ " " ++ s) :
    (∃ k, f = .jobTokens k ∧ s = "fields, found " ++ toString k) ∨
      (∃ k, f = .missingJobs n k ∧ s = "process lines, found " ++ toString k) ∨
      ∃ k, f = .missingKills n k ∧ s = "kill lines, found " ++ toString k := by
  have hlist : f.message.toList = "expected ".toList ++ (Nat.toDigits 10 n ++ ' ' :: s.toList) := by
    simp [h]
  have hcolumn (column : Column) : ∃ c cs, column.name.toList = c :: cs ∧ c ≠ 'e' := by
    cases column <;> exact ⟨_, _, rfl, by decide⟩
  have hnumber {m : Nat} {t : String}
      (heq : Nat.toDigits 10 m ++ ' ' :: t.toList = Nat.toDigits 10 n ++ ' ' :: s.toList) :
      m = n ∧ s = t := by
    obtain ⟨hmn, hs⟩ := toDigits_append_inj rfl rfl heq
    exact ⟨hmn, (String.toList_inj.mp (List.cons.inj hs).2).symm⟩
  cases f with
  | notANumber column token =>
    obtain ⟨c, cs, hname, hc⟩ := hcolumn column
    have hmessage : (column.name ++ " must be a non-negative integer, got `" ++ token ++ "`").toList = _ :=
      hlist
    simp [hname, hc] at hmessage
  | outOfRange column token =>
    obtain ⟨c, cs, hname, hc⟩ := hcolumn column
    have hmessage : (column.name ++ " `" ++ token ++ "` is out of range").toList = _ := hlist
    simp [hname, hc] at hmessage
  | jobTokens k =>
    have hmessage : ("expected 5 fields, found " ++ toString k).toList = _ := hlist
    have hfive : Nat.toDigits 10 5 = ['5'] := rfl
    obtain ⟨-, rfl⟩ := hnumber (m := 5) (t := "fields, found " ++ toString k)
      (by rw [hfive]; simpa using hmessage)
    exact .inl ⟨k, rfl, rfl⟩
  | killTokens k =>
    have hmessage : ("expected `KILL <pid> <tick>`, found " ++ toString k ++ " fields").toList = _ := hlist
    cases hn : Nat.toDigits 10 n with
    | nil => exact absurd hn Nat.toDigits_ne_nil
    | cons d ds =>
      have hd : d.isDigit = true :=
        Nat.isDigit_of_mem_toDigits (by decide) (by decide) (hn ▸ List.mem_cons_self)
      obtain ⟨rfl, -⟩ : '`' = d ∧ _ := by simpa [hn] using hmessage
      contradiction
  | unknownEvent verb =>
    have hmessage : ("unknown event `" ++ verb ++ "`").toList = _ := hlist
    simp at hmessage
  | missingJobs m k =>
    have hmessage : ("expected " ++ toString m ++ " process lines, found " ++ toString k).toList = _ :=
      hlist
    obtain ⟨rfl, rfl⟩ := hnumber (m := m) (t := "process lines, found " ++ toString k)
      (by simpa using hmessage)
    exact .inr (.inl ⟨k, rfl, rfl⟩)
  | missingKills m k =>
    have hmessage : ("expected " ++ toString m ++ " kill lines, found " ++ toString k).toList = _ := hlist
    obtain ⟨rfl, rfl⟩ := hnumber (m := m) (t := "kill lines, found " ++ toString k)
      (by simpa using hmessage)
    exact .inr (.inr ⟨k, rfl, rfl⟩)
  | trailingInput =>
    have hmessage : "unexpected trailing input".toList = _ := hlist
    simp at hmessage

/-- What is said where lines are missing at the end of a text. -/
def SaysMissing (noun : String) (expected found : Nat) (f : LineFault) : Prop :=
  f.message = "expected " ++ toString expected ++ " " ++ noun ++ " lines, found " ++ toString found

theorem saysMissing_iff {noun : String} (hnoun : noun = "process" ∨ noun = "kill") :
    f.SaysMissing noun n k ↔
      noun = "process" ∧ f = .missingJobs n k ∨ noun = "kill" ∧ f = .missingKills n k := by
  constructor
  · intro h
    have hs : f.message = "expected " ++ toString n ++ " " ++ (noun ++ " lines, found " ++ toString k) := by
      rw [h, ← String.toList_inj]
      simp
    obtain ⟨j, -, hj⟩ | ⟨j, rfl, hj⟩ | ⟨j, rfl, hj⟩ := message_eq_expected hs
    all_goals
      have hlist := congrArg String.toList hj
      obtain rfl | rfl := hnoun <;> simp at hlist
    · exact .inl ⟨rfl, by rw [toDigits_inj hlist]⟩
    · exact .inr ⟨rfl, by rw [toDigits_inj hlist]⟩
  · have hsplit (words noun : String) (h : words.toList = ' ' :: noun.toList ++ " lines, found ".toList) :
        "expected " ++ toString n ++ words ++ toString k =
          "expected " ++ toString n ++ " " ++ noun ++ " lines, found " ++ toString k := by
      rw [← String.toList_inj]
      simp [h]
    rintro (⟨rfl, rfl⟩ | ⟨rfl, rfl⟩)
    · exact hsplit " process lines, found " "process" rfl
    · exact hsplit " kill lines, found " "kill" rfl

theorem saysMissing_process_iff : f.SaysMissing "process" n k ↔ f = .missingJobs n k := by
  simp [saysMissing_iff]

theorem saysMissing_kill_iff : f.SaysMissing "kill" n k ↔ f = .missingKills n k := by
  simp [saysMissing_iff]

def OfLine (f : LineFault) : Prop := ∀ n k, f ≠ .missingJobs n k ∧ f ≠ .missingKills n k

end LineFault

namespace Workload.Text

/-! ### Readers that fail -/

section Kinds

variable {bits : Nat} {column : LineFault.Column} {token text : List Char} {f : LineFault}

theorem ofLine_of_readNumber (h : readNumber bits column token = .error f) : f.OfLine := by
  unfold readNumber at h
  split at h
  · obtain rfl := Except.error.inj h
    simp [LineFault.OfLine]
  · dsimp only at h
    split at h
    · contradiction
    · obtain rfl := Except.error.inj h
      simp [LineFault.OfLine]

theorem ofLine_of_readPid (h : readPid token = .error f) : f.OfLine := by
  rw [readPid, Except.map_eq_error_iff] at h
  exact ofLine_of_readNumber h

theorem ofLine_of_readOptional (h : readOptional column token = .error f) : f.OfLine := by
  unfold readOptional at h
  split at h
  · contradiction
  · rw [Except.map_eq_error_iff] at h
    exact ofLine_of_readNumber h

theorem ofLine_of_readJob (h : readJob text = .error f) : f.OfLine := by
  unfold readJob at h
  split at h
  · simp only [Except.bind_eq_error_iff] at h
    obtain h | ⟨_, -, h | ⟨_, -, h | ⟨_, -, h | ⟨_, -, h⟩⟩⟩⟩ := h
    · exact ofLine_of_readPid h
    · exact ofLine_of_readNumber h
    · exact ofLine_of_readOptional h
    · exact ofLine_of_readOptional h
    · contradiction
  · obtain rfl := Except.error.inj h
    simp [LineFault.OfLine]

theorem ofLine_of_readKill (h : readKill text = .error f) : f.OfLine := by
  unfold readKill at h
  split at h
  · split at h
    · obtain rfl := Except.error.inj h
      simp [LineFault.OfLine]
    · simp only [Except.bind_eq_error_iff] at h
      obtain h | ⟨_, -, h | ⟨_, -, h⟩⟩ := h
      · exact ofLine_of_readPid h
      · exact ofLine_of_readNumber h
      · contradiction
  · obtain rfl := Except.error.inj h
    simp [LineFault.OfLine]

end Kinds

end Workload.Text
end FirstCome
