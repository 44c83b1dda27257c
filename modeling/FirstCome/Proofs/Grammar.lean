import FirstCome.Proofs.Tokens
import Mathlib.Algebra.GroupWithZero.Nat
import Mathlib.Data.List.Forall2

/-!
The grammar of workload texts, over the tokens of their lines, and the statement that reading accepts it
exactly.
-/
namespace FirstCome.Workload.Text

open FirstCome.Text

/-! ### The grammar -/

/-- The token writes the number `n` in ASCII digits, and `n` is below `2^bits`. -/
structure Numeral (bits : Nat) (token : List Char) (n : Nat) : Prop where
  ne_nil : token ≠ []
  digits : ∀ c ∈ token, c.isDigit = true
  value : Nat.ofDigitChars 10 token 0 = n
  lt : n < 2 ^ bits

def OptionalNumeral (token : List Char) : Option Nat → Prop
  | none => token = ['-']
  | some n => Numeral 64 token n

def InAnyCase (word : String) (token : List Char) : Prop :=
  List.Forall₂ (fun c l => c = l ∨ c = l.toLower) token word.toList

inductive JobLine (j : Job) : List (List Char) → Prop
  | mk {name pid burst ioStart ioDuration : List Char}
    (hname : j.name.toList = name)
    (hpid : Numeral 32 pid j.pid.toNat)
    (hburst : Numeral 64 burst j.burst)
    (hstart : OptionalNumeral ioStart j.ioStart)
    (hduration : ioDuration = ['-'] ∧ j.ioDuration = 0 ∨ Numeral 64 ioDuration j.ioDuration) :
    JobLine j [name, pid, burst, ioStart, ioDuration]

inductive KillLine (k : Kill) : List (List Char) → Prop
  | mk {verb pid tick : List Char}
    (hverb : InAnyCase "KILL" verb)
    (hpid : Numeral 32 pid k.pid.toNat)
    (htick : Numeral 64 tick k.tick) :
    KillLine k [verb, pid, tick]

/-- A line that holds a count, and so many lines below it, one for each of `as`. -/
inductive Block {α : Type} (IsLine : α → List (List Char) → Prop) (as : List α) :
    List (List (List Char)) → Prop
  | mk {count : List Char} {ls : List (List (List Char))}
    (hcount : Numeral 64 count as.length)
    (hlines : List.Forall₂ IsLine as ls) :
    Block IsLine as ([count] :: ls)

/-- The tokens of the lines of a text that describes the workload. -/
inductive Describes : List (List (List Char)) → Workload → Prop
  | empty : Describes [] { jobs := [], kills := [] }
  | jobs {ls : List (List (List Char))} {jobs : List Job} (hjobs : Block JobLine jobs ls) :
    Describes ls { jobs, kills := [] }
  | jobsAndKills {ls ls' : List (List (List Char))} {jobs : List Job} {kills : List Kill}
    (hjobs : Block JobLine jobs ls) (hkills : Block KillLine kills ls') :
    Describes (ls ++ ls') { jobs, kills }

/-! ### Readers that succeed -/

variable {bits n : Nat} {column : LineFault.Column} {token : List Char}

/-! ### Tokens -/

theorem readNumber_eq_ok_iff : readNumber bits column token = .ok n ↔ Numeral bits token n := by
  have hshift : 1 <<< bits = 2 ^ bits := Nat.one_shiftLeft bits
  unfold readNumber
  rw [hshift]
  constructor
  · intro h
    split at h
    · contradiction
    next hdigits =>
      dsimp only at h
      split at h
      · obtain rfl := Except.ok.inj h
        obtain ⟨hne, hall⟩ : token ≠ [] ∧ ∀ c ∈ token, c.isDigit = true := by simpa using hdigits
        exact ⟨hne, hall, rfl, ‹_›⟩
      · contradiction
  · rintro ⟨hne, hall, rfl, hlt⟩
    have hdigits : (token.isEmpty || !token.all Char.isDigit) = false := by simpa [hne] using hall
    rw [hdigits]
    exact if_pos hlt

theorem readPid_eq_ok_iff {pid : Pid} : readPid token = .ok pid ↔ Numeral 32 token pid.toNat := by
  rw [readPid, Except.map_eq_ok_iff]
  constructor
  · rintro ⟨n, hn, rfl⟩
    have h := readNumber_eq_ok_iff.mp hn
    rwa [UInt32.toNat_ofNat', Nat.mod_eq_of_lt h.lt]
  · intro h
    exact ⟨_, readNumber_eq_ok_iff.mpr h, UInt32.ofNat_toNat⟩

theorem Numeral.ne_dash (h : Numeral bits token n) : token ≠ ['-'] := by
  rintro rfl
  exact absurd (h.digits '-' (List.mem_singleton_self _)) (by decide)

theorem readOptional_eq_ok_iff {o : Option Nat} :
    readOptional column token = .ok o ↔ OptionalNumeral token o := by
  unfold readOptional
  cases o with
  | none =>
    split
    next hdash => simp [OptionalNumeral, hdash]
    next hdash => simp [OptionalNumeral, hdash, Except.map_eq_ok_iff]
  | some n =>
    split
    next hdash =>
      constructor
      · intro h
        cases Except.ok.inj h
      · intro h
        exact absurd hdash (Numeral.ne_dash h)
    next hdash => simp [OptionalNumeral, Except.map_eq_ok_iff, readNumber_eq_ok_iff]

theorem isUpper_iff {c : Char} : c.isUpper = true ↔ 65 ≤ c.toNat ∧ c.toNat ≤ 90 :=
  decide_eq_true_iff

theorem toNat_toLower {c : Char} (h : c.isUpper = true) : c.toLower.toNat = c.toNat + 32 := by
  have hrange := isUpper_iff.mp h
  have hlower : c.toLower.val = c.val + 32 := congrArg Char.val (dif_pos hrange)
  have hsum : c.toNat + 32 < 2 ^ 32 := by omega
  calc
    c.toLower.toNat = (c.val + 32).toNat := congrArg UInt32.toNat hlower
    _ = c.toNat + 32 := (UInt32.toNat_add c.val 32).trans (Nat.mod_eq_of_lt hsum)

theorem toLower_eq_iff {c l : Char} (h : l.isUpper = true) :
    c.toLower = l.toLower ↔ c = l ∨ c = l.toLower := by
  rw [← Char.toNat_inj, ← Char.toNat_inj, ← Char.toNat_inj, toNat_toLower h]
  rw [isUpper_iff] at h
  by_cases hc : c.isUpper = true
  · rw [toNat_toLower hc]
    rw [isUpper_iff] at hc
    omega
  · have hsame : c.toLower = c := dif_neg fun hrange => hc (isUpper_iff.mpr hrange)
    rw [hsame]
    rw [isUpper_iff] at hc
    omega

theorem map_toLower_eq_iff {ls : List Char} (h : ∀ l ∈ ls, l.isUpper = true) :
    token.map Char.toLower = ls.map Char.toLower ↔
      List.Forall₂ (fun c l => c = l ∨ c = l.toLower) token ls := by
  induction ls generalizing token with
  | nil => simp
  | cons l ls ih =>
    obtain ⟨hl, hls⟩ := List.forall_mem_cons.mp h
    cases token with
    | nil => simp
    | cons c cs =>
      rw [List.map_cons, List.map_cons, List.cons.injEq, toLower_eq_iff hl, ih hls,
        List.forall₂_cons]

theorem isKillVerb_iff : isKillVerb token = true ↔ InAnyCase "KILL" token := by
  have h : ['k', 'i', 'l', 'l'] = "KILL".toList.map Char.toLower := by decide
  rw [isKillVerb, decide_eq_true_eq, h, InAnyCase]
  exact map_toLower_eq_iff (List.all_eq_true.mp (by decide))

/-! ### Lines -/

theorem getD_optionalNumeral_iff :
    (∃ o, OptionalNumeral token o ∧ o.getD 0 = n) ↔
      token = ['-'] ∧ n = 0 ∨ Numeral 64 token n := by
  simp [Option.exists, OptionalNumeral, eq_comm]

theorem readJob_eq_ok_iff (text : List Char) (j : Job) :
    readJob text = .ok j ↔ JobLine j (tokens text) := by
  rw [readJob, words_eq_tokens]
  constructor
  · intro h
    split at h
    next name pid burst ioStart ioDuration htokens =>
      simp only [Except.bind_eq_ok_iff, readPid_eq_ok_iff, readNumber_eq_ok_iff,
        readOptional_eq_ok_iff] at h
      obtain ⟨_, hpid, _, hburst, _, hstart, o, hduration, hj⟩ := h
      obtain rfl := Except.ok.inj hj
      rw [htokens]
      exact .mk String.toList_ofList hpid hburst hstart
        (getD_optionalNumeral_iff.mp ⟨o, hduration, rfl⟩)
    · contradiction
  · intro h
    generalize tokens text = ts at h
    cases h with
    | mk hname hpid hburst hstart hduration =>
      obtain ⟨o, ho, hduration⟩ := getD_optionalNumeral_iff.mpr hduration
      simp only [Except.bind_eq_ok_iff, readPid_eq_ok_iff, readNumber_eq_ok_iff, readOptional_eq_ok_iff]
      refine ⟨_, hpid, _, hburst, _, hstart, o, ho, ?_⟩
      rw [hduration, ← hname, String.ofList_toList]
      rfl

theorem readKill_eq_ok_iff (text : List Char) (k : Kill) :
    readKill text = .ok k ↔ KillLine k (tokens text) := by
  rw [readKill, words_eq_tokens]
  constructor
  · intro h
    split at h
    next verb pid tick htokens =>
      split at h
      · contradiction
      next hverb =>
        rw [Bool.not_eq_true, Bool.not_eq_false', isKillVerb_iff] at hverb
        simp only [Except.bind_eq_ok_iff, readPid_eq_ok_iff, readNumber_eq_ok_iff] at h
        obtain ⟨_, hpid, _, htick, hk⟩ := h
        obtain rfl := Except.ok.inj hk
        rw [htokens]
        exact .mk hverb hpid htick
    · contradiction
  · intro h
    generalize tokens text = ts at h
    cases h with
    | mk hverb hpid htick =>
      dsimp only
      rw [isKillVerb_iff.mpr hverb, if_neg (by decide)]
      simp only [Except.bind_eq_ok_iff, readPid_eq_ok_iff, readNumber_eq_ok_iff]
      exact ⟨_, hpid, _, htick, rfl⟩

theorem isBlank_of_isDigit {c : Char} (h : c.isDigit = true) : isBlank c = false := by
  have hdigit : 48 ≤ c.toNat ∧ c.toNat ≤ 57 := Char.isDigit_iff_toNat.mp h
  simp [isBlank]
  omega

theorem readCount_eq_ok_iff {cs : List Char} :
    readCount (trim cs) = .ok n ↔ ∃ token, tokens (trim cs) = [token] ∧ Numeral 64 token n := by
  rw [readCount, readNumber_eq_ok_iff]
  constructor
  · intro h
    exact ⟨trim cs, tokens_of_solid (fun c hc => isBlank_of_isDigit (h.digits c hc)) h.ne_nil, h⟩
  · rintro ⟨token, htokens, h⟩
    rw [tokens_trim] at htokens
    rwa [trim_eq_of_tokens htokens]

/-! ### Blocks -/

section Blocks

variable {α : Type} {read : List Char → Except LineFault α} {as : List α} {ls rest : List Line}

theorem onLine_eq_ok_iff {m : Nat} {r : Except LineFault α} {a : α} :
    onLine m r = .ok a ↔ r = .ok a :=
  Except.mapError_eq_ok_iff

theorem readBlock_eq_ok_iff {missing : Nat → Nat × LineFault} {wanted found : Nat} :
    readBlock read missing wanted found ls = .ok (as, rest) ↔
      as.length = wanted ∧
        ∃ block, ls = block ++ rest ∧ List.Forall₂ (fun a l => read l.text = .ok a) as block := by
  induction wanted generalizing found ls as with
  | zero =>
    rw [readBlock, Except.ok.injEq, Prod.mk.injEq, List.length_eq_zero_iff]
    constructor
    · rintro ⟨rfl, rfl⟩
      exact ⟨rfl, [], rfl, .nil⟩
    · rintro ⟨rfl, block, rfl, h⟩
      rw [List.forall₂_nil_left_iff.mp h]
      exact ⟨rfl, rfl⟩
  | succ wanted ih =>
    cases ls with
    | nil =>
      simp only [readBlock, reduceCtorEq, false_iff]
      rintro ⟨hlen, block, hblock, h⟩
      rw [h.length_eq, (List.append_eq_nil_iff.mp hblock.symm).1] at hlen
      exact Nat.succ_ne_zero wanted hlen.symm
    | cons l ls =>
      simp only [readBlock, Except.bind_eq_ok_iff, onLine_eq_ok_iff]
      constructor
      · rintro ⟨a, ha, ⟨as', rest'⟩, hrest, heq⟩
        obtain ⟨rfl, rfl⟩ := Prod.mk.inj (Except.ok.inj heq)
        obtain ⟨hlen, block, rfl, hblock⟩ := ih.mp hrest
        exact ⟨congrArg Nat.succ hlen, l :: block, rfl, .cons ha hblock⟩
      · rintro ⟨hlen, block, hls, h⟩
        cases h with
        | nil => exact absurd hlen (Nat.succ_ne_zero wanted).symm
        | @cons a l' as' block' ha hblock =>
          obtain ⟨rfl, rfl⟩ := List.cons.inj hls
          exact ⟨a, ha, _, ih.mpr ⟨Nat.succ.inj hlen, block', rfl, hblock⟩, rfl⟩

def Tidy (ls : List Line) : Prop := ∀ l ∈ ls, ∃ cs, trim cs = l.text

theorem readSection_eq_ok_iff {missing : Nat → Nat → LineFault}
    {IsLine : α → List (List Char) → Prop}
    (hread : ∀ text a, read text = .ok a ↔ IsLine a (tokens text)) (htidy : Tidy ls) :
    readSection read missing ls = .ok (as, rest) ↔
      (ls = [] ∧ as = [] ∧ rest = []) ∨
        ∃ block, ls = block ++ rest ∧ Block IsLine as (block.map (tokens ·.text)) := by
  cases ls with
  | nil =>
    rw [readSection, Except.ok.injEq, Prod.mk.injEq]
    constructor
    · rintro ⟨rfl, rfl⟩
      exact .inl ⟨rfl, rfl, rfl⟩
    · rintro (⟨-, rfl, rfl⟩ | ⟨block, hls, hblock⟩)
      · exact ⟨rfl, rfl⟩
      · obtain ⟨rfl, -⟩ := List.append_eq_nil_iff.mp hls.symm
        nomatch hblock
  | cons l ls =>
    obtain ⟨cs, hcs⟩ := htidy l List.mem_cons_self
    simp only [readSection, Except.bind_eq_ok_iff, onLine_eq_ok_iff, readBlock_eq_ok_iff, ← hcs,
      readCount_eq_ok_iff, hread]
    constructor
    · rintro ⟨n, ⟨count, htoken, hcount⟩, rfl, block, rfl, hblock⟩
      refine .inr ⟨l :: block, rfl, ?_⟩
      rw [List.map_cons, ← hcs, htoken]
      exact .mk hcount (List.forall₂_map_right_iff.mpr hblock)
    · rintro (h | ⟨block, hls, hblock⟩)
      · simp at h
      · generalize hmap : block.map (tokens ·.text) = ts at hblock
        cases hblock with
        | mk hcount hlines =>
          obtain ⟨_, block', rfl, hcount', rfl⟩ := List.map_eq_cons_iff.mp hmap
          obtain ⟨rfl, rfl⟩ := List.cons.inj hls
          rw [← hcs] at hcount'
          exact ⟨_, ⟨_, hcount', hcount⟩, rfl, block', rfl, List.forall₂_map_right_iff.mp hlines⟩

theorem readLines_eq_ok_iff_sections {w : Workload} :
    readLines ls = .ok w ↔
      ∃ rest, readSection readJob .missingJobs ls = .ok (w.jobs, rest) ∧
        readSection readKill .missingKills rest = .ok (w.kills, []) := by
  simp only [readLines, Except.bind_eq_ok_iff]
  constructor
  · rintro ⟨⟨jobs, rest⟩, hjobs, ⟨kills, rest'⟩, hkills, h⟩
    cases rest' with
    | nil =>
      obtain rfl := Except.ok.inj h
      exact ⟨rest, hjobs, hkills⟩
    | cons l ls => contradiction
  · rintro ⟨rest, hjobs, hkills⟩
    exact ⟨_, hjobs, _, hkills, rfl⟩

theorem Tidy.right {block rest : List Line} (h : Tidy (block ++ rest)) : Tidy rest :=
  fun l hl => h l (List.mem_append_right block hl)

theorem readLines_eq_ok_iff {w : Workload} (htidy : Tidy ls) :
    readLines ls = .ok w ↔ Describes (ls.map (tokens ·.text)) w := by
  rw [readLines_eq_ok_iff_sections]
  obtain ⟨jobs, kills⟩ := w
  constructor
  · rintro ⟨rest, hjobs, hkills⟩
    rw [readSection_eq_ok_iff readJob_eq_ok_iff htidy] at hjobs
    obtain ⟨rfl, rfl, rfl⟩ | ⟨block, rfl, hjobs⟩ := hjobs
    · obtain rfl : kills = [] := by simpa [readSection] using hkills.symm
      exact .empty
    rw [readSection_eq_ok_iff readKill_eq_ok_iff htidy.right] at hkills
    obtain ⟨rfl, rfl, -⟩ | ⟨block', rfl, hkills⟩ := hkills
    · rw [List.append_nil]
      exact .jobs hjobs
    · rw [List.append_nil, List.map_append]
      exact .jobsAndKills hjobs hkills
  · intro h
    generalize hmap : ls.map (tokens ·.text) = ts at h
    -- The blocks of the text are cut back out of the lines.
    cases h with
    | empty =>
      rw [List.map_eq_nil_iff.mp hmap]
      exact ⟨[], rfl, rfl⟩
    | jobs hjobs =>
      obtain rfl := hmap
      refine ⟨[], (readSection_eq_ok_iff readJob_eq_ok_iff htidy).mpr (.inr ?_), rfl⟩
      exact ⟨ls, (List.append_nil ls).symm, hjobs⟩
    | jobsAndKills hjobs hkills =>
      obtain ⟨block, block', rfl, rfl, rfl⟩ := List.map_eq_append_iff.mp hmap
      refine ⟨block', (readSection_eq_ok_iff readJob_eq_ok_iff htidy).mpr (.inr ?_),
        (readSection_eq_ok_iff readKill_eq_ok_iff htidy.right).mpr (.inr ?_)⟩
      · exact ⟨block, rfl, hjobs⟩
      · exact ⟨block', (List.append_nil block').symm, hkills⟩

end Blocks

/-! ### The text -/

theorem tidy_filledLines (cs : List Char) : Tidy (filledLines cs) := fun _ => exists_trim_eq_text

theorem ofDigitChars_zeros (z : Nat) (cs : List Char) :
    Nat.ofDigitChars 10 (List.replicate z '0' ++ cs) 0 = Nat.ofDigitChars 10 cs 0 := by
  induction z with
  | zero => rfl
  | succ z ih =>
    rw [List.replicate_succ, List.cons_append, Nat.ofDigitChars_cons]
    exact ih

theorem numeral_zeros_iff (z : Nat) (c : Char) (cs : List Char) :
    Numeral bits (List.replicate z '0' ++ c :: cs) n ↔ Numeral bits (c :: cs) n := by
  have hvalue := ofDigitChars_zeros z (c :: cs)
  constructor
  · intro h
    exact ⟨List.cons_ne_nil c cs, fun d hd => h.digits d (List.mem_append_right _ hd),
      hvalue.symm.trans h.value, h.lt⟩
  · intro h
    refine ⟨by simp, fun d hd => ?_, hvalue.trans h.value, h.lt⟩
    obtain hd | hd := List.mem_append.mp hd
    · rw [List.eq_of_mem_replicate hd]
      decide
    · exact h.digits d hd

/-- A text is read as a workload just when the tokens of its lines describe that workload, and a number
is the same with zeros in front. -/
theorem read_eq_ok_iff_describes :
    (∀ text w, read text = .ok w ↔ Describes (content text.toList) w) ∧
      ∀ bits z c cs n,
        Numeral bits (List.replicate z '0' ++ c :: cs) n ↔ Numeral bits (c :: cs) n := by
  refine ⟨fun text w => ?_, fun _ z c cs _ => numeral_zeros_iff z c cs⟩
  rw [read, readLines_eq_ok_iff (tidy_filledLines _), map_tokens_filledLines]

example : read "# one job\n\n01 # count\r\na#b\t007 3 - 5 # c\n 1\nkIlL 7 0" = .ok
    { jobs := [{ pid := 7, name := "a#b", burst := 3, ioDuration := 5 }], kills := [⟨7, 0⟩] } := by
  decide

end FirstCome.Workload.Text
