import FirstCome.Proofs.Canonical
import FirstCome.Proofs.LineFaults
import FirstCome.Proofs.Lines

/-!
Where a refused text goes wrong. The line blamed is the first with which no text goes on that is read: what
follows it does not matter, and what comes before it can be completed. Where lines are missing at the end,
the count that announced them is blamed, and the whole text can be completed.
-/
namespace FirstCome.Workload.Text

open FirstCome.Text

/-! ### Blocks that break off -/

section Blocks

variable {α : Type} {read : List Char → Except LineFault α} {missing : Nat → Nat × LineFault}
  {as : List α} {l : Line} {ls pre post : List Line} {f : LineFault} {e : Nat × LineFault}
  {wanted found : Nat}

theorem onLine_eq_error_iff {m : Nat} {r : Except LineFault α} :
    onLine m r = .error e ↔ ∃ f, r = .error f ∧ (m, f) = e :=
  Except.mapError_eq_error_iff

theorem readBlock_of_bad (hpre : List.Forall₂ (fun a l => read l.text = .ok a) as pre)
    (hlt : as.length < wanted) (hbad : read l.text = .error f) :
    readBlock read missing wanted found (pre ++ l :: post) = .error (l.number, f) := by
  induction hpre generalizing wanted found with
  | nil =>
    obtain ⟨wanted, rfl⟩ := Nat.exists_eq_succ_of_ne_zero (Nat.ne_of_gt hlt)
    rw [List.nil_append, readBlock, Except.bind_eq_error_iff, onLine_eq_error_iff]
    exact .inl ⟨f, hbad, rfl⟩
  | @cons a l' as pre ha _ ih =>
    obtain ⟨wanted, rfl⟩ := Nat.exists_eq_succ_of_ne_zero (Nat.ne_of_gt (Nat.zero_lt_of_lt hlt))
    rw [List.cons_append, readBlock, Except.bind_eq_error_iff]
    refine .inr ⟨a, onLine_eq_ok_iff.mpr ha, ?_⟩
    rw [Except.bind_eq_error_iff]
    exact .inl (ih (Nat.lt_of_succ_lt_succ hlt))

theorem readBlock_eq_error (h : readBlock read missing wanted found ls = .error e) :
    ∃ as pre, List.Forall₂ (fun a l => read l.text = .ok a) as pre ∧ as.length < wanted ∧
      (ls = pre ∧ e = missing (found + as.length) ∨
        ∃ l post f, ls = pre ++ l :: post ∧ read l.text = .error f ∧ e = (l.number, f)) := by
  induction wanted generalizing found ls with
  | zero => simp [readBlock] at h
  | succ wanted ih =>
    cases ls with
    | nil =>
      obtain rfl := Except.error.inj h
      exact ⟨[], [], .nil, Nat.succ_pos wanted, .inl ⟨rfl, rfl⟩⟩
    | cons l ls =>
      rw [readBlock, Except.bind_eq_error_iff, onLine_eq_error_iff] at h
      obtain ⟨f, hbad, rfl⟩ | ⟨a, ha, h⟩ := h
      · exact ⟨[], [], .nil, Nat.succ_pos wanted, .inr ⟨l, ls, f, rfl, hbad, rfl⟩⟩
      · rw [Except.bind_eq_error_iff] at h
        obtain h | ⟨_, _, h⟩ := h
        · obtain ⟨as, pre, hpre, hlt, hends⟩ := ih h
          refine ⟨a :: as, l :: pre, .cons (onLine_eq_ok_iff.mp ha) hpre, Nat.succ_lt_succ hlt, ?_⟩
          obtain ⟨rfl, rfl⟩ | ⟨l', post, f, rfl, hbad, rfl⟩ := hends
          · exact .inl ⟨rfl, by rw [List.length_cons, Nat.add_right_comm, Nat.add_assoc]⟩
          · exact .inr ⟨l', post, f, rfl, hbad, rfl⟩
        · contradiction

end Blocks

/-- The front of a block: the line that holds its count `n`, and lines for `as` below it. -/
inductive Begun {α : Type} (IsLine : α → List (List Char) → Prop) (n : Nat) (as : List α) :
    List (List (List Char)) → Prop
  | mk {count : List Char} {ls : List (List (List Char))}
    (hcount : Numeral 64 count n)
    (hlines : List.Forall₂ IsLine as ls) :
    Begun IsLine n as ([count] :: ls)

section Sections

variable {α : Type} {IsLine : α → List (List Char) → Prop} {as : List α}
  {read : List Char → Except LineFault α} {missing : Nat → Nat → LineFault}
  {l : Line} {ls pre post : List Line} {f : LineFault} {m n : Nat}

theorem Begun.fill {ls : List (List (List Char))} (h : Begun IsLine n as ls) {more : List α}
    (hn : as.length + more.length = n) {columns : α → List (List Char)}
    (hmore : ∀ a ∈ more, IsLine a (columns a)) :
    Block IsLine (as ++ more) (ls ++ more.map columns) := by
  cases h with
  | mk hcount hlines =>
    refine .mk ?_ (List.rel_append hlines ?_)
    · rwa [List.length_append, hn]
    · exact List.forall₂_map_right_iff.mpr (List.forall₂_same.mpr hmore)

theorem readSection_of_bad_count (hbad : readCount l.text = .error f) :
    readSection read missing (l :: post) = .error (l.number, f) := by
  rw [readSection, Except.bind_eq_error_iff, onLine_eq_error_iff]
  exact .inl ⟨f, hbad, rfl⟩

theorem readSection_of_bad_line (hread : ∀ text a, read text = .ok a ↔ IsLine a (tokens text))
    (htidy : Tidy pre) (hbegun : Begun IsLine n as (pre.map (tokens ·.text))) (hlt : as.length < n)
    (hbad : read l.text = .error f) :
    readSection read missing (pre ++ l :: post) = .error (l.number, f) := by
  generalize hmap : pre.map (tokens ·.text) = ts at hbegun
  cases hbegun with
  | mk hcount hlines =>
    obtain ⟨c, below, rfl, htoken, rfl⟩ := List.map_eq_cons_iff.mp hmap
    obtain ⟨cs, hcs⟩ := htidy c List.mem_cons_self
    rw [List.forall₂_map_right_iff] at hlines
    have hblock : List.Forall₂ (fun a l => read l.text = .ok a) as below :=
      hlines.imp fun a l h => (hread l.text a).mpr h
    rw [List.cons_append, readSection, Except.bind_eq_error_iff]
    refine .inr ⟨n, ?_, readBlock_of_bad hblock hlt hbad⟩
    rw [onLine_eq_ok_iff, ← hcs, readCount_eq_ok_iff]
    exact ⟨_, hcs ▸ htoken, hcount⟩

theorem readSection_eq_error (hread : ∀ text a, read text = .ok a ↔ IsLine a (tokens text))
    (htidy : Tidy ls) (h : readSection read missing ls = .error (m, f)) :
    ∃ pre l post, ls = pre ++ l :: post ∧ l.number = m ∧
      ((pre = [] ∧ readCount l.text = .error f) ∨
        (∃ n as, Begun IsLine n as (pre.map (tokens ·.text)) ∧ as.length < n ∧
          read l.text = .error f) ∨
        pre = [] ∧ ∃ n as, Begun IsLine n as ((l :: post).map (tokens ·.text)) ∧ as.length < n ∧
          f = missing n as.length) := by
  cases ls with
  | nil => simp [readSection] at h
  | cons c below =>
    obtain ⟨cs, hcs⟩ := htidy c List.mem_cons_self
    rw [readSection, Except.bind_eq_error_iff, onLine_eq_error_iff] at h
    obtain ⟨f, hbad, he⟩ | ⟨n, hcount, h⟩ := h
    · obtain ⟨rfl, rfl⟩ := Prod.mk.inj he
      exact ⟨[], c, below, rfl, rfl, .inl ⟨rfl, hbad⟩⟩
    · rw [onLine_eq_ok_iff, ← hcs, readCount_eq_ok_iff] at hcount
      obtain ⟨token, htoken, hcount⟩ := hcount
      obtain ⟨as, block, hblock, hlt, hends⟩ := readBlock_eq_error h
      have hbegun : Begun IsLine n as ((c :: block).map (tokens ·.text)) := by
        rw [List.map_cons, ← hcs, htoken]
        refine .mk hcount (List.forall₂_map_right_iff.mpr ?_)
        exact hblock.imp fun a l h => (hread l.text a).mp h
      obtain ⟨rfl, he⟩ | ⟨l, post, f, rfl, hbad, he⟩ := hends
      · obtain ⟨rfl, rfl⟩ := Prod.mk.inj he
        refine ⟨[], c, below, rfl, rfl, .inr (.inr ⟨rfl, n, as, hbegun, hlt, ?_⟩)⟩
        rw [Nat.zero_add]
      · obtain ⟨rfl, rfl⟩ := Prod.mk.inj he
        exact ⟨c :: block, l, post, rfl, rfl, .inr (.inl ⟨n, as, hbegun, hlt, hbad⟩)⟩

end Sections

/-! ### Texts that break off -/

/-- The lines `before` begin a text, and no text goes on with `text` behind them, because of `f`. -/
inductive Offends : (before : List (List (List Char))) → (text : List Char) → (f : LineFault) → Prop
  | jobCount {text : List Char} {f : LineFault} (hbad : readCount text = .error f) : Offends [] text f
  | job {n : Nat} {jobs : List Job} {ls : List (List (List Char))} {text : List Char} {f : LineFault}
    (hjobs : Begun JobLine n jobs ls) (hlt : jobs.length < n) (hbad : readJob text = .error f) :
    Offends ls text f
  | killCount {jobs : List Job} {ls : List (List (List Char))} {text : List Char} {f : LineFault}
    (hjobs : Block JobLine jobs ls) (hbad : readCount text = .error f) : Offends ls text f
  | kill {n : Nat} {jobs : List Job} {kills : List Kill} {ls ls' : List (List (List Char))}
    {text : List Char} {f : LineFault} (hjobs : Block JobLine jobs ls)
    (hkills : Begun KillLine n kills ls') (hlt : kills.length < n) (hbad : readKill text = .error f) :
    Offends (ls ++ ls') text f
  | trailing {jobs : List Job} {kills : List Kill} {ls ls' : List (List (List Char))}
    {text : List Char} (hjobs : Block JobLine jobs ls) (hkills : Block KillLine kills ls') :
    Offends (ls ++ ls') text .trailingInput

/-- Behind `before` a block begins, and its lines give out at the end of the text. -/
inductive Lacks : (before block : List (List (List Char))) → (f : LineFault) → Prop
  | jobs {n : Nat} {jobs : List Job} {ls : List (List (List Char))} (hjobs : Begun JobLine n jobs ls)
    (hlt : jobs.length < n) : Lacks [] ls (.missingJobs n jobs.length)
  | kills {n : Nat} {jobs : List Job} {kills : List Kill} {ls ls' : List (List (List Char))}
    (hjobs : Block JobLine jobs ls) (hkills : Begun KillLine n kills ls') (hlt : kills.length < n) :
    Lacks ls ls' (.missingKills n kills.length)

section Texts

variable {l : Line} {ls pre post : List Line} {f : LineFault} {e : Nat × LineFault} {n : Nat}

theorem readLines_eq_error_iff :
    readLines ls = .error e ↔
      readSection readJob .missingJobs ls = .error e ∨
        ∃ jobs rest, readSection readJob .missingJobs ls = .ok (jobs, rest) ∧
          (readSection readKill .missingKills rest = .error e ∨
            ∃ kills l post, readSection readKill .missingKills rest = .ok (kills, l :: post) ∧
              e = (l.number, .trailingInput)) := by
  rw [readLines, Except.bind_eq_error_iff, Prod.exists]
  refine or_congr Iff.rfl (exists_congr fun jobs => exists_congr fun rest => and_congr Iff.rfl ?_)
  rw [Except.bind_eq_error_iff, Prod.exists]
  refine or_congr Iff.rfl (exists_congr fun kills => ?_)
  constructor
  · rintro ⟨rest', hkills, h⟩
    cases rest' with
    | nil => contradiction
    | cons l post => exact ⟨l, post, hkills, (Except.error.inj h).symm⟩
  · rintro ⟨l, post, hkills, rfl⟩
    exact ⟨l :: post, hkills, rfl⟩

theorem readSection_of_block {α : Type} {IsLine : α → List (List Char) → Prop} {as : List α}
    {read : List Char → Except LineFault α} {missing : Nat → Nat → LineFault}
    (hread : ∀ text a, read text = .ok a ↔ IsLine a (tokens text)) (htidy : Tidy (pre ++ post))
    (h : Block IsLine as (pre.map (tokens ·.text))) :
    readSection read missing (pre ++ post) = .ok (as, post) :=
  (readSection_eq_ok_iff hread htidy).mpr (.inr ⟨pre, rfl, h⟩)

theorem readLines_of_offends (htidy : Tidy (pre ++ l :: post))
    (h : Offends (pre.map (tokens ·.text)) l.text f) :
    readLines (pre ++ l :: post) = .error (l.number, f) := by
  rw [readLines_eq_error_iff]
  have hpre : Tidy pre := fun l hl => htidy l (List.mem_append_left _ hl)
  generalize hmap : pre.map (tokens ·.text) = ts at h
  cases h with
  | jobCount hbad =>
    obtain rfl := List.map_eq_nil_iff.mp hmap
    exact .inl (readSection_of_bad_count hbad)
  | job hjobs hlt hbad =>
    exact .inl (readSection_of_bad_line readJob_eq_ok_iff hpre (hmap ▸ hjobs) hlt hbad)
  | killCount hjobs hbad =>
    refine .inr ⟨_, _, readSection_of_block readJob_eq_ok_iff htidy (hmap ▸ hjobs), .inl ?_⟩
    exact readSection_of_bad_count hbad
  | kill hjobs hkills hlt hbad =>
    obtain ⟨block, block', rfl, rfl, rfl⟩ := List.map_eq_append_iff.mp hmap
    rw [List.append_assoc] at htidy ⊢
    refine .inr ⟨_, _, readSection_of_block readJob_eq_ok_iff htidy hjobs, .inl ?_⟩
    exact readSection_of_bad_line readKill_eq_ok_iff hpre.right hkills hlt hbad
  | trailing hjobs hkills =>
    obtain ⟨block, block', rfl, rfl, rfl⟩ := List.map_eq_append_iff.mp hmap
    rw [List.append_assoc] at htidy ⊢
    exact .inr ⟨_, _, readSection_of_block readJob_eq_ok_iff htidy hjobs,
      .inr ⟨_, l, post, readSection_of_block readKill_eq_ok_iff htidy.right hkills, rfl⟩⟩

theorem exists_blame (htidy : Tidy ls) (h : readLines ls = .error (n, f)) :
    ∃ pre l post, ls = pre ++ l :: post ∧ l.number = n ∧
      (Offends (pre.map (tokens ·.text)) l.text f ∨
        Lacks (pre.map (tokens ·.text)) ((l :: post).map (tokens ·.text)) f) := by
  rw [readLines_eq_error_iff] at h
  obtain h | ⟨jobs, rest, hjobs, h⟩ := h
  · obtain ⟨pre, l, post, rfl, rfl, htrouble⟩ := readSection_eq_error readJob_eq_ok_iff htidy h
    refine ⟨pre, l, post, rfl, rfl, ?_⟩
    obtain ⟨rfl, hbad⟩ | ⟨_, _, hbegun, hlt, hbad⟩ | ⟨rfl, _, _, hbegun, hlt, rfl⟩ := htrouble
    · exact .inl (.jobCount hbad)
    · exact .inl (.job hbegun hlt hbad)
    · exact .inr (.jobs hbegun hlt)
  -- The jobs have been read; a text without lines is not refused.
  rw [readSection_eq_ok_iff readJob_eq_ok_iff htidy] at hjobs
  obtain ⟨-, -, rfl⟩ | ⟨block, rfl, hjobs⟩ := hjobs
  · simp [readSection] at h
  obtain h | ⟨kills, l, post, hkills, he⟩ := h
  · obtain ⟨pre, l, post, rfl, rfl, htrouble⟩ := readSection_eq_error readKill_eq_ok_iff htidy.right h
    refine ⟨block ++ pre, l, post, (List.append_assoc _ _ _).symm, rfl, ?_⟩
    rw [List.map_append]
    obtain ⟨rfl, hbad⟩ | ⟨_, _, hbegun, hlt, hbad⟩ | ⟨rfl, _, _, hbegun, hlt, rfl⟩ := htrouble
    · rw [List.map_nil, List.append_nil]
      exact .inl (.killCount hjobs hbad)
    · exact .inl (.kill hjobs hbegun hlt hbad)
    · rw [List.map_nil, List.append_nil]
      exact .inr (.kills hjobs hbegun hlt)
  · obtain ⟨rfl, rfl⟩ := Prod.mk.inj he
    rw [readSection_eq_ok_iff readKill_eq_ok_iff htidy.right] at hkills
    obtain ⟨-, -, hnil⟩ | ⟨block', rfl, hkills⟩ := hkills
    · contradiction
    · refine ⟨block ++ block', l, post, (List.append_assoc _ _ _).symm, rfl, .inl ?_⟩
      rw [List.map_append]
      exact .trailing hjobs hkills

end Texts

theorem Offends.ofLine {before : List (List (List Char))} {text : List Char} {f : LineFault}
    (h : Offends before text f) : f.OfLine := by
  cases h with
  | jobCount hbad => exact ofLine_of_readNumber hbad
  | job _ _ hbad => exact ofLine_of_readJob hbad
  | killCount _ hbad => exact ofLine_of_readNumber hbad
  | kill _ _ _ hbad => exact ofLine_of_readKill hbad
  | trailing => simp [LineFault.OfLine]

/-! ### Completion -/

/-- Lines can follow with which a text that is read comes about. -/
def Completable (ls : List (List (List Char))) : Prop :=
  ∃ more : List (List (List Char)), (∀ ts ∈ more, ts ≠ [] ∧ ∀ t ∈ ts, Plain t) ∧
    ∃ w, Describes (ls ++ more) w

def spareJob : Job := { pid := 1, name := "a", burst := 1 }

def spareKill : Kill := ⟨1, 0⟩

section Completion

variable {n : Nat} {jobs : List Job} {kills : List Kill} {before ls ls' : List (List (List Char))}
  {f : LineFault} {text : List Char}

theorem completable_of_begun_jobs (h : Begun JobLine n jobs ls) (hlt : jobs.length < n) :
    Completable ls := by
  have hplain : ∀ t ∈ spareJob.columns, Plain t := plain_jobColumns (by decide)
  refine ⟨(List.replicate (n - jobs.length) spareJob).map Job.columns, ?_, _, .jobs (h.fill ?_ ?_)⟩
  · rw [List.map_replicate]
    intro ts hts
    rw [List.eq_of_mem_replicate hts]
    exact ⟨List.cons_ne_nil _ _, hplain⟩
  · rw [List.length_replicate]
    omega
  · intro j hj
    rw [List.eq_of_mem_replicate hj]
    exact jobLine_columns (by decide)

theorem completable_of_begun_kills (hjobs : Block JobLine jobs ls) (h : Begun KillLine n kills ls')
    (hlt : kills.length < n) : Completable (ls ++ ls') := by
  refine ⟨(List.replicate (n - kills.length) spareKill).map Kill.columns, ?_, ?_⟩
  · rw [List.map_replicate]
    intro ts hts
    rw [List.eq_of_mem_replicate hts]
    exact ⟨List.cons_ne_nil _ _, plain_killColumns spareKill⟩
  · rw [List.append_assoc]
    refine ⟨_, .jobsAndKills hjobs (h.fill ?_ ?_)⟩
    · rw [List.length_replicate]
      omega
    · intro k hk
      rw [List.eq_of_mem_replicate hk]
      exact killLine_columns (by decide)

theorem completable_of_describes {w : Workload} (h : Describes ls w) : Completable ls :=
  ⟨[], by simp, w, by rwa [List.append_nil]⟩

theorem Offends.completable (h : Offends before text f) : Completable before := by
  cases h with
  | jobCount =>
    have hcount : Block JobLine [] [[['0']]] := .mk (numeral_decimal (n := 0) (by decide)) .nil
    exact ⟨[[['0']]], by decide, _, .jobs hcount⟩
  | job hjobs hlt => exact completable_of_begun_jobs hjobs hlt
  | killCount hjobs => exact completable_of_describes (.jobs hjobs)
  | kill hjobs hkills hlt => exact completable_of_begun_kills hjobs hkills hlt
  | trailing hjobs hkills => exact completable_of_describes (.jobsAndKills hjobs hkills)

theorem Lacks.completable (h : Lacks before ls f) : Completable (before ++ ls) := by
  cases h with
  | jobs hjobs hlt => exact completable_of_begun_jobs hjobs hlt
  | kills hjobs hkills hlt => exact completable_of_begun_kills hjobs hkills hlt

/-- The text is the front of one that is read. -/
def Viable (text : String) : Prop := ∃ more w, read (text ++ more) = .ok w

theorem Completable.viable {cs : List Char} (h : Completable ls)
    (hcs : ∀ more, content (cs ++ more) = ls ++ content more) : Viable (.ofList cs) := by
  obtain ⟨more, hplain, w, hw⟩ := h
  refine ⟨.ofList ((more.map ([' '].intercalate ·)).flatMap (· ++ ['\n'])), w, ?_⟩
  rw [read_eq_ok_iff, String.toList_append, String.toList_ofList, String.toList_ofList, hcs,
    content_spaced hplain]
  exact hw

end Completion

/-! ### The line to blame -/

/-- A count stands on `line`, and the lines below it that hold something are fewer. -/
structure Short (expected found : Nat) (line : List Char) (after : List (List Char)) : Prop where
  count : ∃ token, contentOf line = [token] ∧ Numeral 64 token expected
  below : (contents after).length = found
  lt : found < expected

/-- The first `n` lines are the same in both texts, white space at their ends aside. -/
def SameLines (n : Nat) (text text' : String) : Prop :=
  ((text.toList.splitOn '\n').take n).map trimEnd = ((text'.toList.splitOn '\n').take n).map trimEnd

section Blame

variable {text text' : String} {f : LineFault} {n : Nat} {before after : List (List Char)}
  {line : List Char}

theorem contents_of_ne_nil (h : contentOf line ≠ []) (after : List (List Char)) :
    contents (line :: after) = contentOf line :: contents after := by
  rw [contents_cons, contents, List.map_singleton]
  simp [h]

theorem Begun.short {α : Type} {IsLine : α → List (List Char) → Prop} {as : List α}
    (h : Begun IsLine n as (contentOf line :: contents after)) (hlt : as.length < n) :
    Short n as.length line after := by
  generalize hts : contentOf line :: contents after = ts at h
  cases h with
  | mk hcount hlines =>
    obtain ⟨hline, rfl⟩ := List.cons.inj hts
    exact ⟨⟨_, hline, hcount⟩, hlines.length_eq.symm, hlt⟩

theorem exists_blamed_line (h : read text = .error (n, f)) :
    ∃ before line after, text.toList.splitOn '\n' = before ++ line :: after ∧ before.length + 1 = n ∧
      contentOf line ≠ [] ∧
      (Offends (contents before) (trim (uncommented line)) f ∨
        Lacks (contents before) (contents (line :: after)) f) := by
  rw [read_eq] at h
  obtain ⟨pre, l, post, hls, rfl, hblame⟩ := exists_blame (fun _ => exists_trim_eq_text) h
  obtain ⟨before, line, after, hrows, hne, rfl, rfl, rfl⟩ := exists_of_filledFrom hls
  rw [List.map_cons, map_tokens_filledFrom, map_tokens_filledFrom, tokens_trim, tokens_uncommented,
    ← contents_of_ne_nil hne] at hblame
  refine ⟨before, line, after, hrows, ?_, hne, hblame⟩
  rw [Nat.zero_add]

theorem read_of_offends (hrows : text.toList.splitOn '\n' = before ++ line :: after)
    (hne : contentOf line ≠ []) (h : Offends (contents before) (trim (uncommented line)) f)
    (hsame : SameLines (before.length + 1) text text') :
    read text' = .error (before.length + 1, f) := by
  have htake : (text.toList.splitOn '\n').take (before.length + 1) = before ++ [line] := by
    rw [hrows, List.take_length_add_append]
    rfl
  have hlines : filledFrom 0 (text'.toList.splitOn '\n') =
      filledFrom 0 before ++ ⟨before.length + 1, trim (uncommented line)⟩ ::
        filledFrom (0 + ((text'.toList.splitOn '\n').take (before.length + 1)).length)
          ((text'.toList.splitOn '\n').drop (before.length + 1)) := by
    rw [SameLines, htake] at hsame
    conv => lhs; rw [← List.take_append_drop (before.length + 1) (text'.toList.splitOn '\n')]
    rw [filledFrom_append, ← filledFrom_congr hsame, filledFrom_append, filledFrom_singleton hne,
      Nat.zero_add, List.append_assoc]
    rfl
  have htidy : Tidy (filledFrom 0 (text'.toList.splitOn '\n')) := fun _ => exists_trim_eq_text
  rw [hlines] at htidy
  rw [read_eq, hlines]
  exact readLines_of_offends htidy (by rwa [map_tokens_filledFrom])

theorem viable_before (hrows : text.toList.splitOn '\n' = before ++ line :: after)
    (h : Completable (contents before)) : Viable (.ofList (before.flatMap (· ++ ['\n']))) := by
  refine h.viable fun more => ?_
  have hfeed : ∀ l ∈ before, '\n' ∉ l := by
    intro l hl
    have hmem : l ∈ text.toList.splitOn '\n' := hrows ▸ List.mem_append_left _ hl
    exact feed_not_mem_of_mem_splitOn hmem
  rw [content, splitOn_feeds hfeed, contents_append, content]

theorem viable_all (h : Completable (content text.toList)) : Viable (text ++ "\n") := by
  have htext : text ++ "\n" = .ofList (text.toList ++ ['\n']) := by
    rw [← String.toList_inj]
    simp
  rw [htext]
  refine h.viable fun more => ?_
  rw [List.append_assoc, List.singleton_append, content, List.splitOn_append_cons_self,
    contents_append, content, content]

/-- A refused text is refused at a line that holds something. If that is a count for which lines are
missing, the text can be completed. Otherwise no text is read that begins with the lines up to that one,
while the lines before it can be completed. -/
theorem refusal_blames_line (h : read text = .error (n, f)) :
    ofText text = .error (.badLine n f.message) ∧
      ∃ before line after, text.toList.splitOn '\n' = before ++ line :: after ∧
        before.length + 1 = n ∧ contentOf line ≠ [] ∧
        (∀ expected found, f.SaysMissing "process" expected found →
          contents before = [] ∧ Short expected found line after ∧ Viable (text ++ "\n")) ∧
        (∀ expected found, f.SaysMissing "kill" expected found →
          (∃ jobs, Block JobLine jobs (contents before)) ∧ Short expected found line after ∧
            Viable (text ++ "\n")) ∧
        ((∀ expected found,
            ¬f.SaysMissing "process" expected found ∧ ¬f.SaysMissing "kill" expected found) →
          (∀ text', SameLines n text text' → read text' = .error (n, f)) ∧
            Viable (.ofList (before.flatMap (· ++ ['\n'])))) := by
  refine ⟨by rw [ofText, h]; rfl, ?_⟩
  obtain ⟨before, line, after, hrows, rfl, hne, hblame⟩ := exists_blamed_line h
  simp only [LineFault.saysMissing_process_iff, LineFault.saysMissing_kill_iff]
  refine ⟨before, line, after, hrows, rfl, hne, ?_⟩
  obtain hoffends | hlacks := hblame
  · have hkind := hoffends.ofLine
    refine ⟨fun n k hf => absurd hf (hkind n k).1, fun n k hf => absurd hf (hkind n k).2, fun _ => ?_⟩
    exact ⟨fun text' => read_of_offends hrows hne hoffends, viable_before hrows hoffends.completable⟩
  · have hcontent : content text.toList = contents before ++ contents (line :: after) := by
      rw [content, hrows, contents_append]
    have hviable : Viable (text ++ "\n") := viable_all (hcontent ▸ hlacks.completable)
    rw [contents_of_ne_nil hne] at hlacks
    generalize hbefore : contents before = ls at hlacks
    cases hlacks with
    | jobs hjobs hlt =>
      refine ⟨fun n k hf => ?_, fun n k hf => (by cases hf), fun hother => absurd rfl (hother _ _).1⟩
      obtain ⟨rfl, rfl⟩ := LineFault.missingJobs.inj hf
      exact ⟨rfl, hjobs.short hlt, hviable⟩
    | kills hjobs hkills hlt =>
      refine ⟨fun n k hf => (by cases hf), fun n k hf => ?_, fun hother => absurd rfl (hother _ _).2⟩
      obtain ⟨rfl, rfl⟩ := LineFault.missingKills.inj hf
      exact ⟨⟨_, hjobs⟩, hkills.short hlt, hviable⟩

end Blame

/-- A burst that is no number, behind a comment line and before anything else; and a count of three with
one line below it. -/
theorem refusal_blames_line_fourth :
    let text := "# two\n2\na 1 2 - -\nb 2 x - -\nKILL"
    let f := LineFault.notANumber .burst "x"
    let short := "3\n\na 1 2 - -"
    (read text = .error (4, f) ∧ ofText text = .error (.badLine 4 f.message) ∧
      (∀ text', SameLines 4 text text' → read text' = .error (4, f)) ∧
      Viable "# two\n2\na 1 2 - -\n") ∧
    read short = .error (1, .missingJobs 3 1) ∧ Viable (short ++ "\n") := by
  intro text f short
  have htext : read text = .error (4, f) := by decide
  have hshort : read short = .error (1, .missingJobs 3 1) := by decide
  obtain ⟨hof, before, line, after, hrows, hn, -, -, -, hother⟩ := refusal_blames_line htext
  obtain ⟨-, _, _, _, -, -, -, hmissing, -, -⟩ := refusal_blames_line hshort
  have hbefore : before = ["# two".toList, "2".toList, "a 1 2 - -".toList] := by
    have htake : (text.toList.splitOn '\n').take before.length = before := by rw [hrows, List.take_left]
    rw [← htake, Nat.succ.inj hn]
    decide
  obtain ⟨hsame, hviable⟩ := hother (by
    simp [LineFault.saysMissing_process_iff, LineFault.saysMissing_kill_iff, f])
  rw [hbefore] at hviable
  have hprocess : (LineFault.missingJobs 3 1).SaysMissing "process" 3 1 :=
    LineFault.saysMissing_process_iff.mpr rfl
  exact ⟨⟨htext, hof, hsame, hviable⟩, hshort, (hmissing 3 1 hprocess).2.2⟩

end FirstCome.Workload.Text
