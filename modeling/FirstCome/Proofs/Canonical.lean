import FirstCome.Proofs.Grammar
import FirstCome.Proofs.Width

/-!
The one text that is written for a workload, and the statement that it is read back: every column of every
job and kill comes out as the token that was put in.
-/
namespace FirstCome

namespace Text

variable {ls ts : List (List Char)}

theorem splitOn_feeds (h : ∀ l ∈ ls, '\n' ∉ l) (rest : List Char) :
    (ls.flatMap (· ++ ['\n']) ++ rest).splitOn '\n' = ls ++ rest.splitOn '\n' := by
  induction ls with
  | nil => rfl
  | cons l ls ih =>
    obtain ⟨hl, hls⟩ := List.forall_mem_cons.mp h
    rw [List.flatMap_cons, List.append_assoc, List.append_assoc, List.singleton_append,
      List.splitOn_append_cons_self_of_not_mem hl, ih hls, List.cons_append]

theorem tokens_intercalate (ts : List (List Char)) :
    tokens ([' '].intercalate ts) = ts.flatMap tokens := by
  induction ts with
  | nil => rfl
  | cons t ts ih =>
    cases ts with
    | nil => simp
    | cons u us =>
      rw [List.intercalate_cons_cons, List.append_assoc, List.singleton_append,
        tokens_append_blank t rfl, ih]
      rfl

theorem flatMap_tokens (h : ∀ t ∈ ts, IsToken t) : ts.flatMap tokens = ts := by
  induction ts with
  | nil => rfl
  | cons t ts ih =>
    obtain ⟨ht, hts⟩ := List.forall_mem_cons.mp h
    rw [List.flatMap_cons, ih hts, tokens_of_solid ht.solid ht.ne_nil, List.singleton_append]

theorem tokens_spaced (h : ∀ t ∈ ts, IsToken t) : tokens ([' '].intercalate ts) = ts := by
  rw [tokens_intercalate, flatMap_tokens h]

end Text

namespace Workload.Text

open FirstCome.Text

variable {t : List Char} {ts : List (List Char)} {j : Job} {k : Kill} {w : Workload}

/-- What can stand in a column: no white space in it, and no comment begins with it. -/
structure Plain (t : List Char) : Prop where
  ne_nil : t ≠ []
  solid : ∀ c ∈ t, isBlank c = false
  kept : opensComment t = false

instance (t : List Char) : Decidable (Plain t) :=
  decidable_of_iff (t ≠ [] ∧ t.all (!isBlank ·) = true ∧ opensComment t = false)
    ⟨fun ⟨hne, hs, hk⟩ => ⟨hne, by simpa using hs, hk⟩,
      fun ⟨hne, hs, hk⟩ => ⟨hne, by simpa using hs, hk⟩⟩

theorem Plain.isToken (h : Plain t) : IsToken t := ⟨h.ne_nil, h.solid⟩

theorem contentOf_spaced (h : ∀ t ∈ ts, Plain t) : contentOf ([' '].intercalate ts) = ts := by
  rw [contentOf, tokens_spaced fun t ht => (h t ht).isToken, List.takeWhile_eq_self_iff]
  intro t ht
  rw [(h t ht).kept]
  rfl

theorem feed_not_mem_spaced (h : ∀ t ∈ ts, Plain t) : '\n' ∉ [' '].intercalate ts := by
  induction ts with
  | nil => simp
  | cons t ts ih =>
    obtain ⟨ht, hts⟩ := List.forall_mem_cons.mp h
    have hfeed : '\n' ∉ t := fun hm => absurd (ht.solid '\n' hm) (by decide)
    cases ts with
    | nil => rwa [List.intercalate_singleton]
    | cons u us =>
      rw [List.intercalate_cons_cons]
      simp [hfeed, ih hts]

/-! ### Columns -/

theorem plain_decimal (n : Nat) : Plain (Nat.toDigits 10 n) where
  ne_nil := Nat.toDigits_ne_nil
  solid c hc := isBlank_of_isDigit (Nat.isDigit_of_mem_toDigits (by decide) (by decide) hc)
  kept := by
    rw [opensComment, beq_eq_false_iff_ne]
    intro h
    have hdigit : Char.isDigit '#' = true :=
      Nat.isDigit_of_mem_toDigits (by decide) (by decide) (List.mem_of_mem_head? h)
    exact absurd hdigit (by decide)

theorem numeral_decimal {bits n : Nat} (h : n < 2 ^ bits) : Numeral bits (Nat.toDigits 10 n) n where
  ne_nil := Nat.toDigits_ne_nil
  digits _ hc := Nat.isDigit_of_mem_toDigits (by decide) (by decide) hc
  value := Nat.ofDigitChars_ten_toDigits
  lt := h

def optionalDecimal : Option Nat → List Char
  | none => ['-']
  | some n => Nat.toDigits 10 n

theorem plain_optionalDecimal (o : Option Nat) : Plain (optionalDecimal o) := by
  cases o with
  | none => decide
  | some n => exact plain_decimal n

theorem optionalNumeral_decimal {o : Option Nat} (h : ∀ n ∈ o, n < 2 ^ 64) :
    OptionalNumeral (optionalDecimal o) o := by
  cases o with
  | none => rfl
  | some n => exact numeral_decimal (h n rfl)

end Workload.Text

/-! ### Lines -/

open Workload.Text

def Job.columns (j : Job) : List (List Char) :=
  [j.name.toList, Nat.toDigits 10 j.pid.toNat, Nat.toDigits 10 j.burst, optionalDecimal j.ioStart,
    Nat.toDigits 10 j.ioDuration]

def Kill.columns (k : Kill) : List (List Char) :=
  ["KILL".toList, Nat.toDigits 10 k.pid.toNat, Nat.toDigits 10 k.tick]

namespace Workload.Text

open FirstCome.Text

variable {j : Job} {k : Kill}

theorem toList_toString (n : Nat) : (toString n).toList = Nat.toDigits 10 n := by simp

theorem toList_jobLine (j : Job) : j.line.toList = [' '].intercalate j.columns := by
  have hstart : ((j.ioStart.map toString).getD "-").toList = optionalDecimal j.ioStart := by
    cases j.ioStart with
    | none => rfl
    | some n => exact toList_toString n
  rw [Job.line, String.toList_intercalate]
  simp only [List.map_cons, List.map_nil, hstart, toList_toString]
  rfl

theorem toList_killLine (k : Kill) : k.line.toList = [' '].intercalate k.columns := by
  rw [Kill.line, String.toList_intercalate]
  simp only [List.map_cons, List.map_nil, toList_toString]
  rfl

theorem plain_jobColumns (h : Plain j.name.toList) : ∀ t ∈ j.columns, Plain t := by
  simp only [Job.columns, List.forall_mem_cons, h, plain_decimal, plain_optionalDecimal]
  simp

theorem plain_killColumns (k : Kill) : ∀ t ∈ k.columns, Plain t := by
  have hverb : Plain "KILL".toList := by decide
  simp only [Kill.columns, List.forall_mem_cons, hverb, plain_decimal]
  simp

theorem jobLine_columns (h : j.Fits) : JobLine j j.columns :=
  .mk rfl (numeral_decimal j.pid.toNat_lt) (numeral_decimal h.burst) (optionalNumeral_decimal h.ioStart)
    (.inr (numeral_decimal h.ioDuration))

theorem killLine_columns (h : k.Fits) : KillLine k k.columns :=
  .mk (isKillVerb_iff.mp rfl) (numeral_decimal k.pid.toNat_lt) (numeral_decimal h.tick)

/-! ### The text -/

theorem contents_append (as bs : List (List Char)) :
    contents (as ++ bs) = contents as ++ contents bs := by
  rw [contents, List.map_append, List.filter_append, contents, contents]

theorem contents_spaced {rows : List (List (List Char))}
    (h : ∀ ts ∈ rows, ts ≠ [] ∧ ∀ t ∈ ts, Plain t) :
    contents (rows.map ([' '].intercalate ·)) = rows := by
  have hcontent : rows.map (contentOf ∘ ([' '].intercalate ·)) = rows :=
    calc
      rows.map (contentOf ∘ ([' '].intercalate ·)) = rows.map id :=
        List.map_congr_left fun ts hts => contentOf_spaced (h ts hts).2
      _ = rows := List.map_id rows
  rw [contents, List.map_map, hcontent, List.filter_eq_self]
  intro ts hts
  simpa using (h ts hts).1

theorem content_spaced {rows : List (List (List Char))}
    (h : ∀ ts ∈ rows, ts ≠ [] ∧ ∀ t ∈ ts, Plain t) :
    content ((rows.map ([' '].intercalate ·)).flatMap (· ++ ['\n'])) = rows := by
  have hfeed : ∀ l ∈ rows.map ([' '].intercalate ·), '\n' ∉ l :=
    List.forall_mem_map.mpr fun ts hts => feed_not_mem_spaced (h ts hts).2
  have hsplit := splitOn_feeds hfeed []
  rw [List.append_nil] at hsplit
  rw [content, hsplit, contents_append, contents_spaced h]
  exact List.append_nil rows

end Workload.Text

namespace Workload

variable {w : Workload}

def rows (w : Workload) : List (List (List Char)) :=
  [Nat.toDigits 10 w.jobs.length] :: w.jobs.map Job.columns ++
    [Nat.toDigits 10 w.kills.length] :: w.kills.map Kill.columns

theorem toList_toText (w : Workload) :
    w.toText.toList = (w.rows.map ([' '].intercalate ·)).flatMap (· ++ ['\n']) := by
  rw [toText, String.toList_join]
  simp [rows, List.flatMap_map, toList_jobLine, toList_killLine]

theorem plain_rows (h : ∀ j ∈ w.jobs, Plain j.name.toList) :
    ∀ ts ∈ w.rows, ts ≠ [] ∧ ∀ t ∈ ts, Plain t := by
  have hcount : ∀ n, ∀ t ∈ [Nat.toDigits 10 n], Plain t := fun n =>
    List.forall_mem_singleton.mpr (plain_decimal n)
  intro ts hts
  simp only [rows, List.cons_append, List.mem_cons, List.mem_append, List.mem_map] at hts
  obtain rfl | ⟨j, hj, rfl⟩ | rfl | ⟨k, hk, rfl⟩ := hts
  · exact ⟨List.cons_ne_nil _ _, hcount _⟩
  · exact ⟨List.cons_ne_nil _ _, plain_jobColumns (h j hj)⟩
  · exact ⟨List.cons_ne_nil _ _, hcount _⟩
  · exact ⟨List.cons_ne_nil _ _, plain_killColumns k⟩

theorem content_toText (h : ∀ j ∈ w.jobs, Plain j.name.toList) : content w.toText.toList = w.rows := by
  rw [toList_toText, content_spaced (plain_rows h)]

theorem describes_rows (h : w.Fits) (hjobs : w.jobs.length < 2 ^ 64) (hkills : w.kills.length < 2 ^ 64) :
    Describes w.rows w := by
  refine .jobsAndKills (.mk (numeral_decimal hjobs) ?_) (.mk (numeral_decimal hkills) ?_)
  · exact List.forall₂_map_right_iff.mpr
      (List.forall₂_same.mpr fun j hj => jobLine_columns (h.jobs j hj))
  · exact List.forall₂_map_right_iff.mpr
      (List.forall₂_same.mpr fun k hk => killLine_columns (h.kills k hk))

theorem Text.read_eq_ok_iff {text : String} :
    Text.read text = .ok w ↔ Describes (content text.toList) w := by
  rw [Text.read, readLines_eq_ok_iff (tidy_filledLines _), map_tokens_filledLines]

theorem read_toText (h : w.Fits) (hjobs : w.jobs.length < 2 ^ 64) (hkills : w.kills.length < 2 ^ 64)
    (hnames : ∀ j ∈ w.jobs, Plain j.name.toList) : Text.read w.toText = .ok w := by
  rw [Text.read_eq_ok_iff, content_toText hnames]
  exact describes_rows h hjobs hkills

/-- Read back, the text of a workload gives that workload if it passes its check, and what is wrong with
it otherwise. -/
theorem ofText_toText (h : w.Fits) (hjobs : w.jobs.length < 2 ^ 64) (hkills : w.kills.length < 2 ^ 64)
    (hnames : ∀ j ∈ w.jobs, Plain j.name.toList) :
    (w.check = .ok () → ofText w.toText = .ok w) ∧
      ∀ f, w.check = .error f → ofText w.toText = .error f := by
  have hchecked : ofText w.toText = w.checked := by
    rw [ofText, read_toText h hjobs hkills hnames]
    rfl
  rw [hchecked]
  exact w.checked_of_check

/-- Names that look like numbers, dashes, comments and kills, and the largest numbers; and a second
workload in which a pid comes twice. -/
theorem ofText_toText_largest :
    let w : Workload :=
      { jobs :=
          [{ pid := 4294967295, name := "KILL", burst := 18446744073709551615,
             ioStart := some 18446744073709551615, ioDuration := 18446744073709551615 },
            { pid := 1, name := "-", burst := 1 }, { pid := 2, name := "007", burst := 3, ioDuration := 5 },
            { pid := 3, name := "a#b", burst := 2, ioStart := some 0 }]
        kills := [⟨9, 0⟩, ⟨4294967295, 18446744073709551615⟩] }
    let twice : Workload := { jobs := w.jobs ++ [{ pid := 1, name := "c", burst := 1 }] }
    ofText w.toText = .ok w ∧ ofText twice.toText = .error (.duplicatePid 1) := by
  intro w twice
  have hw := ofText_toText (w := w) (by decide) (by decide) (by decide) (by decide)
  have htwice := ofText_toText (w := twice) (by decide) (by decide) (by decide) (by decide)
  exact ⟨hw.1 (by decide), htwice.2 _ (by decide)⟩

end Workload
end FirstCome
