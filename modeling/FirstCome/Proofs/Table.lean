import FirstCome.Proofs.Canonical
import FirstCome.Proofs.Lines
import FirstCome.Proofs.Summary
import FirstCome.Report.Render

/-!
The lines of a table. Neither the width of a column nor the length of what stands in it can run two columns
together, and only the name of a job can break a line.
-/
namespace FirstCome
namespace Report

open FirstCome.Text Workload.Text

variable {row : Row} {c : Char}

def statusColumn : Option Nat → List Char
  | none => ['d', 'o', 'n', 'e']
  | some tick => ['k', 'i', 'l', 'l', 'e', 'd', '@'] ++ Nat.toDigits 10 tick

/-- What stands in the columns of a row; a dash where there is nothing. -/
def Row.columns (row : Row) : List (List Char) :=
  [Nat.toDigits 10 row.pid.toNat, row.name.toList, Nat.toDigits 10 row.burst,
    Nat.toDigits 10 row.ioDuration, Nat.toDigits 10 row.turnaround, optionalDecimal row.waiting,
    statusColumn row.killedAt]

theorem toList_orAbsent (n : Option Nat) : (orAbsent n).toList = optionalDecimal n := by
  cases n with
  | none => rfl
  | some n => exact toList_toString n

theorem toList_status (row : Row) : row.status.toList = statusColumn row.killedAt := by
  cases h : row.killedAt with
  | none =>
    rw [Row.status, h]
    rfl
  | some tick => simp [Row.status, h, statusColumn]

theorem isToken_statusColumn (killedAt : Option Nat) : IsToken (statusColumn killedAt) := by
  cases killedAt with
  | none => exact Plain.isToken (by decide)
  | some tick =>
    have hword : Plain ['k', 'i', 'l', 'l', 'e', 'd', '@'] := by decide
    refine ⟨List.cons_ne_nil _ _, fun c hc => ?_⟩
    exact (List.mem_append.mp hc).elim (hword.solid c) ((plain_decimal tick).solid c)

theorem toList_aligned (cells : List String) (last : String) :
    (aligned cells last).toList =
      [' '].intercalate
        ((columnWidths.zipWith (pad .left ' ') cells).map String.toList ++ [last.toList]) := by
  rw [aligned, String.toList_intercalate, List.map_append]
  rfl

def filled (t : List Char) (width : Nat) : List Char := t ++ List.replicate (width - t.length) ' '

theorem toList_pad_eq_filled (width : Nat) (s : String) :
    (pad .left ' ' width s).toList = filled s.toList width := by
  rw [toList_pad_left, filled, String.length_toList]

theorem toList_line (row : Row) :
    row.line.toList = [' '].intercalate (row.columns.zipWith filled (columnWidths ++ [0])) := by
  have hstatus : filled (statusColumn row.killedAt) 0 = statusColumn row.killedAt := by simp [filled]
  rw [Row.line, toList_aligned]
  simp only [columnWidths, Row.columns, List.zipWith_cons_cons, List.zipWith_nil_left, List.map_cons,
    List.map_nil, List.cons_append, List.nil_append, toList_pad_eq_filled, toList_toString, toList_orAbsent,
    toList_status, hstatus]

theorem map_zipWith_filled {α : Type} {f : List Char → α} (hf : ∀ t width, f (filled t width) = f t)
    {ts : List (List Char)} {widths : List Nat} (h : ts.length = widths.length) :
    (ts.zipWith filled widths).map f = ts.map f := by
  induction ts generalizing widths with
  | nil => rfl
  | cons t ts ih =>
    cases widths with
    | nil => contradiction
    | cons width widths =>
      rw [List.zipWith_cons_cons, List.map_cons, hf, ih (Nat.succ.inj h), List.map_cons]

/-! ### Tokens -/

theorem count_filled (hc : c ≠ ' ') (t : List Char) (width : Nat) :
    (filled t width).count c = t.count c := by
  rw [filled, List.count_append, List.count_replicate, if_neg (by simpa using hc.symm), Nat.add_zero]

theorem count_intercalate_space (hc : c ≠ ' ') (ts : List (List Char)) :
    ([' '].intercalate ts).count c = (ts.map (List.count c)).sum := by
  induction ts with
  | nil => rfl
  | cons t ts ih =>
    cases ts with
    | nil => simp
    | cons u us =>
      rw [List.intercalate_cons_cons, List.count_append, List.count_append, ih,
        List.count_singleton, if_neg (by simpa using hc.symm), Nat.add_zero]
      rfl

theorem count_of_solid {t : List Char} (ht : ∀ d ∈ t, isBlank d = false) (hblank : isBlank c = true) :
    t.count c = 0 :=
  List.count_eq_zero.mpr fun hm => by simp [ht c hm] at hblank

theorem count_line (row : Row) (hblank : isBlank c = true) (hc : c ≠ ' ') :
    row.line.toList.count c = row.name.toList.count c := by
  have hdecimal (n : Nat) : (Nat.toDigits 10 n).count c = 0 :=
    count_of_solid (plain_decimal n).solid hblank
  have hwaiting : (optionalDecimal row.waiting).count c = 0 :=
    count_of_solid (plain_optionalDecimal row.waiting).solid hblank
  have hstatus : (statusColumn row.killedAt).count c = 0 :=
    count_of_solid (isToken_statusColumn row.killedAt).solid hblank
  rw [toList_line, count_intercalate_space hc, map_zipWith_filled (count_filled hc) rfl]
  simp only [Row.columns, List.map_cons, List.map_nil, List.sum_cons, List.sum_nil, hdecimal, hwaiting,
    hstatus, Nat.zero_add, Nat.add_zero]

theorem unbroken_toString (n : Nat) : Unbroken (toString n).toList := by
  rw [toList_toString]
  exact unbroken_of_solid (plain_decimal n).solid

theorem unbroken_places (x : Decimal.Binary) (n : Nat) : Unbroken (x.places n).toList := by
  have hpoint : Unbroken ".".toList := by decide
  have hzeros (k : Nat) : Unbroken (List.replicate k '0') := by
    intro c hm hblank
    rw [List.eq_of_mem_replicate hm] at hblank
    contradiction
  simp only [Decimal.Binary.places, String.toList_append, String.toList_ofList, unbroken_append_iff,
    unbroken_toString, hpoint, hzeros, unbroken_of_solid (plain_decimal _).solid, and_self]

theorem unbroken_headerLine : Unbroken headerLine.toList := by
  rw [headerLine, toList_aligned]
  simp only [columnWidths, List.zipWith_cons_cons, List.zipWith_nil_left, List.map_cons, List.map_nil,
    toList_pad_left]
  decide

theorem unbroken_summaryLine (s : Summary) : Unbroken s.line.toList := by
  have hcompleted : Unbroken "Completed: ".toList := by decide
  have hkilled : Unbroken "  Killed: ".toList := by decide
  have hmakespan : Unbroken "  Makespan: ".toList := by decide
  have hutilization : Unbroken "  CPU utilization: ".toList := by decide
  have hsign : Unbroken "%".toList := by decide
  unfold Summary.line percent
  simp only [String.toList_append, unbroken_append_iff, unbroken_toString,
    unbroken_places, hcompleted, hkilled, hmakespan, hutilization, hsign, and_self]

theorem unbroken_averages (s : Summary) : ∀ l ∈ s.averages, Unbroken l.toList := by
  have hturnaround : Unbroken "Average turnaround: ".toList := by decide
  have hwaiting : Unbroken "  Average waiting: ".toList := by decide
  intro l hl
  unfold Summary.averages at hl
  split at hl
  · rw [List.mem_singleton] at hl
    simp only [hl, String.toList_append, unbroken_append_iff, unbroken_places, hturnaround, hwaiting,
      and_self]
  · contradiction

/-! ### Lines -/

theorem toList_text (r : Report) (withTimeline : Bool) :
    (r.text withTimeline).toList =
      ((r.textLines withTimeline).map String.toList).flatMap (· ++ ['\n']) := by
  rw [text, String.toList_join, List.flatMap_map, List.flatMap_map]
  simp only [String.toList_append]
  rfl

theorem lines_text (r : Report) (withTimeline : Bool) :
    lines (r.text withTimeline).toList =
      (r.textLines withTimeline).flatMap fun l => lines (l.toList ++ ['\n']) := by
  rw [toList_text, lines_flatMap_feed, List.flatMap_map]

theorem flatMap_lines_of_unbroken {ls : List String} (h : ∀ l ∈ ls, Unbroken l.toList) :
    (ls.flatMap fun l => lines (l.toList ++ ['\n'])) = ls.map String.toList := by
  induction ls with
  | nil => rfl
  | cons l ls ih =>
    obtain ⟨hl, hls⟩ := List.forall_mem_cons.mp h
    rw [List.flatMap_cons, lines_of_unbroken hl, ih hls, List.map_cons, List.singleton_append]

/-! ### The table of a run -/

theorem isNone_killedAt_ofResult {x : Result} (h : (Row.ofResult x).Balanced) :
    (Row.ofResult x).killedAt.isNone = !x.killed := by
  rw [← h.isSome_waiting]
  cases hk : x.killed <;> simp [Row.ofResult, Result.waiting, hk]

theorem any_isNone_killedAt {xs : List Result} (hb : ∀ row ∈ xs.map Row.ofResult, row.Balanced) :
    (xs.map Row.ofResult).any (·.killedAt.isNone) = xs.any (!·.killed) := by
  rw [List.any_map, Bool.eq_iff_iff, List.any_eq_true, List.any_eq_true]
  refine exists_congr fun x => and_congr_right fun hx => ?_
  rw [Function.comp_apply, isNone_killedAt_ofResult (hb _ (List.mem_map_of_mem hx))]

theorem length_averages {rows : List Row} (hb : ∀ row ∈ rows, row.Balanced) (busy : Nat) :
    (summarize rows busy).averages.length = if rows.any (·.killedAt.isNone) then 1 else 0 := by
  cases hany : rows.any (·.killedAt.isNone) with
  | false =>
    have hnil : completedRows rows = [] := by simpa [completedRows] using hany
    rw [Summary.averages, (absent_summarize hb busy).1.mpr hnil]
    rfl
  | true =>
    have hne : completedRows rows ≠ [] := by simpa [completedRows] using hany
    obtain ⟨hturnaround, hwaiting⟩ := averages_summarize hb busy hne
    rw [Summary.averages, hturnaround, hwaiting]
    rfl

end Report

namespace Simulation

open Report

theorem rows_finish (jobs : List Job) (kills : List Kill) :
    let o := (start jobs kills).finish.outcome
    (ofOutcome o).rows = o.results.map Row.ofResult :=
  rows_ofOutcome (Placed.start jobs kills).finish.ascending_results

theorem length_averages_finish (jobs : List Job) (kills : List Kill) :
    let o := (start jobs kills).finish.outcome
    (ofOutcome o).summary.averages.length = if o.results.any (!·.killed) then 1 else 0 := by
  intro o
  have hrows : (ofOutcome o).rows = o.results.map Row.ofResult := rows_finish jobs kills
  have hbalanced : ∀ row ∈ o.results.map Row.ofResult, row.Balanced := balanced_rows jobs kills _
  have hlength := length_averages (hrows ▸ hbalanced) o.tally.busy
  rwa [hrows, any_isNone_killedAt hbalanced, ← hrows] at hlength

end Simulation

namespace Workload

variable {w : Workload}

theorem map_of_tells {α : Type} {f : Result → α} {g : Job → α} (hfg : ∀ x j, x.Tells j → f x = g j)
    {xs : List Result} {js : List Job} (h : List.Forall₂ Result.Tells xs js) : xs.map f = js.map g := by
  induction h with
  | nil => rfl
  | cons htells _ ih => rw [List.map_cons, List.map_cons, hfg _ _ htells, ih]

theorem map_results_finish {α : Type} {f : Result → α} {g : Job → α}
    (hfg : ∀ x j, x.Tells j → f x = g j) (h : w.check = .ok ()) :
    ((Simulation.start w.jobs w.kills).finish.outcome.results.map f).Perm (w.jobs.map g) := by
  have hstart := Simulation.Placed.start w.jobs w.kills
  have hjobs : (Simulation.start w.jobs w.kills).finish.roster.entries.map (·.job) = w.jobs := by
    rw [Simulation.finish, Simulation.map_job_steps hstart, Simulation.map_job_start,
      registered_of_nodup (nodup_of_check h) (by simp)]
  obtain ⟨js, hperm, htells⟩ := hstart.finish.tells_results (Simulation.isFinished_finish w.jobs w.kills)
  rw [hjobs] at hperm
  exact (List.Perm.of_eq (map_of_tells hfg htells)).trans (hperm.map g)

theorem pids_rows_finish (h : w.check = .ok ()) :
    ((Report.ofOutcome (Simulation.start w.jobs w.kills).finish.outcome).rows.map (·.pid)).Perm
      (w.jobs.map (·.pid)) := by
  rw [Simulation.rows_finish, List.map_map]
  exact map_results_finish (fun _ _ htells => htells.pid) h

theorem names_rows_finish (h : w.check = .ok ()) :
    ((Report.ofOutcome (Simulation.start w.jobs w.kills).finish.outcome).rows.map (·.name)).Perm
      (w.jobs.map (·.name)) := by
  rw [Simulation.rows_finish, List.map_map]
  exact map_results_finish (fun _ _ htells => htells.name) h

end Workload
end FirstCome
