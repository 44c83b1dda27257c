import FirstCome.Proofs.Documents
import FirstCome.Proofs.Table

/-!
How many lines a table has, and where the row of a job begins. A row is as many lines as the name of its job,
so there is one line for each job only as long as no name is broken.
-/
namespace FirstCome

namespace Report

open FirstCome.Text Workload.Text

def feeds (name : String) : Nat := name.toList.count '\n'

variable {r : Report} {row : Row} {i : Nat}

def Row.lines (row : Row) : List (List Char) := Text.lines (row.line.toList ++ ['\n'])

theorem lines_text_rows (r : Report) :
    lines r.text.toList =
      headerLine.toList :: r.rows.flatMap Row.lines ++
        [] :: r.summary.line.toList :: r.summary.averages.map String.toList := by
  have hempty : lines ("".toList ++ ['\n']) = [[]] := rfl
  rw [lines_text, textLines]
  simp only [Bool.false_eq_true, if_false, List.append_nil, List.cons_append, List.flatMap_cons,
    List.flatMap_append, List.flatMap_map, lines_of_unbroken unbroken_headerLine, hempty,
    lines_of_unbroken (unbroken_summaryLine r.summary),
    flatMap_lines_of_unbroken (unbroken_averages r.summary), List.nil_append]
  rfl

theorem length_lines_row (row : Row) : row.lines.length = feeds row.name + 1 := by
  rw [Row.lines, length_lines_feed, count_line row rfl (by decide), feeds]

theorem length_flatMap_lines (rows : List Row) :
    (rows.flatMap Row.lines).length = rows.length + (rows.map (feeds ·.name)).sum := by
  induction rows with
  | nil => rfl
  | cons row rows ih =>
    rw [List.flatMap_cons, List.length_append, length_lines_row, ih, List.length_cons, List.map_cons,
      List.sum_cons]
    omega

theorem length_lines_text (r : Report) :
    (lines r.text.toList).length =
      1 + r.rows.length + 2 + r.summary.averages.length + (r.rows.map (feeds ·.name)).sum := by
  rw [lines_text_rows, List.length_append, List.length_cons, length_flatMap_lines, List.length_cons,
    List.length_cons, List.length_map]
  omega

theorem exists_line_eq_pid_append (row : Row) :
    ∃ cs, row.line.toList = (Nat.toDigits 10 row.pid.toNat ++ [' ']) ++ cs := by
  rw [toList_line]
  simp only [columnWidths, Row.columns, List.zipWith_cons_cons, List.cons_append,
    List.intercalate_cons_cons]
  rw [filled, List.append_assoc _ _ [' '], ← List.replicate_succ', List.replicate_succ, List.append_cons,
    List.append_assoc]
  exact ⟨_, rfl⟩

theorem exists_lines_row (row : Row) :
    ∃ line rest, row.lines = line :: rest ∧ Nat.toDigits 10 row.pid.toNat ++ [' '] <+: line := by
  obtain ⟨cs, hcs⟩ := exists_line_eq_pid_append row
  have hpid : Unbroken (Nat.toDigits 10 row.pid.toNat ++ [' ']) :=
    unbroken_append_iff.mpr ⟨unbroken_of_solid (plain_decimal _).solid, by decide⟩
  rw [Row.lines, hcs, List.append_assoc]
  exact exists_prefix_lines hpid cs

theorem exists_line_of_row (h : r.rows[i]? = some row) :
    ∃ line, (lines r.text.toList)[1 + i + ((r.rows.take i).map (feeds ·.name)).sum]? = some line ∧
      Nat.toDigits 10 row.pid.toNat ++ [' '] <+: line := by
  obtain ⟨line, rest, hlines, hprefix⟩ := exists_lines_row row
  obtain ⟨hi, rfl⟩ := List.getElem?_eq_some_iff.mp h
  refine ⟨line, ?_, hprefix⟩
  have hbefore := length_flatMap_lines (r.rows.take i)
  rw [List.length_take_of_le (Nat.le_of_lt hi)] at hbefore
  have hplace : 1 + i + ((r.rows.take i).map (feeds ·.name)).sum =
      ((r.rows.take i).flatMap Row.lines).length + 1 := by omega
  have hrows : r.rows.flatMap Row.lines =
      (r.rows.take i).flatMap Row.lines ++ line :: (rest ++ (r.rows.drop (i + 1)).flatMap Row.lines) := by
    conv => lhs; rw [← List.take_append_drop i r.rows, List.drop_eq_getElem_cons hi]
    rw [List.flatMap_append, List.flatMap_cons, hlines, List.cons_append]
  rw [lines_text_rows, hrows, hplace, List.cons_append, List.getElem?_cons_succ, List.append_assoc,
    List.getElem?_append_right (Nat.le_refl _), Nat.sub_self]
  rfl

/-- One line for each of `n` jobs, below one line and above two, or three if a job has completed; it begins
with the pid of the row. -/
structure OneLineEach (r : Report) (n : Nat) (completed : Bool) : Prop where
  length : (lines r.text.toList).length = 1 + n + 2 + if completed then 1 else 0
  pids : ∀ i row, r.rows[i]? = some row →
    ∃ line, (lines r.text.toList)[1 + i]? = some line ∧ Nat.toDigits 10 row.pid.toNat ++ [' '] <+: line

theorem sum_feeds_eq_zero_iff {α : Type} {as : List α} {name : α → String} :
    (as.map fun a => feeds (name a)).sum = 0 ↔ ∀ a ∈ as, '\n' ∉ (name a).toList := by
  simp [List.sum_eq_zero_iff, feeds, List.count_eq_zero]

end Report

namespace Workload

open FirstCome.Text Report

variable {w : Workload}

theorem sum_feeds_rows_finish (h : w.check = .ok ()) :
    ((ofOutcome (Simulation.start w.jobs w.kills).finish.outcome).rows.map (feeds ·.name)).sum =
      (w.jobs.map (feeds ·.name)).sum := by
  have hfeeds := ((names_rows_finish h).map feeds).sum_eq
  rwa [List.map_map, List.map_map] at hfeeds

theorem length_lines_finish (h : w.check = .ok ()) :
    let o := (Simulation.start w.jobs w.kills).finish.outcome
    (lines (ofOutcome o).text.toList).length =
      1 + w.jobs.length + 2 + (if o.results.any (!·.killed) then 1 else 0) +
        (w.jobs.map (feeds ·.name)).sum := by
  intro o
  have hcount : (ofOutcome o).rows.length = w.jobs.length := by
    simpa using (pids_rows_finish h).length_eq
  have haverages : (ofOutcome o).summary.averages.length = if o.results.any (!·.killed) then 1 else 0 :=
    Simulation.length_averages_finish w.jobs w.kills
  rw [length_lines_text, hcount, haverages, sum_feeds_rows_finish h]

/-- The table of an admitted workload has a line more for each line feed in a name, and the row of a job
begins so many lines further below as there are line feeds in the names above it. There is one line for each
job just if no name has a line feed. -/
theorem table_grows_with_feeds (hw : w.Admitted) :
    ∃ o, w.simulate = .ok o ∧
      let r := Report.ofOutcome o
      let completed := o.results.any (!·.killed)
      r.rows.Pairwise (fun a b => a.pid < b.pid) ∧ (r.rows.map (·.pid)).Perm (w.jobs.map (·.pid)) ∧
      (lines r.text.toList).length =
        1 + w.jobs.length + 2 + (if completed then 1 else 0) + (w.jobs.map (feeds ·.name)).sum ∧
      (∀ i row, r.rows[i]? = some row →
        ∃ line, (lines r.text.toList)[1 + i + ((r.rows.take i).map (feeds ·.name)).sum]? = some line ∧
          Nat.toDigits 10 row.pid.toNat ++ [' '] <+: line) ∧
      (r.OneLineEach w.jobs.length completed ↔ ∀ j ∈ w.jobs, '\n' ∉ j.name.toList) := by
  have hcheck := hw.check
  have hascending := (Simulation.Placed.start w.jobs w.kills).finish.ascending_results
  have hlength := length_lines_finish hcheck
  refine ⟨_, simulate_of_check hcheck, ?_, pids_rows_finish hcheck, hlength,
    fun i row hrow => exists_line_of_row hrow, ?_⟩
  · exact Simulation.rows_finish w.jobs w.kills ▸ List.pairwise_map.mpr hascending
  constructor
  · intro h
    have hshort := h.length
    exact sum_feeds_eq_zero_iff.mp (by omega)
  · intro h
    have hnone := sum_feeds_eq_zero_iff.mpr h
    have hwhole := sum_feeds_eq_zero_iff.mp ((sum_feeds_rows_finish hcheck).trans hnone)
    refine ⟨?_, fun i row hrow => ?_⟩
    · rw [hlength, hnone, Nat.add_zero]
    · have hline := exists_line_of_row hrow
      rwa [sum_feeds_eq_zero_iff.mpr fun row hm => hwhole row (List.mem_of_mem_take hm),
        Nat.add_zero] at hline

/-- One name of two is broken, so the row below it begins a line further down. -/
theorem table_grows_with_feeds_broken :
    let w : Workload :=
      { jobs := [{ pid := 5, name := "a\nb", burst := 1 }, { pid := 9, name := "c", burst := 2 }] }
    w.Admitted ∧ ∃ o, w.simulate = .ok o ∧
      let r := Report.ofOutcome o
      r.rows.map (·.pid) = [5, 9] ∧ (lines r.text.toList).length = 7 ∧
        ∃ line, (lines r.text.toList)[3]? = some line ∧ ['9', ' '] <+: line := by
  intro w
  have hw : w.Admitted := .inl (by decide)
  obtain ⟨o, ho, _, _, hlength, hlines, _⟩ := table_grows_with_feeds hw
  obtain rfl := Except.ok.inj (ho.symm.trans (simulate_of_check hw.check))
  have hresults : (Simulation.start w.jobs w.kills).finish.outcome.results =
      [{ pid := 5, name := "a\nb", burst := 1, ioDuration := 0, completionTick := 1 },
        { pid := 9, name := "c", burst := 2, ioDuration := 0, completionTick := 3 }] :=
    (List.mergeSort_of_pairwise (by decide)).trans (by decide)
  have hrows := (Simulation.rows_finish w.jobs w.kills).trans (congrArg (List.map Row.ofResult) hresults)
  obtain ⟨line, hline, hpid⟩ := hlines 1 _ (congrArg (·[1]?) hrows)
  rw [hrows] at hline
  rw [hresults] at hlength
  exact ⟨hw, _, ho, congrArg (List.map (·.pid)) hrows, hlength, line, hline, hpid⟩

/-- A document may break a name, which leaves more lines than jobs in the table. -/
theorem broken_name_admitted :
    let text :=
      "\x7b\"processes\":[\x7b\"pid\":1,\"name\":\"a\\nb\",\"cpu_burst\":1,\"io_duration\":0\x7d]\x7d"
    let w : Workload := { jobs := [{ pid := 1, name := "a\nb", burst := 1 }] }
    ofJson text = .ok w ∧ ∃ o, w.simulate = .ok o ∧ o.results.any (!·.killed) = true ∧
      (lines (Report.ofOutcome o).text.toList).length = 6 ∧
      ¬(Report.ofOutcome o).OneLineEach w.jobs.length true := by
  intro text w
  have hcheck : w.check = .ok () := by decide
  have hload : ofJson text = .ok w := by
    have htext : w.toJson.compact = text := by decide
    have hread : Workload.read w.toJson.compact = .ok w :=
      (encodes_toJson (by decide)).decode_printed .compact
    rw [← htext, ofJson, hread]
    exact checked_eq_ok_iff.mpr ⟨hcheck, rfl⟩
  have hresults : (Simulation.start w.jobs w.kills).finish.outcome.results =
      [{ pid := 1, name := "a\nb", burst := 1, ioDuration := 0, completionTick := 1 }] :=
    (List.mergeSort_of_pairwise (by decide)).trans (by decide)
  have hany : (Simulation.start w.jobs w.kills).finish.outcome.results.any (!·.killed) = true :=
    congrArg (List.any · (!·.killed)) hresults
  have hlength : (lines (ofOutcome (Simulation.start w.jobs w.kills).finish.outcome).text.toList).length =
      6 := by
    refine (length_lines_finish hcheck).trans ?_
    rw [hany]
    rfl
  refine ⟨hload, _, simulate_of_check hcheck, hany, hlength, fun h => ?_⟩
  have hfive := hlength.symm.trans h.length
  exact absurd hfive (by decide)

end Workload
end FirstCome
