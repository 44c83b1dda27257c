import FirstCome.Proofs.Ledger
import FirstCome.Proofs.Lifecycle
import FirstCome.Proofs.Turnaround
import FirstCome.Report

/-!
The report against the run: a row for each job that has left the system, counts that are the counters
of the run, and averages over the jobs that completed.
-/
namespace FirstCome
namespace Report

structure Row.Shows (row : Row) (p : Progress) : Prop where
  pid : row.pid = p.pid
  name : row.name = p.job.name
  burst : row.burst = p.job.burst
  ioDuration : row.ioDuration = p.job.ioDuration
  turnaround : p.completionTick = some row.turnaround
  killedAt : row.killedAt = p.killedAt
  waiting : row.waiting = if p.wasKilled then none else some (row.turnaround - row.burst)

variable {o : Outcome} {row : Row} {rows : List Row} {p : Progress} {ps : List Progress}
  {values : List Nat}

theorem shows_of_ofProgress? {r : Result} (h : Result.ofProgress? p = some r) :
    (Row.ofResult r).Shows p := by
  obtain ⟨t, ht, rfl⟩ := Option.map_eq_some_iff.mp h
  exact ⟨rfl, rfl, rfl, rfl, ht, rfl, rfl⟩

theorem Row.Shows.isNone_killedAt (h : row.Shows p) : row.killedAt.isNone = p.isCompleted := by
  have hfinal : p.isFinal = true := by
    rw [← p.isSome_completionTick, h.turnaround, Option.isSome_some]
  rw [h.killedAt, Progress.isCompleted, hfinal, Progress.wasKilled, Bool.true_and, Option.not_isSome]

theorem rows_ofOutcome (h : o.results.Pairwise fun a b => a.pid < b.pid) :
    (ofOutcome o).rows = o.results.map Row.ofResult := by
  refine List.mergeSort_of_pairwise (List.pairwise_map.mpr (h.imp fun hab => ?_))
  exact decide_eq_true (UInt32.le_of_lt hab)

theorem average_eq_none_iff : average values = none ↔ values = [] := by
  cases values <;> simp [average]

theorem average_of_ne_nil (h : values ≠ []) : average values = some ⟨values.sum, values.length⟩ := by
  rw [average, List.isEmpty_eq_false_iff.mpr h, List.sum_eq_foldr]
  rfl

theorem shows_completedRows (h : List.Forall₂ Row.Shows rows ps) :
    List.Forall₂ Row.Shows (completedRows rows) (ps.filter (·.isCompleted)) := by
  refine List.rel_filter (fun row p hrow => ?_) h
  exact Bool.eq_iff_iff.mp hrow.isNone_killedAt

theorem map_turnaround_of_shows (h : List.Forall₂ Row.Shows rows ps) :
    rows.map (·.turnaround) = ps.filterMap (·.completionTick) := by
  induction h with
  | nil => rfl
  | cons hrow _ ih => rw [List.map_cons, List.filterMap_cons_some hrow.turnaround, ih]

theorem map_burst_of_shows (h : List.Forall₂ Row.Shows rows ps) :
    rows.map (·.burst) = ps.map (·.job.burst) := by
  induction h with
  | nil => rfl
  | cons hrow _ ih => rw [List.map_cons, List.map_cons, hrow.burst, ih]

/-- What a row of a run says of the waiting time. -/
def Row.Balanced (row : Row) : Prop :=
  (row.waiting = none ↔ row.killedAt.isSome = true) ∧
    ∀ t, row.waiting = some t → t + row.burst = row.turnaround

theorem Row.Shows.balanced (h : row.Shows p)
    (hb : ∀ t, p.phase = .completed t → p.job.burst ≤ t) : row.Balanced := by
  have hturnaround := h.turnaround
  cases hφ : p.phase with
  | completed t =>
    obtain rfl : t = row.turnaround := by simpa [Progress.completionTick, hφ] using hturnaround
    have hle := h.burst ▸ hb _ hφ
    have hkilled : p.killedAt = none := by simp [Progress.killedAt, hφ]
    simp [Row.Balanced, h.waiting, h.killedAt, Progress.wasKilled, hkilled, Nat.sub_add_cancel hle]
  | killed t =>
    have hkilled : p.killedAt = some t := by simp [Progress.killedAt, hφ]
    simp [Row.Balanced, h.waiting, h.killedAt, Progress.wasKilled, hkilled]
  | ready | running | waiting => simp [Progress.completionTick, hφ] at hturnaround

theorem Row.Balanced.isSome_waiting (h : row.Balanced) : row.waiting.isSome = row.killedAt.isNone := by
  have hnone := h.1
  cases hw : row.waiting <;> cases hk : row.killedAt <;> simp [hw, hk] at hnone ⊢

theorem filterMap_waiting_completedRows (hb : ∀ row ∈ rows, row.Balanced) :
    (completedRows rows).filterMap (·.waiting) = rows.filterMap (·.waiting) := by
  rw [completedRows, List.filterMap_filter]
  refine List.filterMap_congr fun row hrow => ?_
  split
  · rfl
  next hkilled =>
    rw [← (hb row hrow).isSome_waiting, Option.not_isSome_iff_eq_none] at hkilled
    exact hkilled.symm

theorem sum_turnaround (hb : ∀ row ∈ rows, row.Balanced) :
    (rows.filterMap (·.waiting)).length = (completedRows rows).length ∧
      ((completedRows rows).map (·.turnaround)).sum =
        (rows.filterMap (·.waiting)).sum + ((completedRows rows).map (·.burst)).sum := by
  induction rows with
  | nil => exact ⟨rfl, rfl⟩
  | cons row rows ih =>
    obtain ⟨hlength, hsum⟩ := ih fun r hr => hb r (List.mem_cons_of_mem _ hr)
    have hrow := hb row List.mem_cons_self
    have hdone := hrow.isSome_waiting
    cases hw : row.waiting with
    | none =>
      have hcompleted : completedRows (row :: rows) = completedRows rows :=
        List.filter_cons_of_neg (by simp [← hdone, hw])
      rw [hcompleted, List.filterMap_cons_none hw]
      exact ⟨hlength, hsum⟩
    | some t =>
      have hcompleted : completedRows (row :: rows) = row :: completedRows rows :=
        List.filter_cons_of_pos (by simp [← hdone, hw])
      have hwaiting : (row :: rows).filterMap (·.waiting) = t :: rows.filterMap (·.waiting) :=
        List.filterMap_cons_some hw
      have ht := hrow.2 t hw
      rw [hcompleted, hwaiting]
      simp only [List.length_cons, List.map_cons, List.sum_cons]
      omega

theorem absent_summarize (hb : ∀ row ∈ rows, row.Balanced) (busy : Nat) :
    ((summarize rows busy).averageTurnaround = none ↔ completedRows rows = []) ∧
      ((summarize rows busy).averageWaiting = none ↔ completedRows rows = []) := by
  refine ⟨average_eq_none_iff.trans List.map_eq_nil_iff, average_eq_none_iff.trans ?_⟩
  rw [filterMap_waiting_completedRows hb, ← List.length_eq_zero_iff, (sum_turnaround hb).1,
    List.length_eq_zero_iff]

theorem averages_summarize (hb : ∀ row ∈ rows, row.Balanced) (busy : Nat)
    (hne : completedRows rows ≠ []) :
    (summarize rows busy).averageTurnaround =
        some ⟨((completedRows rows).map (·.turnaround)).sum, (completedRows rows).length⟩ ∧
      (summarize rows busy).averageWaiting =
        some ⟨(rows.filterMap (·.waiting)).sum, (completedRows rows).length⟩ := by
  constructor
  · refine (average_of_ne_nil (List.map_eq_nil_iff.not.mpr hne)).trans ?_
    rw [List.length_map]
  · have hwaiting := filterMap_waiting_completedRows hb
    have hlength := (sum_turnaround hb).1
    refine (average_of_ne_nil ?_).trans ?_
    · rw [hwaiting, ne_eq, ← List.length_eq_zero_iff, hlength, List.length_eq_zero_iff]
      exact hne
    · rw [hwaiting, hlength]

/-- The report says of a state what its entries and its counters say. -/
structure Agrees (r : Report) (s : Simulation) : Prop where
  rows : r.rows = s.outcome.results.map Row.ofResult
  ascending : r.rows.Pairwise fun a b => a.pid < b.pid
  /-- There is a row for each entry that is final, and no other. -/
  entries : ∃ ps, ps.Perm (s.roster.entries.filter (·.isFinal)) ∧ List.Forall₂ Row.Shows r.rows ps
  tally : r.tally = s.outcome.tally
  completed : r.summary.completed = s.tally.completions
  killed : r.summary.killed = s.tally.killsApplied
  waiting : ∀ row ∈ r.rows, row.Balanced
  absent : let done := s.roster.entries.filter (·.isCompleted)
    (r.summary.averageTurnaround = none ↔ done = []) ∧ (r.summary.averageWaiting = none ↔ done = [])
  /-- Both averages have the number of the completed jobs below the line. -/
  averages : let done := s.roster.entries.filter (·.isCompleted)
    let total := (done.filterMap (·.completionTick)).sum
    let waited := (r.rows.filterMap (·.waiting)).sum
    done ≠ [] →
      r.summary.averageTurnaround = some ⟨total, r.summary.completed⟩ ∧
      r.summary.averageWaiting = some ⟨waited, r.summary.completed⟩ ∧
      total = waited + (done.map (·.job.burst)).sum

end Report

namespace Simulation

variable {s : Simulation} {p : Progress} {t : Nat}

theorem Placed.perm_results_entries (h : Placed s) :
    s.outcome.results.Perm (s.roster.entries.filterMap Result.ofProgress?) := by
  have hentries : s.roster.pids.filterMap s.resultOf =
      s.roster.entries.filterMap Result.ofProgress? := by
    rw [Roster.pids, List.filterMap_map]
    refine List.filterMap_congr fun p hp => ?_
    rw [Function.comp_apply, resultOf, Roster.find?_pid h.nodup hp, Option.bind_some]
  exact hentries ▸ h.perm_results

theorem Placed.shows_rows (h : Placed s) :
    ∃ ps, ps.Perm (s.roster.entries.filter (·.isFinal)) ∧
      List.Forall₂ Report.Row.Shows (s.outcome.results.map Report.Row.ofResult) ps := by
  have hshows : List.Forall₂ Report.Row.Shows
      ((s.roster.entries.filter (·.isFinal)).filterMap fun p =>
        (Result.ofProgress? p).map Report.Row.ofResult)
      ((s.roster.entries.filter (·.isFinal)).map id) := by
    refine forall₂_filterMap fun p hp => ?_
    obtain ⟨r, hr⟩ :=
      Option.isSome_iff_exists.mp (Result.isSome_ofProgress?_iff.mpr (List.mem_filter.mp hp).2)
    exact ⟨Report.Row.ofResult r, by rw [hr, Option.map_some], Report.shows_of_ofProgress? hr⟩
  have hperm : (s.outcome.results.map Report.Row.ofResult).Perm
      ((s.roster.entries.filter (·.isFinal)).filterMap fun p =>
        (Result.ofProgress? p).map Report.Row.ofResult) := by
    have hrows := h.perm_results_entries.map Report.Row.ofResult
    rw [List.map_filterMap] at hrows
    rw [List.filterMap_filter]
    refine hrows.trans (List.Perm.of_eq (List.filterMap_congr fun p _ => ?_))
    split
    · rfl
    next hactive =>
      rw [← Result.isSome_ofProgress?_iff, Option.not_isSome_iff_eq_none] at hactive
      rw [hactive]
      rfl
  obtain ⟨ps, hps, hperm⟩ := List.perm_comp_forall₂ hperm hshows
  exact ⟨ps, List.map_id (s.roster.entries.filter (·.isFinal)) ▸ hperm, hps⟩

theorem burst_le_of_completed (jobs : List Job) (kills : List Kill) (n : Nat)
    (hp : p ∈ ((start jobs kills).steps n).roster.entries) (hφ : p.phase = .completed t) :
    p.job.burst ≤ t := by
  have hs := (Sound.start jobs kills).steps n
  have hconsistent := hs.consistent p hp
  have haccounted := accounted_steps jobs kills n (Roster.find?_pid hs.placed.nodup hp)
  simp only [Progress.Consistent, hφ] at hconsistent
  simp only [Progress.Accounted, hφ] at haccounted
  omega

theorem balanced_rows (jobs : List Job) (kills : List Kill) (n : Nat) :
    ∀ row ∈ ((start jobs kills).steps n).outcome.results.map Report.Row.ofResult, row.Balanced := by
  intro row hrow
  obtain ⟨r, hr, rfl⟩ := List.mem_map.mp hrow
  obtain ⟨p, hp, hpr⟩ := Option.bind_eq_some_iff.mp
    ((mem_results_iff ((Placed.start jobs kills).steps n)).mp hr)
  exact (Report.shows_of_ofProgress? hpr).balanced fun t =>
    burst_le_of_completed jobs kills n (Roster.mem_of_find? hp)

end Simulation

namespace Report

open Simulation

/-- Whenever a run is closed, the report of its outcome agrees with the state in which it is closed. -/
theorem ofOutcome_agrees (jobs : List Job) (kills : List Kill) (n : Nat) :
    let s := (start jobs kills).steps n
    (ofOutcome s.outcome).Agrees s := by
  intro s
  have hs : Placed s := (Placed.start jobs kills).steps n
  have hledger : Ledger kills s := Ledger.run jobs kills n
  have hrows := rows_ofOutcome hs.ascending_results
  have hbalanced := balanced_rows jobs kills n
  obtain ⟨ps, hps, hshows⟩ := hs.shows_rows
  rw [← hrows] at hshows hbalanced
  have hcompleted := shows_completedRows hshows
  have hdone : (ps.filter (·.isCompleted)).Perm (s.roster.entries.filter (·.isCompleted)) := by
    refine (hps.filter _).trans (List.Perm.of_eq ?_)
    rw [List.filter_filter]
    refine List.filter_congr fun p _ => ?_
    cases hf : p.isFinal <;> simp [Progress.isCompleted, hf]
  have hcount : (completedRows (ofOutcome s.outcome).rows).length =
      (s.roster.entries.filter (·.isCompleted)).length :=
    hcompleted.length_eq.trans hdone.length_eq
  have hnil : completedRows (ofOutcome s.outcome).rows = [] ↔
      s.roster.entries.filter (·.isCompleted) = [] := by
    rw [← List.length_eq_zero_iff, hcount, List.length_eq_zero_iff]
  refine
    { rows := hrows
      ascending := hrows ▸ List.pairwise_map.mpr hs.ascending_results
      entries := ⟨ps, hps, hshows⟩
      tally := rfl
      completed := ?_
      killed := ?_
      waiting := hbalanced
      absent := ?_
      averages := fun hne => ?_ }
  · rw [hledger.completions, List.countP_eq_length_filter]
    exact hcount
  · have hsize := hshows.length_eq.trans hps.length_eq
    have hways := countP_isFinal s.roster.entries
    simp only [List.countP_eq_length_filter] at hways
    rw [hledger.killsApplied, List.countP_eq_length_filter]
    change (ofOutcome s.outcome).rows.length - (completedRows (ofOutcome s.outcome).rows).length = _
    omega
  · have habsent := absent_summarize hbalanced s.outcome.tally.busy
    rw [hnil] at habsent
    exact habsent
  · have htotal := (hdone.filterMap (·.completionTick)).sum_eq
    have hburst := (hdone.map (·.job.burst)).sum_eq
    have hsum := (sum_turnaround hbalanced).2
    obtain ⟨hturnaround, hwaiting⟩ :=
      averages_summarize hbalanced s.outcome.tally.busy (hnil.not.mpr hne)
    rw [map_turnaround_of_shows hcompleted, htotal] at hturnaround hsum
    rw [map_burst_of_shows hcompleted, hburst] at hsum
    exact ⟨hturnaround, hwaiting, hsum⟩

end Report
end FirstCome
