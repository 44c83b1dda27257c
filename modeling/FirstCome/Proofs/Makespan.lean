import FirstCome.Proofs.Rounding
import FirstCome.Proofs.Summary

/-!
The clock at the end of a run. The last job to leave the system sets the makespan: the clock stands there
if that job completed, and one idle tick past it if the job was killed.
-/
namespace FirstCome

theorem Result.departure_of_ofProgress? {p : Progress} {r : Result} (h : ofProgress? p = some r) :
    p.departure = 2 * r.completionTick + if r.killed then 1 else 0 := by
  have hfin : p.isFinal = true := isFinal_of_ofProgress? h
  cases hφ : p.phase with
  | completed t =>
    obtain rfl := Option.some.inj ((ofProgress?_of_completed hφ).symm.trans h)
    exact Progress.departure_of_completed hφ
  | killed t =>
    obtain rfl := Option.some.inj ((ofProgress?_of_killed hφ).symm.trans h)
    exact Progress.departure_of_killed hφ
  | ready | running | waiting => simp [Progress.isFinal, hφ, Phase.isFinal] at hfin

namespace Outcome

variable {o : Outcome} {a b pid : Pid} {r r' : Result}

/-- The results say that the first of two jobs left the system in no later tick than the second, and in
an earlier one if neither was killed. -/
def LeftBefore (o : Outcome) (a b : Pid) : Prop :=
  ∃ r r', o.result? a = some r ∧ o.result? b = some r' ∧ r.completionTick ≤ r'.completionTick ∧
    (r.killed = false → r'.killed = false → r.completionTick < r'.completionTick)

theorem completionTick_le_last (ho : o.completionOrder.Pairwise o.LeftBefore)
    (hlast : o.completionOrder.getLast? = some b) (hb : o.result? b = some r')
    (hm : a ∈ o.completionOrder) (ha : o.result? a = some r) :
    r.completionTick ≤ r'.completionTick := by
  obtain ⟨front, horder⟩ := List.getLast?_eq_some_iff.mp hlast
  rw [horder] at ho hm
  obtain hm | hm := List.mem_append.mp hm
  · obtain ⟨q, q', hq, hq', hle, _⟩ :=
      (List.pairwise_append.mp ho).2.2 a hm b List.mem_cons_self
    obtain rfl := Option.some.inj (hq.symm.trans ha)
    obtain rfl := Option.some.inj (hq'.symm.trans hb)
    exact hle
  · obtain rfl := List.mem_singleton.mp hm
    obtain rfl := Option.some.inj (ha.symm.trans hb)
    exact Nat.le_refl _

end Outcome

theorem Report.makespan_eq {rows : List Row} {t : Nat} (hm : t ∈ rows.map (·.turnaround))
    (hle : ∀ u ∈ rows.map (·.turnaround), u ≤ t) : makespan rows = t := by
  rw [makespan, List.foldl_max, List.max?_eq_some_iff.mpr ⟨hm, hle⟩, Option.getD_some, Nat.zero_max]

namespace Simulation

variable {s : Simulation} {jobs : List Job} {kills : List Kill} {pid : Pid} {p q : Progress}
  {r : Result} {n : Nat}

/-! ### The order of the results -/

theorem Placed.exists_result (h : Placed s) (hp : s.roster.find? pid = some p)
    (hm : pid ∈ s.finished.entries) :
    ∃ r, Result.ofProgress? p = some r ∧ s.outcome.result? pid = some r := by
  obtain ⟨r, hr⟩ := Option.isSome_iff_exists.mp
    (Result.isSome_ofProgress?_iff.mpr ((h.mem_finished_iff hp).mp hm))
  exact ⟨r, hr, by rw [result?_outcome h, resultOf, hp, Option.bind_some, hr]⟩

theorem Chronological.pairwise_leftBefore (h : Chronological s) (hs : Placed s) :
    s.outcome.completionOrder.Pairwise s.outcome.LeftBefore := by
  refine List.Pairwise.imp_of_mem (fun {a b} ha hb hab => ?_) h
  obtain ⟨p, q, hp, hq, horder⟩ := hab
  obtain ⟨r, hr, hra⟩ := hs.exists_result hp ha
  obtain ⟨r', hr', hrb⟩ := hs.exists_result hq hb
  have hleft := Result.departure_of_ofProgress? hr
  have hleft' := Result.departure_of_ofProgress? hr'
  refine ⟨r, r', hra, hrb, ?_⟩
  obtain hlt | ⟨t, hk, hk'⟩ := horder
  · -- a kill comes half a tick after the start of the tick
    rw [hleft, hleft'] at hlt
    refine ⟨?_, fun hkept hkept' => ?_⟩
    · split at hlt <;> split at hlt <;> omega
    · simp only [hkept, hkept', Bool.false_eq_true, if_false] at hlt
      omega
  · obtain rfl := Option.some.inj ((Result.ofProgress?_of_killed hk).symm.trans hr)
    obtain rfl := Option.some.inj ((Result.ofProgress?_of_killed hk').symm.trans hr')
    exact ⟨Nat.le_refl _, nofun⟩

/-! ### The last tick -/

theorem Placed.mem_felled_of_isFinal (h : Placed s) (hf : s.isFinished = false) (hh : s.holder = none)
    (hp : s.roster.find? pid = some p) (ha : p.isFinal = false)
    (hq : s.step.roster.find? pid = some q) (hfin : q.isFinal = true) : pid ∈ s.felled := by
  obtain ⟨q', hq', hm⟩ := h.exists_move hf hp
  obtain rfl := Option.some.inj (hq'.symm.trans hq)
  have hlive : s.isLive pid = true := by simp [isLive, hp, ha]
  cases hm with
  | kill _ hd => exact mem_felled_iff.mpr ⟨of_decide_eq_true hd, hlive⟩
  | rest hrest => simp [ha] at hrest
  | complete _ _ hc | block _ _ hc | run _ _ hc => simp [hh] at hc
  | queue => simp [ha] at hfin
  | wake => simp [Progress.isFinal, Phase.isFinal] at hfin
  | drain hw => simp [Progress.isFinal, hw, Phase.isFinal] at hfin

theorem Placed.felled_ne_nil (h : Placed s) (hf : s.isFinished = false)
    (hend : s.step.isFinished = true) (hh : s.holder = none) : s.felled ≠ [] := by
  intro hnil
  have hactive : ¬∀ p ∈ s.roster.entries, p.isFinal = true := by
    rw [← h.isFinished_iff, hf]
    exact Bool.false_ne_true
  push Not at hactive
  obtain ⟨p, hp, ha⟩ := hactive
  have hfind := Roster.find?_pid h.nodup hp
  obtain ⟨q, hq, _⟩ := h.exists_move hf hfind
  have hfin := h.step.isFinished_iff.mp hend q (Roster.mem_of_find? hq)
  have hm := h.mem_felled_of_isFinal hf hh hfind (by simpa using ha) hq hfin
  simp [hnil] at hm

theorem Placed.last_departure (h : Placed s) (hf : s.isFinished = false)
    (hend : s.step.isFinished = true) :
    ∃ pid p, s.step.finished.entries.getLast? = some pid ∧ s.step.roster.find? pid = some p ∧
      (p.phase = .completed (s.tick + 1) ∨ p.phase = .killed s.tick ∧ s.holder = none) := by
  have horder := h.finished_step_eq hf
  cases hh : s.holder with
  | some pid =>
    obtain ⟨p, hp, _⟩ := h.exists_of_holder hh
    obtain ⟨q, hq, _⟩ := h.exists_move hf hp
    have hat : s.step.isAt .finished pid = true := by
      rw [isAt_of_find? hq, decide_eq_true_eq, Phase.place_eq_finished]
      exact h.step.isFinished_iff.mp hend q (Roster.mem_of_find? hq)
    obtain ⟨q', hq', hφ⟩ := h.find?_step_of_completed hf hh hat
    refine ⟨pid, q', ?_, hq', .inl hφ⟩
    rw [horder, hh, Option.toList_some, List.filter_cons_of_pos hat, List.filter_nil, ← List.append_assoc,
      List.getLast?_concat]
  | none =>
    have hlast := List.getLast?_eq_some_getLast (h.felled_ne_nil hf hend hh)
    obtain ⟨p, hp, hφ⟩ := h.find?_step_of_felled (List.mem_of_getLast? hlast)
    refine ⟨_, p, ?_, hp, .inr ⟨hφ, rfl⟩⟩
    rw [horder, hh, Option.toList_none, List.filter_nil, List.append_nil, List.getLast?_append, hlast,
      Option.some_or]

theorem exists_last_step (hf : s.isFinished = false) (hend : (s.steps n).isFinished = true) :
    ∃ m, (s.steps m).isFinished = false ∧ (s.steps m).step.isFinished = true ∧
      s.steps n = (s.steps m).step := by
  induction n with
  | zero => simp [steps, hf] at hend
  | succ n ih =>
    cases hn : (s.steps n).isFinished with
    | true =>
      obtain ⟨m, hm, hstep, hsame⟩ := ih hn
      exact ⟨m, hm, hstep, by rw [steps_succ_last, step_of_isFinished hn, hsame]⟩
    | false =>
      rw [steps_succ_last] at hend
      exact ⟨n, hn, hend, steps_succ_last n s⟩

theorem Chronological.makespan_eq (h : Chronological s) (hs : Placed s)
    (hlast : s.outcome.completionOrder.getLast? = some pid) (hr : s.outcome.result? pid = some r) :
    (Report.ofOutcome s.outcome).summary.makespan = r.completionTick := by
  have hrows := Report.rows_ofOutcome hs.ascending_results
  have horder := h.pairwise_leftBefore hs
  have hturnarounds : (Report.ofOutcome s.outcome).rows.map (·.turnaround) =
      s.outcome.results.map (·.completionTick) := by
    rw [hrows, List.map_map]
    rfl
  change Report.makespan (Report.ofOutcome s.outcome).rows = r.completionTick
  refine Report.makespan_eq ?_ fun u hu => ?_
  · rw [hturnarounds]
    exact List.mem_map_of_mem (List.mem_of_find?_eq_some hr)
  · rw [hturnarounds] at hu
    obtain ⟨r', hr', rfl⟩ := List.mem_map.mp hu
    have hresult := (mem_results_iff hs).mp hr'
    have hfind := (result?_outcome hs r'.pid).trans hresult
    exact Outcome.completionTick_le_last horder hlast hr (mem_finished_of_resultOf hs hresult) hfind

/-- The last job to leave the system, against the clock. -/
structure Closes (o : Outcome) (pid : Pid) (r : Result) : Prop where
  last : o.completionOrder.getLast? = some pid
  result : o.result? pid = some r
  finalTick : o.finalTick = (Report.ofOutcome o).summary.makespan + if r.killed then 1 else 0
  busy : o.tally.busy ≤ (Report.ofOutcome o).summary.makespan

theorem Sound.exists_closes (h : Sound s) (hc : Chronological s) (hf : s.isFinished = false)
    (hend : s.step.isFinished = true) : ∃ pid r, Closes s.step.outcome pid r := by
  have hs := h.placed.step
  obtain ⟨pid, p, hlast, hp, hφ⟩ := h.placed.last_departure hf hend
  obtain ⟨r, hr, hresult⟩ := hs.exists_result hp (List.mem_of_getLast? hlast)
  have hmakespan := (hc.step h).makespan_eq hs hlast hresult
  have htick : s.step.outcome.finalTick = s.tick + 1 := tick_step hf
  have hshare : s.step.outcome.tally.busy + s.step.tally.idle = s.step.outcome.finalTick :=
    h.step.busy_add_idle
  have hidle := h.placed.idle_step hf
  refine ⟨pid, r, hlast, hresult, ?_, ?_⟩
  · rw [htick, hmakespan]
    obtain hφ | ⟨hφ, _⟩ := hφ
    · obtain rfl := Option.some.inj ((Result.ofProgress?_of_completed hφ).symm.trans hr)
      rfl
    · obtain rfl := Option.some.inj ((Result.ofProgress?_of_killed hφ).symm.trans hr)
      rfl
  · rw [hmakespan]
    obtain hφ | ⟨hφ, hnone⟩ := hφ
    · obtain rfl := Option.some.inj ((Result.ofProgress?_of_completed hφ).symm.trans hr)
      dsimp only
      omega
    · -- a last tick without a holder is idle
      obtain rfl := Option.some.inj ((Result.ofProgress?_of_killed hφ).symm.trans hr)
      simp only [hnone, Option.isSome_none, Bool.false_eq_true, if_false] at hidle
      dsimp only
      omega

theorem isFinished_start_eq_false (hne : jobs ≠ []) (kills : List Kill) :
    (start jobs kills).isFinished = false := by
  obtain ⟨j, hj⟩ := List.exists_mem_of_ne_nil jobs hne
  obtain ⟨p, hp⟩ := exists_find?_steps kills (List.mem_map_of_mem hj) 0
  obtain ⟨k, _, rfl⟩ := exists_of_mem_start (Roster.mem_of_find? hp)
  exact isFinished_eq_false (Placed.start jobs kills) hp rfl

theorem exists_closes_finish (hne : jobs ≠ []) (kills : List Kill) :
    ∃ pid r, Closes (start jobs kills).finish.outcome pid r := by
  obtain ⟨m, hf, hend, hlast⟩ :=
    exists_last_step (isFinished_start_eq_false hne kills) (isFinished_finish jobs kills)
  have hfinish : (start jobs kills).finish = ((start jobs kills).steps m).step := hlast
  have hs := Sound.start jobs kills
  rw [hfinish]
  exact (hs.steps m).exists_closes ((Chronological.start jobs kills).steps hs m) hf hend

theorem outcome_finish_nil (kills : List Kill) :
    let o := (start [] kills).finish.outcome
    o.finalTick = 0 ∧ o.tally.busy = 0 ∧ (Report.ofOutcome o).summary.makespan = 0 := by
  have hfinish : (start [] kills).finish = start [] kills := steps_of_isFinished _ rfl
  have hresults : (start [] kills).outcome.results = [] := List.mergeSort_nil
  rw [hfinish]
  refine ⟨rfl, rfl, ?_⟩
  simp [Report.ofOutcome, hresults, Report.summarize, Report.makespan]

end Simulation

namespace Workload

variable {w : Workload}

/-- A checked workload is run, and its jobs are noted in the order in which they left. With the last of
them the clock has come to its end, an idle tick later if that one was killed, and the CPU was not busy
for longer than the makespan. -/
theorem makespan_tracks_clock (hw : w.check = .ok ()) :
    ∃ o, w.simulate = .ok o ∧
      o.completionOrder.Pairwise o.LeftBefore ∧
      let summary := (Report.ofOutcome o).summary
      (w.jobs ≠ [] → ∃ pid r, o.completionOrder.getLast? = some pid ∧ o.result? pid = some r ∧
        o.finalTick = summary.makespan + if r.killed then 1 else 0) ∧
      (w.jobs = [] → o.finalTick = 0 ∧ summary.makespan = 0) ∧
      o.tally.busy ≤ summary.makespan ∧
      summary.utilization.toBinary.toRat ≤ 1 ∧
      (summary.utilization.toBinary.mul (.ofNat 100)).toRat ≤ 100 := by
  have hs := (Simulation.Placed.start w.jobs w.kills).steps
    (Simulation.start w.jobs w.kills).roster.budget
  have horder := (Simulation.Chronological.start w.jobs w.kills).steps
    (Simulation.Sound.start w.jobs w.kills) (Simulation.start w.jobs w.kills).roster.budget
  have hempty (hnil : w.jobs = []) :
      let o := (Simulation.start w.jobs w.kills).finish.outcome
      o.finalTick = 0 ∧ o.tally.busy = 0 ∧ (Report.ofOutcome o).summary.makespan = 0 := by
    rw [hnil]
    exact Simulation.outcome_finish_nil w.kills
  refine ⟨_, simulate_of_check hw, horder.pairwise_leftBefore hs, ?_⟩
  intro summary
  have hbusy : (Simulation.start w.jobs w.kills).finish.outcome.tally.busy ≤ summary.makespan := by
    obtain hnil | hne := eq_or_ne w.jobs []
    · exact (hempty hnil).2.1.le.trans (Nat.zero_le _)
    · obtain ⟨_, _, hclose⟩ := Simulation.exists_closes_finish hne w.kills
      exact hclose.busy
  obtain ⟨hratio, hpercent⟩ := Ratio.toBinary_le_one (r := summary.utilization) hbusy
  refine ⟨fun hne => ?_, fun hnil => ⟨(hempty hnil).1, (hempty hnil).2.2⟩, hbusy, hratio, hpercent⟩
  obtain ⟨pid, r, hclose⟩ := Simulation.exists_closes_finish hne w.kills
  exact ⟨pid, r, hclose.last, hclose.result, hclose.finalTick⟩

/-- The second job is killed when the first has just completed, and the run ends with an idle tick. -/
theorem makespan_tracks_clock_killed :
    let w : Workload :=
      { jobs := [{ pid := 1, name := "a", burst := 3 }, { pid := 2, name := "b", burst := 2 }]
        kills := [⟨2, 3⟩] }
    w.check = .ok () ∧ ∃ o, w.simulate = .ok o ∧ o.completionOrder = [1, 2] ∧ o.finalTick = 4 ∧
      o.completionOrder.Pairwise o.LeftBefore ∧
      (∃ r, o.result? 2 = some r ∧
        o.finalTick = (Report.ofOutcome o).summary.makespan + if r.killed then 1 else 0) ∧
      (Report.ofOutcome o).summary.utilization.toBinary.toRat ≤ 1 := by
  intro w
  have hw : w.check = .ok () := by decide
  obtain ⟨o, ho, horder, hclock, _, _, hratio, _⟩ := makespan_tracks_clock hw
  obtain rfl := Except.ok.inj ((simulate_of_check hw).symm.trans ho)
  obtain ⟨pid, r, hlast, hr, htick⟩ := hclock (by decide)
  have hcompletions : (Simulation.start w.jobs w.kills).finish.outcome.completionOrder = [1, 2] := by
    decide
  obtain rfl : 2 = pid := by simpa [hcompletions] using hlast
  exact ⟨hw, _, ho, hcompletions, by decide, horder, ⟨r, hr, htick⟩, hratio⟩

end Workload
end FirstCome
