import FirstCome.Proofs.CpuOnly
import FirstCome.Proofs.Forecast

/-!
A run in which no job can wait for I/O is the run that is foretold.
-/
namespace FirstCome
namespace Simulation

variable {s : Simulation} {kills : List Kill} {pid : Pid} {pids : List Pid} {p : Progress}
  {b : Job × Nat}

theorem resultOf_of_completed {t : Nat} (hp : s.roster.find? pid = some p)
    (hφ : p.phase = .completed t) (ticks : Nat) :
    s.resultOf pid = some (Stint.result ⟨p.job, ticks, t, none⟩) := by
  rw [resultOf, hp, Option.bind_some, Result.ofProgress?_of_completed hφ]
  rfl

theorem resultOf_of_killed {t : Nat} (hp : s.roster.find? pid = some p)
    (hφ : p.phase = .killed t) (ticks : Nat) :
    s.resultOf pid = some (Stint.result ⟨p.job, ticks, t, some t⟩) := by
  rw [resultOf, hp, Option.bind_some, Result.ofProgress?_of_killed hφ]
  rfl

/-- Between `s` and `e` the CPU is used as the stints say, but for at most one idle tick at the end,
and their jobs end as they say. -/
structure Foretold (stints : List Stint) (s e : Simulation) : Prop where
  results : ∀ st ∈ stints, e.resultOf st.job.pid = some st.result
  timeline : ∃ m ≤ 1, e.timeline.toList =
      s.timeline.toList ++ stints.flatMap Stint.slots ++ List.replicate m none ∧
    e.tally.idle = s.tally.idle + m

namespace Foretold

variable {t e : Simulation} {st : Stint} {stints : List Stint}

theorem timeline_cons (h : Foretold stints t e) (ht : t.timeline = s.timeline.push (some pid))
    (hi : t.tally.idle = s.tally.idle) :
    ∃ m ≤ 1, e.timeline.toList =
        s.timeline.toList ++ some pid :: stints.flatMap Stint.slots ++ List.replicate m none ∧
      e.tally.idle = s.tally.idle + m := by
  obtain ⟨m, hm, htimeline, hidle⟩ := h.timeline
  refine ⟨m, hm, ?_, hi ▸ hidle⟩
  rw [htimeline, ht, Array.toList_push]
  simp

theorem complete (h : Foretold stints t e) (ht : t.timeline = s.timeline.push (some st.job.pid))
    (hi : t.tally.idle = s.tally.idle) (hst : st.ticks = 1)
    (hr : e.resultOf st.job.pid = some st.result) : Foretold (st :: stints) s e where
  results := List.forall_mem_cons.mpr ⟨hr, h.results⟩
  timeline := by
    have htimeline := h.timeline_cons ht hi
    have hslots : (st :: stints).flatMap Stint.slots =
        some st.job.pid :: stints.flatMap Stint.slots := by
      rw [List.flatMap_cons, Stint.slots, hst]
      rfl
    rw [hslots]
    exact htimeline

theorem run (h : Foretold (st :: stints) t e)
    (ht : t.timeline = s.timeline.push (some st.job.pid)) (hi : t.tally.idle = s.tally.idle) :
    Foretold ({ st with ticks := st.ticks + 1 } :: stints) s e where
  results := List.forall_mem_cons.mpr (List.forall_mem_cons.mp h.results)
  timeline := h.timeline_cons ht hi

end Foretold

namespace CpuOnly

theorem foretold_of_idle (h : CpuOnly kills s) (hf : s.isFinished = false)
    (hs : s.survivors = []) (n : Nat) : Foretold [] s (s.step.steps n) := by
  have hfin := h.step.isFinished_iff.mpr (h.line_step_of_nil hf hs)
  have hholder : s.holder = none := by rw [holder, hs]; rfl
  have htimeline := h.sound.placed.timeline_step hf
  have hidle := h.sound.placed.idle_step hf
  rw [hholder] at htimeline hidle
  rw [steps_of_isFinished n hfin]
  exact ⟨List.forall_mem_nil _, 1, Nat.le_refl 1, by simp [htimeline], hidle⟩

theorem foretold_survivors (h : CpuOnly kills s) (hf : s.isFinished = false) {n : Nat}
    (ih : Foretold (forecast kills s.step.tick s.step.backlog) s.step (s.step.steps n)) :
    Foretold (forecast kills s.tick (s.backlogOf s.survivors)) s (s.step.steps n) := by
  cases hs : s.survivors with
  | nil => exact h.foretold_of_idle hf hs n
  | cons pid pids =>
    obtain ⟨p, hp, ha, hcase⟩ := h.line_step_of_cons hf hs
    obtain rfl : p.pid = pid := Roster.pid_of_find? hp
    have hholder : s.holder = some p.pid := by rw [holder, hs]; rfl
    have hd : p.pid ∉ s.due := by
      have hm : p.pid ∈ s.survivors := hs ▸ List.mem_cons_self
      simpa using (List.mem_filter.mp hm).2
    have hk := h.lt_first?_of_not_mem_due hp ha hd
    have htimeline := h.sound.placed.timeline_step hf
    have hidle := h.sound.placed.idle_step hf
    rw [hholder] at htimeline hidle
    have hkept := h.backlogOf_step hf hs
    rw [tick_step hf] at ih
    rw [backlogOf_cons hp]
    obtain ⟨hr, hline, hq⟩ | ⟨hr, hline, hq⟩ := hcase
    · -- the last tick of the burst
      rw [backlog, hline, hkept] at ih
      rw [hr, forecast_one hk]
      have hend := h.step.sound.placed.find?_steps_of_isFinal hq rfl n
      exact ih.complete htimeline hidle rfl (resultOf_of_completed hend rfl 1)
    · -- the stint is one tick longer than the next state foretells
      obtain ⟨left, hleft⟩ : ∃ left, p.remaining = left + 2 := ⟨p.remaining - 2, by omega⟩
      have hleft' : p.job.burst - (p.executed + 1) = left + 1 := by
        unfold Progress.remaining at hleft
        omega
      rw [backlog, hline, backlogOf_cons hq, hkept, Progress.remaining, hleft', forecast] at ih
      rw [hleft, forecast_succ hk]
      refine ih.run ?_ hidle
      rw [job_serve]
      exact htimeline

theorem exists_of_mem_backlog (h : CpuOnly kills s) (hb : b ∈ s.backlog) :
    ∃ p, s.roster.find? b.1.pid = some p ∧ p.isFinal = false ∧ p.job = b.1 := by
  obtain ⟨p, hline, hp, hjob⟩ := mem_backlogOf hb
  obtain ⟨q, hq, ha⟩ := h.sound.placed.exists_of_mem_line hline
  obtain rfl := Option.some.inj (hp.symm.trans hq)
  exact ⟨p, hp, ha, hjob⟩

theorem resultOf_steps_of_mem_due (h : CpuOnly kills s)
    (hb : b ∈ s.backlog) (hd : b.1.pid ∈ s.due) (n : Nat) :
    (s.step.steps n).resultOf b.1.pid = some (Stint.result ⟨b.1, 0, s.tick, some s.tick⟩) := by
  obtain ⟨p, hp, ha, hjob⟩ := h.exists_of_mem_backlog hb
  have hend := h.sound.placed.find?_steps_of_mem_due hp ha hd n
  rw [← hjob] at hend ⊢
  exact resultOf_of_killed hend rfl 0

theorem foretold_step (h : CpuOnly kills s) (hf : s.isFinished = false) {n : Nat}
    (ih : Foretold (forecast kills s.step.tick s.step.backlog) s.step (s.step.steps n)) :
    Foretold (forecast kills s.tick s.backlog) s (s.step.steps n) := by
  -- the jobs that are killed in this tick are those for which the forecast has no time
  have hkept := h.foretold_survivors hf ih
  have hfilter : s.backlog.filter (·.1.pid ∉ s.due) = s.backlogOf s.survivors :=
    filter_backlogOf s s.line s.due
  have hk : ∀ b ∈ s.backlog, b.1.pid ∈ s.due → Kill.first? kills b.1.pid = some s.tick := by
    intro b hb hd
    obtain ⟨p, hp, ha, _⟩ := h.exists_of_mem_backlog hb
    exact h.first?_of_mem_due hp ha hd
  rw [← hfilter] at hkept
  refine ⟨fun st hst => ?_, ?_⟩
  · obtain hst' | ⟨hd, hst'⟩ := mem_forecast_filter hk (Nat.le_refl _) hst
    · exact hkept.results st hst'
    · have hjob : st.job ∈ s.backlog.map (·.1) := by
        rw [← map_job_forecast kills s.tick s.backlog]
        exact List.mem_map_of_mem hst
      obtain ⟨b, hb, hbj⟩ := List.mem_map.mp hjob
      have hresult := h.resultOf_steps_of_mem_due hb (hbj ▸ hd) n
      rw [hbj, ← hst'] at hresult
      exact hresult
  · have htimeline := hkept.timeline
    rw [slots_forecast_filter hk (Nat.le_refl _)] at htimeline
    exact htimeline

/-- A run in which no job waits for I/O ends as foretold from any of its states. -/
theorem foretold_steps (h : CpuOnly kills s) {n : Nat} (hn : (s.steps n).isFinished = true) :
    Foretold (forecast kills s.tick s.backlog) s (s.steps n) := by
  induction n generalizing s with
  | zero =>
    have hline : s.backlog = [] := by rw [backlog, h.isFinished_iff.mp hn]; rfl
    rw [hline]
    exact ⟨List.forall_mem_nil _, 0, Nat.zero_le 1, by simp [forecast, Simulation.steps], rfl⟩
  | succ n ih =>
    cases hf : s.isFinished with
    | true =>
      have hline : s.backlog = [] := by rw [backlog, h.isFinished_iff.mp hf]; rfl
      rw [hline, steps_of_isFinished _ hf]
      exact ⟨List.forall_mem_nil _, 0, Nat.zero_le 1, by simp [forecast], rfl⟩
    | false =>
      rw [steps_succ] at hn ⊢
      exact h.foretold_step hf (ih h.step hn)

theorem finished_append_line_step (h : CpuOnly [] s) :
    s.step.finished.entries ++ s.step.line = s.finished.entries ++ s.line := by
  cases hf : s.isFinished with
  | true => rw [step_of_isFinished hf]
  | false =>
    have hplaced := h.sound.placed
    have hdue : s.due = [] := by rw [due_eq h.pending]; rfl
    have hline : s.survivors = s.line := by simp [survivors, hdue]
    have hfinished := hplaced.finished_step hf
    rw [finished_fireKills_of_due_eq_nil hdue] at hfinished
    rw [← hline]
    cases hs : s.survivors with
    | nil =>
      rw [h.line_step_of_nil hf hs]
      obtain he | ⟨pid, hpid, _⟩ := hfinished
      · rw [he]
      · simp [holder, hs] at hpid
    | cons pid pids =>
      have hholder : s.holder = some pid := by rw [holder, hs]; rfl
      simp only [hholder, Option.some.injEq, exists_eq_left'] at hfinished
      obtain ⟨p, hp, ha, hcase⟩ := h.line_step_of_cons hf hs
      -- the holder joins the finished queue if it completes, and only then
      obtain ⟨_, hl, hq⟩ | ⟨_, hl, hq⟩ := hcase
      · have hm := (hplaced.step.mem_finished_iff hq).mpr rfl
        have hn : pid ∉ s.finished.entries := by simp [hplaced.mem_finished_iff hp, ha]
        obtain he | he := hfinished
        · exact absurd (he ▸ hm) hn
        · simp [he, hl]
      · have hm : pid ∉ s.step.finished.entries := fun hm => by
          have hfin := (hplaced.step.mem_finished_iff hq).mp hm
          contradiction
        obtain he | he := hfinished
        · rw [he, hl]
        · simp [he] at hm

theorem finished_append_line_steps (h : CpuOnly [] s) (n : Nat) :
    (s.steps n).finished.entries ++ (s.steps n).line = s.finished.entries ++ s.line := by
  induction n generalizing s with
  | zero => rfl
  | succ n ih => rw [steps_succ, ih h.step, h.finished_append_line_step]

end CpuOnly

theorem backlog_fresh {jobs : List Job} (hn : (jobs.map (·.pid)).Nodup) (kills : List Kill) :
    (fresh jobs kills).backlog = jobs.map fun j => (j, j.burst) := by
  have hline : (fresh jobs kills).line = jobs.map (·.pid) := rfl
  rw [backlog, backlogOf, hline, List.filterMap_map, ← List.filterMap_eq_map]
  refine List.filterMap_congr fun j hj => ?_
  have hfind : (fresh jobs kills).roster.find? j.pid = some { job := j } :=
    Roster.find?_pid (Placed.fresh hn kills).nodup (p := { job := j }) (List.mem_map_of_mem hj)
  rw [Function.comp_apply, hfind]
  rfl

end Simulation

namespace Workload

def forecast (w : Workload) : List Stint :=
  FirstCome.forecast w.kills 0 (w.jobs.map fun j => (j, j.burst))

variable {w : Workload}

theorem map_job_forecast (w : Workload) : w.forecast.map (·.job) = w.jobs := by
  rw [forecast, FirstCome.map_job_forecast, List.map_map]
  exact List.map_id _

theorem foretold_finish (hw : w.check = .ok ()) (hb : ∀ j ∈ w.jobs, j.blocks = false) :
    Simulation.Foretold w.forecast (Simulation.start w.jobs w.kills)
      (Simulation.start w.jobs w.kills).finish := by
  have h := (Simulation.CpuOnly.start hw hb).foretold_steps
    (Simulation.isFinished_finish w.jobs w.kills)
  rw [Simulation.tick_start] at h
  have hbacklog := Simulation.backlog_fresh (nodup_of_check hw) w.kills
  rw [← start_of_check hw] at hbacklog
  rw [hbacklog] at h
  exact h

theorem filterMap_pids {β : Type} {f : Pid → Option β} {g : Stint → β}
    (h : ∀ st ∈ w.forecast, f st.job.pid = some (g st)) :
    (w.jobs.map (·.pid)).filterMap f = w.forecast.map g := by
  rw [← map_job_forecast w, List.map_map, List.filterMap_map, ← List.filterMap_eq_map]
  exact List.filterMap_congr h

theorem finished_finish (hw : w.check = .ok ()) (hb : ∀ j ∈ w.jobs, j.blocks = false)
    (hk : w.kills = []) :
    (Simulation.start w.jobs w.kills).finish.finished.entries = w.jobs.map (·.pid) := by
  have hcpu := Simulation.CpuOnly.start hw hb
  have hfin := Simulation.isFinished_finish w.jobs w.kills
  have hstart := start_of_check hw w.kills
  rw [hk] at hcpu hfin hstart ⊢
  have hend : Simulation.CpuOnly [] (Simulation.start w.jobs []).finish := hcpu.steps _
  have horder := hcpu.finished_append_line_steps (Simulation.start w.jobs []).roster.budget
  rw [← Simulation.finish, hend.isFinished_iff.mp hfin, List.append_nil] at horder
  rw [horder, hstart]
  rfl

/-- If no job can wait for I/O, the run of a workload is what one pass over the jobs foretells: the
results, and the use of the CPU but for at most one idle tick at the end. Without kills the jobs
complete in registration order, each at the sum of the bursts so far. -/
theorem simulate_as_foretold (hw : w.check = .ok ()) (hb : ∀ j ∈ w.jobs, j.blocks = false) :
    ∃ o, w.simulate = .ok o ∧
      o.results = Result.byPid (w.forecast.map Stint.result) ∧
      (∃ m ≤ 1, o.timeline.toList = w.forecast.flatMap Stint.slots ++ List.replicate m none ∧
        o.tally.idle = m) ∧
      (w.kills = [] → o.completionOrder = w.jobs.map (·.pid) ∧
        o.completionOrder.filterMap (fun pid => (o.result? pid).map (·.completionTick)) =
          ((w.jobs.map (·.burst)).scanl (· + ·) 0).tail) := by
  have hcpu := Simulation.CpuOnly.start hw hb
  have hforetold := foretold_finish hw hb
  have hstart := start_of_check hw w.kills
  have hfin := Simulation.isFinished_finish w.jobs w.kills
  have hend : Simulation.CpuOnly w.kills (Simulation.start w.jobs w.kills).finish := hcpu.steps _
  have hpids : (Simulation.start w.jobs w.kills).finish.roster.pids = w.jobs.map (·.pid) := by
    rw [Simulation.finish, Simulation.pids_steps hcpu.sound.placed, hstart, Simulation.pids_fresh]
  refine ⟨_, simulate_of_check hw, ?_, ?_, fun hk => ?_⟩
  · rw [Simulation.results_outcome hend.sound.placed, hpids, filterMap_pids hforetold.results]
  · obtain ⟨m, hm, htimeline, hidle⟩ := hforetold.timeline
    have hempty : (Simulation.start w.jobs w.kills).timeline = #[] ∧
        (Simulation.start w.jobs w.kills).tally.idle = 0 := by
      rw [hstart]
      exact ⟨rfl, rfl⟩
    rw [hempty.1, Array.toList_empty, List.nil_append] at htimeline
    rw [hempty.2, Nat.zero_add] at hidle
    exact ⟨m, hm, htimeline, hidle⟩
  · have horder := finished_finish hw hb hk
    refine ⟨horder, ?_⟩
    have hticks : ∀ st ∈ w.forecast,
        (((Simulation.start w.jobs w.kills).finish.outcome.result? st.job.pid).map
          (·.completionTick)) = some st.completionTick := by
      intro st hst
      rw [Simulation.result?_outcome hend.sound.placed, hforetold.results st hst]
      rfl
    have hsums := completionTick_forecast_nil 0 (w.jobs.map fun j => (j, j.burst))
    rw [← hk, List.map_map] at hsums
    change ((Simulation.start w.jobs w.kills).finish.finished.entries).filterMap _ = _
    rw [horder, filterMap_pids hticks]
    exact hsums

/-- Of three jobs, the second is killed while it runs, and the third, whose I/O would start at its very
end, while it waits for the CPU. -/
theorem simulate_as_foretold_three :
    let w : Workload :=
      { jobs := [{ pid := 3, name := "a", burst := 2 }, { pid := 1, name := "b", burst := 4 },
          { pid := 2, name := "c", burst := 1, ioStart := some 1, ioDuration := 5 }]
        kills := [⟨1, 9⟩, ⟨2, 2⟩, ⟨1, 4⟩] }
    (w.check = .ok () ∧ ∀ j ∈ w.jobs, j.blocks = false) ∧
      (∃ o, w.simulate = .ok o ∧ o.results = Result.byPid (w.forecast.map Stint.result) ∧
        ∃ m ≤ 1, o.timeline.toList = [some 3, some 3, some 1, some 1] ++ List.replicate m none ∧
          o.tally.idle = m) ∧
      ∃ o, { w with kills := [] }.simulate = .ok o ∧ o.completionOrder = [3, 1, 2] ∧
        o.completionOrder.filterMap (fun pid => (o.result? pid).map (·.completionTick)) =
          [2, 6, 7] := by
  intro w
  have hw : w.check = .ok () := by decide
  have hb : ∀ j ∈ w.jobs, j.blocks = false := by decide
  have hslots : w.forecast.flatMap Stint.slots = [some 3, some 3, some 1, some 1] := by decide
  obtain ⟨o, ho, hresults, htimeline, _⟩ := simulate_as_foretold hw hb
  obtain ⟨o', ho', _, _, hfree⟩ := simulate_as_foretold (w := { w with kills := [] }) hw hb
  obtain ⟨horder, hticks⟩ := hfree rfl
  rw [hslots] at htimeline
  exact ⟨⟨hw, hb⟩, ⟨o, ho, hresults, htimeline⟩, o', ho', horder, hticks⟩

end Workload
end FirstCome
