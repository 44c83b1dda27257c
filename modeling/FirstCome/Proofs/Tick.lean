import FirstCome.Proofs.Cpu
import FirstCome.Proofs.Strike

/-!
The tick: what it does to each entry, and that every pid is in its place after it.
-/
namespace FirstCome

namespace Simulation

variable {s t : Simulation} {pid : Pid} {x y : Place} {p : Progress}

theorem entries_drainIo (s : Simulation) {cohort : List Pid} (hn : cohort.Nodup) :
    (s.drainIo cohort).roster.entries =
      s.roster.entries.map fun p => if p.pid ∈ cohort then p.drainIo else p := by
  change (cohort.foldl (fun r pid => r.update pid Progress.drainIo) s.roster).entries = _
  generalize s.roster = r
  induction cohort generalizing r with
  | nil => simp
  | cons pid cohort ih =>
    obtain ⟨hpid, hn⟩ := List.nodup_cons.mp hn
    rw [List.foldl_cons, ih hn]
    simp only [Roster.update, List.map_map]
    refine List.map_congr_left fun p _ => ?_
    by_cases he : p.pid = pid
    · subst he
      have hd : p.drainIo.pid = p.pid := rfl
      simp [hd, hpid]
    · simp [he]

theorem Placed.drainIo (h : Placed s) {cohort : List Pid} (hn : cohort.Nodup) :
    Placed (s.drainIo cohort) := by
  refine h.stay (fun p => if p.pid ∈ cohort then p.drainIo else p) ?_ ?_ rfl ?_
  · intro p
    split <;> rfl
  · rw [← entries_drainIo s hn]
  · intro p _
    split <;> rfl

theorem heldIn_wake (s : Simulation) (pid : Pid) (x : Place) :
    (s.wake pid).heldIn x =
      match x with
      | .ready => s.heldIn .ready ++ [pid]
      | .waiting => (s.heldIn .waiting).erase pid
      | x => s.heldIn x := by
  cases x <;> simp [Simulation.wake, heldIn, Queue.entries_remove?_getD]

theorem Placed.wake (h : Placed s) (hw : pid ∈ s.heldIn .waiting) : Placed (s.wake pid) := by
  have hmove : Transfer s (s.wake pid) pid .waiting .ready :=
    { ne := by decide
      mem := hw
      source := heldIn_wake s pid .waiting
      target := heldIn_wake s pid .ready
      other := fun z hz hz' => by
        rw [heldIn_wake]
        cases z <;> simp_all }
  exact h.transfer hmove Progress.wake (fun _ => rfl) rfl (fun _ _ => rfl)

theorem foldl_wake_eq (s : Simulation) (pids : List Pid) :
    pids.foldl Simulation.wake s =
      { s with
        roster := (pids.foldl Simulation.wake s).roster
        ready := (pids.foldl Simulation.wake s).ready
        waiting := (pids.foldl Simulation.wake s).waiting } := by
  induction pids generalizing s with
  | nil => rfl
  | cons pid pids ih =>
    rw [List.foldl_cons, ih (s.wake pid)]
    rfl

theorem mem_wake {pids : List Pid} (hn : (pid :: pids).Nodup)
    (hw : ∀ q ∈ pid :: pids, q ∈ s.heldIn .waiting) :
    ∀ q ∈ pids, q ∈ (s.wake pid).heldIn .waiting := by
  intro q hq
  have hne : q ≠ pid := ne_of_mem_of_not_mem hq (List.nodup_cons.mp hn).1
  rw [heldIn_wake]
  exact (List.mem_erase_of_ne hne).mpr (hw q (List.mem_cons_of_mem _ hq))

/-- `t` is `s` after the waiting jobs `pids` have become ready in this order. -/
structure Woken (s t : Simulation) (pids : List Pid) : Prop where
  placed : Placed t
  entries : t.roster.entries =
    s.roster.entries.map fun p => if p.pid ∈ pids then p.wake else p
  cpu : t.heldIn .cpu = s.heldIn .cpu
  ready : t.heldIn .ready = s.heldIn .ready ++ pids
  waiting : t.heldIn .waiting = (s.heldIn .waiting).filter (· ∉ pids)
  finished : t.heldIn .finished = s.heldIn .finished

theorem Placed.foldl_wake (h : Placed s) {pids : List Pid} (hn : pids.Nodup)
    (hw : ∀ pid ∈ pids, pid ∈ s.heldIn .waiting) : Woken s (pids.foldl Simulation.wake s) pids := by
  induction pids generalizing s with
  | nil =>
    refine ⟨h, ?_, rfl, ?_, ?_, rfl⟩ <;> simp
  | cons pid pids ih =>
    have hpid := (List.nodup_cons.mp hn).1
    have hw := ih (h.wake (hw pid List.mem_cons_self)) (List.nodup_cons.mp hn).2 (mem_wake hn hw)
    refine ⟨hw.placed, ?_, hw.cpu.trans (heldIn_wake s pid .cpu), ?_, ?_,
      hw.finished.trans (heldIn_wake s pid .finished)⟩
    · rw [List.foldl_cons, hw.entries]
      simp only [Simulation.wake, Roster.update, List.map_map]
      refine List.map_congr_left fun p _ => ?_
      by_cases he : p.pid = pid
      · subst he
        have hd : p.wake.pid = p.pid := rfl
        simp [hd, hpid]
      · simp [he]
    · rw [List.foldl_cons, hw.ready, heldIn_wake]
      simp
    · rw [List.foldl_cons, hw.waiting, heldIn_wake]
      exact filter_erase (h.nodup_heldIn .waiting) pid pids

theorem Placed.wakeDrained (h : Placed s) : Woken s s.wakeDrained s.drained :=
  h.foldl_wake ((h.nodup_heldIn .waiting).filter _) fun _ hpid => List.mem_of_mem_filter hpid

/-! ### The whole tick -/

/-- The state in which the CPU does its work: the kills have fired and a free CPU has been filled. -/
def atCpu (s : Simulation) : Simulation := s.fireKills.fillCpu

def afterIo (s : Simulation) : Simulation := s.atCpu.useCpu.drainIo s.atCpu.waiting.entries

theorem step_eq (hf : s.isFinished = false) : s.step = s.afterIo.wakeDrained.advanceClock := by
  simp [step, hf, afterIo, atCpu]

theorem Placed.atCpu (h : Placed s) : Placed s.atCpu := h.fireKills.placed.fillCpu

theorem Placed.afterIo (h : Placed s) : Placed s.afterIo :=
  h.atCpu.useCpu.drainIo (h.atCpu.nodup_heldIn .waiting)

theorem Placed.step (h : Placed s) : Placed s.step := by
  cases hf : s.isFinished with
  | true => rw [step_of_isFinished hf]; exact h
  | false =>
    rw [step_eq hf]
    have hw := h.afterIo.wakeDrained.placed
    exact ⟨hw.nodup, hw.perm, hw.held⟩

theorem Placed.steps (h : Placed s) (n : Nat) : Placed (steps n s) := by
  induction n generalizing s with
  | zero => exact h
  | succ n ih => rw [steps_succ]; exact ih h.step

def survivors (s : Simulation) : List Pid := s.line.filter (· ∉ s.due)

/-- Who has the CPU in the coming tick. -/
def holder (s : Simulation) : Option Pid := s.survivors.head?

theorem mem_line_of_holder (hh : s.holder = some pid) : pid ∈ s.line :=
  List.mem_of_mem_filter (List.mem_of_head? hh)

def woken (s : Simulation) : List Pid :=
  (s.waiting.entries.filter (· ∉ s.due)).filter fun pid => (s.roster.find? pid).any (·.ioLeft ≤ 1)

theorem Placed.line_fireKills (h : Placed s) : s.fireKills.line = s.survivors := by
  rw [line, h.fireKills.held .cpu (by decide), h.fireKills.held .ready (by decide), survivors, line,
    List.filter_append]

theorem Placed.running_atCpu (h : Placed s) : s.atCpu.running = s.holder := by
  rw [Simulation.atCpu, running_fillCpu, h.line_fireKills, holder]

theorem Placed.ready_atCpu (h : Placed s) : s.atCpu.ready.entries = s.survivors.tail := by
  rw [Simulation.atCpu, ready_fillCpu, h.line_fireKills]

theorem Placed.waiting_atCpu (h : Placed s) :
    s.atCpu.waiting.entries = s.waiting.entries.filter (· ∉ s.due) := by
  rw [Simulation.atCpu, fillCpu_eq]
  exact h.fireKills.held .waiting (by decide)

theorem tick_atCpu (s : Simulation) : s.atCpu.tick = s.tick := by
  rw [atCpu, fillCpu_eq, fireKills_eq]

theorem step_frame (hf : s.isFinished = false) :
    s.step =
      { roster := s.step.roster
        ready := s.step.ready
        waiting := s.step.waiting
        finished := s.step.finished
        running := s.step.running
        kills := (s.kills.fire s.tick).2
        tick := s.tick + 1
        timeline := s.timeline.push s.atCpu.running
        tally :=
          { s.step.tally with
            ticks := s.tick + 1
            busy := s.tally.busy + if s.atCpu.running.isSome then 1 else 0
            idle := s.tally.idle + if s.atCpu.running.isSome then 0 else 1 } } := by
  have hcpu : s.atCpu.tick = s.tick ∧ s.atCpu.kills = (s.kills.fire s.tick).2 ∧
      s.atCpu.timeline = s.timeline ∧ s.atCpu.tally.busy = s.tally.busy ∧
      s.atCpu.tally.idle = s.tally.idle := by
    rw [atCpu, fillCpu_eq, fireKills_eq]
    exact ⟨rfl, rfl, rfl, rfl, rfl⟩
  obtain ⟨htick, hkills, htimeline, hbusy, hidle⟩ := hcpu
  rw [step_eq hf, wakeDrained, foldl_wake_eq, afterIo, drainIo, useCpu_eq]
  cases hr : s.atCpu.running with
  | none => simp [advanceClock, recordCpu, htick, hkills, htimeline, hbusy, hidle, hr]
  | some pid => simp [advanceClock, recordCpu, htick, hkills, htimeline, hbusy, hidle, hr]

theorem tick_step (hf : s.isFinished = false) : s.step.tick = s.tick + 1 :=
  congrArg tick (step_frame hf)

namespace Placed

variable {s t : Simulation} {pid : Pid} {x y : Place} {p : Progress}

theorem entries_atCpu (h : Placed s) :
    s.atCpu.roster.entries = s.roster.entries.map fun p =>
      if s.holder = some p.pid then (p.afterKills s.due s.tick).dispatch
      else p.afterKills s.due s.tick := by
  rw [Simulation.atCpu, h.fireKills.placed.entries_fillCpu, h.line_fireKills, ← holder,
    h.fireKills.entries, List.map_map]
  refine List.map_congr_left fun p _ => ?_
  simp only [Function.comp_apply, Progress.pid_afterKills]

theorem mem_line_iff (h : Placed s) (hp : p ∈ s.roster.entries) :
    p.pid ∈ s.line ↔ p.phase = .running ∨ p.phase = .ready := by
  rw [line, List.mem_append, h.mem_heldIn_iff hp, h.mem_heldIn_iff hp, Phase.place_eq_cpu,
    Phase.place_eq_ready]

theorem waiting_atCpu_iff (h : Placed s) (hp : p ∈ s.roster.entries) :
    p.pid ∈ s.atCpu.waiting.entries ↔ p.phase = .waiting ∧ p.pid ∉ s.due := by
  rw [h.waiting_atCpu, List.mem_filter, decide_eq_true_eq]
  exact and_congr_left fun _ => (h.mem_heldIn_iff (x := .waiting) hp).trans Phase.place_eq_waiting

theorem phase_of_holder (h : Placed s) (hp : p ∈ s.roster.entries) (hh : s.holder = some p.pid) :
    (p.phase = .running ∨ p.phase = .ready) ∧ p.pid ∉ s.due := by
  have hm := List.mem_filter.mp (List.mem_of_head? hh)
  exact ⟨(h.mem_line_iff hp).mp hm.1, by simpa using hm.2⟩

theorem entries_afterIo (h : Placed s) :
    s.afterIo.roster.entries = s.roster.entries.map fun p =>
      p.afterDrain s.tick (decide (p.pid ∈ s.due)) (decide (s.holder = some p.pid)) := by
  have hcohort : s.atCpu.waiting.entries.Nodup := h.atCpu.nodup_heldIn .waiting
  rw [Simulation.afterIo, entries_drainIo _ hcohort, h.atCpu.entries_useCpu, h.entries_atCpu,
    h.running_atCpu, tick_atCpu, List.map_map, List.map_map]
  refine List.map_congr_left fun p hp => ?_
  have hkills : (p.afterKills s.due s.tick).pid = p.pid := p.pid_afterKills s.due s.tick
  have hdispatch : (p.afterKills s.due s.tick).dispatch.pid = p.pid := hkills
  have huse (q : Progress) : (q.useCpu s.tick).pid = q.pid := by simp [Progress.pid]
  have hwaiting := h.waiting_atCpu_iff hp
  -- the holder is in line, so it drains no I/O
  by_cases hh : s.holder = some p.pid
  · obtain ⟨hphase, hdue⟩ := h.phase_of_holder hp hh
    have hfinal := Progress.isFinal_of_line hphase
    have hnot : p.phase ≠ .waiting := by
      obtain hphase | hphase := hphase <;> simp [hphase]
    have hcohort : p.pid ∉ s.atCpu.waiting.entries := fun hm => hnot (hwaiting.mp hm).1
    simp only [Function.comp_apply, if_pos hh, hdispatch, huse, if_neg hcohort]
    simp [Progress.afterDrain, Progress.afterKills, hfinal, hdue, hh]
  · simp only [Function.comp_apply, if_neg hh, hkills]
    by_cases hfinal : p.isFinal = true
    · have hcohort : p.pid ∉ s.atCpu.waiting.entries := fun hm => by
        simp [Progress.isFinal, (hwaiting.mp hm).1, Phase.isFinal] at hfinal
      simp [Progress.afterDrain, Progress.afterKills, hfinal, hcohort]
    · by_cases hdue : p.pid ∈ s.due
      · have hcohort : p.pid ∉ s.atCpu.waiting.entries := fun hm => (hwaiting.mp hm).2 hdue
        simp [Progress.afterDrain, Progress.afterKills, hfinal, hdue, hcohort]
      · by_cases hw : p.phase = .waiting
        · have hcohort : p.pid ∈ s.atCpu.waiting.entries := hwaiting.mpr ⟨hw, hdue⟩
          simp [Progress.afterDrain, Progress.afterKills, hfinal, hdue, hcohort, hh, hw]
        · have hcohort : p.pid ∉ s.atCpu.waiting.entries := fun hm => hw (hwaiting.mp hm).1
          simp [Progress.afterDrain, Progress.afterKills, hfinal, hdue, hcohort, hh, hw]

theorem mem_drained_iff (h : Placed s) (hp : p ∈ s.roster.entries) :
    p.pid ∈ s.drained ↔ p.phase = .waiting ∧ p.ioLeft = 0 := by
  rw [drained, List.mem_filter, Roster.find?_pid h.nodup hp]
  simp only [Option.any_some, decide_eq_true_eq]
  exact and_congr_left fun _ => (h.mem_heldIn_iff (x := .waiting) hp).trans Phase.place_eq_waiting

theorem entries_step (h : Placed s) (hf : s.isFinished = false) :
    s.step.roster.entries = s.roster.entries.map fun p =>
      p.afterTick s.tick (decide (p.pid ∈ s.due)) (decide (s.holder = some p.pid)) := by
  rw [step_eq hf]
  change s.afterIo.wakeDrained.roster.entries = _
  rw [h.afterIo.wakeDrained.entries]
  have hw : s.afterIo.roster.entries.map (fun q => if q.pid ∈ s.afterIo.drained then q.wake else q) =
      s.afterIo.roster.entries.map Progress.wakeIfDrained := by
    refine List.map_congr_left fun q hq => ?_
    simp only [h.afterIo.mem_drained_iff hq, Progress.wakeIfDrained]
  rw [hw, h.entries_afterIo, List.map_map]
  rfl

theorem ready_useCpu (h : Placed s) : s.useCpu.ready = s.ready := by
  cases hr : s.running with
  | none => rw [useCpu_of_idle hr]; rfl
  | some pid =>
    obtain ⟨p, hp, _⟩ := h.phase_of_running hr
    rw [useCpu_of_busy hr hp]
    cases (p.useCpu s.tick).phase <;> rfl

theorem running_useCpu (h : Placed s) : s.useCpu.running = s.running ∨ s.useCpu.running = none := by
  cases hr : s.running with
  | none => rw [useCpu_of_idle hr]; exact .inr hr
  | some pid =>
    obtain ⟨p, hp, _⟩ := h.phase_of_running hr
    rw [useCpu_of_busy hr hp]
    cases (p.useCpu s.tick).phase with
    | waiting | completed => exact .inr rfl
    | _ => exact .inl hr

theorem find?_afterIo (h : Placed s) (hp : p ∈ s.roster.entries) :
    s.afterIo.roster.find? p.pid =
      some (p.afterDrain s.tick (decide (p.pid ∈ s.due)) (decide (s.holder = some p.pid))) := by
  have hg (q : Progress) : (q.afterDrain s.tick (decide (q.pid ∈ s.due))
      (decide (s.holder = some q.pid))).pid = q.pid := congrArg Job.pid (q.job_afterDrain ..)
  have hmem : p.afterDrain s.tick (decide (p.pid ∈ s.due)) (decide (s.holder = some p.pid)) ∈
      s.afterIo.roster.entries := by
    rw [h.entries_afterIo]
    exact List.mem_map_of_mem hp
  have hfind := Roster.find?_pid h.afterIo.nodup hmem
  rwa [hg p] at hfind

theorem filter_cohort (h : Placed s) :
    s.atCpu.waiting.entries.filter (fun pid => (s.afterIo.roster.find? pid).any (·.ioLeft = 0)) =
      s.woken := by
  rw [h.waiting_atCpu, woken]
  refine List.filter_congr fun pid hpid => ?_
  have hpid := List.mem_filter.mp hpid
  obtain ⟨p, hfind, hx⟩ := h.exists_entry (x := .waiting) hpid.1
  have hp := Roster.mem_of_find? hfind
  obtain rfl := Roster.pid_of_find? hfind
  have hw := Phase.place_eq_waiting.mp hx
  have hdue : p.pid ∉ s.due := by simpa using hpid.2
  have hidle : s.holder ≠ some p.pid := fun hh => by
    have hl := (h.phase_of_holder hp hh).1
    simp [hw] at hl
  rw [h.find?_afterIo hp, hfind]
  simp [Progress.afterDrain, Progress.isFinal, hw, Phase.isFinal, hdue, hidle, Progress.drainIo,
    Nat.sub_eq_zero_iff_le]

theorem ioLeft_pos_of_waiting {q : Progress} (h : Placed s) (hq : q ∈ s.atCpu.roster.entries)
    (hr : s.atCpu.running = some q.pid) (hw : (q.useCpu s.atCpu.tick).phase = .waiting) :
    (s.afterIo.roster.find? q.pid).any (·.ioLeft = 0) = false := by
  rw [h.entries_atCpu] at hq
  obtain ⟨p, hp, rfl⟩ := List.mem_map.mp hq
  have hpid : s.holder = some p.pid := by
    rw [← h.running_atCpu, hr]
    split <;> exact congrArg some (p.pid_afterKills s.due s.tick)
  obtain ⟨hline, hdue⟩ := h.phase_of_holder hp hpid
  have hfinal := Progress.isFinal_of_line hline
  have hkept : p.afterKills s.due s.tick = p := by simp [Progress.afterKills, hdue]
  have hsame : p.dispatch.pid = p.pid := rfl
  rw [if_pos hpid, hkept, tick_atCpu] at hw
  rw [if_pos hpid, hkept, hsame, h.find?_afterIo hp, Option.any_some]
  simp only [Progress.afterDrain, hfinal, hdue, hpid]
  obtain ⟨_, hu⟩ | ⟨_, hstart, hu⟩ | ⟨_, _, hu⟩ :=
    Progress.useCpu_cases (p := p.dispatch) rfl s.tick
  · simp [hu] at hw
  · simpa [hu] using Nat.pos_iff_ne_zero.mp hstart.1
  · rw [hu] at hw
    cases hw

theorem drained_afterIo (h : Placed s) : s.afterIo.drained = s.woken := by
  have hqueue : s.afterIo.waiting = s.atCpu.useCpu.waiting := rfl
  rw [drained, hqueue]
  -- the queue is the cohort, or the cohort and the job that has just left the CPU
  obtain hw | ⟨q, hq, hr, hphase, hw⟩ := h.atCpu.waiting_useCpu
  · rw [hw, h.filter_cohort]
  · rw [hw, List.filter_append, h.filter_cohort]
    simp [h.ioLeft_pos_of_waiting hq hr hphase]

theorem ready_step (h : Placed s) (hf : s.isFinished = false) :
    s.step.ready.entries = s.survivors.tail ++ s.woken := by
  have hw := h.afterIo.wakeDrained.ready
  rw [h.drained_afterIo] at hw
  rw [step_eq hf]
  simp only [heldIn] at hw
  rw [advanceClock, hw, Simulation.afterIo, Simulation.drainIo, h.atCpu.ready_useCpu, h.ready_atCpu]

theorem running_step (h : Placed s) (hf : s.isFinished = false) :
    s.step.running = s.holder ∨ s.step.running = none := by
  have hc := h.atCpu.running_useCpu
  rw [h.running_atCpu] at hc
  rw [step_eq hf, advanceClock, Simulation.wakeDrained, foldl_wake_eq, Simulation.afterIo,
    Simulation.drainIo]
  exact hc

theorem heldIn_cpu_step (h : Placed s) (hf : s.isFinished = false) (hh : s.holder = some pid)
    (hp : s.step.roster.find? pid = some p) :
    s.step.heldIn .cpu = if p.phase = .running then [pid] else [] := by
  have hmem := (h.step.place_of_find? (x := .cpu) hp).trans Phase.place_eq_cpu
  by_cases hr : p.phase = .running
  · have hrun := hmem.mpr hr
    rw [if_pos hr]
    simp only [heldIn, Option.mem_toList] at hrun ⊢
    rw [hrun, Option.toList_some]
  · have hrun : s.step.running ≠ some pid := fun he => hr (hmem.mp (by simp [heldIn, he]))
    have hnone : s.step.running = none := (h.running_step hf).resolve_left (hh ▸ hrun)
    rw [if_neg hr]
    simp [heldIn, hnone]

theorem timeline_step (h : Placed s) (hf : s.isFinished = false) :
    s.step.timeline = s.timeline.push s.holder := by
  rw [← h.running_atCpu]
  exact congrArg (·.timeline) (step_frame hf)

theorem idle_step (h : Placed s) (hf : s.isFinished = false) :
    s.step.tally.idle = s.tally.idle + if s.holder.isSome then 0 else 1 := by
  rw [← h.running_atCpu]
  exact congrArg (·.tally.idle) (step_frame hf)

theorem finished_step (h : Placed s) (hf : s.isFinished = false) :
    s.step.finished.entries = s.fireKills.finished.entries ∨
      ∃ pid, s.holder = some pid ∧
        s.step.finished.entries = s.fireKills.finished.entries ++ [pid] := by
  have hstep : s.step.finished.entries = s.atCpu.useCpu.finished.entries := by
    rw [step_eq hf]
    exact h.afterIo.wakeDrained.finished
  have hcpu : s.atCpu.finished = s.fireKills.finished := by
    rw [Simulation.atCpu, fillCpu_eq]
  rw [hstep, ← hcpu, ← h.running_atCpu]
  obtain ⟨he, _⟩ | ⟨p, _, hr, _, he⟩ := h.atCpu.finished_useCpu
  · exact .inl he
  · exact .inr ⟨p.pid, hr, he⟩

end Placed
end Simulation

end FirstCome
