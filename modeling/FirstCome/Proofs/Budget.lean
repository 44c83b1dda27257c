import FirstCome.Proofs.Sound
import Mathlib.Algebra.GroupWithZero.Nat
import Mathlib.Algebra.Order.BigOperators.Group.List
import Mathlib.Algebra.Order.Group.Nat

/-!
Every run ends, within as many ticks as its jobs can account for.

Each tick uses up some of what the active jobs can still account for: a tick of a burst, a tick of
I/O, or all that a killed job has left. A tick in which the CPU and all devices are idle is one in
which the last active jobs are killed.
-/
namespace FirstCome

namespace Progress

variable {p q : Progress} {now : Nat} {due onCpu : Bool}

def ioAhead (p : Progress) : Bool := p.job.blocks && p.job.ioStart.any (p.executed < ·)

/-- How many ticks of the clock a job can still account for. -/
def credit (p : Progress) : Nat :=
  match p.phase with
  | .ready | .running =>
    max 1 p.job.burst - p.executed + if p.ioAhead then p.job.ioDuration else 0
  | .waiting => p.job.burst - p.executed + p.ioLeft
  | .completed _ | .killed _ => 0

theorem credit_job (j : Job) : credit { job := j } = j.span := by
  have hahead : ioAhead { job := j } = j.blocks := by
    cases hb : j.blocks with
    | false => simp [ioAhead, hb]
    | true =>
      obtain ⟨s, hs, h0⟩ : ∃ s, j.ioStart = some s ∧ 0 < s := by
        cases hs : j.ioStart with
        | none => simp [Job.blocks, hs] at hb
        | some s =>
          simp only [Job.blocks, hs, Option.any_some, Bool.and_eq_true, decide_eq_true_eq] at hb
          exact ⟨s, rfl, hb.2.1⟩
      simp [ioAhead, hb, hs, h0]
  simp only [credit, hahead, Job.span, Job.ioTime]
  rfl

theorem credit_line (hp : p.phase = .running ∨ p.phase = .ready) :
    p.credit = max 1 p.job.burst - p.executed + if p.ioAhead then p.job.ioDuration else 0 := by
  obtain hp | hp := hp <;> simp only [credit, hp]

theorem credit_pos (h : p.Consistent now) (hf : p.isFinal = false) : 0 < p.credit := by
  have hlt := h.executed_lt hf
  cases hp : p.phase with
  | running => rw [credit_line (.inl hp)]; omega
  | ready => rw [credit_line (.inr hp)]; omega
  | waiting =>
    have h2 := h.2
    simp only [hp] at h2
    simp only [credit, hp]
    omega
  | completed t | killed t => simp [isFinal, hp, Phase.isFinal] at hf

theorem ioAhead_mono (h : q.job = p.job) (he : p.executed ≤ q.executed) (hq : q.ioAhead = true) :
    p.ioAhead = true := by
  simp only [ioAhead, h, Bool.and_eq_true] at hq ⊢
  refine ⟨hq.1, ?_⟩
  cases hs : p.job.ioStart with
  | none => simp [hs] at hq
  | some s =>
    simp only [hs, Option.any_some, decide_eq_true_eq] at hq ⊢
    omega

theorem ioAhead_of_block (hb : p.executed + 1 < p.job.burst)
    (hio : 0 < p.job.ioDuration ∧ p.job.ioStart = some (p.executed + 1)) : p.ioAhead = true := by
  simp [ioAhead, blocks_of_useCpu hb hio, hio.2]

theorem credit_lt (h : p.Consistent now) (hm : Move p now due onCpu q) (hf : p.isFinal = false)
    (hs : due = true ∨ onCpu = true ∨ p.phase = .waiting) : q.credit < p.credit := by
  cases hm with
  | rest hfin => simp [hf] at hfin
  | kill => exact credit_pos h hf
  | complete hp =>
    have hl := h.line hp
    rw [credit_line hp]
    simp only [credit]
    omega
  | block hp _ _ hb hio =>
    rw [credit_line hp, if_pos (ioAhead_of_block hb hio)]
    simp only [credit]
    omega
  | run hp _ _ hb _ =>
    have hmono : ioAhead { p with executed := p.executed + 1, phase := .running } = true →
        p.ioAhead = true := ioAhead_mono rfl (Nat.le_succ _)
    rw [credit_line hp, credit_line (.inl rfl)]
    dsimp only
    split <;> split <;> simp_all <;> omega
  | queue hp hd hc => simp [hd, hc, hp] at hs
  | wake hp =>
    have h2 := h.2
    simp only [hp] at h2
    have hahead : ioAhead { p with ioLeft := 0, phase := .ready } = false := by
      simp [ioAhead, h2.2.2.1]
    rw [credit_line (.inr rfl), hahead]
    simp only [credit, hp, Bool.false_eq_true, if_false]
    omega
  | drain hp =>
    simp only [credit, hp]
    omega

theorem credit_le (h : p.Consistent now) (hm : Move p now due onCpu q) : q.credit ≤ p.credit := by
  by_cases hs : p.isFinal = false ∧ (due = true ∨ onCpu = true ∨ p.phase = .waiting)
  · exact Nat.le_of_lt (credit_lt h hm hs.1 hs.2)
  · cases hm with
    | rest | queue => exact Nat.le_refl _
    | kill hf hd => exact absurd ⟨hf, .inl hd⟩ hs
    | complete hp _ hc | block hp _ hc | run hp _ hc =>
      exact absurd ⟨isFinal_of_line hp, .inr (.inl hc)⟩ hs
    | wake hp | drain hp =>
      exact absurd ⟨isFinal_of_waiting hp, .inr (.inr hp)⟩ hs

end Progress

namespace Simulation

variable {s : Simulation} {p : Progress}

def credit (s : Simulation) : Nat := (s.roster.entries.map Progress.credit).sum

theorem budget_eq (r : Roster) : r.budget = (r.entries.map (·.job.span)).sum := by
  unfold Roster.budget
  induction r.entries with
  | nil => rfl
  | cons p ps ih => simp [ih]

theorem credit_start (jobs : List Job) (kills : List Kill) :
    (start jobs kills).credit = (start jobs kills).roster.budget := by
  rw [start_eq, budget_eq, credit, fresh, List.map_map, List.map_map]
  exact congrArg List.sum (List.map_congr_left fun j _ => Progress.credit_job j)

theorem Placed.exists_served (h : Placed s) (hf : s.isFinished = false) :
    ∃ p ∈ s.roster.entries, p.isFinal = false ∧
      (p.pid ∈ s.due ∨ s.holder = some p.pid ∨ p.phase = .waiting) := by
  obtain ⟨p, hp, hactive⟩ : ∃ p ∈ s.roster.entries, p.isFinal = false := by
    by_contra hno
    push Not at hno
    have hall := h.isFinished_iff.mpr fun p hp => by simpa using hno p hp
    simp [hf] at hall
  -- an active job that is neither due nor waiting is in line, so somebody holds the CPU
  by_cases hd : p.pid ∈ s.due
  · exact ⟨p, hp, hactive, .inl hd⟩
  · by_cases hw : p.phase = .waiting
    · exact ⟨p, hp, hactive, .inr (.inr hw)⟩
    · have hl : p.pid ∈ s.line := by
        rw [h.mem_line_iff hp]
        cases hph : p.phase <;> simp_all [Progress.isFinal, Phase.isFinal]
      have hsurv : p.pid ∈ s.survivors := List.mem_filter.mpr ⟨hl, by simpa using hd⟩
      obtain ⟨pid, hh⟩ : ∃ pid, s.survivors.head? = some pid := by
        cases hs : s.survivors with
        | nil => simp [hs] at hsurv
        | cons pid rest => exact ⟨pid, rfl⟩
      have hpid := List.mem_filter.mp (List.mem_of_head? hh)
      have hne : s.line ≠ [] := List.ne_nil_of_mem hl
      have hq : pid ∈ s.heldIn .cpu ∨ pid ∈ s.heldIn .ready := List.mem_append.mp hpid.1
      obtain ⟨x, hx, hm⟩ : ∃ x, x ≠ .finished ∧ pid ∈ s.heldIn x := by
        obtain hm | hm := hq
        exacts [⟨.cpu, by decide, hm⟩, ⟨.ready, by decide, hm⟩]
      obtain ⟨q, hq, rfl⟩ := h.exists_entry hm
      refine ⟨q, Roster.mem_of_find? hq, ?_, .inr (.inl ?_)⟩
      · rw [ne_eq, Phase.place_eq_finished] at hx
        simpa [Progress.isFinal] using hx
      · rw [holder, hh, Roster.pid_of_find? hq]

theorem Sound.credit_step (h : Sound s) (hf : s.isFinished = false) : s.step.credit < s.credit := by
  rw [credit, credit, h.placed.entries_step hf, List.map_map]
  apply List.sum_lt_sum
  · intro p hp
    exact Progress.credit_le (h.consistent p hp) (h.placed.move hp)
  · obtain ⟨p, hp, hactive, hserved⟩ := h.placed.exists_served hf
    refine ⟨p, hp, ?_⟩
    exact Progress.credit_lt (h.consistent p hp) (h.placed.move hp) hactive (by simpa using hserved)

theorem Sound.credit_pos (h : Sound s) (hf : s.isFinished = false) : 0 < s.credit :=
  Nat.lt_of_le_of_lt (Nat.zero_le _) (h.credit_step hf)

/-- The clock and what the jobs can still account for: together they never grow. -/
theorem Sound.tick_add_credit (h : Sound s) (n : Nat) :
    (s.steps n).tick + (s.steps n).credit ≤ s.tick + s.credit := by
  induction n generalizing s with
  | zero => exact Nat.le_refl _
  | succ n ih =>
    rw [steps_succ]
    refine Nat.le_trans (ih h.step) ?_
    cases hf : s.isFinished with
    | true => rw [step_of_isFinished hf]
    | false =>
      have hc := h.credit_step hf
      rw [tick_step hf]
      omega

theorem tick_steps (s : Simulation) (n : Nat) (hf : (steps n s).isFinished = false) :
    (steps n s).tick = s.tick + n := by
  induction n generalizing s with
  | zero => rfl
  | succ n ih =>
    rw [steps_succ] at hf ⊢
    have hs : s.isFinished = false := by
      by_contra hs
      have hs : s.isFinished = true := by simpa using hs
      rw [step_of_isFinished hs, steps_of_isFinished n hs] at hf
      simp [hs] at hf
    rw [ih s.step hf, tick_step hs]
    omega

theorem Sound.isFinished_steps (h : Sound s) (n : Nat) (hn : s.credit ≤ n) :
    (s.steps n).isFinished = true := by
  by_contra hf
  have hf : (s.steps n).isFinished = false := by simpa using hf
  have htick := tick_steps s n hf
  have hsum := h.tick_add_credit n
  have hpos := (h.steps n).credit_pos hf
  omega

/-- The tick with every sum that it forms checked against a limit: the CPU's own counters, the ticks
that the job on it has run, the tick at which that job may complete, and the clock. -/
def stepWithin (limit : Nat) (s : Simulation) : Option Simulation :=
  if s.isFinished then some s
  else do
    let s := s.fireKills.fillCpu
    guard ((if s.running.isSome then s.tally.busy else s.tally.idle) + 1 < limit)
    guard ((s.running.bind s.roster.find?).all fun p => p.executed + 1 < limit ∧ s.tick + 1 < limit)
    let t := (s.useCpu.drainIo s.waiting.entries).wakeDrained
    guard (t.tick + 1 < limit)
    return t.advanceClock

theorem Sound.executed_atCpu (h : Sound s) : ∀ p ∈ s.atCpu.roster.entries, p.executed ≤ s.tick := by
  intro q hq
  rw [h.placed.entries_atCpu] at hq
  obtain ⟨p, hp, rfl⟩ := List.mem_map.mp hq
  have hkills : (p.afterKills s.due s.tick).executed = p.executed := by
    unfold Progress.afterKills
    split <;> rfl
  split
  · exact hkills ▸ (h.consistent p hp).1
  · exact hkills ▸ (h.consistent p hp).1

theorem tally_atCpu (s : Simulation) :
    s.atCpu.tally.busy = s.tally.busy ∧ s.atCpu.tally.idle = s.tally.idle := by
  rw [atCpu, fillCpu_eq, fireKills_eq]
  exact ⟨rfl, rfl⟩

theorem Sound.stepWithin_eq (h : Sound s) {limit : Nat}
    (hl : s.isFinished = false → s.tick + 1 < limit) : s.stepWithin limit = some s.step := by
  cases hf : s.isFinished with
  | true => simp [stepWithin, hf, step_of_isFinished hf]
  | false =>
    have hlt := hl hf
    have hsum := h.busy_add_idle
    obtain ⟨hbusy, hidle⟩ := tally_atCpu s
    have hcounter :
        (if s.atCpu.running.isSome then s.atCpu.tally.busy else s.atCpu.tally.idle) + 1 < limit := by
      split <;> omega
    have hjob : (s.atCpu.running.bind s.atCpu.roster.find?).all fun p =>
        p.executed + 1 < limit ∧ s.atCpu.tick + 1 < limit := by
      rw [tick_atCpu]
      cases hp : s.atCpu.running.bind s.atCpu.roster.find? with
      | none => rfl
      | some p =>
        obtain ⟨pid, _, hp⟩ := Option.bind_eq_some_iff.mp hp
        have hexec := h.executed_atCpu p (Roster.mem_of_find? hp)
        simp only [Option.all_some, decide_eq_true_eq]
        omega
    have hclock : s.afterIo.wakeDrained.tick + 1 < limit := by
      have htick : s.afterIo.wakeDrained.tick + 1 = s.tick + 1 := by
        rw [← tick_step hf, step_eq hf]
        rfl
      omega
    rw [step_eq hf]
    unfold stepWithin
    rw [hf]
    change (do
      guard ((if s.atCpu.running.isSome then s.atCpu.tally.busy else s.atCpu.tally.idle) + 1 < limit)
      guard ((s.atCpu.running.bind s.atCpu.roster.find?).all fun p : Progress =>
        p.executed + 1 < limit ∧ s.atCpu.tick + 1 < limit)
      guard (s.afterIo.wakeDrained.tick + 1 < limit)
      return s.afterIo.wakeDrained.advanceClock) = _
    simp only [guard, hcounter, hjob, hclock, if_true]
    rfl

/-- Every run is finished after as many ticks as its jobs can account for, if not before: a burst
takes at least one tick, and an I/O interval counts where it can be entered. If that number is below
the size of a word, no sum formed in the run leaves the word. -/
theorem finish_within_budget (jobs : List Job) (kills : List Kill) :
    let s := start jobs kills
    (∃ n, s.finish = steps n s ∧ (steps n s).isFinished = true) ∧
      (∀ p ∈ s.finish.roster.entries, p.isFinal = true) ∧
      s.finish.tick ≤ s.roster.budget ∧
      (s.roster.budget < 2 ^ 64 →
        ∀ n, (steps n s).stepWithin (2 ^ 64) = some (steps n s).step) := by
  intro s
  have hs : Sound s := Sound.start jobs kills
  have hcredit : s.credit = s.roster.budget := credit_start jobs kills
  have htick : s.tick = 0 := tick_start jobs kills
  have hbound (n : Nat) : (steps n s).tick + (steps n s).credit ≤ s.roster.budget := by
    have hn := hs.tick_add_credit n
    omega
  have hfin : s.finish.isFinished = true := hs.isFinished_steps _ hcredit.le
  refine ⟨⟨s.roster.budget, rfl, hfin⟩, ?_, ?_, fun hb n => ?_⟩
  · exact (hs.steps _).placed.isFinished_iff.mp hfin
  · exact Nat.le_trans (Nat.le_add_right _ _) (hbound s.roster.budget)
  · refine (hs.steps n).stepWithin_eq fun hf => ?_
    have hpos := (hs.steps n).credit_pos hf
    have hn := hbound n
    omega

/-- One job with an I/O interval and one that is killed while it waits for the CPU. -/
theorem finish_within_budget_nine :
    let s := start [{ pid := 1, name := "a", burst := 3, ioStart := some 1, ioDuration := 4 },
      { pid := 2, name := "b", burst := 2 }] [⟨2, 0⟩]
    s.roster.budget = 9 ∧ (∃ n, (steps n s).isFinished = true) ∧ s.finish.tick ≤ 9 ∧
      ∀ n, (steps n s).stepWithin (2 ^ 64) = some (steps n s).step := by
  intro s
  have hb : s.roster.budget = 9 := by decide
  obtain ⟨⟨n, _, hn⟩, _, htick, hword⟩ := finish_within_budget
    [{ pid := 1, name := "a", burst := 3, ioStart := some 1, ioDuration := 4 },
      { pid := 2, name := "b", burst := 2 }] [⟨2, 0⟩]
  have hlt : s.roster.budget < 2 ^ 64 := by rw [hb]; decide
  exact ⟨hb, ⟨n, hn⟩, hb ▸ htick, hword hlt⟩

end Simulation
end FirstCome
