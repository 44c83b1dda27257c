import FirstCome.Proofs.Start

/-!
What holds of every entry and of the clock in every state of a run.
-/
namespace FirstCome

namespace Progress

/-- What the numbers of an entry can be at the start of tick `now`, by its phase. -/
def Consistent (p : Progress) (now : Nat) : Prop :=
  p.executed ≤ now ∧
    match p.phase with
    | .ready | .running => p.executed < max 1 p.job.burst ∧ p.ioLeft = 0
    | .waiting =>
      p.executed < p.job.burst ∧ 0 < p.executed ∧ p.job.ioStart = some p.executed ∧
        0 < p.ioLeft ∧ p.ioLeft ≤ p.job.ioDuration
    | .completed t => t ≤ now ∧ p.executed = max 1 p.job.burst ∧ p.ioLeft = 0
    | .killed t => t < now ∧ p.executed < max 1 p.job.burst

variable {p q : Progress} {now : Nat} {due onCpu : Bool}

theorem consistent_job (j : Job) : Consistent { job := j } 0 := by
  exact ⟨Nat.le_refl 0, Nat.lt_of_lt_of_le Nat.one_pos (Nat.le_max_left 1 j.burst), rfl⟩

theorem Consistent.executed_lt (h : p.Consistent now) (hf : p.isFinal = false) :
    p.executed < max 1 p.job.burst := by
  obtain ⟨_, h⟩ := h
  cases hp : p.phase with
  | ready | running => simp only [hp] at h; exact h.1
  | waiting => simp only [hp] at h; omega
  | completed t | killed t => simp [isFinal, hp, Phase.isFinal] at hf

theorem Consistent.line (h : p.Consistent now) (hp : p.phase = .running ∨ p.phase = .ready) :
    p.executed < max 1 p.job.burst ∧ p.ioLeft = 0 := by
  obtain ⟨_, h⟩ := h
  obtain hp | hp := hp <;> simpa only [hp] using h

theorem Consistent.move (h : p.Consistent now) (hm : Move p now due onCpu q) :
    q.Consistent (now + 1) := by
  have hnow := h.1
  cases hm with
  | rest hf =>
    refine ⟨by omega, ?_⟩
    have h2 := h.2
    cases hp : p.phase with
    | completed t => simp only [hp] at h2 ⊢; omega
    | killed t => simp only [hp] at h2 ⊢; omega
    | ready | running | waiting => simp [isFinal, hp, Phase.isFinal] at hf
  | kill hf =>
    have hlt := h.executed_lt hf
    simp only [Consistent, Progress.kill]
    omega
  | complete hp _ _ hb =>
    have hl := h.line hp
    simp only [Consistent]
    omega
  | block hp _ _ hb hio =>
    exact ⟨Nat.succ_le_succ hnow, hb, Nat.succ_pos _, hio.2, hio.1, Nat.le_refl _⟩
  | run hp _ _ hb _ =>
    have hl := h.line hp
    simp only [Consistent]
    omega
  | queue hp _ _ =>
    have hl := h.line (.inr hp)
    simp only [Consistent, hp]
    omega
  | wake hp _ _ _ =>
    have h2 := h.2
    simp only [hp] at h2
    have hlt : p.executed < max 1 p.job.burst := by omega
    exact ⟨Nat.le_succ_of_le hnow, hlt, rfl⟩
  | drain hp _ _ hl =>
    have h2 := h.2
    simp only [hp] at h2
    simp only [Consistent, hp]
    refine ⟨by omega, by omega, by omega, h2.2.2.1, by omega, by omega⟩

def ioBegun (p : Progress) : Bool := p.job.blocks && p.job.ioStart.any (· ≤ p.executed)

theorem ioBegun_iff :
    p.ioBegun = true ↔ p.job.blocks = true ∧ ∃ k, p.job.ioStart = some k ∧ k ≤ p.executed := by
  cases hs : p.job.ioStart <;> simp [ioBegun, hs]

theorem ioBegun_job (j : Job) : ioBegun { job := j } = false := by
  by_contra hb
  obtain ⟨hblocks, k, hk, hle⟩ := ioBegun_iff.mp (by simpa using hb)
  obtain ⟨_, k', hk', hpos, _⟩ := Job.blocks_iff.mp hblocks
  obtain rfl := Option.some.inj (hk'.symm.trans hk)
  exact absurd hle (Nat.not_le.mpr hpos)

theorem ioBegun_congr (hj : q.job = p.job) (he : q.executed = p.executed) :
    q.ioBegun = p.ioBegun := by
  simp only [ioBegun, hj, he]

theorem Consistent.ioBegun_of_waiting (h : p.Consistent now) (hp : p.phase = .waiting) :
    p.ioBegun = true := by
  have h2 := h.2
  simp only [hp] at h2
  obtain ⟨hlt, hpos, hs, hleft, hle⟩ := h2
  have hblocks : p.job.blocks = true :=
    Job.blocks_iff.mpr ⟨by omega, p.executed, hs, hpos, hlt⟩
  exact ioBegun_iff.mpr ⟨hblocks, p.executed, hs, Nat.le_refl _⟩

theorem ioBegun_succ (hj : q.job = p.job) (he : q.executed = p.executed + 1) :
    q.ioBegun = (p.ioBegun || (p.job.blocks && decide (p.job.ioStart = some (p.executed + 1)))) := by
  cases hs : p.job.ioStart with
  | none => simp [ioBegun, hj, hs]
  | some k =>
    cases hb : p.job.blocks with
    | false => simp [ioBegun, hj, hb]
    | true =>
      rw [Bool.eq_iff_iff]
      simp only [ioBegun, hj, hb, hs, he, Option.any_some, Bool.true_and, Option.some.injEq,
        Bool.or_eq_true, decide_eq_true_eq]
      omega

theorem ioBegun_of_last (hlast : p.job.burst ≤ p.executed + 1) : p.ioBegun = p.job.blocks := by
  rw [Bool.eq_iff_iff, ioBegun_iff]
  refine and_iff_left_of_imp fun hb => ?_
  obtain ⟨_, k, hk, _, hlt⟩ := Job.blocks_iff.mp hb
  exact ⟨k, hk, by omega⟩

theorem ioBegun_of_not_start (hio : ¬(0 < p.job.ioDuration ∧ p.job.ioStart = some (p.executed + 1)))
    (hj : q.job = p.job) (he : q.executed = p.executed + 1) : q.ioBegun = p.ioBegun := by
  rw [ioBegun_succ hj he]
  cases hb : p.job.blocks with
  | false => simp
  | true =>
    have hne : p.job.ioStart ≠ some (p.executed + 1) := fun hs =>
      hio ⟨(Job.blocks_iff.mp hb).1, hs⟩
    simp [hne]

theorem ioBegun_of_start (hs : p.job.ioStart = some (p.executed + 1)) : p.ioBegun = false := by
  simp [ioBegun, hs]

end Progress

namespace Simulation

variable {s : Simulation} {p : Progress}

structure Sound (s : Simulation) : Prop where
  placed : Placed s
  consistent : ∀ p ∈ s.roster.entries, p.Consistent s.tick
  ticks : s.tally.ticks = s.tick
  busy_add_idle : s.tally.busy + s.tally.idle = s.tick

theorem Placed.move (h : Placed s) (hp : p ∈ s.roster.entries) :
    Progress.Move p s.tick (decide (p.pid ∈ s.due)) (decide (s.holder = some p.pid))
      (p.afterTick s.tick (decide (p.pid ∈ s.due)) (decide (s.holder = some p.pid))) := by
  apply Progress.move_afterTick
  · intro hc
    obtain ⟨hphase, hdue⟩ := h.phase_of_holder hp (of_decide_eq_true hc)
    exact ⟨hphase, by simpa using hdue⟩
  · intro hr hd
    have hcpu : p.pid ∈ s.heldIn .cpu := (h.mem_heldIn_iff hp).mpr (Phase.place_eq_cpu.mpr hr)
    have hrun : s.running = some p.pid := by simpa [heldIn] using hcpu
    have hkept : p.pid ∉ s.due := by simpa using hd
    simp [holder, survivors, line, heldIn, hrun, hkept]

theorem Placed.exists_of_mem_step {q : Progress} (h : Placed s) (hf : s.isFinished = false)
    (hq : q ∈ s.step.roster.entries) :
    ∃ p ∈ s.roster.entries, q.job = p.job ∧
      Progress.Move p s.tick (decide (p.pid ∈ s.due)) (decide (s.holder = some p.pid)) q := by
  rw [h.entries_step hf] at hq
  obtain ⟨p, hp, rfl⟩ := List.mem_map.mp hq
  exact ⟨p, hp, p.job_afterTick .., h.move hp⟩

theorem Sound.start (jobs : List Job) (kills : List Kill) : Sound (start jobs kills) := by
  refine ⟨Placed.start jobs kills, ?_, ?_, ?_⟩
  · rw [start_eq]
    intro p hp
    obtain ⟨j, _, rfl⟩ := List.mem_map.mp hp
    exact Progress.consistent_job j
  · rw [start_eq]; rfl
  · rw [start_eq]; rfl

theorem Sound.step (h : Sound s) : Sound s.step := by
  cases hf : s.isFinished with
  | true => rw [step_of_isFinished hf]; exact h
  | false =>
    have hframe := step_frame hf
    have htick : s.step.tick = s.tick + 1 := congrArg tick hframe
    have hbusy : s.step.tally.busy = s.tally.busy + if s.atCpu.running.isSome then 1 else 0 :=
      congrArg (·.tally.busy) hframe
    have hidle : s.step.tally.idle = s.tally.idle + if s.atCpu.running.isSome then 0 else 1 :=
      congrArg (·.tally.idle) hframe
    refine ⟨h.placed.step, ?_, ?_, ?_⟩
    · intro q hq
      obtain ⟨p, hp, _, hm⟩ := h.placed.exists_of_mem_step hf hq
      rw [htick]
      exact (h.consistent p hp).move hm
    · rw [htick]
      exact congrArg (·.tally.ticks) hframe
    · rw [htick, hbusy, hidle, ← h.busy_add_idle]
      split <;> omega

theorem Sound.steps (h : Sound s) (n : Nat) : Sound (steps n s) := by
  induction n generalizing s with
  | zero => exact h
  | succ n ih => rw [steps_succ]; exact ih h.step

end Simulation
end FirstCome
