import FirstCome.Progress
import Mathlib.Tactic.Common

/-!
What one tick can do to one job.
-/
namespace FirstCome
namespace Progress

theorem isFinal_of_line {p : Progress} (hp : p.phase = .running ∨ p.phase = .ready) :
    p.isFinal = false := by
  obtain hp | hp := hp <;> simp [isFinal, hp, Phase.isFinal]

theorem isFinal_of_waiting {p : Progress} (hp : p.phase = .waiting) : p.isFinal = false := by
  simp [isFinal, hp, Phase.isFinal]

theorem useCpu_cases {p : Progress} (hp : p.phase = .running) (now : Nat) :
    (p.job.burst ≤ p.executed + 1 ∧
      p.useCpu now = { p with executed := p.executed + 1, phase := .completed (now + 1) }) ∨
    (p.executed + 1 < p.job.burst ∧
      (0 < p.job.ioDuration ∧ p.job.ioStart = some (p.executed + 1)) ∧
      p.useCpu now =
        { p with executed := p.executed + 1, phase := .waiting, ioLeft := p.job.ioDuration }) ∨
    (p.executed + 1 < p.job.burst ∧
      ¬(0 < p.job.ioDuration ∧ p.job.ioStart = some (p.executed + 1)) ∧
      p.useCpu now = { p with executed := p.executed + 1 }) := by
  by_cases hb : p.job.burst ≤ p.executed + 1
  · have hr : p.job.burst - (p.executed + 1) = 0 := by omega
    simp [useCpu, phaseAfterTick, remaining, hr, hb]
  · have hr : p.job.burst - (p.executed + 1) ≠ 0 := by omega
    have hlt : p.executed + 1 < p.job.burst := by omega
    by_cases hio : 0 < p.job.ioDuration ∧ p.job.ioStart = some (p.executed + 1)
    · simp [useCpu, phaseAfterTick, remaining, hr, hio, hlt]
    · have hu : p.useCpu now = { p with executed := p.executed + 1 } := by
        simp only [useCpu, phaseAfterTick, remaining, if_neg hr, if_neg hio, hp]
      exact .inr (.inr ⟨hlt, hio, hu⟩)

theorem phase_useCpu {p : Progress} (hp : p.phase = .running) (now : Nat) :
    (p.useCpu now).phase = .running ∨ (p.useCpu now).phase = .waiting ∨
      (p.useCpu now).phase = .completed (now + 1) := by
  obtain ⟨_, hu⟩ | ⟨_, _, hu⟩ | ⟨_, _, hu⟩ := useCpu_cases hp now
  · exact .inr (.inr (by rw [hu]))
  · exact .inr (.inl (by rw [hu]))
  · exact .inl (by rw [hu]; exact hp)

theorem blocks_of_useCpu {p : Progress} (hb : p.executed + 1 < p.job.burst)
    (hio : 0 < p.job.ioDuration ∧ p.job.ioStart = some (p.executed + 1)) : p.job.blocks = true := by
  simp [Job.blocks, Job.hasIo, hio.1, hio.2, hb]

/-- What a tick that starts at `now` does to a job before the wake-ups: a due kill ends it, else it
uses the CPU if it has it, else it drains its I/O if it waits for that. -/
def afterDrain (p : Progress) (now : Nat) (due onCpu : Bool) : Progress :=
  if p.isFinal then p
  else if due then p.kill now
  else if onCpu then p.dispatch.useCpu now
  else if p.phase = .waiting then p.drainIo
  else p

def wakeIfDrained (p : Progress) : Progress :=
  if p.phase = .waiting ∧ p.ioLeft = 0 then p.wake else p

def afterTick (p : Progress) (now : Nat) (due onCpu : Bool) : Progress :=
  (p.afterDrain now due onCpu).wakeIfDrained

theorem job_afterDrain (p : Progress) (now : Nat) (due onCpu : Bool) :
    (p.afterDrain now due onCpu).job = p.job := by
  unfold afterDrain
  split
  · rfl
  · cases due with
    | true => rfl
    | false =>
      cases onCpu with
      | true => simp
      | false => by_cases hw : p.phase = .waiting <;> simp [hw]

theorem job_afterTick (p : Progress) (now : Nat) (due onCpu : Bool) :
    (p.afterTick now due onCpu).job = p.job := by
  rw [afterTick, ← job_afterDrain p now due onCpu, wakeIfDrained]
  split <;> rfl

theorem pid_afterTick (p : Progress) (now : Nat) (due onCpu : Bool) :
    (p.afterTick now due onCpu).pid = p.pid :=
  congrArg Job.pid (job_afterTick p now due onCpu)

/-- `p` becomes another entry in a tick that starts at `now`. -/
inductive Move (p : Progress) (now : Nat) (due onCpu : Bool) : Progress → Prop where
  | rest (hf : p.isFinal = true) : Move p now due onCpu p
  | kill (hf : p.isFinal = false) (hd : due = true) : Move p now due onCpu (p.kill now)
  | complete (hp : p.phase = .running ∨ p.phase = .ready) (hd : due = false) (hc : onCpu = true)
      (hb : p.job.burst ≤ p.executed + 1) :
      Move p now due onCpu { p with executed := p.executed + 1, phase := .completed (now + 1) }
  | block (hp : p.phase = .running ∨ p.phase = .ready) (hd : due = false) (hc : onCpu = true)
      (hb : p.executed + 1 < p.job.burst)
      (hio : 0 < p.job.ioDuration ∧ p.job.ioStart = some (p.executed + 1)) :
      Move p now due onCpu
        { p with executed := p.executed + 1, phase := .waiting, ioLeft := p.job.ioDuration }
  | run (hp : p.phase = .running ∨ p.phase = .ready) (hd : due = false) (hc : onCpu = true)
      (hb : p.executed + 1 < p.job.burst)
      (hio : ¬(0 < p.job.ioDuration ∧ p.job.ioStart = some (p.executed + 1))) :
      Move p now due onCpu { p with executed := p.executed + 1, phase := .running }
  | queue (hp : p.phase = .ready) (hd : due = false) (hc : onCpu = false) : Move p now due onCpu p
  | wake (hp : p.phase = .waiting) (hd : due = false) (hc : onCpu = false) (hl : p.ioLeft ≤ 1) :
      Move p now due onCpu { p with ioLeft := 0, phase := .ready }
  | drain (hp : p.phase = .waiting) (hd : due = false) (hc : onCpu = false) (hl : 1 < p.ioLeft) :
      Move p now due onCpu { p with ioLeft := p.ioLeft - 1 }

theorem move_afterTick {p : Progress} {now : Nat} {due onCpu : Bool}
    (hc : onCpu = true → (p.phase = .running ∨ p.phase = .ready) ∧ due = false)
    (hr : p.phase = .running → due = false → onCpu = true) :
    Move p now due onCpu (p.afterTick now due onCpu) := by
  cases hf : p.isFinal with
  | true =>
    have hw : p.phase ≠ .waiting := fun hw => by simp [isFinal_of_waiting hw] at hf
    simpa [afterTick, afterDrain, wakeIfDrained, hf, hw] using Move.rest hf
  | false =>
    cases hd : due with
    | true =>
      have hw : (p.kill now).phase ≠ .waiting := nofun
      simpa [afterTick, afterDrain, wakeIfDrained, hf, hw] using Move.kill hf rfl
    | false =>
      cases hon : onCpu with
      | true =>
        have hp := (hc hon).1
        have ha : p.afterTick now false true = (p.dispatch.useCpu now).wakeIfDrained := by
          simp [afterTick, afterDrain, hf]
        rw [ha]
        obtain ⟨hb, hu⟩ | ⟨hb, hio, hu⟩ | ⟨hb, hio, hu⟩ := useCpu_cases (p := p.dispatch) rfl now
        · rw [hu]
          exact Move.complete hp rfl rfl hb
        · rw [hu]
          have hio' : p.job.ioDuration ≠ 0 := Nat.pos_iff_ne_zero.mp hio.1
          simpa [wakeIfDrained, dispatch, hio'] using @Move.block p now false true hp rfl rfl hb hio
        · rw [hu]
          exact Move.run hp rfl rfl hb hio
      | false =>
        cases hp : p.phase with
        | running => simp [hr hp hd] at hon
        | ready => simpa [afterTick, afterDrain, wakeIfDrained, hf, hp] using Move.queue hp rfl rfl
        | completed t => simp [isFinal, hp, Phase.isFinal] at hf
        | killed t => simp [isFinal, hp, Phase.isFinal] at hf
        | waiting =>
          by_cases hl : p.ioLeft ≤ 1
          · have hz : p.ioLeft - 1 = 0 := by omega
            simpa [afterTick, afterDrain, wakeIfDrained, drainIo, Progress.wake, hf, hp, hz] using
              Move.wake hp rfl rfl hl
          · have hz : p.ioLeft - 1 ≠ 0 := by omega
            simpa [afterTick, afterDrain, wakeIfDrained, drainIo, hf, hp, hz] using
              Move.drain hp rfl rfl (by omega)

namespace Move

variable {p q : Progress} {now : Nat} {due onCpu : Bool}

theorem job_eq (hm : Move p now due onCpu q) : q.job = p.job := by
  cases hm <;> rfl

theorem phase_ne_waiting (hm : Move p now due onCpu q) (hb : p.job.blocks = false)
    (hp : p.phase ≠ .waiting) : q.phase ≠ .waiting := by
  cases hm with
  | rest | queue => exact hp
  | kill | complete | run | wake => exact nofun
  | block _ _ _ hlt hio => simp [blocks_of_useCpu hlt hio] at hb
  | drain hw => exact absurd hw hp

theorem active_of_active (hm : Move p now due onCpu q) (hq : q.isFinal = false) :
    p.isFinal = false ∧ due = false := by
  cases hm with
  | rest hf => simp [hf] at hq
  | kill => contradiction
  | complete => contradiction
  | block hp hd | run hp hd => exact ⟨isFinal_of_line hp, hd⟩
  | queue hp hd => exact ⟨isFinal_of_line (.inr hp), hd⟩
  | wake hp hd | drain hp hd => exact ⟨isFinal_of_waiting hp, hd⟩

theorem eq_kill (hm : Move p now due onCpu q) (ha : p.isFinal = false) (hd : due = true) :
    q = p.kill now := by
  cases hm with
  | rest hf => simp [ha] at hf
  | kill => rfl
  | complete _ hd' | block _ hd' | run _ hd' | queue _ hd' | wake _ hd' | drain _ hd' =>
    simp [hd] at hd'

end Move
end Progress
end FirstCome
