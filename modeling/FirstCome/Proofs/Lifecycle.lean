import FirstCome.Proofs.Counters
import FirstCome.Proofs.Growth

/-!
The life of a job whose burst is not empty: what its entry says in each phase, which phase can follow
which, and that it waits for I/O at most once.
-/
namespace FirstCome

/-- The phases in which a tick that starts at `now` can leave a job. -/
def Phase.next (now : Nat) : Phase → List Phase
  | .ready => [.ready, .running, .waiting, .completed (now + 1), .killed now]
  | .running => [.running, .waiting, .completed (now + 1), .killed now]
  | .waiting => [.waiting, .ready, .killed now]
  | .completed t => [.completed t]
  | .killed t => [.killed t]

theorem Phase.next_of_isFinal {φ : Phase} (hf : φ.isFinal = true) (now : Nat) : φ.next now = [φ] := by
  cases φ <;> simp_all [isFinal, next]

namespace Progress

/-- The numbers of an entry and its phase fit each other at the start of tick `now`. -/
structure Orderly (p : Progress) (now : Nat) : Prop where
  burst : p.remaining + p.executed = p.job.burst
  final : p.completionTick.isSome = p.isFinal
  past : ∀ t, p.completionTick = some t → t ≤ now
  killedAt : p.wasKilled = p.killedAt.isSome
  killed : p.wasKilled = true → p.killedAt = p.completionTick ∧ 0 < p.remaining
  completed : p.isFinal = true → p.wasKilled = false → p.remaining = 0 ∧ p.ioLeft = 0
  waiting : p.phase = .waiting →
    1 ≤ p.ioLeft ∧ p.ioLeft ≤ p.job.ioDuration ∧ p.job.ioStart = some p.executed ∧ 0 < p.remaining
  inLine : p.phase = .ready ∨ p.phase = .running → p.ioLeft = 0 ∧ 0 < p.remaining

variable {p q : Progress} {now : Nat} {due onCpu : Bool}

theorem isSome_completionTick (p : Progress) : p.completionTick.isSome = p.isFinal := by
  cases hp : p.phase <;> simp [completionTick, isFinal, Phase.isFinal, hp]

theorem exists_killed (h : p.wasKilled = true) : ∃ t, p.phase = .killed t := by
  cases hp : p.phase <;> simp_all [wasKilled, Progress.killedAt]

theorem exists_completed (hf : p.isFinal = true) (h : p.wasKilled = false) :
    ∃ t, p.phase = .completed t := by
  cases hp : p.phase <;> simp_all [isFinal, Phase.isFinal, wasKilled, Progress.killedAt]

theorem Consistent.executed_le (h : p.Consistent now) (hb : 0 < p.job.burst) :
    p.executed ≤ p.job.burst := by
  have h2 := h.2
  cases hp : p.phase with
  | ready | running | waiting | completed t | killed t =>
    simp only [hp] at h2
    omega

theorem Consistent.completionTick_le {t : Nat} (h : p.Consistent now)
    (ht : p.completionTick = some t) : t ≤ now := by
  have h2 := h.2
  cases hp : p.phase with
  | ready | running | waiting => simp [completionTick, hp] at ht
  | completed u | killed u =>
    simp only [hp] at h2
    simp only [completionTick, hp, Option.some.injEq] at ht
    omega

theorem Consistent.orderly (h : p.Consistent now) (hb : 0 < p.job.burst) : p.Orderly now where
  burst := Nat.sub_add_cancel (h.executed_le hb)
  final := p.isSome_completionTick
  past _ := h.completionTick_le
  killedAt := rfl
  killed hk := by
    obtain ⟨t, hp⟩ := exists_killed hk
    have h2 := h.2
    simp only [hp] at h2
    exact ⟨by simp [Progress.killedAt, completionTick, hp], Nat.sub_pos_of_lt (by omega)⟩
  completed hf hk := by
    obtain ⟨t, hp⟩ := exists_completed hf hk
    have h2 := h.2
    simp only [hp] at h2
    exact ⟨Nat.sub_eq_zero_of_le (by omega), h2.2.2⟩
  waiting hp := by
    have h2 := h.2
    simp only [hp] at h2
    obtain ⟨hlt, _, hstart, hpos, hle⟩ := h2
    exact ⟨hpos, hle, hstart, Nat.sub_pos_of_lt hlt⟩
  inLine hp := by
    obtain ⟨hlt, hleft⟩ := h.line hp.symm
    exact ⟨hleft, Nat.sub_pos_of_lt (by omega)⟩

theorem Move.phase_mem_next (hm : Move p now due onCpu q) : q.phase ∈ p.phase.next now := by
  cases hm with
  | rest hf =>
    rw [Phase.next_of_isFinal hf]
    exact List.mem_singleton_self _
  | kill hf =>
    cases hp : p.phase <;> simp_all [Phase.next, Progress.kill, isFinal, Phase.isFinal]
  | complete hp | block hp | run hp =>
    obtain hp | hp := hp <;> simp [Phase.next, hp]
  | queue hp | wake hp | drain hp => simp [Phase.next, hp]

theorem Move.executed_of_waiting (hm : Move p now due onCpu q) (hp : p.phase ≠ .waiting)
    (hq : q.phase = .waiting) :
    q.executed = p.executed + 1 ∧ q.job.ioStart = some q.executed := by
  cases hm with
  | block _ _ _ _ hio => exact ⟨rfl, hio.2⟩
  | rest | queue | drain => exact absurd hq hp
  | kill | complete | run | wake => contradiction

end Progress

namespace Simulation

variable {s : Simulation} {jobs : List Job} {kills : List Kill} {pid : Pid} {p q : Progress}
  {m n : Nat}

def phaseOf (s : Simulation) (pid : Pid) : Option Phase := (s.roster.find? pid).map (·.phase)

/-- The job comes to wait for its I/O in the tick that follows the first `n`. -/
def ComesToWait (s : Simulation) (pid : Pid) (n : Nat) : Prop :=
  (s.steps n).phaseOf pid ≠ some .waiting ∧ (s.steps (n + 1)).phaseOf pid = some .waiting

theorem Placed.phase_step (h : Placed s) (hp : s.roster.find? pid = some p) :
    ∃ q, s.step.roster.find? pid = some q ∧ q.phase ∈ p.phase.next s.tick := by
  cases hf : s.isFinished with
  | true =>
    have hfinal := h.isFinished_iff.mp hf p (Roster.mem_of_find? hp)
    rw [step_of_isFinished hf]
    refine ⟨p, hp, ?_⟩
    rw [Phase.next_of_isFinal hfinal]
    exact List.mem_singleton_self _
  | false =>
    obtain ⟨q, hq, hm⟩ := h.exists_move hf hp
    exact ⟨q, hq, hm.phase_mem_next⟩

theorem Placed.executed_of_comesToWait (h : Placed s) (hw : s.ComesToWait pid n) :
    ∃ p q, (s.steps n).roster.find? pid = some p ∧ (s.steps (n + 1)).roster.find? pid = some q ∧
      q.executed = p.executed + 1 ∧ q.job.ioStart = some q.executed := by
  obtain ⟨hbefore, hafter⟩ := hw
  obtain ⟨q, hq, hwaiting⟩ := Option.map_eq_some_iff.mp hafter
  have hlast := hq
  rw [steps_succ_last] at hlast
  cases hf : (s.steps n).isFinished with
  | true =>
    rw [step_of_isFinished hf] at hlast
    exact absurd (by rw [phaseOf, hlast, Option.map_some, hwaiting]) hbefore
  | false =>
    obtain ⟨p, hp, hm⟩ := (h.steps n).exists_of_find?_step hf hlast
    have hnot : p.phase ≠ .waiting := fun he => hbefore (by rw [phaseOf, hp, Option.map_some, he])
    exact ⟨p, q, hp, hq, hm.executed_of_waiting hnot hwaiting⟩

theorem Sound.not_comesToWait_of_lt (h : Sound s) (hm : s.ComesToWait pid m) (hlt : m < n) :
    ¬s.ComesToWait pid n := by
  intro hn
  obtain ⟨_, p, _, hp, _, hstart⟩ := h.placed.executed_of_comesToWait hm
  obtain ⟨q, r, hq, hr, hsucc, hstart'⟩ := h.placed.executed_of_comesToWait hn
  obtain ⟨d, rfl⟩ := Nat.exists_eq_add_of_le (Nat.succ_le_of_lt hlt)
  have hgrows : GrowsInto (s.steps (m + 1)) (s.steps (m + 1 + d)) := by
    rw [steps_add (m + 1) d]
    exact .steps (h.steps (m + 1)) d
  have hgrows' : GrowsInto (s.steps (m + 1 + d)) (s.steps (m + 1 + d + 1)) := by
    rw [steps_succ_last]
    exact .step (h.steps (m + 1 + d))
  obtain ⟨q', hq', hpq⟩ := hgrows.entries pid p hp
  obtain rfl := Option.some.inj (hq'.symm.trans hq)
  obtain ⟨r', hr', hqr⟩ := hgrows'.entries pid q' hq
  obtain rfl := Option.some.inj (hr'.symm.trans hr)
  rw [hqr.job, hpq.job, hstart] at hstart'
  have hsame : p.executed = r'.executed := Option.some.inj hstart'
  have hle := hpq.executed
  omega

theorem Sound.comesToWait_unique (h : Sound s) (hm : s.ComesToWait pid m) (hn : s.ComesToWait pid n) :
    m = n := by
  obtain hlt | rfl | hlt := Nat.lt_trichotomy m n
  · exact absurd hn (h.not_comesToWait_of_lt hm hlt)
  · rfl
  · exact absurd hm (h.not_comesToWait_of_lt hn hlt)

/-- Where no burst is empty, the entries are orderly in every state of a run, each phase is followed by
one that may follow it, and no job comes to wait for its I/O twice. -/
theorem lifecycle_orderly (hb : ∀ j ∈ jobs, 0 < j.burst) (kills : List Kill) :
    (∀ n, let s := (start jobs kills).steps n
      (∀ p ∈ s.roster.entries, p.Orderly s.tick) ∧
      ∀ pid p, s.roster.find? pid = some p →
        ∃ q, s.step.roster.find? pid = some q ∧ q.phase ∈ p.phase.next s.tick) ∧
    ∀ pid m n, (start jobs kills).ComesToWait pid m → (start jobs kills).ComesToWait pid n →
      m = n := by
  have hstart : Sound (start jobs kills) := Sound.start jobs kills
  refine ⟨fun n => ⟨fun p hp => ?_, fun pid p hp => ?_⟩, fun pid m n => hstart.comesToWait_unique⟩
  · have hjob : p.job ∈ registered [] jobs := by
      rw [← map_job_start jobs kills, ← map_job_steps hstart.placed n]
      exact List.mem_map_of_mem hp
    have hburst := hb p.job ((registered_sublist [] jobs).subset hjob)
    exact ((hstart.steps n).consistent p hp).orderly hburst
  · exact (hstart.steps n).placed.phase_step hp

/-- The first job comes to wait in the second tick, and so in no other; the kill at tick 4 finds it back
on the CPU. -/
theorem lifecycle_orderly_second :
    let jobs : List Job :=
      [{ pid := 1, name := "a", burst := 5, ioStart := some 2, ioDuration := 1 },
        { pid := 2, name := "b", burst := 4, ioStart := some 9, ioDuration := 3 }]
    let kills : List Kill := [⟨1, 4⟩, ⟨2, 0⟩, ⟨1, 6⟩]
    (∀ j ∈ jobs, 0 < j.burst) ∧
      (∀ p ∈ ((start jobs kills).steps 5).roster.entries,
        p.Orderly ((start jobs kills).steps 5).tick) ∧
      (start jobs kills).ComesToWait 1 1 ∧ ∀ n, (start jobs kills).ComesToWait 1 n → n = 1 := by
  intro jobs kills
  have hb : ∀ j ∈ jobs, 0 < j.burst := by decide
  obtain ⟨hstates, hunique⟩ := lifecycle_orderly hb kills
  have hwaits : (start jobs kills).ComesToWait 1 1 := ⟨by decide, by decide⟩
  exact ⟨hb, (hstates 5).1, hwaits, fun n hn => hunique 1 n 1 hn hwaits⟩

end Simulation
end FirstCome
