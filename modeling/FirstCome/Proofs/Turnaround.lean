import FirstCome.Proofs.Timeline

/-!
Where the turnaround of a job goes: each tick up to its completion is one of its burst, of its I/O
interval, or of standing in the ready queue while another job has the CPU.
-/
namespace FirstCome

namespace Progress

def ioSpent (p : Progress) : Nat := if p.ioBegun then p.job.ioDuration - p.ioLeft else 0

/-- Every tick up to now, or up to the completion, is accounted for, where `queued` tells how many
before a tick the job stood in the ready queue without getting the CPU. -/
def Accounted (queued : Nat → Nat) (p : Progress) (now : Nat) : Prop :=
  match p.phase with
  | .completed t => t = p.executed + p.job.ioTime + queued t
  | .killed _ => True
  | _ => now = p.executed + p.ioSpent + queued now

variable {p q : Progress} {now : Nat} {queued : Nat → Nat} {due onCpu : Bool}

theorem accounted_iff (hf : p.isFinal = false) :
    p.Accounted queued now ↔ now = p.executed + p.ioSpent + queued now := by
  unfold Accounted
  cases hp : p.phase with
  | completed t | killed t => simp [isFinal, hp, Phase.isFinal] at hf
  | ready | running | waiting => exact Iff.rfl

theorem ioSpent_of_begun (hb : p.ioBegun = true) : p.ioSpent = p.job.ioDuration - p.ioLeft :=
  if_pos hb

theorem Accounted.turn (h : p.Accounted queued now) (ht : Turn p now due onCpu q)
    (hq : queued (now + 1) = queued now + if p.phase = .ready ∧ onCpu = false then 1 else 0) :
    q.Accounted queued (now + 1) := by
  have hc := ht.consistent
  cases ht.move with
  | rest hf =>
    cases hp : p.phase with
    | completed t =>
      simp only [Accounted, hp] at h ⊢
      exact h
    | killed t => simp only [Accounted, hp]
    | ready | running | waiting => simp [isFinal, hp, Phase.isFinal] at hf
  | kill => trivial
  | complete hp _ hon hb =>
    -- the I/O interval, if there is one, is over
    rw [accounted_iff (isFinal_of_line hp)] at h
    obtain ⟨_, hleft⟩ := hc.line hp
    have hspent : p.ioSpent = p.job.ioTime := by
      rw [ioSpent, Job.ioTime, ioBegun_of_last hb, hleft, Nat.sub_zero]
    simp only [hon, Bool.true_eq_false, and_false, if_false] at hq
    simp only [Accounted]
    omega
  | block hp _ hon hb hio =>
    rw [accounted_iff (isFinal_of_line hp)] at h
    have hbefore : p.ioSpent = 0 := by simp [ioSpent, ioBegun_of_start hio.2]
    simp only [hon, Bool.true_eq_false, and_false, if_false] at hq
    simp only [Accounted, ioSpent, Nat.sub_self, ite_self]
    omega
  | run hp _ hon hb hio =>
    rw [accounted_iff (isFinal_of_line hp)] at h
    have hbegun : ({ p with executed := p.executed + 1, phase := .running } : Progress).ioBegun =
        p.ioBegun := ioBegun_of_not_start hio rfl rfl
    simp only [hon, Bool.true_eq_false, and_false, if_false] at hq
    simp only [Accounted, ioSpent, hbegun] at h ⊢
    omega
  | queue hp _ hoff =>
    rw [accounted_iff (isFinal_of_line (.inr hp))] at h ⊢
    simp only [hp, hoff, and_self, if_true] at hq
    omega
  | wake hp _ _ hl =>
    have hbegun := hc.ioBegun_of_waiting hp
    have hafter : ({ p with ioLeft := 0, phase := .ready } : Progress).ioBegun = true :=
      (ioBegun_congr rfl rfl).trans hbegun
    have hleft := hc.2
    simp only [hp] at hleft
    simp only [hp, reduceCtorEq, false_and, if_false] at hq
    simp only [Accounted, hp, ioSpent_of_begun hbegun] at h
    simp only [Accounted, ioSpent_of_begun hafter]
    omega
  | drain hp _ _ hl =>
    have hbegun := hc.ioBegun_of_waiting hp
    have hafter : ({ p with ioLeft := p.ioLeft - 1 } : Progress).ioBegun = true :=
      (ioBegun_congr rfl rfl).trans hbegun
    have hleft := hc.2
    simp only [hp] at hleft
    simp only [hp, reduceCtorEq, false_and, if_false] at hq
    have hactive : ({ p with ioLeft := p.ioLeft - 1 } : Progress).isFinal = false :=
      isFinal_of_waiting hp
    rw [accounted_iff (isFinal_of_waiting hp), ioSpent_of_begun hbegun] at h
    rw [accounted_iff hactive, ioSpent_of_begun hafter]
    dsimp only
    omega

end Progress

namespace Simulation

variable {s : Simulation} {jobs : List Job} {kills : List Kill} {pid : Pid} {j : Job} {p : Progress}

/-- The number of ticks before `T` in which a job stands in the ready queue and does not get the CPU. -/
def queuedTicks (s : Simulation) (pid : Pid) (T : Nat) : Nat :=
  (List.range T).countP fun t =>
    pid ∈ (s.steps t).ready.entries ∧ (s.steps t).holder ≠ some pid

theorem queuedTicks_succ (s : Simulation) (pid : Pid) (T : Nat) :
    s.queuedTicks pid (T + 1) =
      s.queuedTicks pid T +
        if pid ∈ (s.steps T).ready.entries ∧ (s.steps T).holder ≠ some pid then 1 else 0 := by
  simp [queuedTicks, List.range_succ, List.countP_append, List.countP_cons]

theorem accounted_steps (jobs : List Job) (kills : List Kill) (n : Nat)
    (hp : ((start jobs kills).steps n).roster.find? pid = some p) :
    p.Accounted ((start jobs kills).queuedTicks pid) ((start jobs kills).steps n).tick := by
  refine entry_induction
    (P := fun now p => p.Accounted ((start jobs kills).queuedTicks pid) now) ?_ ?_ n hp
  · intro j _ _
    simp [Progress.Accounted, Progress.ioSpent, Progress.ioBegun_job, queuedTicks]
  · intro n p q hp ht h
    refine h.turn ht ?_
    have hready := ((Placed.start jobs kills).steps n).place_of_find? (x := .ready) hp
    rw [Phase.place_eq_ready] at hready
    rw [queuedTicks_succ]
    simp only [← hready, decide_eq_false_iff_not, heldIn]

theorem queuedTicks_eq (jobs : List Job) (kills : List Kill) (n : Nat) (pid : Pid) {T : Nat}
    (hT : T ≤ ((start jobs kills).steps n).tick) :
    (start jobs kills).queuedTicks pid T =
      (List.range T).countP fun t => pid ∈ ((start jobs kills).steps t).ready.entries ∧
        ((start jobs kills).steps n).timeline[t]? ≠ some (some pid) := by
  refine List.countP_congr fun t ht => ?_
  have hlt : t < ((start jobs kills).steps n).tick :=
    Nat.lt_of_lt_of_le (List.mem_range.mp ht) hT
  rw [getElem?_timeline, if_pos hlt]
  simp

end Simulation

namespace Workload

variable {w : Workload} {j : Job}

/-- A job that completes does so after the ticks of its burst, of its I/O interval, if that can be
entered, and those in which it stood in the ready queue and another job, or none, had the CPU. The last
two make up its waiting time. -/
theorem turnaround_decomposes (hw : w.check = .ok ()) (hj : j ∈ w.jobs) :
    ∃ o r, w.simulate = .ok o ∧ o.result? j.pid = some r ∧
      (r.killed = false →
        let queued := (List.range r.completionTick).countP fun t =>
          j.pid ∈ (w.simulation.steps t).ready.entries ∧ o.timeline[t]? ≠ some (some j.pid)
        r.completionTick = j.burst + j.ioTime + queued ∧
          r.burst + j.ioTime ≤ r.turnaround ∧ r.waiting = some (j.ioTime + queued)) := by
  obtain ⟨p, hp, hjob, hf, ho, hr⟩ := exists_final_entry hw hj
  have haccounted := Simulation.accounted_steps w.jobs w.kills _ hp
  have hconsistent := ((Simulation.Sound.start w.jobs w.kills).steps _).consistent p
    (Roster.mem_of_find? hp)
  cases hphase : p.phase with
  | completed t =>
    rw [Result.ofProgress?_of_completed hphase] at hr
    refine ⟨_, _, ho, hr, fun _ => ?_⟩
    have hburst := burst_of_check hw j hj
    simp only [Progress.Accounted, hphase, hjob] at haccounted
    simp only [Progress.Consistent, hphase, hjob] at hconsistent
    obtain ⟨_, htick, hexecuted, _⟩ := hconsistent
    intro queued
    have hqueued : (Simulation.start w.jobs w.kills).queuedTicks j.pid t = queued :=
      Simulation.queuedTicks_eq w.jobs w.kills _ j.pid htick
    have htotal : t = j.burst + j.ioTime + queued := by omega
    have hle : p.job.burst + j.ioTime ≤ t := by rw [hjob]; omega
    have hwaited : t - p.job.burst = j.ioTime + queued := by rw [hjob]; omega
    exact ⟨htotal, hle, congrArg some hwaited⟩
  | killed t =>
    rw [Result.ofProgress?_of_killed hphase] at hr
    exact ⟨_, _, ho, hr, fun hk => Bool.noConfusion hk⟩
  | ready | running | waiting => simp [Progress.isFinal, hphase, Phase.isFinal] at hf

/-- The first of three jobs waits for its I/O while the second runs, and then for the third, which is
killed. -/
theorem turnaround_decomposes_three :
    let w : Workload :=
      { jobs := [{ pid := 1, name := "a", burst := 2, ioStart := some 1, ioDuration := 2 },
          { pid := 2, name := "b", burst := 1 }, { pid := 3, name := "c", burst := 4 }]
        kills := [⟨3, 4⟩] }
    let j : Job := { pid := 1, name := "a", burst := 2, ioStart := some 1, ioDuration := 2 }
    (w.check = .ok () ∧ j ∈ w.jobs) ∧
      ∃ o r, w.simulate = .ok o ∧ o.result? 1 = some r ∧ r.killed = false ∧
        let queued := (List.range r.completionTick).countP fun t =>
          1 ∈ (w.simulation.steps t).ready.entries ∧ o.timeline[t]? ≠ some (some 1)
        r.completionTick = 2 + 2 + queued ∧ r.burst + 2 ≤ r.turnaround ∧
          r.waiting = some (2 + queued) := by
  intro w j
  have hw : w.check = .ok () := by decide
  have hj : j ∈ w.jobs := by decide
  obtain ⟨o, r, ho, hr, hturnaround⟩ := turnaround_decomposes hw hj
  have hk : r.killed = false := by
    have hend : ((Simulation.start w.jobs w.kills).finish.resultOf 1).map (·.killed) = some false := by
      decide
    rw [← result?_of_simulate hw ho, hr] at hend
    exact Option.some.inj hend
  exact ⟨⟨hw, hj⟩, o, r, ho, hr, hk, hturnaround hk⟩

end Workload
end FirstCome
