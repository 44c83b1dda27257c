import FirstCome.Proofs.Lifecycle
import FirstCome.Proofs.Timeline

/-!
Which jobs ever wait for I/O. A job that is described with an interval need not: the interval of one
that starts with the burst, or at its end or later, is never entered.
-/
namespace FirstCome

namespace Progress

variable {p q : Progress} {now : Nat} {due onCpu : Bool}

theorem Move.ioBegun_or_waiting (hm : Move p now due onCpu q) (hq : q.ioBegun = true) :
    p.ioBegun = true ∨ q.phase = .waiting := by
  cases hm with
  | rest | queue => exact .inl hq
  | kill | wake | drain => exact .inl ((ioBegun_congr rfl rfl).symm.trans hq)
  | block => exact .inr rfl
  | run _ _ _ _ hio =>
    have hsame : ioBegun { p with executed := p.executed + 1, phase := .running } = p.ioBegun :=
      ioBegun_of_not_start hio rfl rfl
    exact .inl (hsame.symm.trans hq)
  | complete _ _ _ hb =>
    rw [ioBegun_of_last hb]
    exact .inl (ioBegun_iff.mp hq).1

theorem Consistent.ioBegun_of_completed {t : Nat} (h : p.Consistent now) (hφ : p.phase = .completed t) :
    p.ioBegun = p.job.blocks := by
  have h2 := h.2
  simp only [hφ] at h2
  exact ioBegun_of_last (by omega)

end Progress

namespace Simulation

variable {jobs : List Job} {kills : List Kill} {pid : Pid} {p : Progress}

theorem exists_waiting_of_ioBegun (n : Nat)
    (hp : ((start jobs kills).steps n).roster.find? pid = some p) (hb : p.ioBegun = true) :
    ∃ m, ((start jobs kills).steps m).phaseOf pid = some .waiting := by
  induction n generalizing p with
  | zero =>
    obtain ⟨j, _, rfl⟩ := exists_of_mem_start (Roster.mem_of_find? hp)
    simp [Progress.ioBegun_job] at hb
  | succ n ih =>
    have hlast := hp
    rw [steps_succ_last] at hlast
    cases hf : ((start jobs kills).steps n).isFinished with
    | true =>
      rw [step_of_isFinished hf] at hlast
      exact ih hlast hb
    | false =>
      obtain ⟨q, hq, hm⟩ := ((Placed.start jobs kills).steps n).exists_of_find?_step hf hlast
      obtain hbefore | hwaiting := hm.ioBegun_or_waiting hb
      · exact ih hq hbefore
      · exact ⟨n + 1, by rw [phaseOf, hp, Option.map_some, hwaiting]⟩

end Simulation

namespace Workload

variable {w : Workload} {j : Job}

theorem blocks_of_waiting (hw : w.check = .ok ()) (hj : j ∈ w.jobs) {n : Nat}
    (hn : (w.simulation.steps n).phaseOf j.pid = some .waiting) : j.blocks = true := by
  obtain ⟨p, hp, hφ⟩ := Option.map_eq_some_iff.mp hn
  have hs := (Simulation.Sound.start w.jobs w.kills).steps n
  have hbegun := (hs.consistent p (Roster.mem_of_find? hp)).ioBegun_of_waiting hφ
  rw [← Simulation.job_of_find?_steps (nodup_of_check hw) hj n hp]
  exact (Progress.ioBegun_iff.mp hbegun).1

/-- A job that no kill is aimed at waits for its I/O at some time of the run exactly if an interval of
positive length is described that starts strictly inside the burst. -/
theorem waits_iff_starts_inside_burst (hw : w.check = .ok ()) (hj : j ∈ w.jobs)
    (hk : ∀ e ∈ w.kills, e.pid ≠ j.pid) :
    (∃ n, (w.simulation.steps n).phaseOf j.pid = some .waiting) ↔
      j.hasIo = true ∧ ∃ k, j.ioStart = some k ∧ 0 < k ∧ k < j.burst := by
  have hblocks : j.blocks = true ↔ j.hasIo = true ∧ ∃ k, j.ioStart = some k ∧ 0 < k ∧ k < j.burst := by
    cases hs : j.ioStart <;> simp [Job.blocks, hs]
  rw [← hblocks]
  constructor
  · rintro ⟨n, hn⟩
    exact blocks_of_waiting hw hj hn
  · intro hb
    have hspared : Kill.first? w.kills j.pid = none := Kill.first?_eq_none_iff.mpr hk
    obtain ⟨p, t, hp, hφ⟩ := Simulation.completed_finish hspared (List.mem_map_of_mem hj)
    have hs := (Simulation.Sound.start w.jobs w.kills).steps w.simulation.roster.budget
    have hbegun := (hs.consistent p (Roster.mem_of_find? hp)).ioBegun_of_completed hφ
    rw [Simulation.job_of_find?_steps (nodup_of_check hw) hj _ hp] at hbegun
    exact Simulation.exists_waiting_of_ioBegun _ hp (hbegun.trans hb)

/-- Of the three jobs, all described with an I/O interval, only the second waits for it; the kill is
aimed at the third. -/
theorem waits_iff_starts_inside_burst_two :
    let a : Job := { pid := 1, name := "a", burst := 2, ioStart := some 0, ioDuration := 3 }
    let b : Job := { pid := 2, name := "b", burst := 4, ioStart := some 3, ioDuration := 1 }
    let c : Job := { pid := 3, name := "c", burst := 3, ioStart := some 1, ioDuration := 2 }
    let w : Workload := { jobs := [a, b, c], kills := [⟨3, 1⟩] }
    (w.check = .ok () ∧ a ∈ w.jobs ∧ b ∈ w.jobs ∧ ∀ e ∈ w.kills, e.pid ≠ a.pid ∧ e.pid ≠ b.pid) ∧
      (∃ n, (w.simulation.steps n).phaseOf 2 = some .waiting) ∧
      ¬∃ n, (w.simulation.steps n).phaseOf 1 = some .waiting := by
  intro a b c w
  have hw : w.check = .ok () := by decide
  have ha : a ∈ w.jobs := by decide
  have hb : b ∈ w.jobs := by decide
  have hk : ∀ e ∈ w.kills, e.pid ≠ a.pid ∧ e.pid ≠ b.pid := by decide
  refine ⟨⟨hw, ha, hb, hk⟩, ?_, fun hwaits => ?_⟩
  · refine (waits_iff_starts_inside_burst hw hb fun e he => (hk e he).2).mpr ?_
    exact ⟨by decide, 3, rfl, by decide, by decide⟩
  · obtain ⟨_, k, hstart, hpos, _⟩ :=
      (waits_iff_starts_inside_burst hw ha fun e he => (hk e he).1).mp hwaits
    obtain rfl : 0 = k := Option.some.inj hstart
    exact absurd hpos (by decide)

/-- An interval is described, but it starts at the end of the burst, and the job never waits. -/
theorem hasIo_without_waiting :
    let j : Job := { pid := 1, name := "a", burst := 2, ioStart := some 2, ioDuration := 3 }
    let w : Workload := { jobs := [j] }
    w.check = .ok () ∧ w.kills = [] ∧ j ∈ w.jobs ∧ j.hasIo = true ∧
      ¬∃ n, (w.simulation.steps n).phaseOf j.pid = some .waiting := by
  intro j w
  have hw : w.check = .ok () := by decide
  have hj : j ∈ w.jobs := by decide
  refine ⟨hw, rfl, hj, by decide, ?_⟩
  rintro ⟨n, hn⟩
  have hblocks := blocks_of_waiting hw hj hn
  exact absurd hblocks (by decide)

end Workload
end FirstCome
