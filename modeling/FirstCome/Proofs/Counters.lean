import FirstCome.Proofs.Sound
import Mathlib.Algebra.GroupWithZero.Nat
import Mathlib.Algebra.Order.BigOperators.Group.List
import Mathlib.Algebra.Order.Group.Nat

/-!
The counters of a run against the entries of its jobs: what the CPU and the kills add to a counter they
add to an entry.
-/
namespace FirstCome

namespace Roster

/-- A number read off each entry, summed up. -/
def total (f : Progress → Nat) (r : Roster) : Nat := (r.entries.map f).sum

variable {r : Roster} {pid : Pid} {p : Progress} {f : Progress → Nat} {g : Progress → Progress}

theorem total_toNat (b : Progress → Bool) (r : Roster) :
    r.total (fun p => (b p).toNat) = r.entries.countP b := by
  unfold total
  induction r.entries with
  | nil => rfl
  | cons p ps ih => cases hb : b p <;> simp [hb, ih, Nat.add_comm]

theorem total_update (hn : r.pids.Nodup) (hp : r.find? pid = some p) :
    (r.update pid g).total f + f p = r.total f + f (g p) := by
  obtain rfl := pid_of_find? hp
  obtain ⟨before, after, hsplit⟩ := List.append_of_mem (mem_of_find? hp)
  rw [pids, hsplit, List.map_append, List.map_cons, List.nodup_append] at hn
  obtain ⟨_, hafter, hne⟩ := hn
  -- no other entry has this pid
  have hkept (ps : List Progress) (h : ∀ q ∈ ps, q.pid ≠ p.pid) :
      ps.map (fun q => if q.pid = p.pid then g q else q) = ps := by
    refine (List.map_congr_left fun q hq => if_neg (h q hq)).trans (List.map_id ps)
  have hbefore : ∀ q ∈ before, q.pid ≠ p.pid := fun q hq =>
    hne q.pid (List.mem_map_of_mem hq) p.pid List.mem_cons_self
  have hafter : ∀ q ∈ after, q.pid ≠ p.pid := fun q hq he =>
    (List.nodup_cons.mp hafter).1 (he ▸ List.mem_map_of_mem hq)
  simp only [total, update, hsplit, List.map_append, List.map_cons, hkept before hbefore,
    hkept after hafter, if_true, List.sum_append, List.sum_cons]
  omega

end Roster

namespace Progress

def isCompleted (p : Progress) : Bool := p.isFinal && !p.wasKilled

variable {p : Progress}

theorem wasKilled_of_active (hf : p.isFinal = false) : p.wasKilled = false := by
  cases hp : p.phase <;> simp_all [isFinal, Phase.isFinal, wasKilled, killedAt]

theorem isCompleted_of_active (hf : p.isFinal = false) : p.isCompleted = false := by
  simp [isCompleted, hf]

theorem wasKilled_useCpu (hp : p.phase = .running) (now : Nat) : (p.useCpu now).wasKilled = false := by
  obtain hφ | hφ | hφ := phase_useCpu hp now <;> simp [wasKilled, killedAt, hφ]

theorem isCompleted_useCpu (hp : p.phase = .running) (now : Nat) :
    (p.useCpu now).isCompleted = (p.useCpu now).isFinal := by
  rw [isCompleted, wasKilled_useCpu hp, Bool.not_false, Bool.and_true]

theorem ioBegun_useCpu (hp : p.phase = .running) (now : Nat) :
    (p.useCpu now).ioBegun.toNat =
      p.ioBegun.toNat + if (p.useCpu now).phase = .waiting then 1 else 0 := by
  have hjob := p.job_useCpu now
  have hexecuted := p.executed_useCpu now
  obtain ⟨hlast, hu⟩ | ⟨hlt, hio, hu⟩ | ⟨hlt, hio, hu⟩ := useCpu_cases hp now
  · have hend : (p.useCpu now).job.burst ≤ (p.useCpu now).executed + 1 := by
      rw [hjob, hexecuted]
      exact Nat.le_succ_of_le hlast
    rw [ioBegun_of_last hend, hjob, ioBegun_of_last hlast]
    simp [hu]
  · have hbegun : (p.useCpu now).ioBegun = true := by
      rw [ioBegun_iff, hjob, hexecuted]
      exact ⟨blocks_of_useCpu hlt hio, p.executed + 1, hio.2, Nat.le_refl _⟩
    rw [hbegun, ioBegun_of_start hio.2]
    simp [hu]
  · rw [ioBegun_of_not_start hio hjob hexecuted]
    simp [hu, hp]

end Progress

namespace Simulation

theorem ioWaits_leaveCpu (s : Simulation) (pid : Pid) (φ : Phase) :
    (s.leaveCpu pid φ).tally.ioWaits = s.tally.ioWaits + if φ = .waiting then 1 else 0 := by
  cases φ <;> rfl

/-- The counters that are also told by the entries. -/
structure Counted (s : Simulation) : Prop where
  busy : s.tally.busy = s.roster.total (·.executed)
  ioWaits : s.tally.ioWaits = s.roster.total fun p => p.ioBegun.toNat
  completions : s.tally.completions = s.roster.total fun p => p.isCompleted.toNat
  killsApplied : s.tally.killsApplied = s.roster.total fun p => p.wasKilled.toNat

namespace Counted

variable {s t : Simulation} {pid : Pid} {p : Progress} {g : Progress → Progress}

/-- What a change adds to the counters it adds to the entry that it changes. -/
theorem update (h : Counted s) (hs : Placed s) (hp : s.roster.find? pid = some p)
    (hr : t.roster = s.roster.update pid g)
    (hbusy : t.tally.busy + p.executed = s.tally.busy + (g p).executed)
    (hwaits : t.tally.ioWaits + p.ioBegun.toNat = s.tally.ioWaits + (g p).ioBegun.toNat)
    (hcompletions :
      t.tally.completions + p.isCompleted.toNat = s.tally.completions + (g p).isCompleted.toNat)
    (hkills :
      t.tally.killsApplied + p.wasKilled.toNat = s.tally.killsApplied + (g p).wasKilled.toNat) :
    Counted t := by
  have hsum {f : Progress → Nat} {m n : Nat} (hm : m = s.roster.total f)
      (hn : n + f p = m + f (g p)) : n = t.roster.total f := by
    have htotal := Roster.total_update (f := f) (g := g) hs.nodup hp
    rw [hr]
    omega
  exact ⟨hsum h.busy hbusy, hsum h.ioWaits hwaits, hsum h.completions hcompletions,
    hsum h.killsApplied hkills⟩

theorem stay (h : Counted s) (hr : t.roster.entries = s.roster.entries.map g)
    (hg : ∀ p ∈ s.roster.entries, (g p).job = p.job ∧ (g p).executed = p.executed ∧
      ((g p).phase = p.phase ∨ p.isFinal = false ∧ (g p).isFinal = false))
    (ht : t.tally.busy = s.tally.busy ∧ t.tally.ioWaits = s.tally.ioWaits ∧
      t.tally.completions = s.tally.completions ∧ t.tally.killsApplied = s.tally.killsApplied) :
    Counted t := by
  obtain ⟨hbusy, hwaits, hcompletions, hkills⟩ := ht
  have hsum {f : Progress → Nat} (hf : ∀ p ∈ s.roster.entries, f (g p) = f p) :
      t.roster.total f = s.roster.total f := by
    rw [Roster.total, hr, List.map_map, Roster.total]
    exact congrArg List.sum (List.map_congr_left hf)
  refine ⟨?_, ?_, ?_, ?_⟩
  · rw [hbusy, h.busy, hsum fun p hp => (hg p hp).2.1]
  · rw [hwaits, h.ioWaits, hsum fun p hp => ?_]
    rw [Progress.ioBegun_congr (hg p hp).1 (hg p hp).2.1]
  · rw [hcompletions, h.completions, hsum fun p hp => ?_]
    obtain ⟨_, _, hphase | ⟨hf, hgf⟩⟩ := hg p hp
    · simp only [Progress.isCompleted, Progress.isFinal, Progress.wasKilled, Progress.killedAt, hphase]
    · rw [Progress.isCompleted_of_active hf, Progress.isCompleted_of_active hgf]
  · rw [hkills, h.killsApplied, hsum fun p hp => ?_]
    obtain ⟨_, _, hphase | ⟨hf, hgf⟩⟩ := hg p hp
    · simp only [Progress.wasKilled, Progress.killedAt, hphase]
    · rw [Progress.wasKilled_of_active hf, Progress.wasKilled_of_active hgf]

theorem strike (h : Counted s) (hs : Placed s) (pid : Pid) : Counted (s.strike pid) := by
  cases hl : s.isLive pid with
  | false =>
    rw [strike_of_not_isLive hl]
    exact ⟨h.busy, h.ioWaits, h.completions, h.killsApplied⟩
  | true =>
    obtain ⟨p, hp, hf⟩ : ∃ p, s.roster.find? pid = some p ∧ p.isFinal = false := by
      simpa [isLive, Option.any_eq_true] using hl
    have hbegun : (p.kill s.tick).ioBegun = p.ioBegun := Progress.ioBegun_congr rfl rfl
    rw [strike_of_isLive hl, withdraw_eq]
    refine h.update (g := (·.kill s.tick)) hs hp rfl rfl ?_ ?_ ?_
    · rw [hbegun]
    · rw [Progress.isCompleted_of_active hf]
      rfl
    · rw [Progress.wasKilled_of_active hf]
      rfl

theorem foldl_strike (h : Counted s) (hs : Placed s) (targets : List Pid) :
    Counted (targets.foldl Simulation.strike s) := by
  induction targets generalizing s with
  | nil => exact h
  | cons pid targets ih => exact ih (h.strike hs pid) (hs.strike pid)

theorem fireKills (h : Counted s) (hs : Placed s) : Counted s.fireKills := by
  have hk : Placed { s with kills := (s.kills.fire s.tick).2 } := ⟨hs.nodup, hs.perm, hs.held⟩
  have hc : Counted { s with kills := (s.kills.fire s.tick).2 } :=
    ⟨h.busy, h.ioWaits, h.completions, h.killsApplied⟩
  exact hc.foldl_strike hk s.due

theorem fillCpu (h : Counted s) (hs : Placed s) : Counted s.fillCpu := by
  refine h.stay hs.entries_fillCpu (fun p hp => ?_) ?_
  · split
    next hh =>
      have hline := (hs.mem_line_iff hp).mp (List.mem_of_head? hh)
      exact ⟨rfl, rfl, .inr ⟨Progress.isFinal_of_line hline, rfl⟩⟩
    next => exact ⟨rfl, rfl, .inl rfl⟩
  · rw [fillCpu_eq]
    exact ⟨rfl, rfl, rfl, rfl⟩

theorem useCpu (h : Counted s) (hs : Placed s) : Counted s.useCpu := by
  cases hr : s.running with
  | none =>
    have hidle : s.recordCpu.tally = { s.tally with idle := s.tally.idle + 1 } := by
      simp [recordCpu, hr]
    rw [useCpu_of_idle hr]
    refine ⟨?_, ?_, ?_, ?_⟩ <;> rw [hidle]
    exacts [h.busy, h.ioWaits, h.completions, h.killsApplied]
  | some pid =>
    obtain ⟨p, hp, hphase⟩ := hs.phase_of_running hr
    have hf := Progress.isFinal_of_line (.inl hphase)
    have hrecord : s.recordCpu.tally = { s.tally with busy := s.tally.busy + 1 } := by
      simp [recordCpu, hr]
    have huse := useCpu_of_busy hr hp
    have hroster : s.useCpu.roster = s.roster.update pid (·.useCpu s.tick) := by
      rw [huse, roster_leaveCpu]
    refine h.update (g := (·.useCpu s.tick)) hs hp hroster ?_ ?_ ?_ ?_
    · rw [useCpu_eq, hrecord, p.executed_useCpu]
      exact Nat.add_right_comm ..
    · rw [huse, ioWaits_leaveCpu, Progress.ioBegun_useCpu hphase]
      simp only [hrecord]
      omega
    · rw [huse, Progress.isCompleted_of_active hf, Progress.isCompleted_useCpu hphase,
        Progress.isFinal]
      obtain hφ | hφ | hφ := Progress.phase_useCpu hphase s.tick
      all_goals
        rw [hφ]
        simp only [leaveCpu, hrecord]
        rfl
    · rw [useCpu_eq, hrecord, Progress.wasKilled_of_active hf, Progress.wasKilled_useCpu hphase]

theorem drainIo (h : Counted s) {cohort : List Pid} (hn : cohort.Nodup) :
    Counted (s.drainIo cohort) := by
  refine h.stay (entries_drainIo s hn) (fun p _ => ?_) ⟨rfl, rfl, rfl, rfl⟩
  split <;> exact ⟨rfl, rfl, .inl rfl⟩

theorem wakeDrained (h : Counted s) (hs : Placed s) : Counted s.wakeDrained := by
  refine h.stay hs.wakeDrained.entries (fun p hp => ?_) ?_
  · split
    next hd =>
      have hw := ((hs.mem_drained_iff hp).mp hd).1
      exact ⟨rfl, rfl, .inr ⟨Progress.isFinal_of_waiting hw, rfl⟩⟩
    next => exact ⟨rfl, rfl, .inl rfl⟩
  · rw [Simulation.wakeDrained, foldl_wake_eq]
    exact ⟨rfl, rfl, rfl, rfl⟩

theorem step (h : Counted s) (hs : Placed s) : Counted s.step := by
  cases hf : s.isFinished with
  | true => rw [step_of_isFinished hf]; exact h
  | false =>
    have hcpu : Counted s.atCpu := (h.fireKills hs).fillCpu hs.fireKills.placed
    have hio : Counted s.afterIo :=
      (hcpu.useCpu hs.atCpu).drainIo (hs.atCpu.nodup_heldIn .waiting)
    have hwoken := hio.wakeDrained hs.afterIo
    rw [step_eq hf]
    exact ⟨hwoken.busy, hwoken.ioWaits, hwoken.completions, hwoken.killsApplied⟩

theorem steps (h : Counted s) (hs : Placed s) (n : Nat) : Counted (s.steps n) := by
  induction n generalizing s with
  | zero => exact h
  | succ n ih => rw [steps_succ]; exact ih (h.step hs) hs.step

theorem start (jobs : List Job) (kills : List Kill) : Counted (start jobs kills) := by
  have hzero {f : Progress → Nat} (hf : ∀ j : Job, f { job := j } = 0) :
      (Simulation.start jobs kills).roster.total f = 0 := by
    refine List.sum_eq_zero fun k hk => ?_
    obtain ⟨p, hp, rfl⟩ := List.mem_map.mp hk
    obtain ⟨j, _, rfl⟩ := exists_of_mem_start hp
    exact hf j
  have htally : (Simulation.start jobs kills).tally = {} := by
    rw [start_eq]
    rfl
  refine ⟨?_, ?_, ?_, ?_⟩ <;> rw [htally, hzero]
  · exact fun _ => rfl
  · exact fun j => by rw [Progress.ioBegun_job]; rfl
  · exact fun _ => rfl
  · exact fun _ => rfl

end Counted

end Simulation
end FirstCome
