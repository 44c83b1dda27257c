import FirstCome.Proofs.Sound

/-!
One job over many ticks: its entry is frozen once it has left the system, and when it left can be read
off the entry. The kills that have not fired are those of the coming ticks.
-/
namespace FirstCome

namespace Progress

theorem afterTick_of_isFinal {p : Progress} (hf : p.isFinal = true) (now : Nat) (due onCpu : Bool) :
    p.afterTick now due onCpu = p := by
  have hw : p.phase ≠ .waiting := fun hw => by simp [isFinal_of_waiting hw] at hf
  simp [afterTick, afterDrain, wakeIfDrained, hf, hw]

end Progress

namespace Simulation

variable {s : Simulation} {pid : Pid} {p q : Progress}

theorem Placed.find?_step (h : Placed s) (hf : s.isFinished = false)
    (hp : s.roster.find? pid = some p) :
    s.step.roster.find? pid =
      some (p.afterTick s.tick (decide (pid ∈ s.due)) (decide (s.holder = some pid))) := by
  have hroster : s.step.roster = ⟨s.roster.entries.map fun q =>
      q.afterTick s.tick (decide (q.pid ∈ s.due)) (decide (s.holder = some q.pid))⟩ := by
    rw [← h.entries_step hf]
  rw [hroster, Roster.find?_map _ _ (fun q => q.pid_afterTick ..), hp, Option.map_some,
    Roster.pid_of_find? hp]

theorem Placed.exists_move (h : Placed s) (hf : s.isFinished = false)
    (hp : s.roster.find? pid = some p) :
    ∃ q, s.step.roster.find? pid = some q ∧
      Progress.Move p s.tick (decide (pid ∈ s.due)) (decide (s.holder = some pid)) q := by
  refine ⟨_, h.find?_step hf hp, ?_⟩
  have hm := h.move (Roster.mem_of_find? hp)
  rwa [Roster.pid_of_find? hp] at hm

theorem Placed.exists_of_find?_step (h : Placed s) (hf : s.isFinished = false)
    (hq : s.step.roster.find? pid = some q) :
    ∃ p, s.roster.find? pid = some p ∧
      Progress.Move p s.tick (decide (pid ∈ s.due)) (decide (s.holder = some pid)) q := by
  obtain ⟨p, hp, hjob, hm⟩ := h.exists_of_mem_step hf (Roster.mem_of_find? hq)
  obtain rfl : p.pid = pid := (congrArg Job.pid hjob).symm.trans (Roster.pid_of_find? hq)
  exact ⟨p, Roster.find?_pid h.nodup hp, hm⟩

theorem Placed.find?_step_of_isFinal (h : Placed s) (hp : s.roster.find? pid = some p)
    (hfin : p.isFinal = true) : s.step.roster.find? pid = some p := by
  cases hf : s.isFinished with
  | true => rw [step_of_isFinished hf]; exact hp
  | false => rw [h.find?_step hf hp, p.afterTick_of_isFinal hfin]

theorem Placed.find?_steps_of_isFinal (h : Placed s) (hp : s.roster.find? pid = some p)
    (hfin : p.isFinal = true) (n : Nat) : (s.steps n).roster.find? pid = some p := by
  induction n generalizing s with
  | zero => exact hp
  | succ n ih =>
    rw [steps_succ]
    exact ih h.step (h.find?_step_of_isFinal hp hfin)

theorem Placed.exists_steps (h : Placed s) (hp : (s.roster.find? pid).isSome) (n : Nat) :
    ∃ q, (s.steps n).roster.find? pid = some q := by
  rw [Roster.isSome_find?_iff, ← pids_steps h n, ← Roster.isSome_find?_iff] at hp
  exact Option.isSome_iff_exists.mp hp

theorem isFinished_eq_false (h : Placed s) (hp : s.roster.find? pid = some p)
    (ha : p.isFinal = false) : s.isFinished = false := by
  by_contra hf
  have hall := h.isFinished_iff.mp (by simpa using hf) p (Roster.mem_of_find? hp)
  simp [ha] at hall

theorem Placed.find?_steps_of_mem_due (h : Placed s) (hp : s.roster.find? pid = some p)
    (ha : p.isFinal = false) (hd : pid ∈ s.due) (n : Nat) :
    (s.step.steps n).roster.find? pid = some (p.kill s.tick) := by
  obtain ⟨q, hq, hm⟩ := h.exists_move (isFinished_eq_false h hp ha) hp
  obtain rfl := hm.eq_kill ha (decide_eq_true hd)
  exact h.step.find?_steps_of_isFinal hq rfl n

theorem Placed.lt_of_completed (h : Placed s) (hp : s.roster.find? pid = some p)
    (ha : p.isFinal = false) (n : Nat) (hq : (s.steps n).roster.find? pid = some q) (t : Nat) :
    (q.phase = .completed t → s.tick < t) ∧ (q.phase = .killed t → s.tick ≤ t) := by
  induction n generalizing s p with
  | zero =>
    obtain rfl : p = q := Option.some.inj (hp.symm.trans hq)
    constructor <;> intro hφ <;> simp [Progress.isFinal, hφ, Phase.isFinal] at ha
  | succ n ih =>
    have hf := isFinished_eq_false h hp ha
    obtain ⟨r, hr, hm⟩ := h.exists_move hf hp
    rw [steps_succ] at hq
    -- a job that this tick ends has the entry it has now for good
    cases hfin : r.isFinal with
    | false =>
      have hlt := ih h.step hr hfin hq
      rw [tick_step hf] at hlt
      exact ⟨fun hφ => Nat.lt_of_succ_lt (hlt.1 hφ), fun hφ => Nat.le_of_succ_le (hlt.2 hφ)⟩
    | true =>
      rw [h.step.find?_steps_of_isFinal hr hfin n] at hq
      obtain rfl := Option.some.inj hq
      cases hm with
      | rest hfin' => simp [ha] at hfin'
      | kill =>
        exact ⟨fun hφ => Phase.noConfusion hφ, fun hφ => Nat.le_of_eq (Phase.killed.inj hφ)⟩
      | complete =>
        exact ⟨fun hφ => Phase.completed.inj hφ ▸ Nat.lt_succ_self _, fun hφ => Phase.noConfusion hφ⟩
      | block | run | wake =>
        exact ⟨fun hφ => Phase.noConfusion hφ, fun hφ => Phase.noConfusion hφ⟩
      | queue => simp [ha] at hfin
      | drain hp' => simp [Progress.isFinal, hp', Phase.isFinal] at hfin

theorem tick_steps_le (s : Simulation) (n : Nat) : (s.steps n).tick ≤ s.tick + n := by
  induction n generalizing s with
  | zero => exact Nat.le_refl _
  | succ n ih =>
    rw [steps_succ]
    refine Nat.le_trans (ih s.step) ?_
    cases hf : s.isFinished with
    | true => rw [step_of_isFinished hf]; omega
    | false => rw [tick_step hf]; omega

theorem pending_step {all : List Kill} (h : s.kills.pending = all.filter (s.tick ≤ ·.tick)) :
    s.step.kills.pending = all.filter (s.step.tick ≤ ·.tick) := by
  cases hf : s.isFinished with
  | true => rw [step_of_isFinished hf]; exact h
  | false =>
    have hkills : s.step.kills = (s.kills.fire s.tick).2 := congrArg (·.kills) (step_frame hf)
    rw [hkills, tick_step hf]
    change s.kills.pending.filter (·.tick ≠ s.tick) = _
    rw [h, List.filter_filter]
    refine List.filter_congr fun e _ => ?_
    rw [Bool.eq_iff_iff]
    simp only [Bool.and_eq_true, decide_eq_true_eq]
    omega

theorem pending_steps {all : List Kill} (h : s.kills.pending = all.filter (s.tick ≤ ·.tick))
    (n : Nat) : (s.steps n).kills.pending = all.filter ((s.steps n).tick ≤ ·.tick) := by
  induction n generalizing s with
  | zero => exact h
  | succ n ih => rw [steps_succ]; exact ih (pending_step h)

theorem due_eq {all : List Kill} (h : s.kills.pending = all.filter (s.tick ≤ ·.tick)) :
    s.due = (all.filter (·.tick = s.tick)).map (·.pid) := by
  change (s.kills.pending.filter (·.tick = s.tick)).map (·.pid) = _
  rw [h, List.filter_filter]
  congr 1
  refine List.filter_congr fun e _ => ?_
  rw [Bool.eq_iff_iff]
  simp only [Bool.and_eq_true, decide_eq_true_eq]
  omega

theorem mem_due_iff {all : List Kill} (h : s.kills.pending = all.filter (s.tick ≤ ·.tick)) :
    pid ∈ s.due ↔ ∃ e ∈ all, e.tick = s.tick ∧ e.pid = pid := by
  rw [due_eq h]
  simp [and_assoc]

theorem pending_start (jobs : List Job) (kills : List Kill) :
    (start jobs kills).kills.pending = kills.filter ((start jobs kills).tick ≤ ·.tick) := by
  rw [start_eq]
  simp [fresh]

end Simulation
end FirstCome
