import FirstCome.Proofs.KillEffect

/-!
The timeline of a run: one entry for each tick of the clock, the pid that held the CPU in it. What a
run does to one job, told tick by tick.
-/
namespace FirstCome

def ticksOf (timeline : Array (Option Pid)) (pid : Pid) : List Nat :=
  (List.range timeline.size).filter fun t => timeline[t]? = some (some pid)

namespace Progress

/-- A move that a tick of a run makes: of an entry that agrees with the clock, where the CPU is held by
a job in line at which no kill is due. -/
structure Turn (p : Progress) (now : Nat) (due onCpu : Bool) (q : Progress) : Prop where
  move : Move p now due onCpu q
  consistent : p.Consistent now
  held : onCpu = true → (p.phase = .running ∨ p.phase = .ready) ∧ due = false

variable {p q : Progress} {now : Nat} {due onCpu : Bool}

theorem Turn.onCpu_of_isFinal (h : Turn p now due onCpu q) (hf : p.isFinal = true) :
    onCpu = false := by
  by_contra hc
  have hline := (h.held (by simpa using hc)).1
  simp [isFinal_of_line hline] at hf

theorem Turn.onCpu_of_due (h : Turn p now due onCpu q) (hd : due = true) : onCpu = false := by
  by_contra hc
  have hspared := (h.held (by simpa using hc)).2
  simp [hd] at hspared

end Progress

namespace Simulation

variable {s : Simulation} {jobs : List Job} {kills : List Kill} {pid : Pid} {p : Progress} {t : Nat}

/-! ### One entry for each tick -/

theorem Placed.size_timeline_step (h : Placed s) (hsize : s.timeline.size = s.tick) :
    s.step.timeline.size = s.step.tick := by
  cases hf : s.isFinished with
  | true => rw [step_of_isFinished hf]; exact hsize
  | false => rw [h.timeline_step hf, tick_step hf, Array.size_push, hsize]

theorem size_timeline (jobs : List Job) (kills : List Kill) (n : Nat) :
    ((start jobs kills).steps n).timeline.size = ((start jobs kills).steps n).tick := by
  induction n with
  | zero => rw [steps, start_eq]; rfl
  | succ n ih =>
    rw [steps_succ_last]
    exact ((Placed.start jobs kills).steps n).size_timeline_step ih

theorem Placed.getElem?_timeline_steps (h : Placed s) (ht : t < s.timeline.size) (n : Nat) :
    (s.steps n).timeline[t]? = s.timeline[t]? := by
  induction n generalizing s with
  | zero => rfl
  | succ n ih =>
    rw [steps_succ]
    cases hf : s.isFinished with
    | true => rw [step_of_isFinished hf]; exact ih h ht
    | false =>
      have hpush := h.timeline_step hf
      have hlt : t < s.step.timeline.size := by
        rw [hpush, Array.size_push]
        exact Nat.lt_succ_of_lt ht
      rw [ih h.step hlt, hpush, Array.getElem?_push_lt ht, Array.getElem?_eq_getElem ht]

theorem lt_tick_steps_iff (h0 : s.tick = 0) (n : Nat) :
    t < (s.steps n).tick ↔ t < n ∧ (s.steps t).isFinished = false := by
  induction n with
  | zero => simp [steps, h0]
  | succ n ih =>
    rw [steps_succ_last]
    cases hf : (s.steps n).isFinished with
    | true =>
      rw [step_of_isFinished hf, ih]
      refine and_congr_left fun ht => ⟨Nat.lt_succ_of_lt, fun hlt => ?_⟩
      refine Nat.lt_of_le_of_ne (Nat.le_of_lt_succ hlt) ?_
      rintro rfl
      simp [hf] at ht
    | false =>
      have htick := tick_steps s n hf
      rw [tick_step hf, htick, h0, Nat.zero_add]
      refine (and_iff_left_of_imp fun hlt => ?_).symm
      obtain hlt | rfl := Nat.lt_succ_iff_lt_or_eq.mp hlt
      · exact (ih.mp (by omega)).2
      · exact hf

theorem getElem?_timeline (jobs : List Job) (kills : List Kill) (n t : Nat) :
    ((start jobs kills).steps n).timeline[t]? =
      if t < ((start jobs kills).steps n).tick then some ((start jobs kills).steps t).holder
      else none := by
  have hsize := size_timeline jobs kills
  split
  next ht =>
    obtain ⟨htn, hf⟩ := (lt_tick_steps_iff (tick_start jobs kills) n).mp ht
    have hs := (Placed.start jobs kills).steps t
    have htick := tick_steps _ t hf
    rw [tick_start, Nat.zero_add] at htick
    -- the entry is pushed in the tick itself, and stays
    have hpush : ((start jobs kills).steps (t + 1)).timeline =
        ((start jobs kills).steps t).timeline.push ((start jobs kills).steps t).holder := by
      rw [steps_succ_last]
      exact hs.timeline_step hf
    have hentry : ((start jobs kills).steps (t + 1)).timeline[t]? =
        some ((start jobs kills).steps t).holder := by
      have hlast : ((start jobs kills).steps t).timeline.size = t := (hsize t).trans htick
      rw [hpush, Array.getElem?_push, hlast, if_pos rfl]
    have hlt : t < ((start jobs kills).steps (t + 1)).timeline.size := by
      by_contra hge
      rw [Array.getElem?_eq_none (Nat.le_of_not_lt hge)] at hentry
      simp at hentry
    obtain ⟨d, rfl⟩ := Nat.exists_eq_add_of_le htn
    rw [← hentry, steps_add]
    exact ((Placed.start jobs kills).steps _).getElem?_timeline_steps hlt d
  next ht => exact Array.getElem?_eq_none (by rw [hsize]; omega)

/-! ### The life of one job -/

def cpuTicks (s : Simulation) (pid : Pid) (T : Nat) : List Nat :=
  (List.range T).filter fun t => (s.steps t).holder = some pid

theorem cpuTicks_succ (s : Simulation) (pid : Pid) (T : Nat) :
    s.cpuTicks pid (T + 1) =
      s.cpuTicks pid T ++ if (s.steps T).holder = some pid then [T] else [] := by
  rw [cpuTicks, List.range_succ, List.filter_append]
  split
  next h => simp [cpuTicks, h]
  next h => simp [cpuTicks, h]

theorem ticksOf_timeline (jobs : List Job) (kills : List Kill) (n : Nat) (pid : Pid) :
    ticksOf ((start jobs kills).steps n).timeline pid =
      (start jobs kills).cpuTicks pid ((start jobs kills).steps n).tick := by
  rw [ticksOf, size_timeline, cpuTicks]
  refine List.filter_congr fun t ht => ?_
  rw [getElem?_timeline, if_pos (List.mem_range.mp ht)]
  simp

theorem Sound.exists_turn (h : Sound s) (hf : s.isFinished = false)
    (hp : s.step.roster.find? pid = some p) :
    ∃ q, s.roster.find? pid = some q ∧
      Progress.Turn q s.tick (decide (pid ∈ s.due)) (decide (s.holder = some pid)) p := by
  obtain ⟨q, hq, hm⟩ := h.placed.exists_of_find?_step hf hp
  have hmem := Roster.mem_of_find? hq
  refine ⟨q, hq, hm, h.consistent q hmem, fun hc => ?_⟩
  rw [← Roster.pid_of_find? hq] at hc ⊢
  obtain ⟨hline, hdue⟩ := h.placed.phase_of_holder hmem (of_decide_eq_true hc)
  exact ⟨hline, decide_eq_false hdue⟩

/-- What holds of a job before the first tick and is kept by each tick holds of its entry at all
times. -/
theorem entry_induction {P : Nat → Progress → Prop}
    (hstart : ∀ j ∈ jobs, j.pid = pid → P 0 { job := j })
    (hturn : ∀ n p q, ((start jobs kills).steps n).roster.find? pid = some p →
      Progress.Turn p n (decide (pid ∈ ((start jobs kills).steps n).due))
        (decide (((start jobs kills).steps n).holder = some pid)) q →
      P n p → P (n + 1) q)
    (n : Nat) (hp : ((start jobs kills).steps n).roster.find? pid = some p) :
    P ((start jobs kills).steps n).tick p := by
  induction n generalizing p with
  | zero =>
    rw [steps] at hp ⊢
    obtain ⟨j, hj, rfl⟩ := exists_of_mem_start (Roster.mem_of_find? hp)
    rw [tick_start]
    exact hstart j hj (Roster.pid_of_find? hp)
  | succ n ih =>
    have hs := (Sound.start jobs kills).steps n
    rw [steps_succ_last] at hp ⊢
    cases hf : ((start jobs kills).steps n).isFinished with
    | true =>
      rw [step_of_isFinished hf] at hp ⊢
      exact ih hp
    | false =>
      obtain ⟨q, hq, ht⟩ := hs.exists_turn hf hp
      have htick := tick_steps _ n hf
      rw [tick_start, Nat.zero_add] at htick
      have hkept := ih hq
      rw [htick] at ht hkept
      rw [tick_step hf, htick]
      exact hturn n q p hq ht hkept

theorem job_of_find?_steps {j : Job} (hn : (jobs.map (·.pid)).Nodup) (hj : j ∈ jobs) (n : Nat)
    (hp : ((start jobs kills).steps n).roster.find? j.pid = some p) : p.job = j := by
  refine entry_induction (P := fun _ p => p.job = j) (fun k hk he => ?_) ?_ n hp
  · exact List.inj_on_of_nodup_map hn hk hj he
  · intro n p q _ ht hjob
    rw [ht.move.job_eq, hjob]

end Simulation

namespace Workload

theorem exists_final_entry {w : Workload} {j : Job} (hw : w.check = .ok ()) (hj : j ∈ w.jobs) :
    ∃ p, (Simulation.start w.jobs w.kills).finish.roster.find? j.pid = some p ∧
      p.job = j ∧ p.isFinal = true ∧
      w.simulate = .ok (Simulation.start w.jobs w.kills).finish.outcome ∧
      (Simulation.start w.jobs w.kills).finish.outcome.result? j.pid = Result.ofProgress? p := by
  obtain ⟨o, p, ho, hp, hr⟩ := result?_simulate hw (List.mem_map_of_mem hj)
  have hsame := simulate_of_check hw
  obtain rfl := Except.ok.inj (hsame.symm.trans ho)
  have hend := Simulation.isFinished_finish w.jobs w.kills
  have hs : (Simulation.start w.jobs w.kills).finish.Placed :=
    (Simulation.Placed.start w.jobs w.kills).steps _
  exact ⟨p, hp, Simulation.job_of_find?_steps (nodup_of_check hw) hj _ hp,
    hs.isFinished_iff.mp hend p (Roster.mem_of_find? hp), ho, hr⟩

end Workload
end FirstCome
