import FirstCome.Proofs.History

/-!
Two kill plans that agree before a tick give the same run up to that tick.
-/
namespace FirstCome
namespace Simulation

def withKills (s : Simulation) (k : KillPlan) : Simulation := { s with kills := k }

variable {s : Simulation} {k : KillPlan}

theorem withdraw_withKills (s : Simulation) (k : KillPlan) (pid : Pid) :
    (s.withKills k).withdraw pid = (s.withdraw pid).withKills k := by
  by_cases hr : s.running = some pid
  · simp [withdraw, withKills, hr]
  · cases hq : s.ready.remove? pid <;> simp [withdraw, withKills, hr, hq]

theorem strike_withKills (s : Simulation) (k : KillPlan) (pid : Pid) :
    (s.withKills k).strike pid = (s.strike pid).withKills k := by
  have hlive : (s.withKills k).isLive pid = s.isLive pid := rfl
  have hwithdraw := withdraw_withKills s k pid
  cases hl : s.isLive pid with
  | true =>
    rw [strike_of_isLive hl, strike_of_isLive (hlive.trans hl), hwithdraw]
    rfl
  | false =>
    rw [strike_of_not_isLive hl, strike_of_not_isLive (hlive.trans hl)]
    rfl

theorem foldl_strike_withKills (s : Simulation) (k : KillPlan) (pids : List Pid) :
    pids.foldl strike (s.withKills k) = (pids.foldl strike s).withKills k := by
  induction pids generalizing s with
  | nil => rfl
  | cons pid pids ih => rw [List.foldl_cons, List.foldl_cons, strike_withKills, ih]

theorem fireKills_withKills (hd : (s.withKills k).due = s.due) :
    (s.withKills k).fireKills = s.fireKills.withKills (k.fire s.tick).2 := by
  have hl : (s.withKills k).fireKills =
      (s.withKills k).due.foldl strike (s.withKills (k.fire s.tick).2) := rfl
  have hr : s.fireKills = s.due.foldl strike (s.withKills (s.kills.fire s.tick).2) := rfl
  rw [hl, hr, hd, foldl_strike_withKills, foldl_strike_withKills]
  rfl

theorem fillCpu_withKills (s : Simulation) (k : KillPlan) :
    (s.withKills k).fillCpu = s.fillCpu.withKills k := by
  cases hr : s.running with
  | some pid => simp [fillCpu, withKills, hr]
  | none => cases hq : s.ready.entries <;> simp [fillCpu, withKills, Queue.dequeue?, hr, hq]

theorem useCpu_withKills (s : Simulation) (k : KillPlan) :
    (s.withKills k).useCpu = s.useCpu.withKills k := by
  cases hr : s.running with
  | none =>
    have hr' : (s.withKills k).running = none := hr
    rw [useCpu_of_idle hr, useCpu_of_idle hr']
    rfl
  | some pid =>
    have hr' : (s.withKills k).running = some pid := hr
    cases hp : s.roster.find? pid with
    | none =>
      simp [useCpu, recordCpu, withKills, hr, hp]
    | some p =>
      have hp' : (s.withKills k).roster.find? pid = some p := hp
      rw [useCpu_of_busy hr hp, useCpu_of_busy hr' hp']
      change leaveCpu _ pid (p.useCpu s.tick).phase = _
      cases (p.useCpu s.tick).phase <;> rfl

theorem wakeDrained_withKills (s : Simulation) (k : KillPlan) :
    (s.withKills k).wakeDrained = s.wakeDrained.withKills k := by
  have hfold (pids : List Pid) :
      pids.foldl wake (s.withKills k) = (pids.foldl wake s).withKills k := by
    induction pids generalizing s with
    | nil => rfl
    | cons pid pids ih => exact ih (s.wake pid)
  exact hfold s.drained

/-- A tick reads the kill plan only for the targets that are due. -/
theorem step_withKills (hf : s.isFinished = false) (hd : (s.withKills k).due = s.due) :
    (s.withKills k).step = s.step.withKills (k.fire s.tick).2 := by
  have hf' : (s.withKills k).isFinished = false := hf
  have hcpu : (s.withKills k).atCpu = s.atCpu.withKills (k.fire s.tick).2 := by
    rw [atCpu, fireKills_withKills hd, fillCpu_withKills, atCpu]
  have hio : (s.withKills k).afterIo = s.afterIo.withKills (k.fire s.tick).2 := by
    rw [afterIo, hcpu, useCpu_withKills, afterIo]
    rfl
  rw [step_eq hf', step_eq hf, hio, wakeDrained_withKills]
  rfl

theorem steps_congr {all all' : List Kill} {T : Nat}
    (h : ∀ t < T, all.filter (·.tick = t) = all'.filter (·.tick = t)) (jobs : List Job) {n : Nat}
    (hn : n ≤ T) :
    ∃ k, (start jobs all').steps n = ((start jobs all).steps n).withKills k := by
  induction n with
  | zero =>
    refine ⟨⟨all'⟩, ?_⟩
    simp only [steps, start_eq]
    rfl
  | succ n ih =>
    obtain ⟨k, hk⟩ := ih (Nat.le_of_succ_le hn)
    rw [steps_succ_last, steps_succ_last, hk]
    cases hf : ((start jobs all).steps n).isFinished with
    | true =>
      have hf' : (((start jobs all).steps n).withKills k).isFinished = true := hf
      exact ⟨k, by rw [step_of_isFinished hf', step_of_isFinished hf]⟩
    | false =>
      have htick : ((start jobs all).steps n).tick ≤ n := by
        have hle := tick_steps_le (start jobs all) n
        rwa [tick_start, Nat.zero_add] at hle
      -- both plans still hold all their kills at this tick, and these are the same
      have hdue : (((start jobs all).steps n).withKills k).due = ((start jobs all).steps n).due := by
        rw [due_eq (pending_steps (pending_start jobs all) n), ← hk,
          due_eq (pending_steps (pending_start jobs all') n), hk]
        change (all'.filter (·.tick = ((start jobs all).steps n).tick)).map (·.pid) = _
        rw [h _ (by omega)]
      exact ⟨_, step_withKills hf hdue⟩

/-- What each of the next `n` calls of `step` answers: whether it found the run unfinished. -/
def answers : Nat → Simulation → List Bool
  | 0, _ => []
  | n + 1, s => (!s.isFinished) :: answers n s.step

theorem answers_eq (n : Nat) (s : Simulation) :
    s.answers n = (List.range n).map fun m => !(s.steps m).isFinished := by
  induction n generalizing s with
  | zero => rfl
  | succ n ih =>
    rw [answers, ih, List.range_succ_eq_map, List.map_cons, List.map_map]
    simp only [Function.comp_def, steps_succ]
    rfl

/-- Two states differ at most in the kills to come. -/
structure Agree (s t : Simulation) : Prop where
  tick : t.tick = s.tick
  running : t.running = s.running
  ready : t.ready = s.ready
  waiting : t.waiting = s.waiting
  finished : t.finished = s.finished
  roster : t.roster = s.roster
  tally : t.tally = s.tally
  timeline : t.timeline = s.timeline

theorem agree_withKills (s : Simulation) (k : KillPlan) : Agree s (s.withKills k) :=
  ⟨rfl, rfl, rfl, rfl, rfl, rfl, rfl, rfl⟩

theorem Agree.isFinished_eq {t : Simulation} (h : Agree s t) : t.isFinished = s.isFinished := by
  rw [isFinished, isFinished, h.running, h.ready, h.waiting]

/-- Up to tick `T` a run does not tell which kills are planned for `T` or later: with the same kills
before `T` two runs agree after each of their first `T` steps, and each of these steps answers the
same. -/
theorem future_kills_unseen (jobs : List Job) {kills kills' : List Kill} {T : Nat}
    (h : kills.filter (·.tick < T) = kills'.filter (·.tick < T)) {n : Nat} (hn : n ≤ T) :
    Agree ((start jobs kills).steps n) ((start jobs kills').steps n) ∧
      (start jobs kills').answers n = (start jobs kills).answers n := by
  have hcut (all : List Kill) {t : Nat} (ht : t < T) :
      all.filter (·.tick = t) = (all.filter (·.tick < T)).filter (·.tick = t) := by
    rw [List.filter_filter]
    refine List.filter_congr fun e _ => ?_
    rw [Bool.eq_iff_iff]
    simp only [Bool.and_eq_true, decide_eq_true_eq]
    omega
  have hsame (t : Nat) (ht : t < T) : kills.filter (·.tick = t) = kills'.filter (·.tick = t) := by
    rw [hcut kills ht, hcut kills' ht, h]
  have hagree {m : Nat} (hm : m ≤ T) :
      Agree ((start jobs kills).steps m) ((start jobs kills').steps m) := by
    obtain ⟨k, hk⟩ := steps_congr hsame jobs hm
    rw [hk]
    exact agree_withKills _ k
  refine ⟨hagree hn, ?_⟩
  rw [answers_eq, answers_eq]
  refine List.map_congr_left fun m hm => ?_
  have hlt : m < n := List.mem_range.mp hm
  rw [(hagree (by omega)).isFinished_eq]

/-- The kills at 3 and later differ. The runs are still together after the third tick, the fourth
parts them. -/
theorem future_kills_unseen_three :
    let jobs : List Job :=
      [{ pid := 1, name := "a", burst := 6, ioStart := some 1, ioDuration := 2 },
        { pid := 2, name := "b", burst := 4 }]
    let kills : List Kill := [⟨2, 1⟩, ⟨1, 7⟩]
    let kills' : List Kill := [⟨1, 3⟩, ⟨2, 1⟩]
    (kills.filter (·.tick < 3) = kills'.filter (·.tick < 3) ∧ 3 ≤ 3) ∧
      Agree ((start jobs kills).steps 3) ((start jobs kills').steps 3) ∧
      (start jobs kills').answers 3 = (start jobs kills).answers 3 ∧
      ((start jobs kills').steps 4).roster ≠ ((start jobs kills).steps 4).roster := by
  intro jobs kills kills'
  have h : kills.filter (·.tick < 3) = kills'.filter (·.tick < 3) := by decide
  obtain ⟨hagree, hanswers⟩ := future_kills_unseen jobs h (Nat.le_refl 3)
  exact ⟨⟨h, Nat.le_refl 3⟩, hagree, hanswers, by decide⟩

end Simulation
end FirstCome
