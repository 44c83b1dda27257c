import FirstCome.Proofs.Causality
import FirstCome.Proofs.Ending

/-!
What the kills at one job do to it: the job ends at the first of them, or as it would end without
them if that comes no later.
-/
namespace FirstCome

namespace Kill

/-- The tick of the first kill at a job; `none` if there is none. -/
def first? (kills : List Kill) (pid : Pid) : Option Nat :=
  ((kills.filter (·.pid = pid)).map (·.tick)).min?

variable {kills : List Kill} {pid : Pid} {k : Nat}

theorem first?_eq_none_iff : first? kills pid = none ↔ ∀ e ∈ kills, e.pid ≠ pid := by
  simp [first?, List.min?_eq_none_iff, List.filter_eq_nil_iff]

theorem first?_eq_some_iff :
    first? kills pid = some k ↔
      (∃ e ∈ kills, e.pid = pid ∧ e.tick = k) ∧ ∀ e ∈ kills, e.pid = pid → k ≤ e.tick := by
  rw [first?, List.min?_eq_some_iff]
  simp only [List.mem_map, List.mem_filter, decide_eq_true_eq, and_assoc]
  refine and_congr_right fun _ => ⟨fun h e he hpid => h _ ⟨e, he, hpid, rfl⟩, ?_⟩
  rintro h t ⟨e, he, hpid, rfl⟩
  exact h e he hpid

end Kill

namespace Simulation

variable {s : Simulation} {jobs : List Job} {kills : List Kill} {pid : Pid} {p : Progress}

theorem exists_find?_steps (kills : List Kill) (hp : pid ∈ jobs.map (·.pid)) (n : Nat) :
    ∃ p, ((start jobs kills).steps n).roster.find? pid = some p := by
  refine (Placed.start jobs kills).exists_steps ?_ n
  rwa [Roster.isSome_find?_iff, mem_pids_start_iff]

theorem wasKilled_steps_of_first?_eq_none (hk : Kill.first? kills pid = none) (n : Nat)
    (hp : ((start jobs kills).steps n).roster.find? pid = some p) : p.wasKilled = false := by
  induction n generalizing p with
  | zero =>
    have hp : p ∈ (start jobs kills).roster.entries := Roster.mem_of_find? hp
    rw [start_eq] at hp
    obtain ⟨j, _, rfl⟩ := List.mem_map.mp hp
    rfl
  | succ n ih =>
    have hs := (Placed.start jobs kills).steps n
    rw [steps_succ_last] at hp
    cases hf : ((start jobs kills).steps n).isFinished with
    | true =>
      rw [step_of_isFinished hf] at hp
      exact ih hp
    | false =>
      obtain ⟨q, hq, hm⟩ := hs.exists_of_find?_step hf hp
      have hkept := ih hq
      cases hm with
      | kill _ hd =>
        have hdue := (mem_due_iff (pending_steps (pending_start jobs kills) n)).mp
          (of_decide_eq_true hd)
        obtain ⟨e, he, _, hpid⟩ := hdue
        exact absurd hpid (Kill.first?_eq_none_iff.mp hk e he)
      | rest | queue | drain => exact hkept
      | complete | block | run | wake => rfl

theorem phase_finish_of_isFinal (jobs : List Job) (kills : List Kill) (n : Nat)
    (hp : ((start jobs kills).steps n).roster.find? pid = some p) (hf : p.isFinal = true) :
    (start jobs kills).finish.roster.find? pid = some p := by
  rw [finish_eq_steps jobs kills n]
  exact ((Placed.start jobs kills).steps n).find?_steps_of_isFinal hp hf _

theorem completed_finish (hk : Kill.first? kills pid = none) (hp : pid ∈ jobs.map (·.pid)) :
    ∃ p c, (start jobs kills).finish.roster.find? pid = some p ∧ p.phase = .completed c := by
  obtain ⟨p, hp⟩ := exists_find?_steps kills hp (start jobs kills).roster.budget
  have hs := (Placed.start jobs kills).steps (start jobs kills).roster.budget
  have hkept := wasKilled_steps_of_first?_eq_none hk _ hp
  have hf : p.isFinal = true :=
    hs.isFinished_iff.mp (isFinished_finish jobs kills) p (Roster.mem_of_find? hp)
  cases hφ : p.phase with
  | completed c => exact ⟨p, c, hp, hφ⟩
  | killed t => simp [Progress.wasKilled, Progress.killedAt, hφ] at hkept
  | ready | running | waiting => simp [Progress.isFinal, hφ, Phase.isFinal] at hf

end Simulation

namespace Kill

/-- The kills at other jobs. -/
def sparing (kills : List Kill) (pid : Pid) : List Kill := kills.filter (·.pid ≠ pid)

variable {kills : List Kill} {pid : Pid} {k : Nat}

theorem first?_sparing (kills : List Kill) (pid : Pid) : first? (sparing kills pid) pid = none := by
  simp [first?_eq_none_iff, sparing]

theorem sparing_of_first?_eq_none (h : first? kills pid = none) : sparing kills pid = kills := by
  refine List.filter_eq_self.mpr fun e he => ?_
  simpa using first?_eq_none_iff.mp h e he

theorem filter_sparing (h : first? kills pid = some k) {t : Nat} (ht : t < k) :
    kills.filter (·.tick = t) = (sparing kills pid).filter (·.tick = t) := by
  rw [sparing, List.filter_filter]
  refine List.filter_congr fun e he => ?_
  have hle := (first?_eq_some_iff.mp h).2 e he
  by_cases hpid : e.pid = pid
  · have hne : e.tick ≠ t := fun hm => by
      have hk := hle hpid
      omega
    simp [hne]
  · simp [hpid]

end Kill

namespace Simulation

variable {jobs : List Job} {kills : List Kill} {pid : Pid} {p : Progress} {k c : Nat}

theorem killed_of_active (hk : Kill.first? kills pid = some k)
    (hp : ((start jobs kills).steps k).roster.find? pid = some p) (ha : p.isFinal = false) :
    (start jobs kills).finish.roster.find? pid = some (p.kill k) := by
  have hs := (Placed.start jobs kills).steps k
  have hf := isFinished_eq_false hs hp ha
  have htick : ((start jobs kills).steps k).tick = k := by
    rw [tick_steps _ k hf, tick_start, Nat.zero_add]
  have hdue : pid ∈ ((start jobs kills).steps k).due := by
    obtain ⟨e, he, hpid, ht⟩ := (Kill.first?_eq_some_iff.mp hk).1
    exact (mem_due_iff (pending_steps (pending_start jobs kills) k)).mpr
      ⟨e, he, ht.trans htick.symm, hpid⟩
  have hlast : ((start jobs kills).steps (k + 1)).roster.find? pid = some (p.kill k) := by
    have hkill := hs.find?_steps_of_mem_due hp ha hdue 0
    rw [htick] at hkill
    rw [steps_succ_last]
    exact hkill
  exact phase_finish_of_isFinal jobs kills (k + 1) hlast rfl

/-- The end of a job against its end in the run without the kills at it: the two runs agree up to
the first of these kills, and the job is then either gone in both or active in both. -/
theorem find?_finish_of_first? (hk : Kill.first? kills pid = some k) (hj : pid ∈ jobs.map (·.pid))
    (hp : (start jobs (Kill.sparing kills pid)).finish.roster.find? pid = some p)
    (hc : p.phase = .completed c) :
    (c ≤ k ∧ (start jobs kills).finish.roster.find? pid = some p) ∨
      (k < c ∧ ∃ q : Progress,
        (start jobs kills).finish.roster.find? pid = some q ∧ q.phase = .killed k) := by
  obtain ⟨plan, hplan⟩ := steps_congr (fun _ ht => Kill.filter_sparing hk ht) jobs (Nat.le_refl k)
  obtain ⟨q, hq⟩ := exists_find?_steps kills hj k
  have hq' : ((start jobs (Kill.sparing kills pid)).steps k).roster.find? pid = some q := by
    rw [hplan]
    exact hq
  cases hf : q.isFinal with
  | true =>
    -- frozen in both runs
    have hend := phase_finish_of_isFinal jobs _ k hq' hf
    obtain rfl : q = p := Option.some.inj (hend.symm.trans hp)
    have hconsistent := ((Sound.start jobs kills).steps k).consistent q (Roster.mem_of_find? hq)
    have htick := tick_steps_le (start jobs kills) k
    rw [tick_start, Nat.zero_add] at htick
    simp only [Progress.Consistent, hc] at hconsistent
    exact .inl ⟨by omega, phase_finish_of_isFinal jobs kills k hq hf⟩
  | false =>
    -- killed now in the one run, and in the other not over before the next tick
    have hs := (Placed.start jobs (Kill.sparing kills pid)).steps k
    have htick := tick_steps _ k (isFinished_eq_false hs hq' hf)
    rw [tick_start, Nat.zero_add] at htick
    rw [finish_eq_steps jobs _ k] at hp
    have hlt := (hs.lt_of_completed hq' hf _ hp c).1 hc
    exact .inr ⟨by omega, q.kill k, killed_of_active hk hq hf, rfl⟩

end Simulation

namespace Workload

variable {w : Workload} {pid : Pid}

def sparing (w : Workload) (pid : Pid) : Workload :=
  { w with kills := Kill.sparing w.kills pid }

theorem result?_simulate (hw : w.check = .ok ()) (hp : pid ∈ w.jobs.map (·.pid)) :
    ∃ o p, w.simulate = .ok o ∧
      (Simulation.start w.jobs w.kills).finish.roster.find? pid = some p ∧
      o.result? pid = Result.ofProgress? p := by
  obtain ⟨p, hfind⟩ :
      ∃ p, (Simulation.start w.jobs w.kills).finish.roster.find? pid = some p :=
    Simulation.exists_find?_steps w.kills hp _
  have hplaced : (Simulation.start w.jobs w.kills).finish.Placed :=
    (Simulation.Placed.start w.jobs w.kills).steps _
  refine ⟨_, p, simulate_of_check hw, hfind, ?_⟩
  rw [Simulation.result?_outcome hplaced, Simulation.resultOf, hfind, Option.bind_some]

/-- Against the run without the kills at a job: the job ends at the first of them if that comes before
its completion there, and as it does there if not. -/
theorem kills_cut_completion (hw : w.check = .ok ()) (hp : pid ∈ w.jobs.map (·.pid)) :
    ∃ o o' r r',
      w.simulate = .ok o ∧ (w.sparing pid).simulate = .ok o' ∧
      o.result? pid = some r ∧ o'.result? pid = some r' ∧
      match Kill.first? w.kills pid with
      | none => r.completionTick = r'.completionTick ∧ r.killed = false ∧ r.killedAt = none
      | some k =>
        r.completionTick = min k r'.completionTick ∧
        (k < r'.completionTick → r.killed = true ∧ r.killedAt = some k) ∧
        (r'.completionTick ≤ k → r.killed = false ∧ r.killedAt = none) := by
  have hspare := Kill.first?_sparing w.kills pid
  obtain ⟨p', c, hp', hc⟩ := Simulation.completed_finish hspare hp
  obtain ⟨o, p, ho, hfind, hr⟩ := result?_simulate hw hp
  obtain ⟨o', q, ho', hfind', hr'⟩ := result?_simulate (w := w.sparing pid) hw hp
  obtain rfl : q = p' := Option.some.inj (hfind'.symm.trans hp')
  rw [Result.ofProgress?_of_completed hc] at hr'
  cases hk : Kill.first? w.kills pid with
  | none =>
    have hsame : w.sparing pid = w := by
      rw [sparing, Kill.sparing_of_first?_eq_none hk]
    have heq : (Except.ok o : Except Fault Outcome) = .ok o' := by rw [← ho, ← ho', hsame]
    obtain rfl := Except.ok.inj heq
    exact ⟨o, o, _, _, ho, ho', hr', hr', rfl, rfl, rfl⟩
  | some k =>
    obtain ⟨hle, hsame⟩ | ⟨hlt, p', hkill, hkilled⟩ :=
      Simulation.find?_finish_of_first? hk hp hfind' hc
    · obtain rfl : p = q := Option.some.inj (hfind.symm.trans hsame)
      rw [Result.ofProgress?_of_completed hc] at hr
      refine ⟨o, o', _, _, ho, ho', hr, hr', ?_⟩
      dsimp only
      exact ⟨(Nat.min_eq_right hle).symm, fun h => absurd h (Nat.not_lt.mpr hle),
        fun _ => ⟨rfl, rfl⟩⟩
    · obtain rfl : p = p' := Option.some.inj (hfind.symm.trans hkill)
      rw [Result.ofProgress?_of_killed hkilled] at hr
      refine ⟨o, o', _, _, ho, ho', hr, hr', ?_⟩
      dsimp only
      exact ⟨(Nat.min_eq_left hlt.le).symm, fun _ => ⟨rfl, rfl⟩,
        fun h => absurd h (Nat.not_le.mpr hlt)⟩

/-- The second of two jobs would complete at 5. The later of its two kills comes too late. -/
theorem kills_cut_completion_four :
    let w : Workload :=
      { jobs := [{ pid := 1, name := "a", burst := 3 }, { pid := 2, name := "b", burst := 2 }]
        kills := [⟨2, 9⟩, ⟨2, 4⟩] }
    (w.check = .ok () ∧ 2 ∈ w.jobs.map (·.pid)) ∧
      ∃ o o' r r',
        w.simulate = .ok o ∧ (w.sparing 2).simulate = .ok o' ∧
        o.result? 2 = some r ∧ o'.result? 2 = some r' ∧
        r.completionTick = min 4 r'.completionTick ∧
        (4 < r'.completionTick → r.killed = true ∧ r.killedAt = some 4) := by
  intro w
  have hw : w.check = .ok () := by decide
  have hp : (2 : Pid) ∈ w.jobs.map (·.pid) := by decide
  have hk : Kill.first? w.kills 2 = some 4 := by decide
  obtain ⟨o, o', r, r', ho, ho', hr, hr', hcut⟩ := kills_cut_completion hw hp
  rw [hk] at hcut
  exact ⟨⟨hw, hp⟩, o, o', r, r', ho, ho', hr, hr', hcut.1, hcut.2.1⟩

end Workload
end FirstCome
