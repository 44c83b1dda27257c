import FirstCome.Proofs.Admission
import FirstCome.Proofs.Budget
import FirstCome.Proofs.History
import FirstCome.Workload

/-!
The end of a run: which workloads are run, and what the outcome says of each job.
-/
namespace FirstCome

namespace Result

theorem isSome_ofProgress?_iff {p : Progress} : (ofProgress? p).isSome ↔ p.isFinal = true := by
  cases hp : p.phase <;>
    simp [ofProgress?, Progress.completionTick, Progress.isFinal, Phase.isFinal, hp]

theorem isFinal_of_ofProgress? {p : Progress} {r : Result} (h : ofProgress? p = some r) :
    p.isFinal = true :=
  isSome_ofProgress?_iff.mp (by rw [h]; rfl)

theorem ofProgress?_of_completed {p : Progress} {t : Nat} (h : p.phase = .completed t) :
    ofProgress? p = some
      { pid := p.pid, name := p.job.name, burst := p.job.burst, ioDuration := p.job.ioDuration
        completionTick := t } := by
  simp [ofProgress?, Progress.completionTick, Progress.wasKilled, Progress.killedAt, h]

theorem ofProgress?_of_killed {p : Progress} {t : Nat} (h : p.phase = .killed t) :
    ofProgress? p = some
      { pid := p.pid, name := p.job.name, burst := p.job.burst, ioDuration := p.job.ioDuration
        completionTick := t, killed := true, killedAt := some t } := by
  simp [ofProgress?, Progress.completionTick, Progress.wasKilled, Progress.killedAt, h]

def byPid (rs : List Result) : List Result := rs.mergeSort fun a b => decide (a.pid ≤ b.pid)

theorem pairwise_byPid (rs : List Result) : (byPid rs).Pairwise fun a b => decide (a.pid ≤ b.pid) := by
  apply List.pairwise_mergeSort
  · intro a b c hab hbc
    simp only [decide_eq_true_eq] at hab hbc ⊢
    exact UInt32.le_trans hab hbc
  · intro a b
    simpa using UInt32.le_total a.pid b.pid

theorem byPid_eq_of_perm {rs rs' : List Result} (hp : rs.Perm rs')
    (hinj : ∀ a ∈ rs, ∀ b ∈ rs, a.pid = b.pid → a = b) : byPid rs = byPid rs' := by
  have hrs : (byPid rs).Perm rs := List.mergeSort_perm ..
  have hrs' : (byPid rs').Perm rs' := List.mergeSort_perm ..
  refine List.Perm.eq_of_pairwise ?_ (pairwise_byPid rs) (pairwise_byPid rs')
    (hrs.trans (hp.trans hrs'.symm))
  intro a b ha hb hab hba
  simp only [decide_eq_true_eq] at hab hba
  exact hinj a (hrs.mem_iff.mp ha) b ((hrs'.trans hp.symm).mem_iff.mp hb)
    (UInt32.le_antisymm hab hba)

end Result

namespace Simulation

variable {s : Simulation} {pid : Pid} {p : Progress} {r : Result}

/-- What an outcome taken now would say of a job. -/
def resultOf (s : Simulation) (pid : Pid) : Option Result :=
  (s.roster.find? pid).bind Result.ofProgress?

theorem pid_of_resultOf (h : s.resultOf pid = some r) : r.pid = pid := by
  obtain ⟨p, hp, hr⟩ := Option.bind_eq_some_iff.mp h
  rw [Result.pid_of_ofProgress? hr, Roster.pid_of_find? hp]

theorem mem_finished_of_resultOf (h : Placed s) (hr : s.resultOf pid = some r) :
    pid ∈ s.finished.entries := by
  obtain ⟨p, hp, hpr⟩ := Option.bind_eq_some_iff.mp hr
  exact (h.mem_finished_iff hp).mpr (Result.isFinal_of_ofProgress? hpr)

theorem mem_results_iff (h : Placed s) : r ∈ s.outcome.results ↔ s.resultOf r.pid = some r := by
  have hmem : r ∈ s.outcome.results ↔ ∃ pid ∈ s.finished.entries, s.resultOf pid = some r := by
    simp only [outcome, List.mem_mergeSort, List.mem_filterMap]
    rfl
  rw [hmem]
  constructor
  · rintro ⟨pid, _, hr⟩
    rw [pid_of_resultOf hr]
    exact hr
  · intro hr
    exact ⟨r.pid, mem_finished_of_resultOf h hr, hr⟩

theorem result?_outcome (h : Placed s) (pid : Pid) : s.outcome.result? pid = s.resultOf pid := by
  cases hr : s.resultOf pid with
  | none =>
    refine List.find?_eq_none.mpr fun r hm => ?_
    have hrr := (mem_results_iff h).mp hm
    simp only [decide_eq_true_eq]
    rintro rfl
    simp [hr] at hrr
  | some r =>
    have hpid := pid_of_resultOf hr
    have hm : r ∈ s.outcome.results := (mem_results_iff h).mpr (hpid.symm ▸ hr)
    obtain ⟨r', hr'⟩ : ∃ r', s.outcome.result? pid = some r' :=
      Option.isSome_iff_exists.mp (List.find?_isSome.mpr ⟨r, hm, by simpa using hpid⟩)
    have hm' := (mem_results_iff h).mp (List.mem_of_find?_eq_some hr')
    have hpid' : r'.pid = pid := by simpa using List.find?_some hr'
    rw [hpid', hr] at hm'
    rw [hr', hm']

theorem results_outcome (h : Placed s) :
    s.outcome.results = Result.byPid (s.roster.pids.filterMap s.resultOf) := by
  have hactive (x : Place) (hx : x ≠ .finished) : (s.heldIn x).filterMap s.resultOf = [] := by
    refine List.filterMap_eq_nil_iff.mpr fun pid hm => ?_
    obtain ⟨p, hp, hplace⟩ := h.exists_entry hm
    rw [resultOf, hp, Option.bind_some, ← Option.not_isSome_iff_eq_none,
      Result.isSome_ofProgress?_iff]
    exact fun hf => hx (hplace.symm.trans (Phase.place_eq_finished.mpr hf))
  have hperm := h.perm.filterMap s.resultOf
  simp only [places, List.filterMap_append, hactive .cpu (by decide),
    hactive .ready (by decide), hactive .waiting (by decide), List.nil_append] at hperm
  refine Result.byPid_eq_of_perm hperm fun a ha b hb he => ?_
  obtain ⟨pid, _, ha⟩ := List.mem_filterMap.mp ha
  obtain ⟨pid', _, hb⟩ := List.mem_filterMap.mp hb
  rw [pid_of_resultOf ha, pid_of_resultOf hb] at he
  rw [he] at ha
  exact Option.some.inj (ha.symm.trans hb)

theorem isFinished_finish (jobs : List Job) (kills : List Kill) :
    (start jobs kills).finish.isFinished = true :=
  (Sound.start jobs kills).isFinished_steps _ (credit_start jobs kills).le

theorem finish_eq_steps (jobs : List Job) (kills : List Kill) (n : Nat) :
    (start jobs kills).finish =
      ((start jobs kills).steps n).steps (start jobs kills).roster.budget := by
  rw [← steps_add, Nat.add_comm, steps_add]
  exact (steps_of_isFinished n (isFinished_finish jobs kills)).symm

theorem finish_eq_of_isFinished {jobs : List Job} {kills : List Kill} {n : Nat}
    (hf : ((start jobs kills).steps n).isFinished = true) :
    (start jobs kills).finish = (start jobs kills).steps n := by
  rw [finish_eq_steps jobs kills n, steps_of_isFinished _ hf]

end Simulation

namespace Workload

variable {w : Workload}

theorem nodup_of_check (h : w.check = .ok ()) : (w.jobs.map (·.pid)).Nodup :=
  (check_eq_ok_iff.mp h).distinct

theorem burst_of_check (h : w.check = .ok ()) : ∀ j ∈ w.jobs, 0 < j.burst :=
  fun j hj => ((check_eq_ok_iff.mp h).sane j hj).burst

theorem simulate_of_check (h : w.check = .ok ()) :
    w.simulate = .ok (Simulation.start w.jobs w.kills).finish.outcome := by
  unfold simulate
  rw [h]
  rfl

theorem result?_of_simulate (h : w.check = .ok ()) {o : Outcome} (ho : w.simulate = .ok o)
    (pid : Pid) : o.result? pid = (Simulation.start w.jobs w.kills).finish.resultOf pid := by
  obtain rfl := Except.ok.inj ((simulate_of_check h).symm.trans ho)
  exact Simulation.result?_outcome ((Simulation.Placed.start w.jobs w.kills).steps _) pid

theorem start_of_check (h : w.check = .ok ()) (kills : List Kill) :
    Simulation.start w.jobs kills = Simulation.fresh w.jobs kills := by
  rw [Simulation.start_eq, registered_of_nodup (nodup_of_check h) (by simp)]

end Workload
end FirstCome
