import FirstCome.Proofs.Start
import FirstCome.Proofs.Tokens
import Mathlib.Order.Bounds.Defs

/-!
Which jobs pass the check, and what is said of those that do not. Each job is looked at on its own first, and
only then against the jobs before it; the first offence decides, and no job behind it is looked at.
-/
namespace FirstCome

namespace Name

variable {name : String}

theorem isBlank_iff : isBlank name = true ↔ ∀ c ∈ name.toList, Text.isBlank c = true := by
  rw [isBlank, List.isEmpty_iff, Text.trim_eq_nil_iff, Text.tokens_eq_nil_iff]

theorem isBlank_eq_false_iff : isBlank name = false ↔ ∃ c ∈ name.toList, Text.isBlank c = false := by
  rw [← Bool.not_eq_true, isBlank_iff]
  simp

end Name

namespace Job

variable {j : Job} {earlier earlier' : List Pid} {f : Fault}

/-- The job has a pid, a name with more than white space in it, and a burst. -/
structure Sane (j : Job) : Prop where
  pid : 0 < j.pid
  name : ∃ c ∈ j.name.toList, Text.isBlank c = false
  burst : 0 < j.burst

/-- The fault that is found with a job behind jobs with the pids `earlier`. -/
inductive Refused (earlier : List Pid) (j : Job) : Fault → Prop
  | noPid (hpid : j.pid = 0) : Refused earlier j (.invalidJob j.pid "process id must be positive")
  | noName (hpid : 0 < j.pid) (hname : ∀ c ∈ j.name.toList, Text.isBlank c = true) :
    Refused earlier j (.invalidJob j.pid "name cannot be empty")
  | noBurst (hpid : 0 < j.pid) (hname : ∃ c ∈ j.name.toList, Text.isBlank c = false)
    (hburst : j.burst = 0) : Refused earlier j (.invalidJob j.pid "CPU burst must be positive")
  | taken (hsane : j.Sane) (hmem : j.pid ∈ earlier) : Refused earlier j (.duplicatePid j.pid)

theorem Refused.congr (h : j.Refused earlier f) (hmem : ∀ pid, pid ∈ earlier ↔ pid ∈ earlier') :
    j.Refused earlier' f := by
  cases h with
  | noPid hpid => exact .noPid hpid
  | noName hpid hname => exact .noName hpid hname
  | noBurst hpid hname hburst => exact .noBurst hpid hname hburst
  | taken hsane hm => exact .taken hsane ((hmem _).mp hm)

theorem Refused.not_free (h : j.Refused earlier f) : ¬(j.Sane ∧ j.pid ∉ earlier) := by
  rintro ⟨hsane, hfree⟩
  cases h with
  | noPid hpid => exact UInt32.pos_iff_ne_zero.mp hsane.pid hpid
  | noName _ hname =>
    obtain ⟨c, hc, hsolid⟩ := hsane.name
    exact absurd ((hname c hc).symm.trans hsolid) (by decide)
  | noBurst _ _ hburst => exact Nat.ne_of_gt hsane.burst hburst
  | taken _ hmem => exact hfree hmem

theorem free_or_refused (earlier : List Pid) (j : Job) :
    (j.Sane ∧ j.pid ∉ earlier) ∨ ∃ f, j.Refused earlier f := by
  by_cases hpid : j.pid = 0
  · exact .inr ⟨_, .noPid hpid⟩
  have hpos : 0 < j.pid := UInt32.pos_iff_ne_zero.mpr hpid
  cases hblank : Name.isBlank j.name with
  | true => exact .inr ⟨_, .noName hpos (Name.isBlank_iff.mp hblank)⟩
  | false =>
    have hname := Name.isBlank_eq_false_iff.mp hblank
    by_cases hburst : j.burst = 0
    · exact .inr ⟨_, .noBurst hpos hname hburst⟩
    have hsane : j.Sane := ⟨hpos, hname, Nat.pos_of_ne_zero hburst⟩
    by_cases hmem : j.pid ∈ earlier
    · exact .inr ⟨_, .taken hsane hmem⟩
    · exact .inl ⟨hsane, hmem⟩

theorem Sane.flaw?_eq (h : j.Sane) : j.flaw? = none := by
  rw [flaw?, if_neg (UInt32.pos_iff_ne_zero.mp h.pid), Name.isBlank_eq_false_iff.mpr h.name,
    if_neg (by decide), if_neg (Nat.ne_of_gt h.burst)]

end Job

namespace Workload

variable {before jobs rest : List Job} {seen : List Pid} {j : Job} {f : Fault}

theorem checkJobs_of_sane (h : j.Sane) (hfree : j.pid ∉ seen) (rest : List Job) :
    checkJobs seen (j :: rest) = checkJobs (j.pid :: seen) rest := by
  rw [checkJobs, h.flaw?_eq]
  exact if_neg hfree

theorem checkJobs_of_refused (h : j.Refused seen f) (rest : List Job) :
    checkJobs seen (j :: rest) = .error f := by
  cases h with
  | noPid hpid =>
    have hflaw : j.flaw? = some .noPid := if_pos hpid
    rw [checkJobs, hflaw]
    rfl
  | noName hpid hname =>
    have hflaw : j.flaw? = some .noName := by
      rw [Job.flaw?, if_neg (UInt32.pos_iff_ne_zero.mp hpid), if_pos (Name.isBlank_iff.mpr hname)]
    rw [checkJobs, hflaw]
    rfl
  | noBurst hpid hname hburst =>
    have hflaw : j.flaw? = some .noBurst := by
      rw [Job.flaw?, if_neg (UInt32.pos_iff_ne_zero.mp hpid), Name.isBlank_eq_false_iff.mpr hname,
        if_neg (by decide), if_pos hburst]
    rw [checkJobs, hflaw]
    rfl
  | taken hsane hmem =>
    rw [checkJobs, hsane.flaw?_eq]
    exact if_pos hmem

theorem checkJobs_eq_ok_iff :
    checkJobs seen jobs = .ok () ↔
      (∀ j ∈ jobs, j.Sane ∧ j.pid ∉ seen) ∧ (jobs.map (·.pid)).Nodup := by
  induction jobs generalizing seen with
  | nil => simp [checkJobs]
  | cons j js ih =>
    obtain ⟨hsane, hfree⟩ | ⟨f, hf⟩ := j.free_or_refused seen
    · rw [checkJobs_of_sane hsane hfree, ih, List.map_cons, List.nodup_cons]
      simp only [List.mem_cons, not_or, List.mem_map, not_exists, not_and]
      grind
    · rw [checkJobs_of_refused hf]
      simp [hf.not_free]

theorem exists_refused (h : checkJobs seen jobs ≠ .ok ()) :
    ∃ before j after f, jobs = before ++ j :: after ∧ checkJobs seen before = .ok () ∧
      j.Refused (before.map (·.pid) ++ seen) f ∧
      ∀ rest, checkJobs seen (before ++ j :: rest) = .error f := by
  induction jobs generalizing seen with
  | nil => exact absurd rfl h
  | cons k ks ih =>
    obtain ⟨hsane, hfree⟩ | ⟨f, hf⟩ := k.free_or_refused seen
    · rw [checkJobs_of_sane hsane hfree] at h
      obtain ⟨before, j, after, f, rfl, hbefore, hf, herror⟩ := ih h
      refine ⟨k :: before, j, after, f, rfl, ?_, hf.congr fun pid => ?_, fun rest => ?_⟩
      · rw [checkJobs_of_sane hsane hfree, hbefore]
      · simp only [List.map_cons, List.mem_append, List.mem_cons]
        tauto
      · rw [List.cons_append, checkJobs_of_sane hsane hfree, herror]
    · exact ⟨[], k, ks, f, rfl, rfl, hf, checkJobs_of_refused hf⟩

variable {w : Workload}

/-- What the check asks of the jobs of a workload: each is sane, and no two have the same pid. -/
structure Runnable (jobs : List Job) : Prop where
  sane : ∀ j ∈ jobs, j.Sane
  distinct : (jobs.map (·.pid)).Nodup

theorem check_eq_ok_iff : w.check = .ok () ↔ Runnable w.jobs := by
  rw [check, checkJobs_eq_ok_iff]
  constructor
  · rintro ⟨hjobs, hnodup⟩
    exact ⟨fun j hj => (hjobs j hj).1, hnodup⟩
  · rintro ⟨hsane, hnodup⟩
    exact ⟨fun j hj => ⟨hsane j hj, List.not_mem_nil⟩, hnodup⟩

theorem Runnable.sublist (h : Runnable jobs) (hsub : rest.Sublist jobs) : Runnable rest :=
  ⟨fun j hj => h.sane j (hsub.subset hj), h.distinct.sublist (hsub.map _)⟩

/-- The check passes just the runnable jobs, and a run of these leaves none of them out. Of other jobs it
names the first that makes those up to it not runnable, with the fault found with it; that fault does not
depend on the jobs behind. -/
theorem check_names_first_offence (w : Workload) :
    (w.check = .ok () ↔ Runnable w.jobs) ∧
      (Runnable w.jobs →
        w.simulation.ready.entries = w.jobs.map (·.pid) ∧
          w.simulation.roster.entries.map (·.job) = w.jobs) ∧
      (¬Runnable w.jobs → ∃ i j f, w.jobs[i]? = some j ∧
        IsLeast {k | ¬Runnable (w.jobs.take (k + 1))} i ∧
        j.Refused ((w.jobs.take i).map (·.pid)) f ∧
        ∀ v : Workload, v.jobs.take (i + 1) = w.jobs.take (i + 1) → v.check = .error f) := by
  refine ⟨check_eq_ok_iff, fun h => ?_, fun h => ?_⟩
  · rw [simulation, Simulation.start_eq, registered_of_nodup h.distinct (by simp)]
    exact ⟨rfl, by simp [Simulation.fresh, Function.comp_def]⟩
  · obtain ⟨before, j, after, f, hjobs, hbefore, hf, herror⟩ := exists_refused (mt check_eq_ok_iff.mp h)
    have hrunnable : Runnable before := check_eq_ok_iff (w := { jobs := before }).mp hbefore
    have hfront : w.jobs.take before.length = before := by rw [hjobs, List.take_left]
    have htake : w.jobs.take (before.length + 1) = before ++ [j] := by
      rw [List.take_add_one, hfront]
      simp [hjobs]
    refine ⟨before.length, j, f, by simp [hjobs], ⟨?_, fun k hk => ?_⟩, ?_, fun v hv => ?_⟩
    · change ¬Runnable (w.jobs.take (before.length + 1))
      rw [htake, ← check_eq_ok_iff (w := { jobs := before ++ [j] }), check, herror]
      simp
    · by_contra hlt
      refine hk (hrunnable.sublist ?_)
      rw [← hfront]
      exact List.take_sublist_take_left (by omega)
    · rw [hfront]
      simpa using hf
    · have hv : v.jobs = before ++ j :: v.jobs.drop (before.length + 1) := by
        rw [← List.take_append_drop (before.length + 1) v.jobs, hv, htake]
        simp
      rw [check, hv, herror]

/-- The third job has the pid of the first, and the fourth has none: it is the third that is named, and the
jobs before it run in their order. -/
theorem check_names_first_offence_third :
    let a : Job := { pid := 7, name := "a", burst := 3 }
    let b : Job := { pid := 2, name := " b ", burst := 1, ioDuration := 4 }
    let w : Workload := { jobs := [a, b] }
    let bad : Workload :=
      { jobs := [a, b, { pid := 7, name := "-", burst := 9 }, { pid := 0, name := "", burst := 0 }] }
    Runnable w.jobs ∧ w.simulation.ready.entries = [7, 2] ∧ ¬Runnable bad.jobs ∧
      ∃ i j, bad.jobs[i]? = some j ∧ IsLeast {k | ¬Runnable (bad.jobs.take (k + 1))} i ∧
        j.Refused ((bad.jobs.take i).map (·.pid)) (.duplicatePid 7) ∧
        ∀ v : Workload, v.jobs.take (i + 1) = bad.jobs.take (i + 1) →
          v.check = .error (.duplicatePid 7) := by
  intro a b w bad
  obtain ⟨hcheck, hrun, _⟩ := check_names_first_offence w
  obtain ⟨hcheck', _, hrefuse⟩ := check_names_first_offence bad
  have hw : Runnable w.jobs := hcheck.mp (by decide)
  have hbad : ¬Runnable bad.jobs := mt hcheck'.mpr (by decide)
  obtain ⟨i, j, f, hj, hleast, hf, herror⟩ := hrefuse hbad
  have hfault : bad.check = .error (.duplicatePid 7) := by decide
  obtain rfl : f = .duplicatePid 7 := Except.error.inj ((herror bad rfl).symm.trans hfault)
  exact ⟨hw, (hrun hw).1, hbad, i, j, hj, hleast, hf, herror⟩

end Workload
end FirstCome
