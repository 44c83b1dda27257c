import FirstCome.Proofs.Ending
import FirstCome.Workload.File
import Mathlib.Data.List.Forall2

/-!
What goes into a run comes out of it: each job once, with what describes it.
-/
namespace FirstCome

theorem forall₂_filterMap {α β γ : Type} {f : α → Option β} {g : α → γ} {R : β → γ → Prop}
    {as : List α} (h : ∀ a ∈ as, ∃ b, f a = some b ∧ R b (g a)) :
    List.Forall₂ R (as.filterMap f) (as.map g) := by
  induction as with
  | nil => exact .nil
  | cons a as ih =>
    obtain ⟨b, hb, hr⟩ := h a List.mem_cons_self
    rw [List.filterMap_cons_some hb, List.map_cons]
    exact .cons hr (ih fun c hc => h c (List.mem_cons_of_mem a hc))

namespace Result

/-- The result repeats what describes the job. -/
structure Tells (r : Result) (j : Job) : Prop where
  pid : r.pid = j.pid
  name : r.name = j.name
  burst : r.burst = j.burst
  ioDuration : r.ioDuration = j.ioDuration

theorem tells_of_ofProgress? {p : Progress} {r : Result} (h : ofProgress? p = some r) :
    r.Tells p.job := by
  obtain ⟨t, _, rfl⟩ := Option.map_eq_some_iff.mp h
  exact ⟨rfl, rfl, rfl, rfl⟩

end Result

theorem Roster.pids_eq_map_job (r : Roster) : r.pids = (r.entries.map (·.job)).map (·.pid) := by
  rw [pids, List.map_map]
  rfl

namespace Simulation

variable {s : Simulation}

theorem map_job_step (h : Placed s) :
    s.step.roster.entries.map (·.job) = s.roster.entries.map (·.job) := by
  cases hf : s.isFinished with
  | true => rw [step_of_isFinished hf]
  | false =>
    rw [h.entries_step hf, List.map_map]
    exact List.map_congr_left fun p _ => p.job_afterTick ..

theorem map_job_steps (h : Placed s) (n : Nat) :
    (s.steps n).roster.entries.map (·.job) = s.roster.entries.map (·.job) := by
  induction n generalizing s with
  | zero => rfl
  | succ n ih => rw [steps_succ, ih h.step, map_job_step h]

theorem map_job_start (jobs : List Job) (kills : List Kill) :
    (start jobs kills).roster.entries.map (·.job) = registered [] jobs := by
  rw [start_eq, fresh, List.map_map]
  exact List.map_id _

namespace Placed

theorem finish (h : Placed s) : s.finish.Placed := h.steps _

theorem perm_results (h : Placed s) :
    s.outcome.results.Perm (s.roster.pids.filterMap s.resultOf) := by
  rw [results_outcome h]
  exact List.mergeSort_perm ..

theorem ascending_results (h : Placed s) : s.outcome.results.Pairwise fun a b => a.pid < b.pid := by
  have hkept : (s.roster.pids.filterMap s.resultOf).map (·.pid) =
      s.roster.pids.filter fun pid => (s.resultOf pid).isSome := by
    rw [List.map_filterMap, ← List.filterMap_eq_filter]
    refine List.filterMap_congr fun pid _ => ?_
    cases hr : s.resultOf pid with
    | none => simp [Option.guard, hr]
    | some r => simp [Option.guard, hr, pid_of_resultOf hr]
  have hn : (s.outcome.results.map (·.pid)).Nodup := by
    rw [(h.perm_results.map _).nodup_iff, hkept]
    exact h.nodup.filter _
  have hle := Result.pairwise_byPid (s.roster.pids.filterMap s.resultOf)
  rw [← results_outcome h] at hle
  refine (hle.and (List.pairwise_map.mp hn)).imp fun hab => ?_
  exact UInt32.lt_of_le_of_ne (of_decide_eq_true hab.1) hab.2

theorem perm_finished (h : Placed s) (hf : s.isFinished = true) :
    s.finished.entries.Perm s.roster.pids := by
  have hperm := h.perm
  simp only [isFinished, Queue.isEmpty, Bool.and_eq_true, Option.isNone_iff_eq_none,
    List.isEmpty_iff] at hf
  simpa [places, heldIn, hf] using hperm

theorem tells_results (h : Placed s) (hf : s.isFinished = true) :
    ∃ js, js.Perm (s.roster.entries.map (·.job)) ∧
      List.Forall₂ Result.Tells s.outcome.results js := by
  have hentries : List.Forall₂ Result.Tells (s.roster.pids.filterMap s.resultOf)
      (s.roster.entries.map (·.job)) := by
    rw [Roster.pids, List.filterMap_map]
    refine forall₂_filterMap fun p hp => ?_
    have hfinal := h.isFinished_iff.mp hf p hp
    obtain ⟨r, hr⟩ := Option.isSome_iff_exists.mp (Result.isSome_ofProgress?_iff.mpr hfinal)
    refine ⟨r, ?_, Result.tells_of_ofProgress? hr⟩
    rw [Function.comp_apply, resultOf, Roster.find?_pid h.nodup hp, Option.bind_some, hr]
  obtain ⟨js, htells, hperm⟩ := List.perm_comp_forall₂ h.perm_results hentries
  exact ⟨js, hperm, htells⟩

end Placed
end Simulation

namespace Workload

/-- A workload that passes its check, which one read from a text or a document has passed. -/
def Admitted (w : Workload) : Prop :=
  w.check = .ok () ∨ (∃ text, ofText text = .ok w) ∨ ∃ text, ofJson text = .ok w

theorem check_of_checked {v w : Workload} (h : v.checked = .ok w) : w.check = .ok () := by
  obtain ⟨hcheck, rfl⟩ := checked_eq_ok_iff.mp h
  exact hcheck

variable {w : Workload}

theorem check_of_ofText {text : String} (h : ofText text = .ok w) : w.check = .ok () := by
  obtain ⟨v, -, hchecked⟩ := Except.bind_eq_ok_iff.mp h
  exact check_of_checked hchecked

theorem check_of_ofJson {text : String} (h : ofJson text = .ok w) : w.check = .ok () := by
  obtain ⟨v, -, hchecked⟩ := Except.bind_eq_ok_iff.mp h
  exact check_of_checked hchecked

theorem Admitted.check (h : w.Admitted) : w.check = .ok () := by
  obtain h | ⟨_, h⟩ | ⟨_, h⟩ := h
  exacts [h, check_of_ofText h, check_of_ofJson h]

/-- A workload that is admitted runs to its end. There its jobs and its results are one to one, the
results in strictly ascending order of pids; each pid is once in the completion order; and there are
no results only if there are no jobs. -/
theorem simulate_conserves (hw : w.Admitted) :
    ∃ o, w.simulate = .ok o ∧
      o.results.Pairwise (fun a b => a.pid < b.pid) ∧
      (∃ js, js.Perm w.jobs ∧ List.Forall₂ Result.Tells o.results js) ∧
      o.completionOrder.Perm (w.jobs.map (·.pid)) ∧ o.completionOrder.Nodup ∧
      (o.isEmpty = true ↔ w.jobs = []) := by
  have hcheck := hw.check
  have hstart := Simulation.Placed.start w.jobs w.kills
  have hend := hstart.finish
  have hfin := Simulation.isFinished_finish w.jobs w.kills
  have hjobs : (Simulation.start w.jobs w.kills).finish.roster.entries.map (·.job) = w.jobs := by
    rw [Simulation.finish, Simulation.map_job_steps hstart, Simulation.map_job_start,
      registered_of_nodup (nodup_of_check hcheck) (by simp)]
  have hpids : (Simulation.start w.jobs w.kills).finish.roster.pids = w.jobs.map (·.pid) := by
    rw [Roster.pids_eq_map_job, hjobs]
  obtain ⟨js, hperm, htells⟩ := hend.tells_results hfin
  rw [hjobs] at hperm
  have horder := hend.perm_finished hfin
  refine ⟨_, simulate_of_check hcheck, hend.ascending_results, ⟨js, hperm, htells⟩,
    hpids ▸ horder, horder.nodup_iff.mpr hend.nodup, ?_⟩
  rw [Outcome.isEmpty, List.isEmpty_iff_length_eq_zero, htells.length_eq, hperm.length_eq,
    List.length_eq_zero_iff]

/-- Two jobs in descending order of pids; the first is killed while it waits for its I/O. -/
theorem simulate_conserves_two :
    let w : Workload :=
      { jobs := [{ pid := 9, name := "a", burst := 3, ioStart := some 1, ioDuration := 4 },
          { pid := 2, name := "b", burst := 2 }]
        kills := [⟨9, 2⟩, ⟨7, 0⟩] }
    w.Admitted ∧ ∃ o, w.simulate = .ok o ∧ o.results.Pairwise (fun a b => a.pid < b.pid) ∧
      (∃ js, js.Perm w.jobs ∧ List.Forall₂ Result.Tells o.results js) ∧
      o.completionOrder.Perm [9, 2] ∧ o.completionOrder.Nodup ∧ o.isEmpty = false := by
  intro w
  have hw : w.Admitted := .inl (by decide)
  obtain ⟨o, ho, hascending, htells, hperm, hnodup, hempty⟩ := simulate_conserves hw
  have hfull : o.isEmpty = false := by
    rw [← Bool.not_eq_true, hempty]
    exact List.cons_ne_nil _ _
  exact ⟨hw, o, ho, hascending, htells, hperm, hnodup, hfull⟩

end Workload
end FirstCome
