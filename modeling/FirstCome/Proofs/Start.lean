import FirstCome.Proofs.Tick

/-!
The state before the first tick, and what holds in every state that is reached from it.
-/
namespace FirstCome

/-- The jobs that are registered, in order: of several with one pid the first, and none whose pid is
in `seen`. -/
def registered (seen : List Pid) : List Job → List Job
  | [] => []
  | j :: js => if j.pid ∈ seen then registered seen js else j :: registered (seen ++ [j.pid]) js

theorem mem_registered_iff {seen : List Pid} {jobs : List Job} {pid : Pid} :
    pid ∈ (registered seen jobs).map (·.pid) ↔ pid ∈ jobs.map (·.pid) ∧ pid ∉ seen := by
  induction jobs generalizing seen with
  | nil => simp [registered]
  | cons j js ih =>
    by_cases hj : j.pid ∈ seen
    · rw [registered, if_pos hj, ih]
      grind
    · rw [registered, if_neg hj, List.map_cons, List.mem_cons, ih]
      grind

theorem nodup_registered (seen : List Pid) (jobs : List Job) :
    ((registered seen jobs).map (·.pid)).Nodup := by
  induction jobs generalizing seen with
  | nil => simp [registered]
  | cons j js ih =>
    by_cases hj : j.pid ∈ seen
    · rw [registered, if_pos hj]
      exact ih seen
    · rw [registered, if_neg hj, List.map_cons, List.nodup_cons]
      exact ⟨fun hm => (mem_registered_iff.mp hm).2 (by simp), ih _⟩

theorem registered_sublist (seen : List Pid) (jobs : List Job) :
    (registered seen jobs).Sublist jobs := by
  induction jobs generalizing seen with
  | nil => exact List.Sublist.refl _
  | cons j js ih =>
    rw [registered]
    split
    · exact (ih seen).cons j
    · exact (ih _).cons_cons j

theorem registered_of_nodup {seen : List Pid} {jobs : List Job}
    (hn : (jobs.map (·.pid)).Nodup) (hs : ∀ j ∈ jobs, j.pid ∉ seen) :
    registered seen jobs = jobs := by
  induction jobs generalizing seen with
  | nil => rfl
  | cons j js ih =>
    rw [List.map_cons, List.nodup_cons] at hn
    rw [registered, if_neg (hs j List.mem_cons_self), ih hn.2]
    intro k hk
    have hne : k.pid ≠ j.pid := fun he => hn.1 (he ▸ List.mem_map_of_mem hk)
    simp [hne, hs k (List.mem_cons_of_mem _ hk)]

namespace Simulation

def fresh (jobs : List Job) (kills : List Kill) : Simulation :=
  { roster := ⟨jobs.map fun j => { job := j }⟩
    ready := ⟨jobs.map (·.pid)⟩
    kills := ⟨kills⟩ }

theorem pids_fresh (jobs : List Job) (kills : List Kill) :
    (fresh jobs kills).roster.pids = jobs.map (·.pid) := by
  simp [fresh, Roster.pids, Progress.pid]

theorem register_fresh (js : List Job) (kills : List Kill) (j : Job) :
    (fresh js kills).register j =
      if j.pid ∈ js.map (·.pid) then fresh js kills else fresh (js ++ [j]) kills := by
  have hs : ((fresh js kills).roster.find? j.pid).isSome ↔ j.pid ∈ js.map (·.pid) := by
    rw [Roster.isSome_find?_iff, pids_fresh]
  by_cases hj : j.pid ∈ js.map (·.pid)
  · simp [register, Roster.register?, hs.mpr hj, hj]
  · have hnone : ((fresh js kills).roster.find? j.pid).isSome = false := by
      simpa using fun h => hj (hs.mp h)
    rw [if_neg hj]
    unfold register Roster.register?
    rw [hnone]
    simp [fresh, Queue.enqueue]

theorem foldl_register (jobs js : List Job) (kills : List Kill) :
    jobs.foldl register (fresh js kills) =
      fresh (js ++ registered (js.map (·.pid)) jobs) kills := by
  induction jobs generalizing js with
  | nil => simp [registered]
  | cons j jobs ih =>
    rw [List.foldl_cons, register_fresh, registered]
    by_cases hj : j.pid ∈ js.map (·.pid)
    · rw [if_pos hj, if_pos hj, ih]
    · rw [if_neg hj, if_neg hj, ih]
      simp

theorem start_eq (jobs : List Job) (kills : List Kill) :
    start jobs kills = fresh (registered [] jobs) kills :=
  foldl_register jobs [] kills

theorem mem_pids_start_iff {jobs : List Job} {kills : List Kill} {pid : Pid} :
    pid ∈ (start jobs kills).roster.pids ↔ pid ∈ jobs.map (·.pid) := by
  rw [start_eq, pids_fresh, mem_registered_iff]
  simp

theorem tick_start (jobs : List Job) (kills : List Kill) : (start jobs kills).tick = 0 := by
  rw [start_eq]
  rfl

theorem exists_of_mem_start {jobs : List Job} {kills : List Kill} {p : Progress}
    (hp : p ∈ (start jobs kills).roster.entries) : ∃ j ∈ jobs, p = { job := j } := by
  rw [start_eq] at hp
  obtain ⟨j, hj, rfl⟩ := List.mem_map.mp hp
  exact ⟨j, (registered_sublist [] jobs).subset hj, rfl⟩

theorem Placed.fresh {jobs : List Job} (hn : (jobs.map (·.pid)).Nodup) (kills : List Kill) :
    Placed (fresh jobs kills) where
  nodup := by rw [pids_fresh]; exact hn
  perm := by
    rw [pids_fresh]
    simp [places, heldIn, Simulation.fresh]
  held := by
    intro p hp
    obtain ⟨j, hj, rfl⟩ := List.mem_map.mp hp
    exact List.mem_map_of_mem hj

theorem Placed.start (jobs : List Job) (kills : List Kill) : Placed (start jobs kills) := by
  rw [start_eq]
  exact Placed.fresh (nodup_registered [] jobs) kills

theorem pids_step {s : Simulation} (h : Placed s) : s.step.roster.pids = s.roster.pids := by
  cases hf : s.isFinished with
  | true => rw [step_of_isFinished hf]
  | false =>
    rw [Roster.pids, h.entries_step hf]
    exact Roster.pids_map s.roster _ fun p => p.pid_afterTick ..

theorem pids_steps {s : Simulation} (h : Placed s) (n : Nat) :
    (steps n s).roster.pids = s.roster.pids := by
  induction n generalizing s with
  | zero => rfl
  | succ n ih => rw [steps_succ, ih h.step, pids_step h]

end Simulation
end FirstCome
