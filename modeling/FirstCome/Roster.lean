import FirstCome.Progress

/-!
The jobs of a run in registration order, one entry per pid.
-/
namespace FirstCome

structure Roster where
  entries : List Progress := []
deriving DecidableEq

namespace Roster

def size (r : Roster) : Nat := r.entries.length

def isEmpty (r : Roster) : Bool := r.entries.isEmpty

def find? (r : Roster) (pid : Pid) : Option Progress :=
  r.entries.find? (·.pid = pid)

def pids (r : Roster) : List Pid := r.entries.map (·.pid)

/-- Enter a job at the end; `none` if its pid is taken. -/
def register? (r : Roster) (j : Job) : Option Roster :=
  if (r.find? j.pid).isSome then none else some ⟨r.entries ++ [{ job := j }]⟩

def update (r : Roster) (pid : Pid) (f : Progress → Progress) : Roster :=
  ⟨r.entries.map fun p => if p.pid = pid then f p else p⟩

def byPid (r : Roster) : List Progress :=
  r.entries.mergeSort fun p q => decide (p.pid ≤ q.pid)

/-- Ticks of the clock after which every job must have left the system. -/
def budget (r : Roster) : Nat :=
  r.entries.foldr (fun p n => p.job.span + n) 0

theorem pids_map (r : Roster) (g : Progress → Progress) (hg : ∀ p, (g p).pid = p.pid) :
    pids ⟨r.entries.map g⟩ = r.pids := by
  simp only [pids, List.map_map]
  exact List.map_congr_left fun p _ => hg p

theorem find?_map (r : Roster) (g : Progress → Progress) (hg : ∀ p, (g p).pid = p.pid) (pid : Pid) :
    find? ⟨r.entries.map g⟩ pid = (r.find? pid).map g := by
  have hpred : (fun p : Progress => decide (p.pid = pid)) ∘ g = fun p => decide (p.pid = pid) := by
    funext p
    rw [Function.comp_apply, hg]
  rw [find?, List.find?_map, hpred]
  rfl

theorem pids_update (r : Roster) (pid : Pid) (f : Progress → Progress)
    (hf : ∀ p, (f p).pid = p.pid) : (r.update pid f).pids = r.pids := by
  apply pids_map
  intro p
  by_cases h : p.pid = pid <;> simp [h, hf]

theorem pid_of_find? {r : Roster} {pid : Pid} {p : Progress} (h : r.find? pid = some p) :
    p.pid = pid := by
  simpa using List.find?_some h

theorem mem_of_find? {r : Roster} {pid : Pid} {p : Progress} (h : r.find? pid = some p) :
    p ∈ r.entries :=
  List.mem_of_find?_eq_some h

theorem isSome_find?_iff {r : Roster} {pid : Pid} : (r.find? pid).isSome ↔ pid ∈ r.pids := by
  simp [find?, pids, List.find?_isSome]

end Roster
end FirstCome
