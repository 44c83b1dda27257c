import FirstCome.Fault
import FirstCome.Simulation

/-!
Workloads, the check they pass before a run, and the run.
-/
namespace FirstCome

structure Workload where
  jobs : List Job := []
  kills : List Kill := []
deriving DecidableEq

namespace Job

inductive Flaw where
  | noPid
  | noName
  | noBurst
deriving DecidableEq

def Flaw.message : Flaw → String
  | noPid => "process id must be positive"
  | noName => "name cannot be empty"
  | noBurst => "CPU burst must be positive"

def flaw? (j : Job) : Option Flaw :=
  if j.pid = 0 then some .noPid
  else if Name.isBlank j.name then some .noName
  else if j.burst = 0 then some .noBurst
  else none

end Job

namespace Workload

/-- Check the jobs in order, where the pids in `seen` are taken. -/
def checkJobs (seen : List Pid) : List Job → Except Fault Unit
  | [] => .ok ()
  | j :: js =>
    match j.flaw? with
    | some flaw => .error (.invalidJob j.pid flaw.message)
    | none =>
      if j.pid ∈ seen then .error (.duplicatePid j.pid) else checkJobs (j.pid :: seen) js

/-- Kills are not checked: one at an unknown pid just has no effect. -/
def check (w : Workload) : Except Fault Unit := checkJobs [] w.jobs

def checked (w : Workload) : Except Fault Workload := do
  w.check
  return w

def simulation (w : Workload) : Simulation := .start w.jobs w.kills

def simulate (w : Workload) : Except Fault Outcome := do
  w.check
  return w.simulation.finish.outcome

theorem checked_eq_ok_iff {v w : Workload} : v.checked = .ok w ↔ v.check = .ok () ∧ v = w := by
  rw [checked, Except.bind_eq_ok_iff]
  constructor
  · rintro ⟨⟨⟩, hcheck, hv⟩
    exact ⟨hcheck, Except.ok.inj hv⟩
  · rintro ⟨hcheck, rfl⟩
    exact ⟨(), hcheck, rfl⟩

theorem checked_eq_error_iff {w : Workload} {f : Fault} :
    w.checked = .error f ↔ w.check = .error f := by
  simp [checked, Except.bind_eq_error_iff]

theorem checked_of_check (w : Workload) :
    (w.check = .ok () → w.checked = .ok w) ∧ ∀ f, w.check = .error f → w.checked = .error f :=
  ⟨fun hc => checked_eq_ok_iff.mpr ⟨hc, rfl⟩, fun _ hf => checked_eq_error_iff.mpr hf⟩

end Workload
end FirstCome
