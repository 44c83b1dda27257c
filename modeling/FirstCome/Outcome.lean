import FirstCome.Progress

/-!
What a run leaves behind: one result per finished job, the order of the finishes, the counters and
the CPU timeline.
-/
namespace FirstCome

/-- The end of one job. Results are also read from documents, where `killed` and `killedAt` are
given apart and need not agree. -/
structure Result where
  pid : Pid
  name : String
  burst : Nat
  ioDuration : Nat
  completionTick : Nat
  killed : Bool := false
  killedAt : Option Nat := none
deriving DecidableEq

namespace Result

def ofProgress? (p : Progress) : Option Result :=
  p.completionTick.map fun t =>
    { pid := p.pid
      name := p.job.name
      burst := p.job.burst
      ioDuration := p.job.ioDuration
      completionTick := t
      killed := p.wasKilled
      killedAt := p.killedAt }

/-- Every job arrives at tick 0. -/
def turnaround (r : Result) : Nat := r.completionTick

/-- Turnaround less burst, at least 0; a killed job has none. -/
def waiting (r : Result) : Option Nat :=
  if r.killed then none else some (r.turnaround - r.burst)

theorem pid_of_ofProgress? {p : Progress} {r : Result} (h : ofProgress? p = some r) :
    r.pid = p.pid := by
  obtain ⟨t, _, rfl⟩ := Option.map_eq_some_iff.mp h
  rfl

end Result

structure Tally where
  /-- Ticks of the clock so far. -/
  ticks : Nat := 0
  /-- How often a job was put on the CPU. -/
  dispatches : Nat := 0
  /-- How often a job left the CPU for its I/O interval. -/
  ioWaits : Nat := 0
  /-- Jobs that ran to the end of their burst. -/
  completions : Nat := 0
  /-- Kill events that ended a job. -/
  killsApplied : Nat := 0
  /-- Kill events that fired at an unknown or finished target. -/
  killsIgnored : Nat := 0
  /-- Kill events that had not fired when the run was closed. -/
  killsUnfired : Nat := 0
  /-- Ticks during which a job held the CPU. -/
  busy : Nat := 0
  /-- Ticks during which the CPU was idle. -/
  idle : Nat := 0
deriving DecidableEq

structure Outcome where
  /-- In ascending order of pids. -/
  results : List Result := []
  /-- Pids in the order in which the jobs left the system. -/
  completionOrder : List Pid := []
  tally : Tally := {}
  /-- For each tick the pid on the CPU, `none` if it was idle. -/
  timeline : Array (Option Pid) := #[]
  finalTick : Nat := 0
deriving DecidableEq

namespace Outcome

def result? (o : Outcome) (pid : Pid) : Option Result :=
  o.results.find? (·.pid = pid)

def isEmpty (o : Outcome) : Bool := o.results.isEmpty

end Outcome
end FirstCome
