import FirstCome.Outcome
import FirstCome.Queue
import FirstCome.Roster

/-!
The run of a workload on one CPU, tick by tick: first come first served, without preemption.

In each tick the due kills fire, a free CPU takes the head of the ready queue, the job on the CPU
runs, the jobs that were waiting before that run drain one tick of I/O, and those with no I/O left
join the ready queue. A finished run stays as it is.
-/
namespace FirstCome

structure Simulation where
  roster : Roster := {}
  ready : Queue := {}
  waiting : Queue := {}
  finished : Queue := {}
  kills : KillPlan := {}
  running : Option Pid := none
  tick : Nat := 0
  tally : Tally := {}
  timeline : Array (Option Pid) := #[]
deriving DecidableEq

namespace Simulation

/-- Enter a job; one whose pid is taken is passed over. -/
def register (s : Simulation) (j : Job) : Simulation :=
  match s.roster.register? j with
  | some roster => { s with roster, ready := s.ready.enqueue j.pid }
  | none => s

def start (jobs : List Job) (kills : List Kill) : Simulation :=
  jobs.foldl register { kills := ⟨kills⟩ }

def isFinished (s : Simulation) : Bool :=
  s.running.isNone && s.ready.isEmpty && s.waiting.isEmpty

def withdraw (s : Simulation) (pid : Pid) : Simulation :=
  if s.running = some pid then { s with running := none }
  else match s.ready.remove? pid with
    | some ready => { s with ready }
    | none => { s with waiting := (s.waiting.remove? pid).getD s.waiting }

/-- One kill at the current tick; it has no effect on a job unknown or gone. -/
def strike (s : Simulation) (pid : Pid) : Simulation :=
  if ((s.roster.find? pid).map (·.isFinal)).getD true then
    { s with tally := { s.tally with killsIgnored := s.tally.killsIgnored + 1 } }
  else
    let s := s.withdraw pid
    { s with
      roster := s.roster.update pid (·.kill s.tick)
      finished := s.finished.enqueue pid
      tally := { s.tally with killsApplied := s.tally.killsApplied + 1 } }

def fireKills (s : Simulation) : Simulation :=
  let (targets, kills) := s.kills.fire s.tick
  targets.foldl strike { s with kills }

def fillCpu (s : Simulation) : Simulation :=
  match s.running, s.ready.dequeue? with
  | none, some (pid, ready) =>
    { s with
      ready
      running := some pid
      roster := s.roster.update pid Progress.dispatch
      tally := { s.tally with dispatches := s.tally.dispatches + 1 } }
  | _, _ => s

/-- Where the job that has just run goes: it keeps the CPU, waits for I/O, or is finished. -/
def leaveCpu (s : Simulation) (pid : Pid) : Phase → Simulation
  | .waiting =>
    { s with
      running := none
      waiting := s.waiting.enqueue pid
      tally := { s.tally with ioWaits := s.tally.ioWaits + 1 } }
  | .completed _ =>
    { s with
      running := none
      finished := s.finished.enqueue pid
      tally := { s.tally with completions := s.tally.completions + 1 } }
  | _ => s

def recordCpu (s : Simulation) : Simulation :=
  { s with
    timeline := s.timeline.push s.running
    tally :=
      if s.running.isSome then { s.tally with busy := s.tally.busy + 1 }
      else { s.tally with idle := s.tally.idle + 1 } }

def useCpu (s : Simulation) : Simulation :=
  let s := s.recordCpu
  match s.running with
  | none => s
  | some pid =>
    match s.roster.find? pid with
    | none => s
    | some p =>
      let s := { s with roster := s.roster.update pid (·.useCpu s.tick) }
      s.leaveCpu pid (p.useCpu s.tick).phase

def drainIo (s : Simulation) (cohort : List Pid) : Simulation :=
  { s with roster := cohort.foldl (fun r pid => r.update pid Progress.drainIo) s.roster }

def wake (s : Simulation) (pid : Pid) : Simulation :=
  { s with
    waiting := (s.waiting.remove? pid).getD s.waiting
    roster := s.roster.update pid Progress.wake
    ready := s.ready.enqueue pid }

/-- The waiting pids with no I/O left, in the order of the queue. -/
def drained (s : Simulation) : List Pid :=
  s.waiting.entries.filter fun pid => (s.roster.find? pid).any (·.ioLeft = 0)

def wakeDrained (s : Simulation) : Simulation :=
  s.drained.foldl wake s

def advanceClock (s : Simulation) : Simulation :=
  { s with tick := s.tick + 1, tally := { s.tally with ticks := s.tick + 1 } }

/-- One tick. Only the jobs waiting before the CPU step drain I/O in it. -/
def step (s : Simulation) : Simulation :=
  if s.isFinished then s
  else
    let s := s.fireKills.fillCpu
    (s.useCpu.drainIo s.waiting.entries).wakeDrained.advanceClock

/-- At most `n` ticks. -/
def steps : Nat → Simulation → Simulation
  | 0, s => s
  | n + 1, s => if s.isFinished then s else steps n s.step

def finish (s : Simulation) : Simulation :=
  steps s.roster.budget s

/-- Close the run: active jobs are left out, and kills still pending are counted as unfired. -/
def outcome (s : Simulation) : Outcome :=
  { results :=
      (s.finished.entries.filterMap fun pid =>
        (s.roster.find? pid).bind Result.ofProgress?).mergeSort fun a b => decide (a.pid ≤ b.pid)
    completionOrder := s.finished.entries
    tally := { s.tally with killsUnfired := s.kills.size }
    timeline := s.timeline
    finalTick := s.tick }

theorem step_of_isFinished {s : Simulation} (h : s.isFinished = true) : s.step = s := by
  simp [step, h]

theorem steps_of_isFinished {s : Simulation} (n : Nat) (h : s.isFinished = true) :
    steps n s = s := by
  cases n <;> simp [steps, h]

theorem steps_succ (n : Nat) (s : Simulation) : steps (n + 1) s = steps n s.step := by
  by_cases h : s.isFinished = true
  · simp [steps, h, step_of_isFinished h, steps_of_isFinished n h]
  · simp [steps, h]

theorem steps_add (m n : Nat) (s : Simulation) : steps (m + n) s = steps n (steps m s) := by
  induction m generalizing s with
  | zero => simp [steps]
  | succ m ih => rw [Nat.succ_add, steps_succ, ih, steps_succ]

theorem steps_succ_last (n : Nat) (s : Simulation) : steps (n + 1) s = (steps n s).step := by
  rw [steps_add, steps_succ]
  rfl

end Simulation
end FirstCome
