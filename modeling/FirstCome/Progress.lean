import FirstCome.Job

/-!
One job under way: how much of its burst has run, what is left of its I/O, and where it stands.
-/
namespace FirstCome

/-- Where a job stands; the two final phases carry the tick at which they were reached. -/
inductive Phase where
  | ready
  | running
  | waiting
  | completed (tick : Nat)
  | killed (tick : Nat)
deriving DecidableEq

namespace Phase

def isFinal : Phase → Bool
  | completed _ | killed _ => true
  | _ => false

def name : Phase → String
  | ready => "ready"
  | running => "running"
  | waiting => "waiting"
  | completed _ | killed _ => "terminated"

end Phase

structure Progress where
  job : Job
  executed : Nat := 0
  ioLeft : Nat := 0
  phase : Phase := .ready
deriving DecidableEq

namespace Progress

def pid (p : Progress) : Pid := p.job.pid

def remaining (p : Progress) : Nat := p.job.burst - p.executed

def isFinal (p : Progress) : Bool := p.phase.isFinal

def completionTick (p : Progress) : Option Nat :=
  match p.phase with
  | .completed t | .killed t => some t
  | _ => none

def killedAt (p : Progress) : Option Nat :=
  match p.phase with
  | .killed t => some t
  | _ => none

def wasKilled (p : Progress) : Bool := p.killedAt.isSome

def dispatch (p : Progress) : Progress := { p with phase := .running }

/-- The phase after a tick of CPU that started at `now`. An I/O interval is entered only while some
of the burst is left, so one that would start at the very end is passed over. -/
def phaseAfterTick (p : Progress) (now : Nat) : Phase :=
  if p.remaining = 0 then .completed (now + 1)
  else if 0 < p.job.ioDuration ∧ p.job.ioStart = some p.executed then .waiting
  else p.phase

def useCpu (p : Progress) (now : Nat) : Progress :=
  let q := { p with executed := p.executed + 1 }
  match q.phaseAfterTick now with
  | .waiting => { q with phase := .waiting, ioLeft := q.job.ioDuration }
  | phase => { q with phase }

def drainIo (p : Progress) : Progress := { p with ioLeft := p.ioLeft - 1 }

def wake (p : Progress) : Progress := { p with phase := .ready }

/-- Forced end at `now`; what was left of burst and I/O stays on record. -/
def kill (p : Progress) (now : Nat) : Progress := { p with phase := .killed now }

@[simp] theorem job_dispatch (p : Progress) : p.dispatch.job = p.job := rfl
@[simp] theorem job_drainIo (p : Progress) : p.drainIo.job = p.job := rfl
@[simp] theorem job_wake (p : Progress) : p.wake.job = p.job := rfl
@[simp] theorem job_kill (p : Progress) (now : Nat) : (p.kill now).job = p.job := rfl

@[simp] theorem job_useCpu (p : Progress) (now : Nat) : (p.useCpu now).job = p.job := by
  unfold useCpu
  dsimp only
  split <;> rfl

@[simp] theorem executed_useCpu (p : Progress) (now : Nat) :
    (p.useCpu now).executed = p.executed + 1 := by
  unfold useCpu
  dsimp only
  split <;> rfl

end Progress
end FirstCome
