import FirstCome.Decimal.Binary
import FirstCome.Outcome

/-!
The figures of a run: a row for each result, and a summary of all rows.
-/
namespace FirstCome

/-- A fraction that is rounded only when it is written. -/
structure Ratio where
  num : Nat
  den : Nat
deriving DecidableEq

/-- Both parts are rounded, then their quotient. -/
def Ratio.toBinary (r : Ratio) : Decimal.Binary :=
  (Decimal.Binary.ofNat r.num).div (.ofNat r.den)

namespace Report

structure Row where
  pid : Pid
  name : String
  burst : Nat
  ioDuration : Nat
  turnaround : Nat
  waiting : Option Nat
  killedAt : Option Nat
deriving DecidableEq

def Row.ofResult (r : Result) : Row :=
  { pid := r.pid
    name := r.name
    burst := r.burst
    ioDuration := r.ioDuration
    turnaround := r.turnaround
    waiting := r.waiting
    killedAt := r.killedAt }

/-- Averages are taken over the jobs that were not killed, and are absent without any. -/
structure Summary where
  completed : Nat
  killed : Nat
  averageTurnaround : Option Ratio
  averageWaiting : Option Ratio
  /-- The last tick at which a job left the system. -/
  makespan : Nat
  /-- Busy ticks by makespan. -/
  utilization : Ratio
deriving DecidableEq

def average (values : List Nat) : Option Ratio :=
  if values.isEmpty then none else some ⟨values.foldr (· + ·) 0, values.length⟩

def completedRows (rows : List Row) : List Row := rows.filter (·.killedAt.isNone)

def makespan (rows : List Row) : Nat := (rows.map (·.turnaround)).foldl max 0

def summarize (rows : List Row) (busy : Nat) : Summary :=
  let done := completedRows rows
  { completed := done.length
    killed := rows.length - done.length
    averageTurnaround := average (done.map (·.turnaround))
    averageWaiting := average (done.filterMap (·.waiting))
    makespan := makespan rows
    utilization := ⟨busy, makespan rows⟩ }

end Report

structure Report where
  /-- In ascending order of pids. -/
  rows : List Report.Row
  summary : Report.Summary
  tally : Tally
  timeline : Array (Option Pid)
deriving DecidableEq

namespace Report

def ofOutcome (o : Outcome) : Report :=
  let rows := (o.results.map Row.ofResult).mergeSort fun a b => decide (a.pid ≤ b.pid)
  { rows
    summary := summarize rows o.tally.busy
    tally := o.tally
    timeline := o.timeline }

end Report
end FirstCome
