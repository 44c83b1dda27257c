import FirstCome.Json.Record
import FirstCome.Json.Value
import FirstCome.Outcome

/-!
One job as JSON, under way and after its end. Flags that are not set and absent ticks are left out, and
are read back as such.
-/
namespace FirstCome

open Json (Node Value Slot Shape require)

namespace Progress

def toJson (p : Progress) : Value :=
  .ofFields
    [("pid", some (.natural p.pid.toNat)), ("name", some (.text p.job.name)),
      ("total_cpu_burst", some (.natural p.job.burst)),
      ("remaining_cpu_burst", some (.natural p.remaining)),
      ("executed_cpu_time", some (.natural p.executed)),
      ("io_start", p.job.ioStart.map .natural),
      ("io_duration", some (.natural p.job.ioDuration)),
      ("remaining_io", some (.natural p.ioLeft)),
      ("completion_tick", p.completionTick.map .natural),
      ("terminated_by_kill", if p.wasKilled then some (.boolean true) else none),
      ("killed_at_tick", p.killedAt.map .natural),
      ("state", some (.text p.phase.name))]

end Progress

namespace Result

def toJson (r : Result) : Value :=
  .ofFields
    [("pid", some (.natural r.pid.toNat)), ("name", some (.text r.name)),
      ("cpu_burst", some (.natural r.burst)), ("io_duration", some (.natural r.ioDuration)),
      ("completion_tick", some (.natural r.completionTick)),
      ("terminated_by_kill", if r.killed then some (.boolean true) else none),
      ("killed_at_tick", r.killedAt.map .natural)]

structure Draft where
  pid : Option Pid := none
  name : Option String := none
  burst : Option Nat := none
  ioDuration : Option Nat := none
  completionTick : Option Nat := none
  killed : Option Bool := none
  killedAt : Option (Option Nat) := none

def shape : Shape Draft Result where
  subject := "struct ProcessResult"
  draft := {}
  fields :=
    [.of "pid" Node.word32 (·.pid) fun a d => { d with pid := some a },
      .of "name" Node.string (·.name) fun a d => { d with name := some a },
      .of "cpu_burst" Node.word64 (·.burst) fun a d => { d with burst := some a },
      .of "io_duration" Node.word64 (·.ioDuration) fun a d => { d with ioDuration := some a },
      .of "completion_tick" Node.word64 (·.completionTick)
        fun a d => { d with completionTick := some a },
      .of "terminated_by_kill" Node.bool (·.killed) fun a d => { d with killed := some a },
      .of "killed_at_tick" (Node.optional Node.word64) (·.killedAt)
        fun a d => { d with killedAt := some a }]
  make missing d := do
    let pid ← require missing "pid" d.pid
    let name ← require missing "name" d.name
    let burst ← require missing "cpu_burst" d.burst
    let ioDuration ← require missing "io_duration" d.ioDuration
    let completionTick ← require missing "completion_tick" d.completionTick
    return { pid, name, burst, ioDuration, completionTick
             killed := d.killed.getD false, killedAt := d.killedAt.join }

def ofJson (text : String) : Except Json.Fault Result := Json.decode shape.ofNode text

end Result
end FirstCome
