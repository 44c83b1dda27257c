import FirstCome.Json.Record
import FirstCome.Json.Value
import FirstCome.Workload

/-!
Workloads as JSON documents. An I/O start and a list of kills that are not there are left out.
-/
namespace FirstCome

open Json (Node Value Slot Shape require)

namespace Job

def toJson (j : Job) : Value :=
  .ofFields
    [("pid", some (.natural j.pid.toNat)), ("name", some (.text j.name)),
      ("cpu_burst", some (.natural j.burst)), ("io_start", j.ioStart.map .natural),
      ("io_duration", some (.natural j.ioDuration))]

structure Draft where
  pid : Option Pid := none
  name : Option String := none
  burst : Option Nat := none
  ioStart : Option (Option Nat) := none
  ioDuration : Option Nat := none

def shape : Shape Draft Job where
  subject := "struct ProcessSpec"
  draft := {}
  fields :=
    [.of "pid" Node.word32 (·.pid) fun a d => { d with pid := some a },
      .of "name" Node.string (·.name) fun a d => { d with name := some a },
      .of "cpu_burst" Node.word64 (·.burst) fun a d => { d with burst := some a },
      .of "io_start" (Node.optional Node.word64) (·.ioStart) fun a d => { d with ioStart := some a },
      .of "io_duration" Node.word64 (·.ioDuration) fun a d => { d with ioDuration := some a }]
  make missing d := do
    let pid ← require missing "pid" d.pid
    let name ← require missing "name" d.name
    let burst ← require missing "cpu_burst" d.burst
    return { pid, name, burst, ioStart := d.ioStart.join, ioDuration := d.ioDuration.getD 0 }

def ofJson (node : Node) : Except Json.Fault Job := shape.ofNode node

end Job

namespace Kill

def toJson (k : Kill) : Value :=
  .object [("pid", .natural k.pid.toNat), ("tick", .natural k.tick)]

structure Draft where
  pid : Option Pid := none
  tick : Option Nat := none

def shape : Shape Draft Kill where
  subject := "struct KillSpec"
  draft := {}
  fields :=
    [.of "pid" Node.word32 (·.pid) fun a d => { d with pid := some a },
      .of "tick" Node.word64 (·.tick) fun a d => { d with tick := some a }]
  make missing d := do
    let pid ← require missing "pid" d.pid
    let tick ← require missing "tick" d.tick
    return { pid, tick }

def ofJson (node : Node) : Except Json.Fault Kill := shape.ofNode node

end Kill

namespace Workload

def toJson (w : Workload) : Value :=
  .ofFields
    [("processes", some (.list (w.jobs.map Job.toJson))),
      ("kills", if w.kills.isEmpty then none else some (.list (w.kills.map Kill.toJson)))]

structure Draft where
  jobs : Option (List Job) := none
  kills : Option (List Kill) := none

def shape : Shape Draft Workload where
  subject := "struct Workload"
  draft := {}
  fields :=
    [.of "processes" (Node.sequence Job.ofJson) (·.jobs) fun a d => { d with jobs := some a },
      .of "kills" (Node.sequence Kill.ofJson) (·.kills) fun a d => { d with kills := some a }]
  make missing d := do
    let jobs ← require missing "processes" d.jobs
    return { jobs, kills := d.kills.getD [] }

def read (text : String) : Except Json.Fault Workload := Json.decode shape.ofNode text

def ofJson (text : String) : Except Fault Workload := do
  let w ← (read text).mapError fun f => .badJson f.message
  w.checked

end Workload
end FirstCome
