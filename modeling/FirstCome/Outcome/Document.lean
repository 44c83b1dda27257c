import FirstCome.Progress.Document

/-!
Outcomes as JSON: the counters, and with them the results and the order of the finishes, without the
timeline. Most zero counters are left out, and are read back as such.
-/
namespace FirstCome

open Json (Node Value Slot Shape require)

namespace Tally

def toJson (t : Tally) : Value :=
  .ofFields
    [("ticks", some (.natural t.ticks)), ("dispatches", Value.unlessZero t.dispatches),
      ("io_transitions", Value.unlessZero t.ioWaits),
      ("completions", Value.unlessZero t.completions),
      ("kills_applied", Value.unlessZero t.killsApplied),
      ("kills_ignored", Value.unlessZero t.killsIgnored),
      ("kills_unfired", Value.unlessZero t.killsUnfired), ("busy_ticks", some (.natural t.busy)),
      ("idle_ticks", some (.natural t.idle))]

structure Draft where
  ticks : Option Nat := none
  dispatches : Option Nat := none
  ioWaits : Option Nat := none
  completions : Option Nat := none
  killsApplied : Option Nat := none
  killsIgnored : Option Nat := none
  killsUnfired : Option Nat := none
  busy : Option Nat := none
  idle : Option Nat := none

def shape : Shape Draft Tally where
  subject := "struct SimulationStats"
  draft := {}
  fields :=
    [.of "ticks" Node.word64 (·.ticks) fun a d => { d with ticks := some a },
      .of "dispatches" Node.word64 (·.dispatches) fun a d => { d with dispatches := some a },
      .of "io_transitions" Node.word64 (·.ioWaits) fun a d => { d with ioWaits := some a },
      .of "completions" Node.word64 (·.completions) fun a d => { d with completions := some a },
      .of "kills_applied" Node.word64 (·.killsApplied)
        fun a d => { d with killsApplied := some a },
      .of "kills_ignored" Node.word64 (·.killsIgnored)
        fun a d => { d with killsIgnored := some a },
      .of "kills_unfired" Node.word64 (·.killsUnfired)
        fun a d => { d with killsUnfired := some a },
      .of "busy_ticks" Node.word64 (·.busy) fun a d => { d with busy := some a },
      .of "idle_ticks" Node.word64 (·.idle) fun a d => { d with idle := some a }]
  make missing d := do
    let ticks ← require missing "ticks" d.ticks
    let busy ← require missing "busy_ticks" d.busy
    let idle ← require missing "idle_ticks" d.idle
    return { ticks, busy, idle
             dispatches := d.dispatches.getD 0, ioWaits := d.ioWaits.getD 0
             completions := d.completions.getD 0, killsApplied := d.killsApplied.getD 0
             killsIgnored := d.killsIgnored.getD 0, killsUnfired := d.killsUnfired.getD 0 }

def ofJson (text : String) : Except Json.Fault Tally := Json.decode shape.ofNode text

end Tally

namespace Outcome

def toJson (o : Outcome) : Value :=
  .object
    [("results", .list (o.results.map Result.toJson)),
      ("completion_order", .list (o.completionOrder.map fun pid => .natural pid.toNat)),
      ("stats", o.tally.toJson), ("final_tick", .natural o.finalTick)]

end Outcome
end FirstCome
