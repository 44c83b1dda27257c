import FirstCome.Outcome.Document
import FirstCome.Report

/-!
The two forms of a report: a table of fixed columns, with the summary below it and optionally the
timeline; and a JSON document, without the timeline.
-/
namespace FirstCome.Report

open Json (Value)

def absent : String := "-"

def orAbsent (n : Option Nat) : String := (n.map toString).getD absent

/-- The widths of all columns but the last, which is not padded. -/
def columnWidths : List Nat := [5, 12, 5, 5, 12, 8]

def aligned (cells : List String) (last : String) : String :=
  " ".intercalate (columnWidths.zipWith (Text.pad .left ' ') cells ++ [last])

def headerLine : String :=
  aligned ["PID", "Name", "CPU", "IO", "Turnaround", "Waiting"] "Status"

def Row.status (r : Row) : String :=
  match r.killedAt with
  | some tick => "killed@" ++ toString tick
  | none => "done"

def Row.line (r : Row) : String :=
  aligned
    [toString r.pid.toNat, r.name, toString r.burst, toString r.ioDuration,
      toString r.turnaround, orAbsent r.waiting]
    r.status

def percent (r : Ratio) : String := (r.toBinary.mul (.ofNat 100)).places 1

def Summary.line (s : Summary) : String :=
  "Completed: " ++ toString s.completed ++ "  Killed: " ++ toString s.killed ++
    "  Makespan: " ++ toString s.makespan ++ "  CPU utilization: " ++ percent s.utilization ++ "%"

/-- There is a line only if there are both averages. -/
def Summary.averages (s : Summary) : List String :=
  match s.averageTurnaround, s.averageWaiting with
  | some turnaround, some waiting =>
    ["Average turnaround: " ++ turnaround.toBinary.places 2 ++ "  Average waiting: " ++
      waiting.toBinary.places 2]
  | _, _ => []

def timelineLine (timeline : List (Option Pid)) : String :=
  "CPU: |" ++ "|".intercalate (timeline.map fun slot => orAbsent (slot.map (·.toNat))) ++ "|"

def textLines (r : Report) (withTimeline : Bool) : List String :=
  headerLine :: r.rows.map Row.line ++ "" :: r.summary.line :: r.summary.averages ++
    if withTimeline then [timelineLine r.timeline.toList] else []

def text (r : Report) (withTimeline : Bool := false) : String :=
  String.join ((r.textLines withTimeline).map (· ++ "\n"))

def Row.toJson (r : Row) : Value :=
  .ofFields
    [("pid", some (.natural r.pid.toNat)), ("name", some (.text r.name)),
      ("cpu_burst", some (.natural r.burst)), ("io_duration", some (.natural r.ioDuration)),
      ("turnaround", some (.natural r.turnaround)), ("waiting", r.waiting.map .natural),
      ("killed_at_tick", r.killedAt.map .natural)]

def Summary.toJson (s : Summary) : Value :=
  .ofFields
    [("completed", some (.natural s.completed)), ("killed", some (.natural s.killed)),
      ("average_turnaround", s.averageTurnaround.map (.real ·.toBinary)),
      ("average_waiting", s.averageWaiting.map (.real ·.toBinary)),
      ("makespan", some (.natural s.makespan)),
      ("cpu_utilization", some (.real s.utilization.toBinary))]

def toJson (r : Report) : Value :=
  .object
    [("rows", .list (r.rows.map Row.toJson)), ("summary", r.summary.toJson),
      ("stats", r.tally.toJson)]

end FirstCome.Report
