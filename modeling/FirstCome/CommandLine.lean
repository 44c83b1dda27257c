import FirstCome.Report.Render
import FirstCome.Text.Case
import FirstCome.Workload.File

/-!
An invocation of the program, from its arguments and three environment variables to the text it writes.
It writes a whole report or nothing.
-/
namespace FirstCome

inductive Format where
  | table
  | json
deriving DecidableEq

def Format.name : Format → String
  | table => "table"
  | json => "json"

structure Options where
  /-- The workload file; standard input if there is none. -/
  input : Option String := none
  format : Format := .table
  traceJson : Bool := false
  showTimeline : Bool := false
deriving DecidableEq

namespace Options

inductive Fault where
  | unknownFormat (value : String)
  | extraArgument (arg : String)
deriving DecidableEq

def Fault.message : Fault → String
  | unknownFormat value => "Invalid output format '" ++ value ++ "'. Valid: table, json"
  | extraArgument arg => "Unexpected argument '" ++ arg ++ "'. Usage: fcfs-sim [WORKLOAD|-]"

def outputVariable : String := "FCFS_OUTPUT"

def traceJsonVariable : String := "FCFS_TRACE_JSON"

def showTimelineVariable : String := "FCFS_SHOW_TIMELINE"

/-- A format by name, white space around it and letter case aside. -/
def readFormat (value : String) : Except Fault Format :=
  let name := Text.lowerCase (.ofList (Text.trim value.toList))
  if name = "table" ∨ name = "text" then .ok .table
  else if name = "json" then .ok .json
  else .error (.unknownFormat name)

def isOn (value : String) : Bool := value == "1" || Text.lowerAscii value == "true"

def readInput : List String → Except Fault (Option String)
  | [] => .ok none
  | [arg] => .ok (if arg = "-" then none else some arg)
  | _ :: extra :: _ => .error (.extraArgument extra)

def ofSources (args : List String) (env : String → Option String) : Except Fault Options := do
  let input ← readInput args
  let format ← match env outputVariable with
    | some value => readFormat value
    | none => pure .table
  return { input, format
           traceJson := (env traceJsonVariable).any isOn
           showTimeline := (env showTimelineVariable).any isOn }

end Options

namespace Report

def render (r : Report) (o : Options) : String :=
  match o.format with
  | .table => r.text o.showTimeline
  | .json => r.toJson.pretty 0

end Report

structure Invocation where
  args : List String
  env : String → Option String
  input : Except ReadFault ByteArray
  file : String → Except ReadFault ByteArray

namespace Invocation

def options (i : Invocation) : Except Fault Options :=
  (Options.ofSources i.args i.env).mapError fun f => .configuration f.message

def workload (i : Invocation) (o : Options) : Except Fault Workload :=
  match o.input with
  | some path => Workload.ofFile path (i.file path)
  | none => Workload.ofInput i.input

/-- White space at the end gives way to one line feed. -/
def endLine (s : String) : String := String.ofList (Text.trimEnd s.toList) ++ "\n"

def run (i : Invocation) : Except Fault String := do
  let o ← i.options
  let w ← i.workload o
  let outcome ← w.simulate
  return endLine ((Report.ofOutcome outcome).render o)

def answer (i : Invocation) : Nat × String :=
  match i.run with
  | .ok text => (0, text)
  | .error _ => (1, "")

end Invocation
end FirstCome
