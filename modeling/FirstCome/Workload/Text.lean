import FirstCome.Workload

/-!
Workloads as lines of text: a count, so many jobs, and optionally a count and so many kills.

    <number of jobs>
    <name> <pid> <burst> <I/O start, or -> <I/O duration, or ->
    <number of kills>
    KILL <pid> <tick>

Empty lines are passed over. A token that begins with `#` opens a comment up to the end of the line.
-/
namespace FirstCome

namespace LineFault

inductive Column where
  | count
  | pid
  | burst
  | ioStart
  | ioDuration
  | tick
deriving DecidableEq

def Column.name : Column → String
  | count => "count"
  | pid => "pid"
  | burst => "cpu burst"
  | ioStart => "io start"
  | ioDuration => "io duration"
  | tick => "tick"

end LineFault

inductive LineFault where
  | notANumber (column : LineFault.Column) (token : String)
  | outOfRange (column : LineFault.Column) (token : String)
  | jobTokens (found : Nat)
  | killTokens (found : Nat)
  | unknownEvent (verb : String)
  | missingJobs (expected found : Nat)
  | missingKills (expected found : Nat)
  | trailingInput
deriving DecidableEq

def LineFault.message : LineFault → String
  | notANumber column token =>
    column.name ++ " must be a non-negative integer, got `" ++ token ++ "`"
  | outOfRange column token => column.name ++ " `" ++ token ++ "` is out of range"
  | jobTokens found => "expected 5 fields, found " ++ toString found
  | killTokens found =>
    "expected `KILL <pid> <tick>`, found " ++ toString found ++ " fields"
  | unknownEvent verb => "unknown event `" ++ verb ++ "`"
  | missingJobs expected found =>
    "expected " ++ toString expected ++ " process lines, found " ++ toString found
  | missingKills expected found =>
    "expected " ++ toString expected ++ " kill lines, found " ++ toString found
  | trailingInput => "unexpected trailing input"

namespace Workload.Text

open FirstCome.Text (isBlank trim words lines)

/-- Cut before the first `#` that follows white space, or stands first if `opens` is set. -/
def cutComment (opens : Bool) : List Char → List Char
  | [] => []
  | c :: cs => if opens && c == '#' then [] else c :: cutComment (isBlank c) cs

def uncommented (cs : List Char) : List Char := cutComment true cs

/-- A line with something on it, and its number counted from 1. -/
structure Line where
  number : Nat
  text : List Char
deriving DecidableEq

/-- The lines that hold more than white space and comments, where `n` lines come before. -/
def filledFrom (n : Nat) : List (List Char) → List Line
  | [] => []
  | raw :: rest =>
    let text := trim (uncommented raw)
    if text.isEmpty then filledFrom (n + 1) rest else ⟨n + 1, text⟩ :: filledFrom (n + 1) rest

def filledLines (cs : List Char) : List Line := filledFrom 0 (lines cs)

def readNumber (bits : Nat) (column : LineFault.Column) (token : List Char) :
    Except LineFault Nat :=
  if token.isEmpty || !token.all Char.isDigit then .error (.notANumber column (.ofList token))
  else
    let n := Nat.ofDigitChars 10 token 0
    if n < 1 <<< bits then .ok n else .error (.outOfRange column (.ofList token))

def readPid (token : List Char) : Except LineFault Pid :=
  UInt32.ofNat <$> readNumber 32 .pid token

/-- A number, or `-` for none. -/
def readOptional (column : LineFault.Column) (token : List Char) : Except LineFault (Option Nat) :=
  if token = ['-'] then .ok none else some <$> readNumber 64 column token

def readCount (text : List Char) : Except LineFault Nat := readNumber 64 .count text

def readJob (text : List Char) : Except LineFault Job :=
  match words text with
  | [name, pid, burst, ioStart, ioDuration] => do
    let pid ← readPid pid
    let burst ← readNumber 64 .burst burst
    let ioStart ← readOptional .ioStart ioStart
    let ioDuration ← readOptional .ioDuration ioDuration
    return { pid, name := .ofList name, burst, ioStart, ioDuration := ioDuration.getD 0 }
  | tokens => .error (.jobTokens tokens.length)

def isKillVerb (token : List Char) : Bool := token.map Char.toLower = ['k', 'i', 'l', 'l']

def readKill (text : List Char) : Except LineFault Kill :=
  match words text with
  | [verb, pid, tick] => do
    if !isKillVerb verb then .error (.unknownEvent (.ofList verb)) else
      let pid ← readPid pid
      let tick ← readNumber 64 .tick tick
      return { pid, tick }
  | tokens => .error (.killTokens tokens.length)

abbrev At := Except (Nat × LineFault)

def onLine {α : Type} (n : Nat) (r : Except LineFault α) : At α := r.mapError fun f => (n, f)

def readBlock {α : Type} (read : List Char → Except LineFault α) (missing : Nat → Nat × LineFault) :
    (wanted found : Nat) → List Line → At (List α × List Line)
  | 0, _, ls => .ok ([], ls)
  | _ + 1, found, [] => .error (missing found)
  | wanted + 1, found, l :: ls => do
    let a ← onLine l.number (read l.text)
    let (as, rest) ← readBlock read missing wanted (found + 1) ls
    return (a :: as, rest)

/-- A count line and the block it announces; nothing if there are no lines. Lines that are missing
are blamed on the count. -/
def readSection {α : Type} (read : List Char → Except LineFault α)
    (missing : (expected found : Nat) → LineFault) : List Line → At (List α × List Line)
  | [] => .ok ([], [])
  | l :: ls => do
    let count ← onLine l.number (readCount l.text)
    readBlock read (fun found => (l.number, missing count found)) count 0 ls

def readLines (ls : List Line) : At Workload := do
  let (jobs, ls) ← readSection readJob .missingJobs ls
  let (kills, ls) ← readSection readKill .missingKills ls
  match ls with
  | [] => return { jobs, kills }
  | l :: _ => .error (l.number, .trailingInput)

def read (text : String) : At Workload := readLines (filledLines text.toList)

end Workload.Text

def Workload.ofText (text : String) : Except Fault Workload := do
  let w ← (Workload.Text.read text).mapError fun (n, f) => .badLine n f.message
  w.checked

namespace Job

def line (j : Job) : String :=
  " ".intercalate
    [j.name, toString j.pid.toNat, toString j.burst, (j.ioStart.map toString).getD "-",
      toString j.ioDuration]

end Job

namespace Kill

def line (k : Kill) : String :=
  " ".intercalate ["KILL", toString k.pid.toNat, toString k.tick]

end Kill

/-- The text of a workload, both counts given. -/
def Workload.toText (w : Workload) : String :=
  String.join <| List.map (· ++ "\n") <|
    toString w.jobs.length :: w.jobs.map Job.line ++ toString w.kills.length :: w.kills.map Kill.line

end FirstCome
