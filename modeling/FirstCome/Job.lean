import FirstCome.Text.Blank

/-!
What a run is given: jobs with their names, kill events, and the plan in which the events wait.
-/
namespace FirstCome

/-- Jobs are told apart by 32-bit identifiers; all times and counts are natural numbers. -/
abbrev Pid := UInt32

namespace Name

def isBlank (name : String) : Bool := (Text.trim name.toList).isEmpty

/-- At most 23 bytes in UTF-8. -/
def isShort (name : String) : Bool := name.utf8ByteSize ≤ 23

def inField (side : Text.Side) (fill : Char) (width : Nat) (limit : Option Nat)
    (name : String) : String :=
  Text.pad side fill width (Text.cut limit name)

end Name

/-- One CPU burst with at most one I/O interval, which starts after `ioStart` ticks of the burst. -/
structure Job where
  pid : Pid
  name : String
  burst : Nat
  ioStart : Option Nat := none
  ioDuration : Nat := 0
deriving DecidableEq

/-- Forced termination of `pid` at the start of `tick`. -/
structure Kill where
  pid : Pid
  tick : Nat
deriving DecidableEq

namespace Job

def withIo (j : Job) (start duration : Nat) : Job :=
  { j with ioStart := some start, ioDuration := duration }

/-- An I/O interval of positive length is described. -/
def hasIo (j : Job) : Bool :=
  j.ioStart.isSome && decide (0 < j.ioDuration)

/-- The interval starts strictly inside the burst, so an undisturbed run leaves the CPU for it. -/
def blocks (j : Job) : Bool :=
  j.hasIo && j.ioStart.any fun s => decide (0 < s ∧ s < j.burst)

def ioTime (j : Job) : Nat :=
  if j.blocks then j.ioDuration else 0

/-- An upper bound on the ticks of the clock that a job can account for; an empty burst takes one. -/
def span (j : Job) : Nat :=
  max 1 j.burst + j.ioTime

theorem blocks_iff {j : Job} :
    j.blocks = true ↔ 0 < j.ioDuration ∧ ∃ k, j.ioStart = some k ∧ 0 < k ∧ k < j.burst := by
  cases hs : j.ioStart with
  | none => simp [blocks, hasIo, hs]
  | some k => simp [blocks, hasIo, hs]

end Job

/-- Kill events that have not fired yet. An event leaves the plan at its tick, whatever becomes of it. -/
structure KillPlan where
  pending : List Kill := []
deriving DecidableEq

namespace KillPlan

def size (k : KillPlan) : Nat := k.pending.length

def isEmpty (k : KillPlan) : Bool := k.pending.isEmpty

/-- The targets of the events due at `tick`, in plan order, and the plan without those events. -/
def fire (k : KillPlan) (tick : Nat) : List Pid × KillPlan :=
  ((k.pending.filter (·.tick = tick)).map (·.pid), ⟨k.pending.filter (·.tick ≠ tick)⟩)

def fireAll (k : KillPlan) : List Nat → List (List Pid × KillPlan)
  | [] => []
  | tick :: ticks =>
    let next := k.fire tick
    next :: fireAll next.2 ticks

theorem length_fire (k : KillPlan) (tick : Nat) :
    (k.fire tick).1.length + (k.fire tick).2.size = k.size := by
  simp only [fire, size, List.length_map]
  induction k.pending with
  | nil => rfl
  | cons e es ih => by_cases h : e.tick = tick <;> simp [h] at ih ⊢ <;> omega

end KillPlan
end FirstCome
