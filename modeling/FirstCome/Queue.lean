import FirstCome.Job

/-!
First-in first-out queues of pids. A pid may be cut out of the middle; the others keep their order.
-/
namespace FirstCome

structure Queue where
  entries : List Pid := []
deriving DecidableEq

namespace Queue

def size (q : Queue) : Nat := q.entries.length

def isEmpty (q : Queue) : Bool := q.entries.isEmpty

def front? (q : Queue) : Option Pid := q.entries.head?

def enqueue (q : Queue) (pid : Pid) : Queue := ⟨q.entries ++ [pid]⟩

def dequeue? (q : Queue) : Option (Pid × Queue) :=
  match q.entries with
  | [] => none
  | pid :: rest => some (pid, ⟨rest⟩)

/-- Cut out the entry for `pid` nearest the head; `none` if there is none. -/
def remove? (q : Queue) (pid : Pid) : Option Queue :=
  if pid ∈ q.entries then some ⟨q.entries.erase pid⟩ else none

inductive Op where
  | enqueue (pid : Pid)
  | dequeue
  | remove (pid : Pid)
deriving DecidableEq

/-- Carry out one request: the pid handed back, and the queue afterwards. -/
def step (q : Queue) : Op → Option Pid × Queue
  | .enqueue pid => (none, q.enqueue pid)
  | .dequeue =>
    match q.dequeue? with
    | some (pid, rest) => (some pid, rest)
    | none => (none, q)
  | .remove pid =>
    match q.remove? pid with
    | some rest => (some pid, rest)
    | none => (none, q)

def run (q : Queue) : List Op → List (Option Pid × Queue)
  | [] => []
  | op :: ops =>
    let next := q.step op
    next :: run next.2 ops

@[simp] theorem entries_enqueue (q : Queue) (pid : Pid) :
    (q.enqueue pid).entries = q.entries ++ [pid] := rfl

theorem remove?_eq_none_iff {q : Queue} {pid : Pid} :
    q.remove? pid = none ↔ pid ∉ q.entries := by
  simp [remove?]

theorem entries_remove?_getD (q : Queue) (pid : Pid) :
    ((q.remove? pid).getD q).entries = q.entries.erase pid := by
  by_cases h : pid ∈ q.entries
  · simp [remove?, h]
  · simp [remove?, h, List.erase_of_not_mem h]

end Queue
end FirstCome
