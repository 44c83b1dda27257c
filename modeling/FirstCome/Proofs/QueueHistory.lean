import FirstCome.Queue
import Mathlib.Data.List.Basic

/-!
What goes through a queue in the course of many requests: those that are served leave in the order in which
they joined, those that are cut out disturb no one else, and no entry is lost or doubled.
-/
namespace FirstCome
namespace Queue

structure Traffic where
  joined : List Pid := []
  /-- Left at the head. -/
  served : List Pid := []
  /-- Cut out. -/
  removed : List Pid := []

namespace Traffic

def note (t : Traffic) (got : Option Pid) : Op → Traffic
  | .enqueue pid => { t with joined := t.joined ++ [pid] }
  | .dequeue => { t with served := t.served ++ got.toList }
  | .remove _ => { t with removed := t.removed ++ got.toList }

theorem note_none_dequeue (t : Traffic) : t.note none .dequeue = t := by simp [note]

theorem note_none_remove (t : Traffic) (pid : Pid) : t.note none (.remove pid) = t := by simp [note]

def noteAll (t : Traffic) (log : List (Op × Option Pid × Queue)) : Traffic :=
  log.foldl (fun t e => t.note e.2.1 e.1) t

end Traffic

def log (q : Queue) (ops : List Op) : List (Op × Option Pid × Queue) := ops.zip (q.run ops)

def after (q : Queue) (ops : List Op) : Queue := ops.foldl (fun q op => (q.step op).2) q

variable {q : Queue} {t : Traffic}

theorem take_run (q : Queue) (ops : List Op) (n : Nat) : (q.run ops).take n = q.run (ops.take n) := by
  induction ops generalizing q n with
  | nil => rw [List.take_nil, run, List.take_nil]
  | cons op ops ih =>
    cases n with
    | zero => rfl
    | succ n => rw [run, List.take_succ_cons, ih, List.take_succ_cons, run]

theorem take_log (q : Queue) (ops : List Op) (n : Nat) : (q.log ops).take n = q.log (ops.take n) := by
  rw [log, List.zip_eq_zipWith, List.take_zipWith, take_run, ← List.zip_eq_zipWith, log]

theorem getElem?_run (q : Queue) (ops : List Op) (n : Nat) :
    (q.run ops)[n]? = ops[n]?.map (q.after (ops.take n)).step := by
  induction ops generalizing q n with
  | nil => rfl
  | cons op ops ih =>
    cases n with
    | zero => rfl
    | succ n => exact ih (q.step op).2 n

/-! ### One request -/

theorem step_dequeue (q : Queue) :
    (q.entries = [] ∧ q.step .dequeue = (none, q)) ∨
      ∃ pid rest, q.entries = pid :: rest ∧ q.step .dequeue = (some pid, ⟨rest⟩) := by
  cases h : q.entries with
  | nil => exact .inl ⟨rfl, by simp [step, dequeue?, h]⟩
  | cons pid rest => exact .inr ⟨pid, rest, rfl, by simp [step, dequeue?, h]⟩

theorem step_remove (q : Queue) (pid : Pid) :
    (pid ∉ q.entries ∧ q.step (.remove pid) = (none, q)) ∨
      ∃ ahead behind, q.entries = ahead ++ pid :: behind ∧ pid ∉ ahead ∧
        q.step (.remove pid) = (some pid, ⟨ahead ++ behind⟩) := by
  by_cases hm : pid ∈ q.entries
  · obtain ⟨ahead, behind, hahead, hentries, herase⟩ := List.exists_erase_eq hm
    refine .inr ⟨ahead, behind, hentries, hahead, ?_⟩
    simp [step, remove?, hm, herase]
  · exact .inl ⟨hm, by simp [step, remove?, hm]⟩

/-- The entries are in the order in which they joined, behind all that have been served, and whoever has
joined has been served, has been cut out or is there. -/
structure Accounts (t : Traffic) (q : Queue) : Prop where
  order : (t.served ++ q.entries).Sublist t.joined
  number : ∀ pid, t.joined.count pid =
    t.served.count pid + t.removed.count pid + q.entries.count pid

namespace Accounts

theorem empty : Accounts {} {} where
  order := List.Sublist.refl []
  number _ := rfl

theorem enqueue (h : Accounts t q) (pid : Pid) (got : Option Pid) :
    Accounts (t.note got (.enqueue pid)) (q.enqueue pid) where
  order := by
    change (t.served ++ (q.entries ++ [pid])).Sublist (t.joined ++ [pid])
    rw [← List.append_assoc]
    exact h.order.append_right [pid]
  number p := by
    change (t.joined ++ [pid]).count p =
      t.served.count p + t.removed.count p + (q.entries ++ [pid]).count p
    rw [List.count_append, List.count_append, h.number p]
    omega

theorem serve (h : Accounts t q) {pid : Pid} {rest : List Pid} (hq : q.entries = pid :: rest) :
    Accounts (t.note (some pid) .dequeue) ⟨rest⟩ where
  order := by simpa [Traffic.note, hq] using h.order
  number p := by
    have hp := h.number p
    rw [hq, List.count_cons] at hp
    change t.joined.count p = (t.served ++ [pid]).count p + t.removed.count p + rest.count p
    rw [List.count_append, List.count_singleton]
    omega

theorem cut (h : Accounts t q) {pid : Pid} {ahead behind : List Pid}
    (hq : q.entries = ahead ++ pid :: behind) :
    Accounts (t.note (some pid) (.remove pid)) ⟨ahead ++ behind⟩ where
  order := by
    have hcut : (ahead ++ behind).Sublist q.entries := by
      rw [hq]
      exact (List.sublist_cons_self pid behind).append_left ahead
    exact (hcut.append_left t.served).trans h.order
  number p := by
    have hp := h.number p
    rw [hq, List.count_append, List.count_cons] at hp
    change t.joined.count p =
      t.served.count p + (t.removed ++ [pid]).count p + (ahead ++ behind).count p
    rw [List.count_append, List.count_append, List.count_singleton]
    omega

theorem step (h : Accounts t q) (op : Op) : Accounts (t.note (q.step op).1 op) (q.step op).2 := by
  cases op with
  | enqueue pid => exact h.enqueue pid none
  | dequeue =>
    obtain ⟨_, hstep⟩ | ⟨pid, rest, hentries, hstep⟩ := q.step_dequeue
    · rwa [hstep, t.note_none_dequeue]
    · rw [hstep]
      exact h.serve hentries
  | remove pid =>
    obtain ⟨_, hstep⟩ | ⟨ahead, behind, hentries, _, hstep⟩ := q.step_remove pid
    · rwa [hstep, t.note_none_remove]
    · rw [hstep]
      exact h.cut hentries

theorem noteAll (h : Accounts t q) (ops : List Op) :
    Accounts (t.noteAll (q.log ops)) (q.after ops) := by
  induction ops generalizing t q with
  | nil => exact h
  | cons op ops ih => exact ih (h.step op)

end Accounts

/-- At any point of a run from an empty queue the entries are in the order in which they joined, and so are
those that have been served; each pid has joined as often as it has been served, has been cut out and is
there; and a request to cut it out takes the entry nearest the head, or does nothing if there is none. -/
theorem run_keeps_accounts (ops : List Op) (n : Nat) :
    let start : Queue := {}
    let t := Traffic.noteAll {} ((start.log ops).take n)
    let q := start.after (ops.take n)
    (start.run ops)[n]? = ops[n]?.map q.step ∧
      q.entries.Sublist t.joined ∧ t.served.Sublist t.joined ∧
      (∀ pid, t.joined.count pid = t.served.count pid + t.removed.count pid + q.entries.count pid) ∧
      ∀ pid, (pid ∉ q.entries ∧ q.step (.remove pid) = (none, q)) ∨
        ∃ ahead behind, q.entries = ahead ++ pid :: behind ∧ pid ∉ ahead ∧
          q.step (.remove pid) = (some pid, ⟨ahead ++ behind⟩) := by
  intro start t q
  have h : Accounts t q := by
    have hlog := Accounts.empty.noteAll (ops.take n)
    rwa [← take_log] at hlog
  refine ⟨getElem?_run start ops n, ?_, ?_, h.number, q.step_remove⟩
  · exact (List.sublist_append_right _ _).trans h.order
  · exact (List.sublist_append_left _ _).trans h.order

/-- A pid that is there twice loses its place nearest the head. -/
example : ({} : Queue).run [.enqueue 1, .enqueue 2, .enqueue 1, .remove 1, .remove 3, .dequeue] =
    [(none, ⟨[1]⟩), (none, ⟨[1, 2]⟩), (none, ⟨[1, 2, 1]⟩), (some 1, ⟨[2, 1]⟩), (none, ⟨[2, 1]⟩),
      (some 2, ⟨[1]⟩)] := by decide

end Queue
end FirstCome
