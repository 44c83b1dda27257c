import FirstCome.Simulation
import Mathlib.Data.List.Nodup

/-!
Where the pids of a run are: each registered pid is in exactly one place, the one its phase names.
-/
namespace FirstCome

/-- What can hold a pid: the CPU or one of the three queues. -/
inductive Place where
  | cpu
  | ready
  | waiting
  | finished
deriving DecidableEq

def Phase.place : Phase → Place
  | .running => .cpu
  | .ready => .ready
  | .waiting => .waiting
  | .completed _ | .killed _ => .finished

namespace Phase

theorem place_eq_cpu {φ : Phase} : φ.place = .cpu ↔ φ = .running := by
  cases φ <;> simp [place]

theorem place_eq_ready {φ : Phase} : φ.place = .ready ↔ φ = .ready := by
  cases φ <;> simp [place]

theorem place_eq_waiting {φ : Phase} : φ.place = .waiting ↔ φ = .waiting := by
  cases φ <;> simp [place]

theorem place_eq_finished {φ : Phase} : φ.place = .finished ↔ φ.isFinal = true := by
  cases φ <;> simp [place, isFinal]

end Phase

namespace Roster

theorem find?_pid {r : Roster} (hn : r.pids.Nodup) {p : Progress} (hp : p ∈ r.entries) :
    r.find? p.pid = some p := by
  obtain ⟨q, hq⟩ := Option.isSome_iff_exists.mp
    (isSome_find?_iff.mpr (List.mem_map.mpr ⟨p, hp, rfl⟩))
  have hqp : q = p := List.inj_on_of_nodup_map hn (mem_of_find? hq) hp (pid_of_find? hq)
  rw [hq, hqp]

end Roster

namespace Simulation

def heldIn (s : Simulation) : Place → List Pid
  | .cpu => s.running.toList
  | .ready => s.ready.entries
  | .waiting => s.waiting.entries
  | .finished => s.finished.entries

def places (s : Simulation) : List Pid :=
  s.heldIn .cpu ++ s.heldIn .ready ++ s.heldIn .waiting ++ s.heldIn .finished

theorem mem_places {s : Simulation} {pid : Pid} : pid ∈ s.places ↔ ∃ x, pid ∈ s.heldIn x := by
  constructor
  · intro h
    simp only [places, List.mem_append] at h
    obtain ((h | h) | h) | h := h
    exacts [⟨_, h⟩, ⟨_, h⟩, ⟨_, h⟩, ⟨_, h⟩]
  · rintro ⟨x, h⟩
    cases x <;> simp [places, h]

/-- The registered pids are the pids held, each once, and each entry is where its phase says. -/
structure Placed (s : Simulation) : Prop where
  nodup : s.roster.pids.Nodup
  perm : s.places.Perm s.roster.pids
  held : ∀ p ∈ s.roster.entries, p.pid ∈ s.heldIn p.phase.place

namespace Placed

variable {s t : Simulation} {pid : Pid} {x y : Place} {p : Progress}

theorem nodup_places (h : Placed s) : s.places.Nodup :=
  h.perm.nodup_iff.mpr h.nodup

theorem nodup_heldIn (h : Placed s) (x : Place) : (s.heldIn x).Nodup := by
  have hn := h.nodup_places
  simp only [places, List.nodup_append] at hn
  cases x
  exacts [hn.1.1.1, hn.1.1.2.1, hn.1.2.1, hn.2.1]

theorem place_unique (h : Placed s) (hx : pid ∈ s.heldIn x) (hy : pid ∈ s.heldIn y) : x = y := by
  have hn := h.nodup_places
  simp only [places, List.nodup_append, List.mem_append] at hn
  cases x <;> cases y <;> grind

theorem exists_entry (h : Placed s) (hx : pid ∈ s.heldIn x) :
    ∃ p, s.roster.find? pid = some p ∧ p.phase.place = x := by
  obtain ⟨p, hp, rfl⟩ := List.mem_map.mp (h.perm.mem_iff.mp (mem_places.mpr ⟨x, hx⟩))
  exact ⟨p, Roster.find?_pid h.nodup hp, h.place_unique (h.held p hp) hx⟩

theorem mem_heldIn_iff (h : Placed s) (hp : p ∈ s.roster.entries) :
    p.pid ∈ s.heldIn x ↔ p.phase.place = x := by
  constructor
  · exact h.place_unique (h.held p hp)
  · rintro rfl
    exact h.held p hp

theorem place_of_find? (h : Placed s) (hp : s.roster.find? pid = some p) :
    pid ∈ s.heldIn x ↔ p.phase.place = x := by
  obtain rfl := Roster.pid_of_find? hp
  exact h.mem_heldIn_iff (Roster.mem_of_find? hp)

theorem mem_finished_iff (h : Placed s) (hp : s.roster.find? pid = some p) :
    pid ∈ s.finished.entries ↔ p.isFinal = true :=
  (h.place_of_find? (x := .finished) hp).trans Phase.place_eq_finished

theorem stay (h : Placed s) (g : Progress → Progress) (hg : ∀ p, (g p).pid = p.pid)
    (hr : t.roster = ⟨s.roster.entries.map g⟩) (hheld : t.heldIn = s.heldIn)
    (hphase : ∀ p ∈ s.roster.entries, (g p).phase.place = p.phase.place) : Placed t where
  nodup := by rw [hr, Roster.pids_map _ _ hg]; exact h.nodup
  perm := by
    rw [hr, Roster.pids_map _ _ hg]
    simpa only [places, hheld] using h.perm
  held := by
    intro q hq
    rw [hr] at hq
    obtain ⟨p, hp, rfl⟩ := List.mem_map.mp hq
    rw [hg, hheld, hphase p hp]
    exact h.held p hp

end Placed

/-- `t` is `s` after `pid` has gone from `x` to the end of `y`. -/
structure Transfer (s t : Simulation) (pid : Pid) (x y : Place) : Prop where
  ne : x ≠ y
  mem : pid ∈ s.heldIn x
  source : t.heldIn x = (s.heldIn x).erase pid
  target : t.heldIn y = s.heldIn y ++ [pid]
  other : ∀ z, z ≠ x → z ≠ y → t.heldIn z = s.heldIn z

theorem Transfer.count {s t : Simulation} {pid : Pid} {x y : Place} (m : Transfer s t pid x y)
    (q : Pid) (z : Place) :
    (t.heldIn z).count q + (if z = x then [pid].count q else 0) =
      (s.heldIn z).count q + (if z = y then [pid].count q else 0) := by
  by_cases hx : z = x
  · subst hx
    have hc := (List.perm_cons_erase m.mem).count_eq q
    simp only [List.count_cons] at hc
    simp only [m.source, m.ne, if_true, if_false, List.count_cons, List.count_nil]
    omega
  · by_cases hy : z = y
    · subst hy
      simp [hx, m.target, List.count_append]
    · simp [hx, hy, m.other z hx hy]

theorem Transfer.perm {s t : Simulation} {pid : Pid} {x y : Place} (m : Transfer s t pid x y) :
    t.places.Perm s.places := by
  refine List.perm_iff_count.mpr fun q => ?_
  have hcpu := m.count q .cpu
  have hready := m.count q .ready
  have hwaiting := m.count q .waiting
  have hfinished := m.count q .finished
  have hne := m.ne
  simp only [places, List.count_append]
  cases x <;> cases y <;> simp_all <;> omega

theorem Placed.transfer {s t : Simulation} {pid : Pid} {x y : Place} (h : Placed s)
    (m : Transfer s t pid x y) (f : Progress → Progress) (hf : ∀ p, (f p).pid = p.pid)
    (hr : t.roster = s.roster.update pid f)
    (hphase : ∀ p, s.roster.find? pid = some p → (f p).phase.place = y) : Placed t where
  nodup := by rw [hr, Roster.pids_update _ _ _ hf]; exact h.nodup
  perm := by rw [hr, Roster.pids_update _ _ _ hf]; exact m.perm.trans h.perm
  held := by
    intro q hq
    rw [hr] at hq
    obtain ⟨p, hp, rfl⟩ := List.mem_map.mp hq
    have hheld := h.held p hp
    by_cases he : p.pid = pid
    · subst he
      simp [hf, hphase p (Roster.find?_pid h.nodup hp), m.target]
    · simp only [he, if_false]
      by_cases hx : p.phase.place = x
      · rw [hx] at hheld ⊢
        rw [m.source]
        exact (List.mem_erase_of_ne he).mpr hheld
      · by_cases hy : p.phase.place = y
        · rw [hy] at hheld ⊢
          rw [m.target]
          exact List.mem_append_left _ hheld
        · rw [m.other _ hx hy]
          exact hheld

theorem Placed.isFinished_iff {s : Simulation} (h : Placed s) :
    s.isFinished = true ↔ ∀ p ∈ s.roster.entries, p.isFinal = true := by
  have hempty : s.isFinished = true ↔ ∀ x, x ≠ .finished → s.heldIn x = [] := by
    constructor
    · intro hf x hx
      cases x <;> simp_all [isFinished, heldIn, Queue.isEmpty]
    · intro hx
      have hcpu := hx .cpu (by decide)
      have hready := hx .ready (by decide)
      have hwaiting := hx .waiting (by decide)
      simp_all [isFinished, heldIn, Queue.isEmpty]
  rw [hempty]
  constructor
  · intro hx p hp
    rw [Progress.isFinal, ← Phase.place_eq_finished]
    by_contra hne
    have hm := h.held p hp
    rw [hx _ hne] at hm
    simp at hm
  · intro hall x hx
    refine List.eq_nil_iff_forall_not_mem.mpr fun pid hm => hx ?_
    obtain ⟨p, hp, rfl⟩ := h.exists_entry hm
    exact Phase.place_eq_finished.mpr (hall p (Roster.mem_of_find? hp))

end Simulation
end FirstCome
