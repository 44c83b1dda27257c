import FirstCome.Proofs.Timeline

/-!
When the CPU is idle. A tick leaves it idle only if every job that the due kills leave active waits for
its I/O; a tick whose kills leave no job active is idle, and it is the last of the run.
-/
namespace FirstCome
namespace Simulation

variable {s : Simulation} {jobs : List Job} {kills : List Kill} {pid : Pid} {p : Progress} {m n : Nat}

theorem Placed.holder_eq_none_iff (h : Placed s) :
    s.holder = none ↔ ∀ pid p, s.roster.find? pid = some p → p.isFinal = false → pid ∉ s.due →
      pid ∈ s.waiting.entries := by
  rw [holder, List.head?_eq_none_iff]
  constructor
  · intro hnone pid p hp ha hspared
    have hline : pid ∉ s.line := fun hm => by
      have hsurvives : pid ∈ s.survivors := List.mem_filter.mpr ⟨hm, decide_eq_true hspared⟩
      simp [hnone] at hsurvives
    obtain rfl := Roster.pid_of_find? hp
    rw [h.mem_line_iff (Roster.mem_of_find? hp)] at hline
    refine (h.place_of_find? (x := .waiting) hp).mpr (Phase.place_eq_waiting.mpr ?_)
    cases hφ : p.phase with
    | waiting => rfl
    | ready => exact absurd (.inr hφ) hline
    | running => exact absurd (.inl hφ) hline
    | completed t | killed t => simp [Progress.isFinal, hφ, Phase.isFinal] at ha
  · intro hall
    refine List.eq_nil_iff_forall_not_mem.mpr fun pid hm => ?_
    obtain ⟨hline, hspared⟩ := List.mem_filter.mp hm
    obtain ⟨p, hp, ha⟩ := h.exists_of_mem_line hline
    have hwaiting : pid ∈ s.heldIn .waiting := hall pid p hp ha (of_decide_eq_true hspared)
    obtain hcpu | hready := List.mem_append.mp hline
    · exact absurd (h.place_unique hcpu hwaiting) (by decide)
    · exact absurd (h.place_unique hready hwaiting) (by decide)

/-- The coming tick finds active jobs, and its kills leave none of them. -/
structure Deserted (s : Simulation) : Prop where
  unfinished : s.isFinished = false
  gone : ∀ p ∈ s.fireKills.roster.entries, p.isFinal = true

namespace Deserted

theorem mem_due (h : Deserted s) (hs : Placed s) (hp : p ∈ s.roster.entries)
    (ha : p.isFinal = false) : p.pid ∈ s.due := by
  by_contra hspared
  have hkept : p.afterKills s.due s.tick = p := by simp [Progress.afterKills, hspared]
  have hm : p ∈ s.fireKills.roster.entries := by
    rw [hs.fireKills.entries]
    exact List.mem_map.mpr ⟨p, hp, hkept⟩
  simp [h.gone p hm] at ha

theorem holder_eq_none (h : Deserted s) (hs : Placed s) : s.holder = none := by
  refine hs.holder_eq_none_iff.mpr fun pid p hp ha hspared => ?_
  obtain rfl := Roster.pid_of_find? hp
  exact absurd (h.mem_due hs (Roster.mem_of_find? hp) ha) hspared

theorem isFinished_step (h : Deserted s) (hs : Placed s) : s.step.isFinished = true := by
  refine hs.step.isFinished_iff.mpr fun q hq => ?_
  by_contra ha
  obtain ⟨p, hp, _, hm⟩ := hs.exists_of_mem_step h.unfinished hq
  obtain ⟨hactive, hspared⟩ := hm.active_of_active (by simpa using ha)
  exact of_decide_eq_false hspared (h.mem_due hs hp hactive)

end Deserted

theorem not_deserted_of_lt (hm : ((start jobs kills).steps m).Deserted) (hlt : m < n) :
    ¬((start jobs kills).steps n).Deserted := by
  intro hn
  have hend := hm.isFinished_step ((Placed.start jobs kills).steps m)
  rw [← steps_succ_last] at hend
  obtain ⟨d, rfl⟩ := Nat.exists_eq_add_of_le (Nat.succ_le_of_lt hlt)
  have hlate := hn.unfinished
  rw [steps_add, steps_of_isFinished d hend, hend] at hlate
  contradiction

/-- A tick of a run notes the CPU as idle exactly if every job that is active at its start, and at which
none of its kills is aimed, waits for its I/O. If the kills leave no job active, the tick is idle and the
last of the run, so there is at most one such tick. -/
theorem idle_only_if_all_wait (jobs : List Job) (kills : List Kill) :
    (∀ n, let s := (start jobs kills).steps n
      s.isFinished = false →
        ∃ entry, s.timeline.size = s.tick ∧ s.step.timeline = s.timeline.push entry ∧
          (entry = none ↔ ∀ pid p, s.roster.find? pid = some p → p.isFinal = false →
            (∀ e ∈ kills, e.tick = s.tick → e.pid ≠ pid) → pid ∈ s.waiting.entries)) ∧
    (∀ n, let s := (start jobs kills).steps n
      s.Deserted → s.step.timeline = s.timeline.push none ∧ (start jobs kills).finish = s.step) ∧
    ∀ m n, ((start jobs kills).steps m).Deserted → ((start jobs kills).steps n).Deserted → m = n := by
  refine ⟨fun n hf => ?_, fun n hd => ?_, fun m n hm hn => ?_⟩
  · have hs := (Placed.start jobs kills).steps n
    have hdue (pid : Pid) : pid ∉ ((start jobs kills).steps n).due ↔
        ∀ e ∈ kills, e.tick = ((start jobs kills).steps n).tick → e.pid ≠ pid := by
      rw [mem_due_iff (pending_steps (pending_start jobs kills) n)]
      simp
    refine ⟨_, size_timeline jobs kills n, hs.timeline_step hf, ?_⟩
    rw [hs.holder_eq_none_iff]
    simp only [hdue]
  · have hs := (Placed.start jobs kills).steps n
    have hend := hd.isFinished_step hs
    refine ⟨?_, ?_⟩
    · rw [hs.timeline_step hd.unfinished, hd.holder_eq_none hs]
    · rw [← steps_succ_last] at hend ⊢
      exact finish_eq_of_isFinished hend
  · obtain hlt | rfl | hlt := Nat.lt_trichotomy m n
    · exact absurd hn (not_deserted_of_lt hm hlt)
    · rfl
    · exact absurd hm (not_deserted_of_lt hn hlt)

/-- The first job waits for its I/O while the second is killed, and is then killed itself in a tick that
is the last. -/
theorem idle_only_if_all_wait_two :
    let jobs : List Job :=
      [{ pid := 1, name := "a", burst := 3, ioStart := some 1, ioDuration := 3 },
        { pid := 2, name := "b", burst := 2 }]
    let kills : List Kill := [⟨2, 1⟩, ⟨1, 3⟩, ⟨9, 1⟩]
    let s := (start jobs kills).steps 1
    let t := (start jobs kills).steps 3
    (s.isFinished = false ∧ t.Deserted) ∧
      (∃ entry, s.timeline.size = s.tick ∧ s.step.timeline = s.timeline.push entry ∧
        (entry = none ↔ ∀ pid p, s.roster.find? pid = some p → p.isFinal = false →
          (∀ e ∈ kills, e.tick = s.tick → e.pid ≠ pid) → pid ∈ s.waiting.entries)) ∧
      (t.step.timeline = t.timeline.push none ∧ (start jobs kills).finish = t.step) ∧
      ∀ n, ((start jobs kills).steps n).Deserted → n = 3 := by
  intro jobs kills s t
  obtain ⟨hidle, hlast, hunique⟩ := idle_only_if_all_wait jobs kills
  have hs : s.isFinished = false := by decide
  have ht : t.Deserted := ⟨by decide, by decide⟩
  exact ⟨⟨hs, ht⟩, hidle 1 hs, hlast 3 ht, fun n hn => hunique n 3 hn ht⟩

end Simulation
end FirstCome
