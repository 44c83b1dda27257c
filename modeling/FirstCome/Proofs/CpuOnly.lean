import FirstCome.Proofs.KillEffect

/-!
States in which no job can wait for I/O, and the line for the CPU in them, tick by tick.
-/
namespace FirstCome
namespace Simulation

variable {s : Simulation} {kills : List Kill} {pid : Pid} {pids : List Pid} {p : Progress}
  {b : Job × Nat}

/-- The jobs of some pids, each with what is left of its burst. -/
def backlogOf (s : Simulation) (pids : List Pid) : List (Job × Nat) :=
  pids.filterMap fun pid => (s.roster.find? pid).map fun p => (p.job, p.remaining)

def backlog (s : Simulation) : List (Job × Nat) := s.backlogOf s.line

theorem backlogOf_cons (hp : s.roster.find? pid = some p) (pids : List Pid) :
    s.backlogOf (pid :: pids) = (p.job, p.remaining) :: s.backlogOf pids := by
  simp [backlogOf, hp]

theorem backlogOf_congr {t : Simulation}
    (h : ∀ pid ∈ pids, s.roster.find? pid = t.roster.find? pid) :
    s.backlogOf pids = t.backlogOf pids :=
  List.filterMap_congr fun pid hpid => by rw [h pid hpid]

theorem filter_backlogOf (s : Simulation) (pids targets : List Pid) :
    (s.backlogOf pids).filter (·.1.pid ∉ targets) = s.backlogOf (pids.filter (· ∉ targets)) := by
  induction pids with
  | nil => rfl
  | cons pid pids ih =>
    cases hp : s.roster.find? pid with
    | none =>
      have hskip : s.backlogOf (pid :: pids) = s.backlogOf pids := by simp [backlogOf, hp]
      rw [hskip, ih]
      by_cases hd : pid ∈ targets
      · rw [List.filter_cons_of_neg (by simpa using hd)]
      · rw [List.filter_cons_of_pos (by simpa using hd)]
        simp [backlogOf, hp]
    | some p =>
      have hpid : p.job.pid = pid := Roster.pid_of_find? hp
      rw [backlogOf_cons hp]
      by_cases hd : pid ∈ targets
      · rw [List.filter_cons_of_neg (by simpa [hpid] using hd),
          List.filter_cons_of_neg (by simpa using hd), ih]
      · rw [List.filter_cons_of_pos (by simpa [hpid] using hd),
          List.filter_cons_of_pos (by simpa using hd), backlogOf_cons hp, ih]

theorem mem_backlogOf (hb : b ∈ s.backlogOf pids) :
    ∃ p, b.1.pid ∈ pids ∧ s.roster.find? b.1.pid = some p ∧ p.job = b.1 := by
  obtain ⟨pid, hpid, hb⟩ := List.mem_filterMap.mp hb
  obtain ⟨p, hp, rfl⟩ := Option.map_eq_some_iff.mp hb
  obtain rfl := Roster.pid_of_find? hp
  exact ⟨p, hpid, hp, rfl⟩

/-- A state of a run with these kills in which no job can leave the CPU before its end. -/
structure CpuOnly (kills : List Kill) (s : Simulation) : Prop where
  sound : Sound s
  pending : s.kills.pending = kills.filter (s.tick ≤ ·.tick)
  bursts : ∀ p ∈ s.roster.entries, 0 < p.job.burst ∧ p.job.blocks = false
  awake : ∀ p ∈ s.roster.entries, p.phase ≠ .waiting
  spared : ∀ p ∈ s.roster.entries, p.isFinal = false →
    ∀ e ∈ kills, e.pid = p.pid → s.tick ≤ e.tick

namespace CpuOnly

theorem start {w : Workload} (hw : w.check = .ok ()) (hb : ∀ j ∈ w.jobs, j.blocks = false) :
    CpuOnly w.kills (start w.jobs w.kills) where
  sound := Sound.start w.jobs w.kills
  pending := pending_start w.jobs w.kills
  bursts := by
    rw [Workload.start_of_check hw]
    intro p hp
    obtain ⟨j, hj, rfl⟩ := List.mem_map.mp hp
    exact ⟨Workload.burst_of_check hw j hj, hb j hj⟩
  awake := by
    rw [start_eq]
    intro p hp
    obtain ⟨j, _, rfl⟩ := List.mem_map.mp hp
    exact nofun
  spared := by
    rw [tick_start]
    exact fun _ _ _ e _ _ => Nat.zero_le e.tick

theorem step (h : CpuOnly kills s) : CpuOnly kills s.step := by
  cases hf : s.isFinished with
  | true => rw [step_of_isFinished hf]; exact h
  | false =>
    have hplaced := h.sound.placed
    refine ⟨h.sound.step, pending_step h.pending, ?_, ?_, ?_⟩
    · intro q hq
      obtain ⟨p, hp, hjob, _⟩ := hplaced.exists_of_mem_step hf hq
      rw [hjob]
      exact h.bursts p hp
    · intro q hq
      obtain ⟨p, hp, _, hm⟩ := hplaced.exists_of_mem_step hf hq
      exact hm.phase_ne_waiting (h.bursts p hp).2 (h.awake p hp)
    · intro q hq ha e he hpid
      obtain ⟨p, hp, hjob, hm⟩ := hplaced.exists_of_mem_step hf hq
      obtain ⟨hactive, hd⟩ := hm.active_of_active ha
      have hpid : e.pid = p.pid := hpid.trans (congrArg Job.pid hjob)
      have hle := h.spared p hp hactive e he hpid
      have hne : e.tick ≠ s.tick := fun ht =>
        of_decide_eq_false hd ((mem_due_iff h.pending).mpr ⟨e, he, ht, hpid⟩)
      rw [tick_step hf]
      omega

theorem steps (h : CpuOnly kills s) (n : Nat) : CpuOnly kills (s.steps n) := by
  induction n generalizing s with
  | zero => exact h
  | succ n ih => rw [steps_succ]; exact ih h.step

theorem first?_of_mem_due (h : CpuOnly kills s) (hp : s.roster.find? pid = some p)
    (ha : p.isFinal = false) (hd : pid ∈ s.due) : Kill.first? kills pid = some s.tick := by
  obtain ⟨e, he, ht, hpid⟩ := (mem_due_iff h.pending).mp hd
  refine Kill.first?_eq_some_iff.mpr ⟨⟨e, he, hpid, ht⟩, fun e' he' hpid' => ?_⟩
  exact h.spared p (Roster.mem_of_find? hp) ha e' he' (hpid'.trans (Roster.pid_of_find? hp).symm)

theorem lt_first?_of_not_mem_due (h : CpuOnly kills s) (hp : s.roster.find? pid = some p)
    (ha : p.isFinal = false) (hd : pid ∉ s.due) (k : Nat) (hk : Kill.first? kills pid = some k) :
    s.tick < k := by
  obtain ⟨e, he, hpid, rfl⟩ := (Kill.first?_eq_some_iff.mp hk).1
  have hle := h.spared p (Roster.mem_of_find? hp) ha e he (hpid.trans (Roster.pid_of_find? hp).symm)
  have hne : e.tick ≠ s.tick := fun ht => hd ((mem_due_iff h.pending).mpr ⟨e, he, ht, hpid⟩)
  omega

theorem waiting_eq_nil (h : CpuOnly kills s) : s.waiting.entries = [] := by
  refine List.eq_nil_iff_forall_not_mem.mpr fun pid hm => ?_
  obtain ⟨p, hp, hx⟩ := h.sound.placed.exists_entry (x := .waiting) hm
  exact h.awake p (Roster.mem_of_find? hp) (Phase.place_eq_waiting.mp hx)

theorem isFinished_iff (h : CpuOnly kills s) : s.isFinished = true ↔ s.line = [] := by
  cases hr : s.running <;> simp [isFinished, Queue.isEmpty, line, heldIn, h.waiting_eq_nil, hr]

theorem line_step (h : CpuOnly kills s) (hf : s.isFinished = false) :
    s.step.line = s.step.heldIn .cpu ++ s.survivors.tail := by
  have hready : s.step.heldIn .ready = s.survivors.tail := by
    have hr := h.sound.placed.ready_step hf
    rw [woken, h.waiting_eq_nil] at hr
    simpa [heldIn] using hr
  rw [line, hready]

theorem find?_step_of_queued (h : CpuOnly kills s) (hf : s.isFinished = false)
    (hd : pid ∉ s.due) (hh : s.holder ≠ some pid) :
    s.step.roster.find? pid = s.roster.find? pid := by
  cases hp : s.roster.find? pid with
  | none =>
    have hno : pid ∉ s.roster.pids := by
      rw [← Roster.isSome_find?_iff, hp]
      simp
    rw [← pids_step h.sound.placed, ← Roster.isSome_find?_iff] at hno
    simpa using hno
  | some p =>
    obtain ⟨q, hq, hm⟩ := h.sound.placed.exists_move hf hp
    rw [hq]
    cases hm with
    | rest | queue => rfl
    | kill _ hd' => simp [hd] at hd'
    | complete _ _ hc | block _ _ hc | run _ _ hc => simp [hh] at hc
    | wake hw | drain hw => exact absurd hw (h.awake p (Roster.mem_of_find? hp))

theorem find?_step_of_holder (h : CpuOnly kills s) (hf : s.isFinished = false)
    (hp : s.roster.find? pid = some p) (hh : s.holder = some pid) :
    (p.remaining = 1 ∧ s.step.roster.find? pid =
        some { p with executed := p.executed + 1, phase := .completed (s.tick + 1) }) ∨
      (1 < p.remaining ∧ s.step.roster.find? pid =
        some { p with executed := p.executed + 1, phase := .running }) := by
  have hmem := Roster.mem_of_find? hp
  obtain ⟨hburst, hblocks⟩ := h.bursts p hmem
  have hholder : s.holder = some p.pid := by rw [hh, Roster.pid_of_find? hp]
  obtain ⟨hline, hdue⟩ := h.sound.placed.phase_of_holder hmem hholder
  rw [Roster.pid_of_find? hp] at hdue
  have hlt := ((h.sound.consistent p hmem).line hline).1
  obtain ⟨q, hq, hm⟩ := h.sound.placed.exists_move hf hp
  rw [hq]
  unfold Progress.remaining
  cases hm with
  | rest hfin => simp [Progress.isFinal_of_line hline] at hfin
  | kill _ hd => simp [hdue] at hd
  | complete _ _ _ hb => exact .inl ⟨by omega, rfl⟩
  | block _ _ _ hb hio => simp [Progress.blocks_of_useCpu hb hio] at hblocks
  | run _ _ _ hb => exact .inr ⟨by omega, rfl⟩
  | queue _ _ hc | wake _ _ hc | drain _ _ hc => simp [hh] at hc

theorem line_step_of_nil (h : CpuOnly kills s) (hf : s.isFinished = false)
    (hs : s.survivors = []) : s.step.line = [] := by
  have hholder : s.holder = none := by rw [holder, hs]; rfl
  have hcpu : s.step.heldIn .cpu = [] := by
    obtain hr | hr := h.sound.placed.running_step hf <;> simp [heldIn, hr, hholder]
  rw [h.line_step hf, hcpu, hs]
  rfl

theorem line_step_of_cons (h : CpuOnly kills s) (hf : s.isFinished = false)
    (hs : s.survivors = pid :: pids) :
    ∃ p, s.roster.find? pid = some p ∧ p.isFinal = false ∧
      ((p.remaining = 1 ∧ s.step.line = pids ∧ s.step.roster.find? pid =
          some { p with executed := p.executed + 1, phase := .completed (s.tick + 1) }) ∨
        (1 < p.remaining ∧ s.step.line = pid :: pids ∧ s.step.roster.find? pid =
          some { p with executed := p.executed + 1, phase := .running })) := by
  have hplaced := h.sound.placed
  have hholder : s.holder = some pid := by rw [holder, hs]; rfl
  have hline : pid ∈ s.line := List.mem_of_mem_filter (hs ▸ List.mem_cons_self)
  obtain ⟨p, hp, ha⟩ := hplaced.exists_of_mem_line hline
  refine ⟨p, hp, ha, ?_⟩
  obtain ⟨hr, hq⟩ | ⟨hr, hq⟩ := h.find?_step_of_holder hf hp hholder
  · have hcpu := hplaced.heldIn_cpu_step hf hholder hq
    refine .inl ⟨hr, ?_, hq⟩
    rw [h.line_step hf, hcpu, hs]
    rfl
  · have hcpu := hplaced.heldIn_cpu_step hf hholder hq
    refine .inr ⟨hr, ?_, hq⟩
    rw [h.line_step hf, hcpu, hs]
    rfl

theorem backlogOf_step (h : CpuOnly kills s) (hf : s.isFinished = false)
    (hs : s.survivors = pid :: pids) : s.step.backlogOf pids = s.backlogOf pids := by
  refine backlogOf_congr fun q hq => h.find?_step_of_queued hf ?_ ?_
  · have hm : q ∈ s.survivors := hs ▸ List.mem_cons_of_mem _ hq
    simpa using (List.mem_filter.mp hm).2
  · have hn : (pid :: pids).Nodup := hs ▸ h.sound.placed.nodup_line.filter _
    rw [holder, hs, List.head?_cons, ne_eq, Option.some.injEq]
    exact (ne_of_mem_of_not_mem hq (List.nodup_cons.mp hn).1).symm

end CpuOnly
end Simulation
end FirstCome
