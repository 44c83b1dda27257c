import FirstCome.Proofs.Start

/-!
The tick with every assumption of its parts checked. In a state that a run reaches no check fails, so
the checked tick is the tick.
-/
namespace FirstCome

inductive Breach where
  /-- A pid without an entry. -/
  | unknown (pid : Pid)
  /-- A live job that has no CPU and is in no queue. -/
  | unplaced (pid : Pid)
  /-- An entry whose phase does not admit what is done to it. -/
  | outOfPhase (pid : Pid) (phase : Phase)
deriving DecidableEq

namespace Simulation

/-- There is an entry for `pid`, in a phase that passes the test. -/
def demand (s : Simulation) (pid : Pid) (test : Phase → Bool) : Except Breach Unit :=
  match s.roster.find? pid with
  | none => .error (.unknown pid)
  | some p => if test p.phase then .ok () else .error (.outOfPhase pid p.phase)

def checkedStrike (s : Simulation) (pid : Pid) : Except Breach Simulation := do
  if s.isLive pid then
    if s.running ≠ some pid ∧ pid ∉ s.ready.entries ∧ pid ∉ s.waiting.entries then
      throw (.unplaced pid)
    s.demand pid fun φ => !φ.isFinal
  return s.strike pid

def checkedFireKills (s : Simulation) : Except Breach Simulation :=
  let (targets, kills) := s.kills.fire s.tick
  targets.foldlM checkedStrike { s with kills }

def checkedFillCpu (s : Simulation) : Except Breach Simulation := do
  match s.running, s.ready.front? with
  | none, some pid => s.demand pid fun φ => φ = .ready
  | _, _ => pure ()
  return s.fillCpu

def checkedUseCpu (s : Simulation) : Except Breach Simulation := do
  match s.running with
  | some pid => s.demand pid fun φ => φ = .running
  | none => pure ()
  return s.useCpu

def checkedDrainIo (s : Simulation) (cohort : List Pid) : Except Breach Simulation :=
  cohort.foldlM (fun s pid => do
    s.demand pid fun φ => φ = .waiting
    return s.drainIo [pid]) s

def checkedWake (s : Simulation) (pid : Pid) : Except Breach Simulation := do
  s.demand pid fun φ => φ = .waiting
  return s.wake pid

def checkedWakeDrained (s : Simulation) : Except Breach Simulation := do
  forM s.waiting.entries fun pid => s.demand pid fun _ => true
  s.drained.foldlM checkedWake s

def checkedStep (s : Simulation) : Except Breach Simulation :=
  if s.isFinished then return s
  else do
    let s ← s.checkedFireKills
    let s ← s.checkedFillCpu
    let t ← s.checkedUseCpu
    let t ← t.checkedDrainIo s.waiting.entries
    let t ← t.checkedWakeDrained
    return t.advanceClock

namespace Placed

variable {s : Simulation} {pid : Pid} {x : Place}

theorem demand_eq (h : Placed s) (hm : pid ∈ s.heldIn x) {test : Phase → Bool}
    (ht : ∀ φ : Phase, φ.place = x → test φ = true) : s.demand pid test = .ok () := by
  obtain ⟨p, hp, hx⟩ := h.exists_entry hm
  simp [demand, hp, ht p.phase hx]

theorem checkedStrike_eq (h : Placed s) (pid : Pid) : s.checkedStrike pid = .ok (s.strike pid) := by
  unfold checkedStrike
  cases hl : s.isLive pid with
  | false => rfl
  | true =>
    obtain ⟨x, hx, hm⟩ := h.isLive_iff.mp hl
    have hplace : ¬(s.running ≠ some pid ∧ pid ∉ s.ready.entries ∧ pid ∉ s.waiting.entries) := by
      rintro ⟨hcpu, hready, hwaiting⟩
      cases x with
      | cpu => exact hcpu (by simpa [heldIn] using hm)
      | ready => exact hready hm
      | waiting => exact hwaiting hm
      | finished => exact hx rfl
    have hd : s.demand pid (fun φ => !φ.isFinal) = .ok () := h.demand_eq hm fun φ hφ => by
      rw [← hφ, ne_eq, Phase.place_eq_finished] at hx
      simpa using hx
    rw [if_pos rfl, if_neg hplace, hd]
    rfl

theorem foldlM_checkedStrike (h : Placed s) (targets : List Pid) :
    targets.foldlM checkedStrike s = .ok (targets.foldl Simulation.strike s) := by
  induction targets generalizing s with
  | nil => rfl
  | cons pid targets ih =>
    rw [List.foldlM_cons, h.checkedStrike_eq pid]
    exact ih (h.strike pid)

theorem checkedFireKills_eq (h : Placed s) : s.checkedFireKills = .ok s.fireKills := by
  have hk : Placed { s with kills := (s.kills.fire s.tick).2 } := ⟨h.nodup, h.perm, h.held⟩
  exact hk.foldlM_checkedStrike s.due

theorem checkedFillCpu_eq (h : Placed s) : s.checkedFillCpu = .ok s.fillCpu := by
  unfold checkedFillCpu
  split
  next pid hr hq =>
    have hm : pid ∈ s.heldIn .ready := List.mem_of_head? hq
    rw [h.demand_eq hm fun φ hφ => by simpa using Phase.place_eq_ready.mp hφ]
    rfl
  next => rfl

theorem checkedUseCpu_eq (h : Placed s) : s.checkedUseCpu = .ok s.useCpu := by
  unfold checkedUseCpu
  split
  next pid hr =>
    have hm : pid ∈ s.heldIn .cpu := by simp [heldIn, hr]
    rw [h.demand_eq hm fun φ hφ => by simpa using Phase.place_eq_cpu.mp hφ]
    rfl
  next => rfl

theorem checkedDrainIo_eq (h : Placed s) {cohort : List Pid}
    (hw : ∀ pid ∈ cohort, pid ∈ s.heldIn .waiting) :
    s.checkedDrainIo cohort = .ok (s.drainIo cohort) := by
  unfold checkedDrainIo
  induction cohort generalizing s with
  | nil => rfl
  | cons pid cohort ih =>
    have hd : s.demand pid (fun φ => φ = .waiting) = .ok () :=
      h.demand_eq (hw pid List.mem_cons_self) fun φ hφ => by simpa using Phase.place_eq_waiting.mp hφ
    rw [List.foldlM_cons, hd]
    exact ih (h.drainIo (List.nodup_singleton pid)) fun q hq => hw q (List.mem_cons_of_mem _ hq)

theorem foldlM_checkedWake (h : Placed s) {pids : List Pid} (hn : pids.Nodup)
    (hw : ∀ pid ∈ pids, pid ∈ s.heldIn .waiting) :
    pids.foldlM checkedWake s = .ok (pids.foldl Simulation.wake s) := by
  induction pids generalizing s with
  | nil => rfl
  | cons pid pids ih =>
    have hd : s.demand pid (fun φ => φ = .waiting) = .ok () :=
      h.demand_eq (hw pid List.mem_cons_self) fun φ hφ => by simpa using Phase.place_eq_waiting.mp hφ
    rw [List.foldlM_cons, checkedWake, hd]
    exact ih (h.wake (hw pid List.mem_cons_self)) (List.nodup_cons.mp hn).2 (mem_wake hn hw)

theorem checkedWakeDrained_eq (h : Placed s) : s.checkedWakeDrained = .ok s.wakeDrained := by
  have hlook (pids : List Pid) (hw : ∀ pid ∈ pids, pid ∈ s.heldIn .waiting) :
      (forM pids fun pid => s.demand pid fun _ => true) = .ok () := by
    induction pids with
    | nil => rfl
    | cons pid pids ih =>
      rw [List.forM_cons, h.demand_eq (hw pid List.mem_cons_self) fun _ _ => rfl]
      exact ih fun q hq => hw q (List.mem_cons_of_mem _ hq)
  rw [checkedWakeDrained, hlook s.waiting.entries fun _ hpid => hpid]
  exact h.foldlM_checkedWake ((h.nodup_heldIn .waiting).filter _) fun _ hpid =>
    List.mem_of_mem_filter hpid

theorem checkedStep_eq (h : Placed s) : s.checkedStep = .ok s.step := by
  unfold checkedStep
  cases hf : s.isFinished with
  | true => rw [step_of_isFinished hf]; rfl
  | false =>
    have hfire := h.fireKills.placed.checkedFillCpu_eq
    have huse := h.atCpu.checkedUseCpu_eq
    have hcohort : ∀ pid ∈ s.atCpu.waiting.entries, pid ∈ s.atCpu.useCpu.heldIn .waiting := by
      intro pid hpid
      obtain hw | ⟨_, _, _, _, hw⟩ := h.atCpu.waiting_useCpu
      · rw [heldIn, hw]; exact hpid
      · rw [heldIn, hw]; exact List.mem_append_left _ hpid
    have hdrain := h.atCpu.useCpu.checkedDrainIo_eq hcohort
    have hwake := h.afterIo.checkedWakeDrained_eq
    rw [if_neg (by decide), h.checkedFireKills_eq, step_eq hf]
    change (do
      let s ← s.fireKills.checkedFillCpu
      let t ← s.checkedUseCpu
      let t ← t.checkedDrainIo s.waiting.entries
      let t ← t.checkedWakeDrained
      return t.advanceClock) = _
    rw [hfire]
    change (do
      let t ← s.atCpu.checkedUseCpu
      let t ← t.checkedDrainIo s.atCpu.waiting.entries
      let t ← t.checkedWakeDrained
      return t.advanceClock) = _
    rw [huse]
    change (do
      let t ← s.atCpu.useCpu.checkedDrainIo s.atCpu.waiting.entries
      let t ← t.checkedWakeDrained
      return t.advanceClock) = _
    rw [hdrain]
    change (do
      let t ← s.afterIo.checkedWakeDrained
      return t.advanceClock) = _
    rw [hwake]
    rfl

end Placed

theorem pids_start (jobs : List Job) (kills : List Kill) :
    (start jobs kills).roster.pids = (registered [] jobs).map (·.pid) := by
  rw [start_eq, pids_fresh]

/-- In every state of a run each registered pid is held exactly once and no other pid is held, each
entry is in the place its phase names and in no other, and no assumption of the next tick fails. -/
theorem steps_placed_and_checked (jobs : List Job) (kills : List Kill) (n : Nat) :
    let s := steps n (start jobs kills)
    (∀ pid, s.places.count pid = if pid ∈ jobs.map (·.pid) then 1 else 0) ∧
      (∀ pid, (s.roster.find? pid).isSome = decide (pid ∈ jobs.map (·.pid))) ∧
      (∀ p ∈ s.roster.entries, s.roster.find? p.pid = some p ∧
        ∀ x, p.pid ∈ s.heldIn x ↔ p.phase.place = x) ∧
      s.checkedStep = .ok s.step := by
  intro s
  have hs : Placed s := (Placed.start jobs kills).steps n
  have hmem (pid : Pid) : pid ∈ s.roster.pids ↔ pid ∈ jobs.map (·.pid) := by
    rw [pids_steps (Placed.start jobs kills), pids_start, mem_registered_iff]
    simp
  refine ⟨fun pid => ?_, fun pid => ?_, fun p hp => ?_, hs.checkedStep_eq⟩
  · rw [hs.perm.count_eq, hs.nodup.count]
    simp only [hmem]
  · rw [Bool.eq_iff_iff, Roster.isSome_find?_iff, hmem, decide_eq_true_eq]
  · exact ⟨Roster.find?_pid hs.nodup hp, fun x => hs.mem_heldIn_iff hp⟩

/-- A repeated pid, pid 0 and an empty burst: after two ticks pid 1 waits, and only waits. -/
theorem steps_placed_and_checked_waiting :
    let s := steps 2 (start
      [{ pid := 1, name := "a", burst := 3, ioStart := some 1, ioDuration := 4 },
        { pid := 0, name := "", burst := 0 }, { pid := 1, name := "b", burst := 9 }]
      [⟨7, 0⟩, ⟨0, 1⟩, ⟨0, 1⟩])
    (s.places.count 1 = 1 ∧ s.places.count 0 = 1 ∧ s.places.count 7 = 0) ∧
      (∃ p ∈ s.roster.entries, p.phase = .waiting ∧
        ∀ x, p.pid ∈ s.heldIn x ↔ p.phase.place = x) ∧
      s.checkedStep = .ok s.step := by
  intro s
  obtain ⟨hcount, _, hplace, hcheck⟩ := steps_placed_and_checked
    [{ pid := 1, name := "a", burst := 3, ioStart := some 1, ioDuration := 4 },
      { pid := 0, name := "", burst := 0 }, { pid := 1, name := "b", burst := 9 }]
    [⟨7, 0⟩, ⟨0, 1⟩, ⟨0, 1⟩] 2
  refine ⟨⟨hcount 1, hcount 0, hcount 7⟩, ?_, hcheck⟩
  have hp : ∃ p ∈ s.roster.entries, p.phase = .waiting := by decide
  obtain ⟨p, hp, hw⟩ := hp
  exact ⟨p, hp, hw, (hplace p hp).2⟩

end Simulation
end FirstCome
