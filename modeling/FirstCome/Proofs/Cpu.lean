import FirstCome.Proofs.Move
import FirstCome.Proofs.Placement

/-!
The CPU: who gets it, and where the job on it goes at the end of the tick.
-/
namespace FirstCome

namespace Simulation

variable {s t : Simulation} {pid : Pid} {x y : Place} {p : Progress}

/-- The jobs that hold or can take the CPU, in the order in which they get it. -/
def line (s : Simulation) : List Pid := s.heldIn .cpu ++ s.heldIn .ready

theorem Placed.nodup_line (h : Placed s) : s.line.Nodup := by
  have hn := h.nodup_places
  rw [places, List.append_assoc] at hn
  exact hn.of_append_left

theorem Placed.exists_of_mem_line (h : Placed s) (hm : pid ∈ s.line) :
    ∃ p, s.roster.find? pid = some p ∧ p.isFinal = false := by
  obtain hm | hm := List.mem_append.mp hm
  · obtain ⟨p, hp, hx⟩ := h.exists_entry hm
    exact ⟨p, hp, Progress.isFinal_of_line (.inl (Phase.place_eq_cpu.mp hx))⟩
  · obtain ⟨p, hp, hx⟩ := h.exists_entry hm
    exact ⟨p, hp, Progress.isFinal_of_line (.inr (Phase.place_eq_ready.mp hx))⟩

theorem fillCpu_of_free {rest : List Pid} (hr : s.running = none)
    (hq : s.ready.entries = pid :: rest) :
    s.fillCpu =
      { s with
        ready := ⟨rest⟩
        running := some pid
        roster := s.roster.update pid Progress.dispatch
        tally := { s.tally with dispatches := s.tally.dispatches + 1 } } := by
  simp [fillCpu, hr, Queue.dequeue?, hq]

theorem fillCpu_of_busy (hr : s.running = some pid) : s.fillCpu = s := by
  simp [fillCpu, hr]

theorem fillCpu_of_empty (hq : s.ready.entries = []) : s.fillCpu = s := by
  cases hr : s.running <;> simp [fillCpu, hr, Queue.dequeue?, hq]

theorem running_fillCpu (s : Simulation) : s.fillCpu.running = s.line.head? := by
  cases hr : s.running with
  | some pid => simp [fillCpu_of_busy hr, line, heldIn, hr]
  | none =>
    cases hq : s.ready.entries with
    | nil => simp [fillCpu_of_empty hq, line, heldIn, hr, hq]
    | cons pid rest => simp [fillCpu_of_free hr hq, line, heldIn, hr, hq]

theorem ready_fillCpu (s : Simulation) : s.fillCpu.ready.entries = s.line.tail := by
  cases hr : s.running with
  | some pid => simp [fillCpu_of_busy hr, line, heldIn, hr]
  | none =>
    cases hq : s.ready.entries with
    | nil => simp [fillCpu_of_empty hq, line, heldIn, hr, hq]
    | cons pid rest => simp [fillCpu_of_free hr hq, line, heldIn, hr, hq]

theorem fillCpu_eq (s : Simulation) :
    s.fillCpu =
      { s with
        roster := s.fillCpu.roster
        ready := s.fillCpu.ready
        running := s.fillCpu.running
        tally := { s.tally with dispatches := s.fillCpu.tally.dispatches } } := by
  unfold fillCpu
  split <;> rfl

namespace Placed

theorem entries_fillCpu (h : Placed s) :
    s.fillCpu.roster.entries =
      s.roster.entries.map fun p => if s.line.head? = some p.pid then p.dispatch else p := by
  -- where nothing is dispatched, the head of the line runs already or there is none
  have hid (hne : ∀ p ∈ s.roster.entries, s.line.head? = some p.pid → p.phase = .running) :
      s.roster.entries =
        s.roster.entries.map fun p => if s.line.head? = some p.pid then p.dispatch else p := by
    refine (List.map_id _).symm.trans (List.map_congr_left fun p hp => ?_)
    split
    next he =>
      have hph := hne p hp he
      simp [Progress.dispatch, ← hph]
    next => rfl
  cases hr : s.running with
  | some pid =>
    rw [fillCpu_of_busy hr]
    refine hid fun p hp he => Phase.place_eq_cpu.mp ((h.mem_heldIn_iff hp).mp ?_)
    simpa [line, heldIn, hr] using he.symm
  | none =>
    cases hq : s.ready.entries with
    | nil =>
      rw [fillCpu_of_empty hq]
      exact hid fun p _ he => by simp [line, heldIn, hr, hq] at he
    | cons pid rest =>
      rw [fillCpu_of_free hr hq]
      simp only [Roster.update, line, heldIn, hr, hq, Option.toList_none, List.nil_append,
        List.head?_cons, Option.some.injEq, eq_comm]

theorem fillCpu (h : Placed s) : Placed s.fillCpu := by
  cases hr : s.running with
  | some pid => rw [fillCpu_of_busy hr]; exact h
  | none =>
    cases hq : s.ready.entries with
    | nil => rw [fillCpu_of_empty hq]; exact h
    | cons pid rest =>
      have hmove : Transfer s s.fillCpu pid .ready .cpu :=
        { ne := by decide
          mem := by simp [heldIn, hq]
          source := by simp [fillCpu_of_free hr hq, heldIn, hq]
          target := by simp [fillCpu_of_free hr hq, heldIn, hr]
          other := fun z hz hz' => by
            rw [fillCpu_of_free hr hq]
            cases z <;> simp_all [heldIn] }
      refine h.transfer hmove Progress.dispatch (fun _ => rfl) ?_ (fun _ _ => rfl)
      rw [fillCpu_of_free hr hq]

end Placed

theorem useCpu_of_idle (hr : s.running = none) : s.useCpu = s.recordCpu := by
  have hr' : s.recordCpu.running = none := hr
  simp [useCpu, hr']

theorem useCpu_of_busy (hr : s.running = some pid) (hp : s.roster.find? pid = some p) :
    s.useCpu =
      { s.recordCpu with roster := s.roster.update pid (·.useCpu s.tick) }.leaveCpu pid
        (p.useCpu s.tick).phase := by
  have hr' : s.recordCpu.running = some pid := hr
  have hp' : s.recordCpu.roster.find? pid = some p := hp
  simp only [useCpu, hr', hp']
  rfl

theorem roster_leaveCpu (s : Simulation) (pid : Pid) (φ : Phase) :
    (s.leaveCpu pid φ).roster = s.roster := by
  cases φ <;> rfl

theorem transfer_leaveCpu (hr : s.running = some pid) {φ : Phase} {now : Nat}
    (hφ : φ = .waiting ∨ φ = .completed now) :
    Transfer s (s.leaveCpu pid φ) pid .cpu φ.place := by
  have hm : pid ∈ s.heldIn .cpu := by simp [heldIn, hr]
  obtain rfl | rfl := hφ
  all_goals
    refine ⟨by simp [Phase.place], hm, ?_, ?_, fun z hz hz' => ?_⟩
    · simp [leaveCpu, heldIn, hr]
    · simp [leaveCpu, heldIn, Phase.place]
    · cases z <;> simp_all [leaveCpu, heldIn, Phase.place]

theorem useCpu_eq (s : Simulation) :
    s.useCpu =
      { s.recordCpu with
        roster := s.useCpu.roster
        waiting := s.useCpu.waiting
        finished := s.useCpu.finished
        running := s.useCpu.running
        tally :=
          { s.recordCpu.tally with
            ioWaits := s.useCpu.tally.ioWaits
            completions := s.useCpu.tally.completions } } := by
  unfold useCpu
  dsimp only
  split
  · rfl
  · split
    · rfl
    · unfold leaveCpu
      split <;> rfl

namespace Placed

variable {s t : Simulation} {pid : Pid} {x y : Place} {p : Progress}

theorem phase_of_running (h : Placed s) (hr : s.running = some pid) :
    ∃ p, s.roster.find? pid = some p ∧ p.phase = .running := by
  have hm : pid ∈ s.heldIn .cpu := by simp [heldIn, hr]
  obtain ⟨p, hp, hx⟩ := h.exists_entry hm
  exact ⟨p, hp, Phase.place_eq_cpu.mp hx⟩

theorem entries_useCpu (h : Placed s) :
    s.useCpu.roster.entries =
      s.roster.entries.map fun p => if s.running = some p.pid then p.useCpu s.tick else p := by
  cases hr : s.running with
  | none =>
    rw [useCpu_of_idle hr]
    simp [recordCpu]
  | some pid =>
    obtain ⟨p, hp, _⟩ := h.phase_of_running hr
    rw [useCpu_of_busy hr hp, roster_leaveCpu]
    simp only [Roster.update, Option.some.injEq, eq_comm]

theorem waiting_useCpu (h : Placed s) :
    s.useCpu.waiting.entries = s.waiting.entries ∨
      ∃ p ∈ s.roster.entries, s.running = some p.pid ∧ (p.useCpu s.tick).phase = .waiting ∧
        s.useCpu.waiting.entries = s.waiting.entries ++ [p.pid] := by
  cases hr : s.running with
  | none => rw [useCpu_of_idle hr]; exact .inl rfl
  | some pid =>
    obtain ⟨p, hp, _⟩ := h.phase_of_running hr
    obtain rfl := Roster.pid_of_find? hp
    rw [useCpu_of_busy hr hp]
    cases hφ : (p.useCpu s.tick).phase with
    | waiting => exact .inr ⟨p, Roster.mem_of_find? hp, rfl, hφ, rfl⟩
    | _ => exact .inl rfl

theorem finished_useCpu (h : Placed s) :
    (s.useCpu.finished.entries = s.finished.entries ∧
      ∀ p ∈ s.roster.entries, s.running = some p.pid → (p.useCpu s.tick).isFinal = false) ∨
    ∃ p ∈ s.roster.entries, s.running = some p.pid ∧ (p.useCpu s.tick).isFinal = true ∧
      s.useCpu.finished.entries = s.finished.entries ++ [p.pid] := by
  cases hr : s.running with
  | none => rw [useCpu_of_idle hr]; exact .inl ⟨rfl, nofun⟩
  | some pid =>
    obtain ⟨p, hp, hphase⟩ := h.phase_of_running hr
    obtain rfl := Roster.pid_of_find? hp
    have hself {q : Progress} (hq : q ∈ s.roster.entries) (he : some p.pid = some q.pid) : q = p := by
      have hfq := Roster.find?_pid h.nodup hq
      rw [← Option.some.inj he, hp] at hfq
      exact (Option.some.inj hfq).symm
    rw [useCpu_of_busy hr hp]
    obtain hφ | hφ | hφ := Progress.phase_useCpu hphase s.tick
    · refine .inl ⟨by rw [hφ]; rfl, fun q hq he => ?_⟩
      rw [hself hq he, Progress.isFinal, hφ]
      rfl
    · refine .inl ⟨by rw [hφ]; rfl, fun q hq he => ?_⟩
      rw [hself hq he, Progress.isFinal, hφ]
      rfl
    · refine .inr ⟨p, Roster.mem_of_find? hp, rfl, ?_, ?_⟩
      · rw [Progress.isFinal, hφ]; rfl
      · rw [hφ]; rfl

theorem useCpu (h : Placed s) : Placed s.useCpu := by
  cases hr : s.running with
  | none =>
    rw [useCpu_of_idle hr]
    exact ⟨h.nodup, h.perm, h.held⟩
  | some pid =>
    obtain ⟨p, hp, hphase⟩ := h.phase_of_running hr
    have hroster : s.useCpu.roster = s.roster.update pid (·.useCpu s.tick) := by
      rw [useCpu_of_busy hr hp, roster_leaveCpu]
    have hpid (q : Progress) : (q.useCpu s.tick).pid = q.pid := by simp [Progress.pid]
    have hself {q : Progress} (hq : s.roster.find? pid = some q) : q = p := by simp_all
    have hb := useCpu_of_busy hr hp
    obtain hφ | hφ := Progress.phase_useCpu hphase s.tick
    · refine h.stay (fun q => if q.pid = pid then q.useCpu s.tick else q) ?_ hroster ?_ ?_
      · intro q
        split <;> simp [hpid]
      · rw [hb, hφ]
        funext z
        cases z <;> rfl
      · intro q hq
        split
        next he =>
          have hqp : q = p := hself (by rw [← he]; exact Roster.find?_pid h.nodup hq)
          rw [hqp, hφ, hphase]
        next => rfl
    · have hm := transfer_leaveCpu
        (s := { s.recordCpu with roster := s.roster.update pid (·.useCpu s.tick) }) hr hφ
      rw [← hb] at hm
      refine h.transfer ⟨hm.ne, hm.mem, hm.source, hm.target, hm.other⟩ _ hpid hroster ?_
      intro q hq
      rw [hself hq]

end Placed

end Simulation
end FirstCome
