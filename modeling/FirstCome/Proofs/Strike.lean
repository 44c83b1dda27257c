import FirstCome.Proofs.Placement

/-!
Kills, one and many: their targets leave the CPU and the queues for the finished queue.
-/
namespace FirstCome

theorem filter_erase {l : List Pid} (hn : l.Nodup) (pid : Pid) (pids : List Pid) :
    (l.erase pid).filter (· ∉ pids) = l.filter (· ∉ pid :: pids) := by
  rw [hn.erase_eq_filter, List.filter_filter]
  refine List.filter_congr fun q _ => ?_
  by_cases h : q = pid <;> simp [h]

namespace Progress

def afterKills (p : Progress) (targets : List Pid) (now : Nat) : Progress :=
  if p.pid ∈ targets ∧ p.isFinal = false then p.kill now else p

theorem pid_afterKills (p : Progress) (targets : List Pid) (now : Nat) :
    (p.afterKills targets now).pid = p.pid := by
  unfold afterKills
  split <;> rfl

theorem afterKills_afterKills (p : Progress) (pid : Pid) (targets : List Pid) (now : Nat) :
    (p.afterKills [pid] now).afterKills targets now = p.afterKills (pid :: targets) now := by
  cases hf : p.isFinal with
  | true => simp [afterKills, hf]
  | false =>
    by_cases he : p.pid = pid
    · have hk : (p.kill now).isFinal = true := rfl
      simp [afterKills, hf, he, hk]
    · simp [afterKills, hf, he]

end Progress

namespace Simulation

variable {s t : Simulation} {pid : Pid} {x y : Place} {p : Progress}

/-! ### Kills -/

def isLive (s : Simulation) (pid : Pid) : Bool := (s.roster.find? pid).any fun p => !p.isFinal

theorem strike_of_not_isLive {s : Simulation} {pid : Pid} (h : s.isLive pid = false) :
    s.strike pid = { s with tally := { s.tally with killsIgnored := s.tally.killsIgnored + 1 } } := by
  unfold strike
  unfold isLive at h
  cases hp : s.roster.find? pid with
  | none => simp
  | some p => simp_all

theorem strike_of_isLive {s : Simulation} {pid : Pid} (h : s.isLive pid = true) :
    s.strike pid =
      { s.withdraw pid with
        roster := (s.withdraw pid).roster.update pid (·.kill (s.withdraw pid).tick)
        finished := (s.withdraw pid).finished.enqueue pid
        tally :=
          { (s.withdraw pid).tally with killsApplied := (s.withdraw pid).tally.killsApplied + 1 } } := by
  unfold strike
  unfold isLive at h
  cases hp : s.roster.find? pid with
  | none => simp [hp] at h
  | some p => simp_all

theorem withdraw_eq (s : Simulation) (pid : Pid) :
    s.withdraw pid =
      { s with
        running := (s.withdraw pid).running
        ready := (s.withdraw pid).ready
        waiting := (s.withdraw pid).waiting } := by
  unfold withdraw
  split
  · rfl
  · split <;> rfl

namespace Placed

theorem isLive_iff (h : Placed s) :
    s.isLive pid = true ↔ ∃ x, x ≠ .finished ∧ pid ∈ s.heldIn x := by
  constructor
  · intro hl
    cases hp : s.roster.find? pid with
    | none => simp [isLive, hp] at hl
    | some p =>
      refine ⟨p.phase.place, ?_, (h.place_of_find? hp).mpr rfl⟩
      rw [ne_eq, Phase.place_eq_finished]
      simpa [isLive, hp, Progress.isFinal] using hl
  · rintro ⟨x, hx, hm⟩
    obtain ⟨p, hp, rfl⟩ := h.exists_entry hm
    rw [ne_eq, Phase.place_eq_finished] at hx
    simpa [isLive, hp, Progress.isFinal] using hx

theorem heldIn_withdraw (h : Placed s) (pid : Pid) (hx : x ≠ .finished) :
    (s.withdraw pid).heldIn x = (s.heldIn x).erase pid := by
  have hself {y z : Place} (hy : pid ∈ s.heldIn y) (hyz : y ≠ z) :
      s.heldIn z = (s.heldIn z).erase pid :=
    (List.erase_of_not_mem fun hz => hyz (h.place_unique hy hz)).symm
  -- one case for each place where the search can end; in it the other places do not hold `pid`
  by_cases hr : s.running = some pid
  · have hc : pid ∈ s.heldIn .cpu := by simp [heldIn, hr]
    have hw : s.withdraw pid = { s with running := none } := by simp [withdraw, hr]
    rw [hw]
    cases x with
    | cpu => simp [heldIn, hr]
    | ready => exact hself (z := .ready) hc (by decide)
    | waiting => exact hself (z := .waiting) hc (by decide)
    | finished => exact absurd rfl hx
  · have hcpu : s.heldIn .cpu = (s.heldIn .cpu).erase pid :=
      (List.erase_of_not_mem (by simpa [heldIn, eq_comm] using hr)).symm
    by_cases hq : pid ∈ s.ready.entries
    · have hw : s.withdraw pid = { s with ready := ⟨s.ready.entries.erase pid⟩ } := by
        simp [withdraw, hr, Queue.remove?, hq]
      rw [hw]
      cases x with
      | cpu => exact hcpu
      | ready => rfl
      | waiting => exact hself (y := .ready) (z := .waiting) hq (by decide)
      | finished => exact absurd rfl hx
    · have hw : s.withdraw pid = { s with waiting := (s.waiting.remove? pid).getD s.waiting } := by
        simp [withdraw, hr, Queue.remove?_eq_none_iff.mpr hq]
      rw [hw]
      cases x with
      | cpu => exact hcpu
      | ready => exact (List.erase_of_not_mem hq).symm
      | waiting => exact Queue.entries_remove?_getD s.waiting pid
      | finished => exact absurd rfl hx

theorem heldIn_strike (h : Placed s) (pid : Pid) (hx : x ≠ .finished) :
    (s.strike pid).heldIn x = (s.heldIn x).erase pid := by
  cases hl : s.isLive pid with
  | true =>
    rw [← h.heldIn_withdraw pid hx, strike_of_isLive hl]
    cases x with
    | finished => exact absurd rfl hx
    | _ => rfl
  | false =>
    have hm : pid ∉ s.heldIn x := fun hm => by
      rw [h.isLive_iff.mpr ⟨x, hx, hm⟩] at hl
      contradiction
    rw [List.erase_of_not_mem hm, strike_of_not_isLive hl]
    cases x <;> rfl

theorem finished_strike (s : Simulation) (pid : Pid) :
    (s.strike pid).heldIn .finished =
      if s.isLive pid then s.heldIn .finished ++ [pid] else s.heldIn .finished := by
  cases hl : s.isLive pid with
  | true =>
    rw [strike_of_isLive hl, withdraw_eq]
    simp [heldIn]
  | false =>
    rw [strike_of_not_isLive hl]
    simp [heldIn]

theorem entries_strike (h : Placed s) (pid : Pid) :
    (s.strike pid).roster.entries =
      s.roster.entries.map (·.afterKills [pid] s.tick) := by
  cases hl : s.isLive pid with
  | true =>
    rw [strike_of_isLive hl, withdraw_eq]
    refine List.map_congr_left fun p hp => ?_
    by_cases he : p.pid = pid
    · subst he
      simp only [isLive, Roster.find?_pid h.nodup hp] at hl
      simp_all [Progress.afterKills]
    · simp [Progress.afterKills, he]
  | false =>
    rw [strike_of_not_isLive hl]
    refine (List.map_id _).symm.trans (List.map_congr_left fun p hp => ?_)
    by_cases he : p.pid = pid
    · subst he
      simp only [isLive, Roster.find?_pid h.nodup hp] at hl
      simp_all [Progress.afterKills]
    · simp [Progress.afterKills, he]

theorem strike (h : Placed s) (pid : Pid) : Placed (s.strike pid) := by
  cases hl : s.isLive pid with
  | false =>
    rw [strike_of_not_isLive hl]
    exact ⟨h.nodup, h.perm, h.held⟩
  | true =>
    obtain ⟨x, hx, hm⟩ := h.isLive_iff.mp hl
    have hmove : Transfer s (s.strike pid) pid x .finished :=
      { ne := hx
        mem := hm
        source := h.heldIn_strike pid hx
        target := by simp [finished_strike, hl]
        other := fun z hzx hz => by
          rw [h.heldIn_strike pid hz]
          exact List.erase_of_not_mem fun hmz => hzx (h.place_unique hmz hm) }
    refine h.transfer hmove (·.kill s.tick) (fun _ => rfl) ?_ (fun _ _ => rfl)
    rw [strike_of_isLive hl, withdraw_eq]

end Placed

theorem strike_eq (s : Simulation) (pid : Pid) :
    s.strike pid =
      { s with
        roster := (s.strike pid).roster
        ready := (s.strike pid).ready
        waiting := (s.strike pid).waiting
        finished := (s.strike pid).finished
        running := (s.strike pid).running
        tally :=
          { s.tally with
            killsApplied := (s.strike pid).tally.killsApplied
            killsIgnored := (s.strike pid).tally.killsIgnored } } := by
  cases hl : s.isLive pid with
  | true => rw [strike_of_isLive hl, withdraw_eq]
  | false => rw [strike_of_not_isLive hl]

theorem foldl_strike_eq (s : Simulation) (targets : List Pid) :
    targets.foldl strike s =
      { s with
        roster := (targets.foldl strike s).roster
        ready := (targets.foldl strike s).ready
        waiting := (targets.foldl strike s).waiting
        finished := (targets.foldl strike s).finished
        running := (targets.foldl strike s).running
        tally :=
          { s.tally with
            killsApplied := (targets.foldl strike s).tally.killsApplied
            killsIgnored := (targets.foldl strike s).tally.killsIgnored } } := by
  induction targets generalizing s with
  | nil => rfl
  | cons pid targets ih =>
    rw [List.foldl_cons, ih (s.strike pid), strike_eq s pid]

/-- `t` is `s` after one kill at each of the targets, dead or alive. -/
structure Struck (s t : Simulation) (targets : List Pid) : Prop where
  placed : Placed t
  entries : t.roster.entries = s.roster.entries.map (·.afterKills targets s.tick)
  held : ∀ x, x ≠ .finished → t.heldIn x = (s.heldIn x).filter (· ∉ targets)

theorem Placed.foldl_strike (h : Placed s) (targets : List Pid) :
    Struck s (targets.foldl Simulation.strike s) targets := by
  induction targets generalizing s with
  | nil =>
    refine ⟨h, ?_, ?_⟩
    · simp [Progress.afterKills]
    · simp
  | cons pid targets ih =>
    have hs := ih (h.strike pid)
    refine ⟨hs.placed, ?_, ?_⟩
    · have htick : (s.strike pid).tick = s.tick := by rw [strike_eq]
      rw [List.foldl_cons, hs.entries, h.entries_strike pid, List.map_map, htick]
      refine List.map_congr_left fun p _ => ?_
      rw [Function.comp_apply, Progress.afterKills_afterKills]
    · intro x hx
      rw [List.foldl_cons, hs.held x hx, h.heldIn_strike pid hx]
      exact filter_erase (h.nodup_heldIn x) pid targets

def due (s : Simulation) : List Pid := (s.kills.fire s.tick).1

theorem fireKills_eq (s : Simulation) :
    s.fireKills =
      { s with
        roster := s.fireKills.roster
        ready := s.fireKills.ready
        waiting := s.fireKills.waiting
        finished := s.fireKills.finished
        running := s.fireKills.running
        kills := (s.kills.fire s.tick).2
        tally :=
          { s.tally with
            killsApplied := s.fireKills.tally.killsApplied
            killsIgnored := s.fireKills.tally.killsIgnored } } :=
  foldl_strike_eq { s with kills := (s.kills.fire s.tick).2 } s.due

theorem finished_fireKills_of_due_eq_nil (hd : s.due = []) : s.fireKills.finished = s.finished := by
  change (s.due.foldl strike { s with kills := (s.kills.fire s.tick).2 }).finished = _
  rw [hd]
  rfl

theorem Placed.fireKills (h : Placed s) : Struck s s.fireKills s.due := by
  have hk : Placed { s with kills := (s.kills.fire s.tick).2 } := ⟨h.nodup, h.perm, h.held⟩
  have hs := hk.foldl_strike s.due
  exact ⟨hs.placed, hs.entries, hs.held⟩

end Simulation
end FirstCome
