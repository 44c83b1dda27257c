import FirstCome.Proofs.Conservation
import FirstCome.Proofs.Departures

/-!
A run only adds to its history. Entries of jobs that have left the system are frozen, the others run on,
no counter goes down, and what has been noted stays noted, also in the outcome.
-/
namespace FirstCome

namespace Tally

structure Within (a b : Tally) : Prop where
  ticks : a.ticks ≤ b.ticks
  dispatches : a.dispatches ≤ b.dispatches
  ioWaits : a.ioWaits ≤ b.ioWaits
  completions : a.completions ≤ b.completions
  killsApplied : a.killsApplied ≤ b.killsApplied
  killsIgnored : a.killsIgnored ≤ b.killsIgnored
  killsUnfired : a.killsUnfired ≤ b.killsUnfired
  busy : a.busy ≤ b.busy
  idle : a.idle ≤ b.idle

namespace Within

variable {a b c : Tally}

theorem refl (a : Tally) : Within a a := by
  constructor <;> exact Nat.le_refl _

theorem trans (h : Within a b) (h' : Within b c) : Within a c where
  ticks := h.ticks.trans h'.ticks
  dispatches := h.dispatches.trans h'.dispatches
  ioWaits := h.ioWaits.trans h'.ioWaits
  completions := h.completions.trans h'.completions
  killsApplied := h.killsApplied.trans h'.killsApplied
  killsIgnored := h.killsIgnored.trans h'.killsIgnored
  killsUnfired := h.killsUnfired.trans h'.killsUnfired
  busy := h.busy.trans h'.busy
  idle := h.idle.trans h'.idle

end Within
end Tally

namespace Progress

/-- `q` can be a later entry of the job of `p`. -/
structure Before (p q : Progress) : Prop where
  job : q.job = p.job
  executed : p.executed ≤ q.executed
  remaining : q.remaining ≤ p.remaining
  frozen : p.isFinal = true → q = p

variable {p q r : Progress} {now : Nat} {due onCpu : Bool}

theorem Before.refl (p : Progress) : Before p p :=
  ⟨rfl, Nat.le_refl _, Nat.le_refl _, fun _ => rfl⟩

theorem Before.trans (h : Before p q) (h' : Before q r) : Before p r where
  job := h'.job.trans h.job
  executed := h.executed.trans h'.executed
  remaining := h'.remaining.trans h.remaining
  frozen hf := by
    obtain rfl := h.frozen hf
    exact h'.frozen hf

theorem before_of_active (hf : p.isFinal = false) (hj : q.job = p.job)
    (he : p.executed ≤ q.executed) : Before p q where
  job := hj
  executed := he
  remaining := by
    rw [remaining, remaining, hj]
    exact Nat.sub_le_sub_left he _
  frozen h := by simp [hf] at h

theorem Move.before (hm : Move p now due onCpu q) : Before p q := by
  cases hm with
  | rest | queue => exact .refl p
  | kill hf => exact before_of_active hf rfl (Nat.le_refl _)
  | complete hp | block hp | run hp =>
    exact before_of_active (isFinal_of_line hp) rfl (Nat.le_succ _)
  | wake hp | drain hp => exact before_of_active (isFinal_of_waiting hp) rfl (Nat.le_refl _)

end Progress

namespace Simulation

variable {s t u : Simulation} {pid : Pid}

/-! ### The counters -/

theorem tally_strike (s : Simulation) (pid : Pid) : s.tally.Within (s.strike pid).tally := by
  cases hl : s.isLive pid with
  | true =>
    rw [strike_of_isLive hl, withdraw_eq]
    exact { Tally.Within.refl s.tally with killsApplied := Nat.le_succ _ }
  | false =>
    rw [strike_of_not_isLive hl]
    exact { Tally.Within.refl s.tally with killsIgnored := Nat.le_succ _ }

theorem tally_foldl_strike (s : Simulation) (targets : List Pid) :
    s.tally.Within (targets.foldl strike s).tally := by
  induction targets generalizing s with
  | nil => exact .refl _
  | cons pid targets ih => exact (tally_strike s pid).trans (ih (s.strike pid))

theorem tally_fillCpu (s : Simulation) : s.tally.Within s.fillCpu.tally := by
  unfold fillCpu
  split
  · exact { Tally.Within.refl s.tally with dispatches := Nat.le_succ _ }
  · exact .refl _

theorem tally_recordCpu (s : Simulation) : s.tally.Within s.recordCpu.tally := by
  unfold recordCpu
  dsimp only
  split
  · exact { Tally.Within.refl s.tally with busy := Nat.le_succ _ }
  · exact { Tally.Within.refl s.tally with idle := Nat.le_succ _ }

theorem tally_leaveCpu (s : Simulation) (pid : Pid) (φ : Phase) :
    s.tally.Within (s.leaveCpu pid φ).tally := by
  cases φ with
  | waiting => exact { Tally.Within.refl s.tally with ioWaits := Nat.le_succ _ }
  | completed => exact { Tally.Within.refl s.tally with completions := Nat.le_succ _ }
  | ready | running | killed => exact .refl _

theorem tally_useCpu (s : Simulation) : s.tally.Within s.useCpu.tally := by
  refine (tally_recordCpu s).trans ?_
  unfold useCpu
  dsimp only
  split
  · exact .refl _
  next pid _ =>
    split
    · exact .refl _
    next p _ =>
      exact tally_leaveCpu
        { s.recordCpu with roster := s.recordCpu.roster.update pid (·.useCpu s.recordCpu.tick) } pid
        (p.useCpu s.recordCpu.tick).phase

theorem Sound.tally_step (h : Sound s) : s.tally.Within s.step.tally := by
  cases hf : s.isFinished with
  | true => rw [step_of_isFinished hf]; exact .refl _
  | false =>
    have hkills : s.tally.Within s.fireKills.tally :=
      tally_foldl_strike { s with kills := (s.kills.fire s.tick).2 } s.due
    have hwork := (hkills.trans (tally_fillCpu _)).trans (tally_useCpu s.atCpu)
    have hstep : s.step.tally = { s.atCpu.useCpu.tally with ticks := s.tick + 1 } := by
      have hticks : s.step.tally.ticks = s.tick + 1 := congrArg (·.tally.ticks) (step_frame hf)
      rw [← hticks, step_eq hf, wakeDrained, foldl_wake_eq]
      rfl
    rw [hstep]
    exact { hwork with ticks := h.ticks.le.trans (Nat.le_succ _) }

/-! ### The state -/

/-- `t` can be a later state of the run that `s` is a state of. -/
structure GrowsInto (s t : Simulation) : Prop where
  pids : t.roster.pids = s.roster.pids
  entries : ∀ pid p, s.roster.find? pid = some p →
    ∃ q, t.roster.find? pid = some q ∧ p.Before q
  tally : s.tally.Within t.tally
  finished : s.finished.entries <+: t.finished.entries
  timeline : s.timeline.toList <+: t.timeline.toList
  pending : t.kills.pending.Sublist s.kills.pending

namespace GrowsInto

theorem refl (s : Simulation) : GrowsInto s s where
  pids := rfl
  entries _ p hp := ⟨p, hp, .refl p⟩
  tally := .refl _
  finished := List.prefix_rfl
  timeline := List.prefix_rfl
  pending := List.Sublist.refl _

theorem trans (h : GrowsInto s t) (h' : GrowsInto t u) : GrowsInto s u where
  pids := h'.pids.trans h.pids
  entries pid p hp := by
    obtain ⟨q, hq, hpq⟩ := h.entries pid p hp
    obtain ⟨r, hr, hqr⟩ := h'.entries pid q hq
    exact ⟨r, hr, hpq.trans hqr⟩
  tally := h.tally.trans h'.tally
  finished := h.finished.trans h'.finished
  timeline := h.timeline.trans h'.timeline
  pending := h'.pending.trans h.pending

theorem step (hs : Sound s) : GrowsInto s s.step := by
  cases hf : s.isFinished with
  | true => rw [step_of_isFinished hf]; exact .refl s
  | false =>
    refine
      { pids := pids_step hs.placed
        entries := fun pid p hp => ?_
        tally := hs.tally_step
        finished := ?_
        timeline := ?_
        pending := ?_ }
    · obtain ⟨q, hq, hm⟩ := hs.placed.exists_move hf hp
      exact ⟨q, hq, hm.before⟩
    · rw [hs.placed.finished_step_eq hf]
      exact List.prefix_append _ _
    · rw [hs.placed.timeline_step hf, Array.toList_push]
      exact List.prefix_append _ _
    · have hkills : s.step.kills = (s.kills.fire s.tick).2 := congrArg (·.kills) (step_frame hf)
      rw [hkills]
      exact List.filter_sublist

theorem steps (hs : Sound s) (n : Nat) : GrowsInto s (s.steps n) := by
  induction n generalizing s with
  | zero => exact .refl s
  | succ n ih => rw [steps_succ]; exact (step hs).trans (ih hs.step)

/-! ### The outcome -/

theorem resultOf_eq (h : GrowsInto s t) (hs : Placed s) (hm : pid ∈ s.finished.entries) :
    t.resultOf pid = s.resultOf pid := by
  obtain ⟨p, hp, hx⟩ := hs.exists_entry (x := .finished) hm
  obtain ⟨q, hq, hpq⟩ := h.entries pid p hp
  obtain rfl := hpq.frozen (Phase.place_eq_finished.mp hx)
  rw [resultOf, resultOf, hp, hq]

theorem results_eq (h : GrowsInto s t) (hs : Placed s) (ht : Placed t) :
    s.outcome.results = t.outcome.results.filter (·.pid ∈ s.finished.entries) := by
  have hmem (r : Result) : r ∈ s.outcome.results ↔
      r ∈ t.outcome.results.filter (·.pid ∈ s.finished.entries) := by
    rw [List.mem_filter, mem_results_iff hs, mem_results_iff ht, decide_eq_true_eq]
    constructor
    · intro hr
      have hm : r.pid ∈ s.finished.entries := mem_finished_of_resultOf hs hr
      exact ⟨(h.resultOf_eq hs hm).trans hr, hm⟩
    · rintro ⟨hr, hm⟩
      exact (h.resultOf_eq hs hm).symm.trans hr
  have hlater := ht.ascending_results.filter (·.pid ∈ s.finished.entries)
  have hnodup {rs : List Result} (hrs : rs.Pairwise fun a b => a.pid < b.pid) : rs.Nodup := by
    refine hrs.imp fun {a b} hab he => ?_
    rw [he] at hab
    exact UInt32.lt_irrefl _ hab
  refine List.Perm.eq_of_pairwise (fun a b _ _ hab hba => ?_) hs.ascending_results hlater
    ((List.perm_ext_iff_of_nodup (hnodup hs.ascending_results) (hnodup hlater)).mpr hmem)
  exact absurd (UInt32.lt_trans hab hba) (UInt32.lt_irrefl _)

end GrowsInto

/-- A later state of a run has grown out of the earlier one: the entries of jobs that had left the system
are frozen, no counter has gone down, the finished queue and the timeline have been continued, and no kill
has been added to those to come. Closed at the two states, the run gives an outcome and a continuation
of it. -/
theorem history_grows (jobs : List Job) (kills : List Kill) {n m : Nat} (h : n ≤ m) :
    let s := (start jobs kills).steps n
    let t := (start jobs kills).steps m
    GrowsInto s t ∧
      s.outcome.completionOrder <+: t.outcome.completionOrder ∧
      s.outcome.timeline.toList <+: t.outcome.timeline.toList ∧
      s.outcome.results = t.outcome.results.filter (·.pid ∈ s.outcome.completionOrder) := by
  intro s t
  obtain ⟨d, rfl⟩ := Nat.exists_eq_add_of_le h
  have hs : Sound s := (Sound.start jobs kills).steps n
  have ht : Placed t := (Placed.start jobs kills).steps (n + d)
  have hgrows : GrowsInto s t := by
    change GrowsInto s ((start jobs kills).steps (n + d))
    rw [steps_add]
    exact .steps hs d
  exact ⟨hgrows, hgrows.finished, hgrows.timeline, hgrows.results_eq hs.placed ht⟩

/-- Pid 3 is killed at once and pid 1 later, while it waits for its I/O. Of the three results at the end
the first state has the one of pid 3, and it is the same. -/
theorem history_grows_three :
    let jobs : List Job :=
      [{ pid := 1, name := "a", burst := 4, ioStart := some 1, ioDuration := 5 },
        { pid := 2, name := "b", burst := 2 }, { pid := 3, name := "c", burst := 2 }]
    let kills : List Kill := [⟨1, 2⟩, ⟨3, 0⟩, ⟨3, 1⟩]
    let s := (start jobs kills).steps 1
    let t := (start jobs kills).steps 4
    (1 ≤ 4 ∧ s.finished.entries = [3] ∧ t.finished.entries = [3, 1, 2]) ∧
      GrowsInto s t ∧
      s.outcome.results = t.outcome.results.filter (·.pid ∈ s.outcome.completionOrder) := by
  intro jobs kills s t
  have h : 1 ≤ 4 := by decide
  obtain ⟨hgrows, _, _, hresults⟩ := history_grows jobs kills h
  exact ⟨⟨h, by decide, by decide⟩, hgrows, hresults⟩

end Simulation
end FirstCome
