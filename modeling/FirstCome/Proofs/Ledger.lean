import FirstCome.Proofs.Counters
import FirstCome.Proofs.Timeline

/-!
The ledger of a run: each counter of the tally is also told by the timeline, by the entries of the jobs
or by the kill plan.
-/
namespace FirstCome

/-- At this position a timeline shows a pid that it does not show right before. -/
def startsAt (timeline : Array (Option Pid)) (i : Nat) : Bool :=
  match timeline[i]? with
  | some (some pid) => i = 0 || timeline[i - 1]? ≠ some (some pid)
  | _ => false

def starts (timeline : Array (Option Pid)) : Nat :=
  (List.range timeline.size).countP (startsAt timeline)

variable {timeline : Array (Option Pid)} {entry : Option Pid}

theorem startsAt_push_of_lt {i : Nat} (hi : i < timeline.size) :
    startsAt (timeline.push entry) i = startsAt timeline i := by
  have hne : i ≠ timeline.size := Nat.ne_of_lt hi
  have hne' : i - 1 ≠ timeline.size := by omega
  simp only [startsAt, Array.getElem?_push, if_neg hne, if_neg hne']

theorem startsAt_push_size :
    startsAt (timeline.push entry) timeline.size =
      (entry.isSome && decide (timeline.back? ≠ some entry)) := by
  simp only [startsAt, Array.getElem?_push, if_true, Array.back?_eq_getElem?]
  cases entry with
  | none => rfl
  | some pid =>
    by_cases hz : timeline.size = 0
    · simp [hz]
    · have hne : timeline.size - 1 ≠ timeline.size := by omega
      simp [hz, hne]

theorem starts_push :
    starts (timeline.push entry) =
      starts timeline + if entry.isSome ∧ timeline.back? ≠ some entry then 1 else 0 := by
  have hold : (List.range timeline.size).countP (startsAt (timeline.push entry)) =
      starts timeline := by
    refine List.countP_congr fun i hi => ?_
    rw [startsAt_push_of_lt (List.mem_range.mp hi)]
  rw [starts, Array.size_push, List.range_succ, List.countP_append, hold, List.countP_singleton,
    startsAt_push_size]
  simp

namespace Progress

variable {p q : Progress} {now : Nat} {due onCpu : Bool}

theorem Turn.executed_eq (h : Turn p now due onCpu q) :
    q.executed = p.executed + if onCpu then 1 else 0 := by
  cases h.move with
  | rest hf => simp [h.onCpu_of_isFinal hf]
  | kill _ hd => simp [h.onCpu_of_due hd, Progress.kill]
  | complete _ _ hc | block _ _ hc | run _ _ hc => simp [hc]
  | queue _ _ hc | wake _ _ hc | drain _ _ hc => simp [hc]

end Progress

namespace Simulation

variable {s : Simulation} {jobs : List Job} {kills : List Kill} {pid : Pid}

/-! ### The timeline -/

def executedOf (s : Simulation) (pid : Pid) : Nat :=
  ((s.roster.find? pid).map (·.executed)).getD 0

theorem Sound.executedOf_step (h : Sound s) (hf : s.isFinished = false) (pid : Pid) :
    s.step.executedOf pid = s.executedOf pid + if s.holder = some pid then 1 else 0 := by
  cases hq : s.step.roster.find? pid with
  | some q =>
    obtain ⟨p, hp, ht⟩ := h.exists_turn hf hq
    simpa [executedOf, hp, hq] using ht.executed_eq
  | none =>
    have hp : s.roster.find? pid = none := by
      rw [← Option.not_isSome_iff_eq_none, Roster.isSome_find?_iff, ← pids_step h.placed,
        ← Roster.isSome_find?_iff, hq]
      exact Bool.false_ne_true
    have hh : s.holder ≠ some pid := fun hh => by
      obtain ⟨p, hp', _⟩ := h.placed.exists_of_mem_line (mem_line_of_holder hh)
      simp [hp] at hp'
    simp [executedOf, hp, hq, hh]

theorem dispatches_step (hf : s.isFinished = false) :
    s.step.tally.dispatches = s.atCpu.tally.dispatches := by
  rw [step_eq hf, wakeDrained, foldl_wake_eq, afterIo, drainIo, useCpu_eq]
  simp only [advanceClock, recordCpu]
  split <;> rfl

theorem Placed.not_mem_ready_step (h : Placed s) (hf : s.isFinished = false)
    (hh : s.holder = some pid) : pid ∉ s.step.ready.entries := by
  rw [h.ready_step hf, List.mem_append]
  rintro (hm | hm)
  · obtain ⟨rest, hrest⟩ := List.head?_eq_some_iff.mp hh
    have hn : s.survivors.Nodup := h.nodup_line.filter _
    rw [hrest, List.nodup_cons] at hn
    rw [hrest] at hm
    exact hn.1 hm
  · have hw : pid ∈ s.heldIn .waiting := List.mem_of_mem_filter (List.mem_of_mem_filter hm)
    obtain hl | hl := List.mem_append.mp (mem_line_of_holder hh)
    · exact absurd (h.place_unique hl hw) (by decide)
    · exact absurd (h.place_unique hl hw) (by decide)

/-- What the timeline tells of the counters, and of the places of the jobs. -/
structure Noted (s : Simulation) : Prop where
  busy : s.tally.busy = s.timeline.countP (·.isSome)
  executed : ∀ pid, s.timeline.count (some pid) = s.executedOf pid
  dispatches : s.tally.dispatches = starts s.timeline
  /-- The job on the CPU was on it in the last tick. -/
  running : ∀ pid, s.running = some pid → s.timeline.back? = some (some pid)
  /-- A ready job was not. -/
  ready : ∀ pid ∈ s.ready.entries, s.timeline.back? ≠ some (some pid)

namespace Noted

theorem dispatches_atCpu (h : Noted s) (hs : Placed s) :
    s.atCpu.tally.dispatches =
      s.tally.dispatches + if s.holder.isSome ∧ s.timeline.back? ≠ some s.holder then 1 else 0 := by
  have hkills : s.fireKills.tally.dispatches = s.tally.dispatches := by rw [fireKills_eq]
  have hspared {pid : Pid} {x : Place} (hx : x ≠ .finished) (hm : pid ∈ s.fireKills.heldIn x) :
      pid ∈ s.heldIn x := by
    rw [hs.fireKills.held x hx] at hm
    exact List.mem_of_mem_filter hm
  have hholder := hs.running_atCpu
  rw [atCpu] at hholder ⊢
  cases hr : s.fireKills.running with
  | some pid =>
    have hcpu : pid ∈ s.heldIn .cpu := hspared (x := .cpu) (by decide) (by simp [heldIn, hr])
    have hlast := h.running pid (by simpa [heldIn] using hcpu)
    rw [fillCpu_of_busy hr] at hholder ⊢
    rw [hkills, ← hholder, hr]
    simp [hlast]
  | none =>
    cases hq : s.fireKills.ready.entries with
    | nil =>
      rw [fillCpu_of_empty hq] at hholder ⊢
      rw [hkills, ← hholder, hr]
      simp
    | cons pid rest =>
      have hready : pid ∈ s.heldIn .ready := hspared (x := .ready) (by decide) (by simp [heldIn, hq])
      have hlast := h.ready pid hready
      rw [fillCpu_of_free hr hq] at hholder ⊢
      rw [← hholder]
      simp [hkills, hlast]

theorem step (h : Noted s) (hs : Sound s) : Noted s.step := by
  cases hf : s.isFinished with
  | true => rw [step_of_isFinished hf]; exact h
  | false =>
    have htimeline := hs.placed.timeline_step hf
    refine ⟨?_, fun pid => ?_, ?_, fun pid hr => ?_, fun pid hr => ?_⟩
    · have hbusy : s.step.tally.busy = s.tally.busy + if s.atCpu.running.isSome then 1 else 0 :=
        congrArg (·.tally.busy) (step_frame hf)
      rw [htimeline, Array.countP_push, hbusy, h.busy, hs.placed.running_atCpu]
    · rw [htimeline, Array.count_push, h.executed, hs.executedOf_step hf]
      simp
    · rw [dispatches_step hf, h.dispatches_atCpu hs.placed, h.dispatches, htimeline, starts_push]
    · obtain hrun | hrun := hs.placed.running_step hf
      · rw [htimeline, Array.back?_push, ← hrun, hr]
      · simp [hrun] at hr
    · rw [htimeline, Array.back?_push]
      exact fun hh => hs.placed.not_mem_ready_step hf (Option.some.inj hh) hr

theorem start (jobs : List Job) (kills : List Kill) : Noted (start jobs kills) := by
  have hframe : (Simulation.start jobs kills).tally = {} ∧
      (Simulation.start jobs kills).timeline = #[] ∧
      (Simulation.start jobs kills).running = none := by
    rw [start_eq]
    exact ⟨rfl, rfl, rfl⟩
  obtain ⟨htally, htimeline, hrunning⟩ := hframe
  have hexecuted (pid : Pid) : (Simulation.start jobs kills).executedOf pid = 0 := by
    cases hp : (Simulation.start jobs kills).roster.find? pid with
    | none => simp [executedOf, hp]
    | some p =>
      obtain ⟨j, _, rfl⟩ := exists_of_mem_start (Roster.mem_of_find? hp)
      simp [executedOf, hp]
  refine ⟨?_, fun pid => ?_, ?_, fun pid hr => ?_, fun pid _ => ?_⟩
  · simp [htally, htimeline]
  · simp [hexecuted, htimeline]
  · simp [htally, htimeline, starts]
  · simp [hrunning] at hr
  · simp [htimeline]

theorem steps (h : Noted s) (hs : Sound s) (n : Nat) : Noted (s.steps n) := by
  induction n generalizing s with
  | zero => exact h
  | succ n ih => rw [steps_succ]; exact ih (h.step hs) hs.step

end Noted

/-! ### The kills and the finished jobs -/

theorem kills_foldl_strike (s : Simulation) (targets : List Pid) :
    (targets.foldl strike s).tally.killsApplied + (targets.foldl strike s).tally.killsIgnored =
      s.tally.killsApplied + s.tally.killsIgnored + targets.length := by
  induction targets generalizing s with
  | nil => rfl
  | cons pid targets ih =>
    rw [List.foldl_cons, ih, List.length_cons]
    cases hl : s.isLive pid with
    | true =>
      rw [strike_of_isLive hl, withdraw_eq]
      dsimp only
      omega
    | false =>
      rw [strike_of_not_isLive hl]
      dsimp only
      omega

theorem kills_step (s : Simulation) :
    s.step.tally.killsApplied + s.step.tally.killsIgnored + s.step.kills.size =
      s.tally.killsApplied + s.tally.killsIgnored + s.kills.size := by
  cases hf : s.isFinished with
  | true => rw [step_of_isFinished hf]
  | false =>
    have htally : s.step.tally.killsApplied = s.fireKills.tally.killsApplied ∧
        s.step.tally.killsIgnored = s.fireKills.tally.killsIgnored := by
      rw [step_eq hf, wakeDrained, foldl_wake_eq, afterIo, drainIo, useCpu_eq, atCpu, fillCpu_eq]
      simp only [advanceClock, recordCpu]
      split <;> exact ⟨rfl, rfl⟩
    have hfired := kills_foldl_strike { s with kills := (s.kills.fire s.tick).2 } s.due
    have hkills : s.step.kills = (s.kills.fire s.tick).2 := congrArg (·.kills) (step_frame hf)
    have hlength : s.due.length + (s.kills.fire s.tick).2.size = s.kills.size :=
      s.kills.length_fire s.tick
    change s.fireKills.tally.killsApplied + s.fireKills.tally.killsIgnored = _ at hfired
    rw [htally.1, htally.2, hfired, hkills, ← hlength, Nat.add_assoc]

theorem kills_steps (jobs : List Job) (kills : List Kill) (n : Nat) :
    let s := (start jobs kills).steps n
    s.tally.killsApplied + s.tally.killsIgnored + s.kills.size = kills.length := by
  induction n with
  | zero =>
    rw [steps, start_eq]
    exact Nat.zero_add _
  | succ n ih =>
    rw [steps_succ_last]
    exact (kills_step _).trans ih

theorem size_kills_steps (jobs : List Job) (kills : List Kill) (n : Nat) :
    let s := (start jobs kills).steps n
    s.kills.size = kills.countP (s.tick ≤ ·.tick) := by
  intro s
  rw [KillPlan.size, pending_steps (pending_start jobs kills) n, List.countP_eq_length_filter]

theorem kills_fired (jobs : List Job) (kills : List Kill) (n : Nat) :
    let s := (start jobs kills).steps n
    s.tally.killsApplied + s.tally.killsIgnored = kills.countP (·.tick < s.tick) := by
  intro s
  have hsum : s.tally.killsApplied + s.tally.killsIgnored + s.kills.size = kills.length :=
    kills_steps jobs kills n
  have hpending : s.kills.size = kills.countP (s.tick ≤ ·.tick) := size_kills_steps jobs kills n
  have hsplit := List.length_eq_countP_add_countP (fun e : Kill => s.tick ≤ e.tick) (l := kills)
  have hbefore : (kills.countP fun e => decide ¬decide (s.tick ≤ e.tick) = true) =
      kills.countP (·.tick < s.tick) := List.countP_congr fun e _ => by simp
  omega

theorem Placed.length_finished (h : Placed s) :
    s.finished.entries.length = s.roster.entries.countP (·.isFinal) := by
  have hn : ((s.roster.entries.filter (·.isFinal)).map (·.pid)).Nodup :=
    h.nodup.sublist (List.filter_sublist.map _)
  have hperm : s.finished.entries.Perm ((s.roster.entries.filter (·.isFinal)).map (·.pid)) := by
    refine (List.perm_ext_iff_of_nodup (h.nodup_heldIn .finished) hn).mpr fun pid => ?_
    simp only [List.mem_map, List.mem_filter]
    constructor
    · intro hm
      obtain ⟨p, hp, hx⟩ := h.exists_entry (x := .finished) hm
      exact ⟨p, ⟨Roster.mem_of_find? hp, Phase.place_eq_finished.mp hx⟩, Roster.pid_of_find? hp⟩
    · rintro ⟨p, ⟨hp, hf⟩, rfl⟩
      exact (h.mem_heldIn_iff hp).mpr (Phase.place_eq_finished.mpr hf)
  rw [hperm.length_eq, List.length_map, List.countP_eq_length_filter]

theorem countP_isFinal (ps : List Progress) :
    ps.countP (·.isFinal) = ps.countP (·.isCompleted) + ps.countP (·.wasKilled) := by
  induction ps with
  | nil => rfl
  | cons p ps ih =>
    rw [List.countP_cons, List.countP_cons, List.countP_cons, ih]
    cases hf : p.isFinal with
    | false =>
      simp [Progress.isCompleted_of_active hf, Progress.wasKilled_of_active hf]
    | true =>
      cases hk : p.wasKilled <;> simp [Progress.isCompleted, hf, hk] <;> omega

/-- The books of a run that began with these kills: the counters of the tally, and what they are the
numbers of. -/
structure Ledger (kills : List Kill) (s : Simulation) : Prop where
  ticks : s.tally.ticks = s.tick
  size_timeline : s.timeline.size = s.tick
  busy_add_idle : s.tally.busy + s.tally.idle = s.tick
  busy_shown : s.tally.busy = s.timeline.countP (·.isSome)
  busy_executed : s.tally.busy = (s.roster.entries.map (·.executed)).sum
  /-- The timeline shows each job as often as it has run, and no other pid. -/
  executed : ∀ pid, s.timeline.count (some pid) = s.executedOf pid
  dispatches : s.tally.dispatches = starts s.timeline
  ioWaits : s.tally.ioWaits = s.roster.entries.countP (·.ioBegun)
  completions : s.tally.completions = s.roster.entries.countP (·.isCompleted)
  killsApplied : s.tally.killsApplied = s.roster.entries.countP (·.wasKilled)
  finished : s.tally.completions + s.tally.killsApplied = s.finished.size
  pending : s.kills.pending = kills.filter (s.tick ≤ ·.tick)
  fired : s.tally.killsApplied + s.tally.killsIgnored = kills.countP (·.tick < s.tick)

theorem Ledger.run (jobs : List Job) (kills : List Kill) (n : Nat) :
    Ledger kills ((start jobs kills).steps n) := by
  have hs := (Sound.start jobs kills).steps n
  have hcounted := (Counted.start jobs kills).steps (Placed.start jobs kills) n
  have hnoted := (Noted.start jobs kills).steps (Sound.start jobs kills) n
  refine
    { ticks := hs.ticks
      size_timeline := Simulation.size_timeline jobs kills n
      busy_add_idle := hs.busy_add_idle
      busy_shown := hnoted.busy
      busy_executed := hcounted.busy
      executed := hnoted.executed
      dispatches := hnoted.dispatches
      ioWaits := by rw [hcounted.ioWaits, Roster.total_toNat]
      completions := by rw [hcounted.completions, Roster.total_toNat]
      killsApplied := by rw [hcounted.killsApplied, Roster.total_toNat]
      finished := ?_
      pending := pending_steps (pending_start jobs kills) n
      fired := kills_fired jobs kills n }
  rw [hcounted.completions, hcounted.killsApplied, Roster.total_toNat, Roster.total_toNat,
    ← countP_isFinal, ← hs.placed.length_finished]
  rfl

/-- In each state of a run the counters agree with the timeline, the entries and the kill plan, and in
the outcome each of the kills is in one of three counters. -/
theorem ledger_steps (jobs : List Job) (kills : List Kill) (n : Nat) :
    let s := (start jobs kills).steps n
    Ledger kills s ∧
      s.outcome.tally = { s.tally with killsUnfired := kills.countP (s.tick ≤ ·.tick) } ∧
      s.outcome.tally.killsApplied + s.outcome.tally.killsIgnored + s.outcome.tally.killsUnfired =
        kills.length := by
  intro s
  refine ⟨Ledger.run jobs kills n, ?_, kills_steps jobs kills n⟩
  rw [← size_kills_steps jobs kills n, outcome]

end Simulation
end FirstCome
