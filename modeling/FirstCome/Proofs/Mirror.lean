import FirstCome.Proofs.Conservation
import FirstCome.Proofs.Departures
import FirstCome.Proofs.Ledger

/-!
Runs that mirror each other: a tick looks at the burst of a job, at the I/O that the job can enter and
at the kills due at it, and at its pid only to tell it from the others. So two runs of jobs that are
alike in this stay alike as long as the due kills have the same live targets.
-/
namespace FirstCome

theorem map_eq_of_forall₂ {α β γ : Type} {R : α → β → Prop} {as : List α} {bs : List β}
    {g : α → γ} {g' : β → γ} (h : List.Forall₂ R as bs) (hg : ∀ a b, R a b → g' b = g a) :
    bs.map g' = as.map g := by
  induction h with
  | nil => rfl
  | cons hr _ ih => rw [List.map_cons, List.map_cons, hg _ _ hr, ih]

theorem countP_eq_of_forall₂ {α β : Type} {R : α → β → Prop} {as : List α} {bs : List β}
    {g : α → Bool} {g' : β → Bool} (h : List.Forall₂ R as bs) (hg : ∀ a b, R a b → g' b = g a) :
    bs.countP g' = as.countP g := by
  have hcount {α : Type} (g : α → Bool) (as : List α) : as.countP g = (as.map g).countP id := by
    rw [List.countP_map]
    rfl
  rw [hcount g, hcount g', map_eq_of_forall₂ h hg]

namespace Job

/-- The same burst, and the same I/O unless neither job can leave the CPU for it. -/
structure Alike (j k : Job) : Prop where
  burst : k.burst = j.burst
  io : k.ioStart = j.ioStart ∧ k.ioDuration = j.ioDuration ∨ j.blocks = false ∧ k.blocks = false

variable {j k : Job}

theorem starts_iff {n : Nat} (h0 : 0 < n) (hn : n < j.burst) :
    0 < j.ioDuration ∧ j.ioStart = some n ↔ j.blocks = true ∧ j.ioStart = some n := by
  refine and_congr_left fun hs => ?_
  rw [blocks_iff]
  exact ⟨fun hd => ⟨hd, n, hs, h0, hn⟩, fun hb => hb.1⟩

namespace Alike

theorem refl (j : Job) : j.Alike j := ⟨rfl, .inl ⟨rfl, rfl⟩⟩

theorem blocks_eq (h : j.Alike k) : k.blocks = j.blocks := by
  obtain ⟨hs, hd⟩ | ⟨hj, hk⟩ := h.io
  · simp only [blocks, hasIo, h.burst, hs, hd]
  · rw [hj, hk]

theorem io_eq (h : j.Alike k) (hb : j.blocks = true) :
    k.ioStart = j.ioStart ∧ k.ioDuration = j.ioDuration := by
  obtain hio | ⟨hj, _⟩ := h.io
  · exact hio
  · simp [hb] at hj

theorem span_eq (h : j.Alike k) : k.span = j.span := by
  rw [span, span, ioTime, ioTime, h.burst, h.blocks_eq]
  cases hb : j.blocks with
  | false => rfl
  | true => rw [(h.io_eq hb).2]

theorem starts_iff (h : j.Alike k) {n : Nat} (h0 : 0 < n) (hn : n < j.burst) :
    0 < k.ioDuration ∧ k.ioStart = some n ↔ 0 < j.ioDuration ∧ j.ioStart = some n := by
  rw [Job.starts_iff h0 hn, Job.starts_iff h0 (h.burst ▸ hn), h.blocks_eq]
  refine and_congr_right fun hb => ?_
  rw [(h.io_eq hb).1]

end Alike
end Job

namespace Progress

structure Alike (p q : Progress) : Prop where
  job : p.job.Alike q.job
  executed : q.executed = p.executed
  ioLeft : q.ioLeft = p.ioLeft
  phase : q.phase = p.phase

namespace Alike

variable {p q : Progress}

theorem isFinal_eq (h : p.Alike q) : q.isFinal = p.isFinal := congrArg Phase.isFinal h.phase

theorem wasKilled_eq (h : p.Alike q) : q.wasKilled = p.wasKilled := by
  rw [wasKilled, killedAt, h.phase]
  rfl

theorem isCompleted_eq (h : p.Alike q) : q.isCompleted = p.isCompleted := by
  rw [isCompleted, isCompleted, h.isFinal_eq, h.wasKilled_eq]

theorem ioBegun_eq (h : p.Alike q) : q.ioBegun = p.ioBegun := by
  rw [ioBegun, ioBegun, h.job.blocks_eq, h.executed]
  cases hb : p.job.blocks with
  | false => rfl
  | true => rw [(h.job.io_eq hb).1]

theorem phaseAfterTick_eq (h : p.Alike q) (hpos : 0 < p.executed) (now : Nat) :
    q.phaseAfterTick now = p.phaseAfterTick now := by
  have hr : q.remaining = p.remaining := by rw [remaining, remaining, h.job.burst, h.executed]
  unfold phaseAfterTick
  rw [hr, h.executed, h.phase]
  by_cases hz : p.remaining = 0
  · rw [if_pos hz, if_pos hz]
  · have hlt : p.executed < p.job.burst := by
      unfold remaining at hz
      omega
    simp only [if_neg hz, h.job.starts_iff hpos hlt]

theorem blocks_of_phaseAfterTick {p : Progress} {now : Nat} (hp : p.phase = .running)
    (hpos : 0 < p.executed) (hw : p.phaseAfterTick now = .waiting) : p.job.blocks = true := by
  unfold phaseAfterTick at hw
  split at hw
  · contradiction
  next hz =>
    split at hw
    next hio =>
      have hlt : p.executed < p.job.burst := by
        unfold remaining at hz
        omega
      exact ((Job.starts_iff hpos hlt).mp hio).1
    next => simp [hp] at hw

theorem useCpu (h : p.Alike q) (hp : p.phase = .running) (now : Nat) :
    (p.useCpu now).Alike (q.useCpu now) := by
  have hnext : Alike { p with executed := p.executed + 1 } { q with executed := q.executed + 1 } :=
    ⟨h.job, congrArg (· + 1) h.executed, h.ioLeft, h.phase⟩
  have hphase := hnext.phaseAfterTick_eq (Nat.succ_pos _) now
  unfold Progress.useCpu
  dsimp only
  rw [hphase]
  cases hφ : phaseAfterTick { p with executed := p.executed + 1 } now with
  | waiting =>
    have hb := blocks_of_phaseAfterTick (p := { p with executed := p.executed + 1 }) hp
      (Nat.succ_pos _) hφ
    exact ⟨h.job, hnext.executed, (h.job.io_eq hb).2, rfl⟩
  | ready | running | completed | killed => exact ⟨h.job, hnext.executed, h.ioLeft, rfl⟩

theorem afterDrain (h : p.Alike q) (now : Nat) (due onCpu : Bool) :
    (p.afterDrain now due onCpu).Alike (q.afterDrain now due onCpu) := by
  have hdispatch : p.dispatch.Alike q.dispatch := ⟨h.job, h.executed, h.ioLeft, rfl⟩
  unfold Progress.afterDrain
  rw [h.isFinal_eq, h.phase]
  cases p.isFinal with
  | true => exact h
  | false =>
    cases due with
    | true => exact ⟨h.job, h.executed, h.ioLeft, rfl⟩
    | false =>
      cases onCpu with
      | true => exact hdispatch.useCpu rfl now
      | false =>
        by_cases hw : p.phase = .waiting
        · simp only [hw]
          exact ⟨h.job, h.executed, congrArg (· - 1) h.ioLeft, h.phase⟩
        · simp only [hw]
          exact h

theorem wakeIfDrained (h : p.Alike q) : p.wakeIfDrained.Alike q.wakeIfDrained := by
  unfold Progress.wakeIfDrained
  rw [h.phase, h.ioLeft]
  split
  · exact ⟨h.job, h.executed, h.ioLeft, rfl⟩
  · exact h

theorem afterTick (h : p.Alike q) (now : Nat) (due onCpu : Bool) :
    (p.afterTick now due onCpu).Alike (q.afterTick now due onCpu) :=
  (h.afterDrain now due onCpu).wakeIfDrained

end Alike
end Progress

/-- The jobs of the one roster are those of the other with other pids: the same in number and order, and
each at the same point as its image. -/
def Roster.Mirrors (f : Pid → Pid) (r r' : Roster) : Prop :=
  List.Forall₂ (fun p q => q.pid = f p.pid ∧ p.Alike q) r.entries r'.entries

namespace Roster.Mirrors

variable {f : Pid → Pid} {r r' : Roster} {pid : Pid} {p : Progress}

theorem pids_eq (h : r.Mirrors f r') : r'.pids = r.pids.map f := by
  rw [pids, pids, List.map_map]
  exact map_eq_of_forall₂ h fun _ _ hpq => hpq.1

theorem injOn (h : r.Mirrors f r') (hn : r'.pids.Nodup) {a b : Pid} (ha : a ∈ r.pids)
    (hb : b ∈ r.pids) (he : f a = f b) : a = b :=
  List.inj_on_of_nodup_map (h.pids_eq ▸ hn) ha hb he

theorem exists_find? (h : r.Mirrors f r') (hn : r'.pids.Nodup) (hp : r.find? pid = some p) :
    ∃ q, r'.find? (f pid) = some q ∧ p.Alike q := by
  obtain ⟨i, hi, hget⟩ := List.mem_iff_getElem.mp (mem_of_find? hp)
  have hi' : i < r'.entries.length := h.length_eq ▸ hi
  obtain ⟨hpid, halike⟩ := h.get hi hi'
  simp only [List.get_eq_getElem, hget] at hpid halike
  have hfind := find?_pid hn (List.getElem_mem hi')
  rw [hpid, pid_of_find? hp] at hfind
  exact ⟨_, hfind, halike⟩

theorem budget_eq (h : r.Mirrors f r') : r'.budget = r.budget := by
  rw [Simulation.budget_eq, Simulation.budget_eq]
  exact congrArg List.sum (map_eq_of_forall₂ h fun _ _ hpq => hpq.2.job.span_eq)

theorem eq_of_map_job_eq (h : r.Mirrors id r')
    (hj : r'.entries.map (·.job) = r.entries.map (·.job)) : r' = r := by
  have heq {ps qs : List Progress}
      (h : List.Forall₂ (fun p q : Progress => q.pid = id p.pid ∧ p.Alike q) ps qs)
      (hj : qs.map (·.job) = ps.map (·.job)) : qs = ps := by
    induction h with
    | nil => rfl
    | @cons p q ps qs hpq _ ih =>
      obtain ⟨hjob, hrest⟩ := List.cons.inj hj
      obtain ⟨_, _, hexecuted, hleft, hphase⟩ := hpq
      obtain ⟨pj, pe, pl, pφ⟩ := p
      obtain ⟨qj, qe, ql, qφ⟩ := q
      dsimp only at hjob hexecuted hleft hphase
      rw [ih hrest, hjob, hexecuted, hleft, hphase]
  exact congrArg Roster.mk (heq h hj)

end Roster.Mirrors

namespace Simulation

/-- The one state is the other with other pids, the finished queue, the kills and the counters aside. -/
structure Mirrors (f : Pid → Pid) (s t : Simulation) : Prop where
  tick : t.tick = s.tick
  timeline : t.timeline = s.timeline.map (Option.map f)
  roster : s.roster.Mirrors f t.roster
  held : ∀ x, x ≠ .finished → t.heldIn x = (s.heldIn x).map f

/-- The kills that are due in the two states have the same live targets. -/
def SameTargets (f : Pid → Pid) (s t : Simulation) : Prop :=
  ∀ pid, s.isLive pid = true → (f pid ∈ t.due ↔ pid ∈ s.due)

theorem mem_pids_of_isLive {s : Simulation} {pid : Pid} (hl : s.isLive pid = true) :
    pid ∈ s.roster.pids := by
  rw [← Roster.isSome_find?_iff]
  cases hp : s.roster.find? pid with
  | none => simp [isLive, hp] at hl
  | some p => rfl

theorem Placed.mem_pids (h : Placed s) {x : Place} (hm : pid ∈ s.heldIn x) : pid ∈ s.roster.pids :=
  h.perm.mem_iff.mp (mem_places.mpr ⟨x, hm⟩)

theorem Placed.mem_pids_of_holder (h : Placed s) (hh : s.holder = some pid) :
    pid ∈ s.roster.pids := by
  obtain ⟨p, hp, _⟩ := h.exists_of_holder hh
  exact Roster.isSome_find?_iff.mp (Option.isSome_iff_exists.mpr ⟨p, hp⟩)

namespace Mirrors

variable {f : Pid → Pid} {s t : Simulation} {pid : Pid} {x : Place}

theorem isFinished_eq (h : Mirrors f s t) (hs : Placed s) (ht : Placed t) :
    t.isFinished = s.isFinished := by
  have hall (ps : List Progress) : (∀ p ∈ ps, p.isFinal = true) ↔ false ∉ ps.map (·.isFinal) := by
    simp
  rw [Bool.eq_iff_iff, hs.isFinished_iff, ht.isFinished_iff, hall, hall,
    map_eq_of_forall₂ h.roster fun _ _ hpq => hpq.2.isFinal_eq]

theorem isLive_eq (h : Mirrors f s t) (ht : Placed t) (hm : pid ∈ s.roster.pids) :
    t.isLive (f pid) = s.isLive pid := by
  obtain ⟨p, hp⟩ := Option.isSome_iff_exists.mp (Roster.isSome_find?_iff.mpr hm)
  obtain ⟨q, hq, halike⟩ := h.roster.exists_find? ht.nodup hp
  simp only [isLive, hp, hq, Option.any_some, halike.isFinal_eq]

theorem filter_isAt (h : s.roster.Mirrors f t.roster) (ht : Placed t) (x : Place) {pids : List Pid}
    (hm : ∀ pid ∈ pids, pid ∈ s.roster.pids) :
    (pids.map f).filter (t.isAt x) = (pids.filter (s.isAt x)).map f := by
  rw [List.filter_map]
  refine congrArg (List.map f) (List.filter_congr fun pid hpid => ?_)
  obtain ⟨p, hp⟩ := Option.isSome_iff_exists.mp (Roster.isSome_find?_iff.mpr (hm pid hpid))
  obtain ⟨q, hq, halike⟩ := h.exists_find? ht.nodup hp
  rw [Function.comp_apply, isAt_of_find? hp, isAt_of_find? hq, halike.phase]

/-! ### One tick -/

theorem filter_due (h : Mirrors f s t) (hs : Placed s) (hv : SameTargets f s t)
    (hx : x ≠ .finished) :
    (t.heldIn x).filter (· ∉ t.due) = ((s.heldIn x).filter (· ∉ s.due)).map f := by
  rw [h.held x hx, List.filter_map]
  refine congrArg (List.map f) (List.filter_congr fun pid hm => ?_)
  rw [Function.comp_apply, decide_eq_decide, hv pid (hs.isLive_iff.mpr ⟨x, hx, hm⟩)]

theorem survivors_eq (h : Mirrors f s t) (hs : Placed s) (hv : SameTargets f s t) :
    t.survivors = s.survivors.map f := by
  rw [survivors, survivors, line, line, List.filter_append, List.filter_append, List.map_append,
    h.filter_due hs hv (by decide), h.filter_due hs hv (by decide)]

theorem holder_eq (h : Mirrors f s t) (hs : Placed s) (hv : SameTargets f s t) :
    t.holder = s.holder.map f := by
  rw [holder, holder, h.survivors_eq hs hv, List.head?_map]

theorem holder_eq_iff (h : Mirrors f s t) (hs : Placed s) (ht : Placed t) (hv : SameTargets f s t)
    (hm : pid ∈ s.roster.pids) : t.holder = some (f pid) ↔ s.holder = some pid := by
  rw [h.holder_eq hs hv, Option.map_eq_some_iff]
  constructor
  · rintro ⟨a, ha, he⟩
    rw [ha, h.roster.injOn ht.nodup (hs.mem_pids_of_holder ha) hm he]
  · exact fun hh => ⟨pid, hh, rfl⟩

theorem woken_eq (h : Mirrors f s t) (hs : Placed s) (ht : Placed t) (hv : SameTargets f s t) :
    t.woken = s.woken.map f := by
  have hkept : t.waiting.entries.filter (· ∉ t.due) =
      (s.waiting.entries.filter (· ∉ s.due)).map f := h.filter_due hs hv (x := .waiting) (by decide)
  rw [woken, woken, hkept, List.filter_map]
  refine congrArg (List.map f) (List.filter_congr fun pid hm => ?_)
  obtain ⟨p, hp, _⟩ := hs.exists_entry (x := .waiting) (List.mem_of_mem_filter hm)
  obtain ⟨q, hq, halike⟩ := h.roster.exists_find? ht.nodup hp
  simp only [Function.comp_apply, hp, hq, Option.any_some, halike.ioLeft]

theorem roster_step (h : Mirrors f s t) (hs : Placed s) (ht : Placed t) (hv : SameTargets f s t)
    (hf : s.isFinished = false) : s.step.roster.Mirrors f t.step.roster := by
  have hf' : t.isFinished = false := (h.isFinished_eq hs ht).trans hf
  rw [Roster.Mirrors, hs.entries_step hf, ht.entries_step hf', List.forall₂_map_left_iff,
    List.forall₂_map_right_iff, h.tick]
  refine ((List.forall₂_and_left ..).mpr ⟨fun p hp => hp, h.roster⟩).imp fun p q hpq => ?_
  obtain ⟨hp, hpid, halike⟩ := hpq
  have hfind := Roster.find?_pid hs.nodup hp
  have hm : p.pid ∈ s.roster.pids := List.mem_map_of_mem hp
  refine ⟨by rw [q.pid_afterTick, p.pid_afterTick, hpid], ?_⟩
  have hcpu : decide (t.holder = some q.pid) = decide (s.holder = some p.pid) :=
    decide_eq_decide.mpr (hpid ▸ h.holder_eq_iff hs ht hv hm)
  rw [hcpu]
  cases hfin : p.isFinal with
  | true =>
    rw [p.afterTick_of_isFinal hfin, q.afterTick_of_isFinal (halike.isFinal_eq.trans hfin)]
    exact halike
  | false =>
    have hlive : s.isLive p.pid = true := by simp [isLive, hfind, hfin]
    have hdue : decide (q.pid ∈ t.due) = decide (p.pid ∈ s.due) :=
      decide_eq_decide.mpr (hpid ▸ hv p.pid hlive)
    rw [hdue]
    exact halike.afterTick ..

theorem filter_holder (h : Mirrors f s t) (hs : Placed s) (ht : Placed t) (hv : SameTargets f s t)
    (hf : s.isFinished = false) (x : Place) :
    t.holder.toList.filter (t.step.isAt x) = (s.holder.toList.filter (s.step.isAt x)).map f := by
  rw [h.holder_eq hs hv, Option.toList_map]
  refine filter_isAt (h.roster_step hs ht hv hf) ht.step x fun pid hpid => ?_
  rw [pids_step hs]
  exact hs.mem_pids_of_holder (Option.mem_toList.mp hpid)

theorem step (h : Mirrors f s t) (hs : Placed s) (ht : Placed t) (hv : SameTargets f s t)
    (hf : s.isFinished = false) : Mirrors f s.step t.step := by
  have hf' : t.isFinished = false := (h.isFinished_eq hs ht).trans hf
  have hroster := h.roster_step hs ht hv hf
  refine ⟨?_, ?_, hroster, fun x hx => ?_⟩
  · rw [tick_step hf, tick_step hf', h.tick]
  · rw [hs.timeline_step hf, ht.timeline_step hf', h.timeline, h.holder_eq hs hv, Array.map_push]
  · cases x with
    | finished => exact absurd rfl hx
    | cpu => rw [hs.cpu_step hf, ht.cpu_step hf', h.filter_holder hs ht hv hf]
    | ready =>
      have hready := hs.ready_step hf
      have hready' := ht.ready_step hf'
      rw [h.survivors_eq hs hv, h.woken_eq hs ht hv, ← List.map_tail, ← List.map_append,
        ← hready] at hready'
      exact hready'
    | waiting =>
      have hcohort : ∀ pid ∈ (s.heldIn .waiting).filter (· ∉ s.due), pid ∈ s.step.roster.pids :=
        fun pid hpid => by
          rw [pids_step hs]
          exact hs.mem_pids (List.mem_of_mem_filter hpid)
      rw [hs.waiting_step hf, ht.waiting_step hf', h.filter_due hs hv hx, List.filter_append,
        List.filter_append, filter_isAt hroster ht.step .waiting hcohort,
        h.filter_holder hs ht hv hf, List.map_append]

theorem finished_step (h : Mirrors f s t) (hs : Placed s) (ht : Placed t) (hv : SameTargets f s t)
    (hf : s.isFinished = false) (hfelled : t.felled = s.felled.map f)
    (hfinished : t.finished.entries = s.finished.entries.map f) :
    t.step.finished.entries = s.step.finished.entries.map f := by
  have hf' : t.isFinished = false := (h.isFinished_eq hs ht).trans hf
  rw [hs.finished_step_eq hf, ht.finished_step_eq hf', hfinished, hfelled,
    h.filter_holder hs ht hv hf, List.map_append, List.map_append]

theorem sameTargets_of_felled (h : Mirrors f s t) (ht : Placed t)
    (hfelled : t.felled = s.felled.map f) : SameTargets f s t := by
  intro pid hl
  have hm := mem_pids_of_isLive hl
  have hl' : t.isLive (f pid) = true := (h.isLive_eq ht hm).trans hl
  have hdue : f pid ∈ t.due ↔ f pid ∈ t.felled := by rw [mem_felled_iff, and_iff_left hl']
  rw [hdue, hfelled, List.mem_map]
  constructor
  · rintro ⟨a, ha, he⟩
    obtain ⟨hdue, hla⟩ := mem_felled_iff.mp ha
    exact h.roster.injOn ht.nodup (mem_pids_of_isLive hla) hm he ▸ hdue
  · exact fun hd => ⟨pid, mem_felled_iff.mpr ⟨hd, hl⟩, rfl⟩

/-! ### Many ticks -/

theorem steps (h : Mirrors f s t) (hs : Placed s) (ht : Placed t)
    (hv : ∀ n, Mirrors f (s.steps n) (t.steps n) → SameTargets f (s.steps n) (t.steps n)) (n : Nat) :
    Mirrors f (s.steps n) (t.steps n) := by
  induction n with
  | zero => exact h
  | succ n ih =>
    rw [steps_succ_last, steps_succ_last]
    have hs' := hs.steps n
    have ht' := ht.steps n
    cases hf : (s.steps n).isFinished with
    | true =>
      rw [step_of_isFinished hf, step_of_isFinished ((ih.isFinished_eq hs' ht').trans hf)]
      exact ih
    | false => exact ih.step hs' ht' (hv n ih) hf

theorem finished_steps (hs : Placed s) (ht : Placed t) (hm : ∀ n, Mirrors f (s.steps n) (t.steps n))
    (hfelled : ∀ n, (t.steps n).felled = (s.steps n).felled.map f)
    (hfinished : t.finished.entries = s.finished.entries.map f) (n : Nat) :
    (t.steps n).finished.entries = (s.steps n).finished.entries.map f := by
  induction n with
  | zero => exact hfinished
  | succ n ih =>
    rw [steps_succ_last, steps_succ_last]
    have hs' := hs.steps n
    have ht' := ht.steps n
    cases hf : (s.steps n).isFinished with
    | true =>
      rw [step_of_isFinished hf, step_of_isFinished (((hm n).isFinished_eq hs' ht').trans hf)]
      exact ih
    | false =>
      have hv := (hm n).sameTargets_of_felled ht' (hfelled n)
      exact (hm n).finished_step hs' ht' hv hf (hfelled n) ih

theorem finish (hm : ∀ n, Mirrors f (s.steps n) (t.steps n)) : Mirrors f s.finish t.finish := by
  have h : Mirrors f s t := hm 0
  rw [Simulation.finish, Simulation.finish, h.roster.budget_eq]
  exact hm s.roster.budget

theorem finished_finish (hs : Placed s) (ht : Placed t) (hm : ∀ n, Mirrors f (s.steps n) (t.steps n))
    (hfelled : ∀ n, (t.steps n).felled = (s.steps n).felled.map f)
    (hs₀ : s.finished.entries = []) (ht₀ : t.finished.entries = []) :
    t.finish.finished.entries = s.finish.finished.entries.map f := by
  have h : Mirrors f s t := hm 0
  have hfinished : t.finished.entries = s.finished.entries.map f := by rw [hs₀, ht₀, List.map_nil]
  rw [Simulation.finish, Simulation.finish, h.roster.budget_eq]
  exact finished_steps hs ht hm hfelled hfinished s.roster.budget

end Mirrors

theorem mirrors_fresh {f : Pid → Pid} {jobs jobs' : List Job}
    (h : List.Forall₂ (fun j k => k.pid = f j.pid ∧ j.Alike k) jobs jobs') (kills kills' : List Kill) :
    Mirrors f (fresh jobs kills) (fresh jobs' kills') := by
  refine ⟨rfl, Array.map_empty.symm, ?_, fun x hx => ?_⟩
  · rw [Roster.Mirrors, fresh, fresh, List.forall₂_map_left_iff, List.forall₂_map_right_iff]
    exact h.imp fun j k hjk => ⟨hjk.1, hjk.2, rfl, rfl, rfl⟩
  · cases x with
    | ready =>
      change jobs'.map (·.pid) = (jobs.map (·.pid)).map f
      rw [List.map_map]
      exact map_eq_of_forall₂ h fun _ _ hjk => hjk.1
    | cpu | waiting => rfl
    | finished => exact absurd rfl hx

end Simulation

/-! ### The counters -/

theorem starts_map {timeline : Array (Option Pid)} {f : Pid → Pid}
    (hf : ∀ a b, some a ∈ timeline → some b ∈ timeline → f a = f b → a = b) :
    starts (timeline.map (Option.map f)) = starts timeline := by
  rw [starts, starts, Array.size_map]
  refine List.countP_congr fun i _ => ?_
  simp only [startsAt, Array.getElem?_map]
  cases hi : timeline[i]? with
  | none => rfl
  | some entry =>
    cases entry with
    | none => rfl
    | some a =>
      have ha : some a ∈ timeline := Array.mem_of_getElem? hi
      have hsame : (timeline[i - 1]?).map (Option.map f) = some (some (f a)) ↔
          timeline[i - 1]? = some (some a) := by
        rw [Option.map_eq_some_iff]
        constructor
        · rintro ⟨entry, hentry, he⟩
          obtain ⟨b, rfl, hb⟩ := Option.map_eq_some_iff.mp he
          rw [hentry, hf b a (Array.mem_of_getElem? hentry) ha hb]
        · exact fun hentry => ⟨some a, hentry, rfl⟩
      simp only [Option.map_some, ne_eq, hsame]

namespace Simulation

variable {f : Pid → Pid} {s t : Simulation} {kills kills' : List Kill} {pid : Pid}

theorem Ledger.mem_pids (h : Ledger kills s) (hm : some pid ∈ s.timeline) : pid ∈ s.roster.pids := by
  have hpos := Array.count_pos_iff.mpr hm
  rw [h.executed, executedOf] at hpos
  rw [← Roster.isSome_find?_iff]
  cases hp : s.roster.find? pid with
  | none => simp [hp] at hpos
  | some p => rfl

theorem Mirrors.tally_eq (h : Mirrors f s t) (ht : Placed t) (hl : Ledger kills s)
    (hl' : Ledger kills' t) :
    t.tally =
      { s.tally with
        killsIgnored := t.tally.killsIgnored
        killsUnfired := t.tally.killsUnfired } := by
  have hticks : t.tally.ticks = s.tally.ticks := by rw [hl.ticks, hl'.ticks, h.tick]
  have hdispatches : t.tally.dispatches = s.tally.dispatches := by
    rw [hl.dispatches, hl'.dispatches, h.timeline]
    exact starts_map fun a b ha hb => h.roster.injOn ht.nodup (hl.mem_pids ha) (hl.mem_pids hb)
  have hbusy : t.tally.busy = s.tally.busy := by
    rw [hl.busy_shown, hl'.busy_shown, h.timeline, Array.countP_map]
    congr 1
    funext entry
    cases entry <;> rfl
  have hidle : t.tally.idle = s.tally.idle := by
    have hsum := hl.busy_add_idle
    have hsum' := hl'.busy_add_idle
    have htick := h.tick
    omega
  have hwaits : t.tally.ioWaits = s.tally.ioWaits := by
    rw [hl.ioWaits, hl'.ioWaits]
    exact countP_eq_of_forall₂ h.roster fun _ _ hpq => hpq.2.ioBegun_eq
  have hcompletions : t.tally.completions = s.tally.completions := by
    rw [hl.completions, hl'.completions]
    exact countP_eq_of_forall₂ h.roster fun _ _ hpq => hpq.2.isCompleted_eq
  have hkills : t.tally.killsApplied = s.tally.killsApplied := by
    rw [hl.killsApplied, hl'.killsApplied]
    exact countP_eq_of_forall₂ h.roster fun _ _ hpq => hpq.2.wasKilled_eq
  dsimp only
  rw [← hticks, ← hdispatches, ← hbusy, ← hidle, ← hwaits, ← hcompletions, ← hkills]

theorem Mirrors.tally_outcome (h : Mirrors f s t) (ht : Placed t) (hl : Ledger kills s)
    (hl' : Ledger kills' t) (hk : (kills'.map (·.tick)).Perm (kills.map (·.tick))) :
    t.outcome.tally = s.outcome.tally := by
  have hcount (g : Nat → Bool) : kills'.countP (g ·.tick) = kills.countP (g ·.tick) := by
    have hmap (kills : List Kill) : kills.countP (g ·.tick) = (kills.map (·.tick)).countP g :=
      List.countP_map.symm
    rw [hmap, hmap, hk.countP_eq]
  have hsame := h.tally_eq ht hl hl'
  have hignored : t.tally.killsIgnored = s.tally.killsIgnored := by
    have happlied : t.tally.killsApplied = s.tally.killsApplied := by rw [hsame]
    have hfired := hl.fired
    have hfired' := hl'.fired
    rw [h.tick, hcount fun n => n < s.tick] at hfired'
    omega
  have hunfired : t.kills.size = s.kills.size := by
    rw [KillPlan.size, KillPlan.size, hl.pending, hl'.pending, ← List.countP_eq_length_filter,
      ← List.countP_eq_length_filter, h.tick, hcount fun n => s.tick ≤ n]
  rw [outcome, outcome, hsame, hignored, hunfired]

end Simulation
end FirstCome
