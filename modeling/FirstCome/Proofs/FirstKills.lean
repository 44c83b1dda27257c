import FirstCome.Proofs.Mirror

/-!
Which kills matter. Of the kills at a job only the first has an effect, so a run can be told from the
tick of the first kill at each of its jobs; and of the order in which the kills are listed only that of
first kills in the same tick shows, in the order in which these jobs leave the system.
-/
namespace FirstCome

attribute [ext] Kill

namespace Kill

/-- For each of the pids, the first listed of the kills at its first tick. -/
def leading (pids : List Pid) (kills : List Kill) : List Kill :=
  (kills.filter fun e => e.pid ∈ pids ∧ first? kills e.pid = some e.tick).eraseDups

variable {pids : List Pid} {kills kills' : List Kill} {pid : Pid} {e : Kill}

theorem mem_of_first? (h : first? kills e.pid = some e.tick) : e ∈ kills := by
  obtain ⟨⟨e', he', hpid, htick⟩, _⟩ := first?_eq_some_iff.mp h
  exact Kill.ext hpid htick ▸ he'

theorem mem_leading_iff :
    e ∈ leading pids kills ↔ e.pid ∈ pids ∧ first? kills e.pid = some e.tick := by
  rw [leading, List.mem_eraseDups, List.mem_filter, decide_eq_true_eq]
  exact and_iff_right_of_imp fun h => mem_of_first? h.2

theorem first?_congr (h : ∀ e, e ∈ kills' ↔ e ∈ kills) (pid : Pid) :
    first? kills' pid = first? kills pid := by
  refine Option.ext fun k => ?_
  rw [first?_eq_some_iff, first?_eq_some_iff]
  simp only [h]

theorem first?_leading (hp : pid ∈ pids) : first? (leading pids kills) pid = first? kills pid := by
  refine Option.ext fun k => ?_
  constructor
  · intro h
    obtain ⟨⟨e, he, rfl, rfl⟩, _⟩ := first?_eq_some_iff.mp h
    exact (mem_leading_iff.mp he).2
  · intro h
    refine first?_eq_some_iff.mpr ⟨⟨⟨pid, k⟩, mem_leading_iff.mpr ⟨hp, h⟩, rfl, rfl⟩, ?_⟩
    rintro e he rfl
    have hk : some k = some e.tick := h.symm.trans (mem_leading_iff.mp he).2
    exact (Option.some.inj hk).le

theorem leading_leading (pids : List Pid) (kills : List Kill) :
    leading pids (leading pids kills) = leading pids kills := by
  have hkept : ((leading pids kills).filter fun e =>
      e.pid ∈ pids ∧ first? (leading pids kills) e.pid = some e.tick) = leading pids kills := by
    refine List.filter_eq_self.mpr fun e he => ?_
    obtain ⟨hp, hfirst⟩ := mem_leading_iff.mp he
    exact decide_eq_true ⟨hp, (first?_leading hp).trans hfirst⟩
  rw [leading, hkept]
  exact eraseDups_of_nodup (nodup_eraseDups _)

theorem leading_congr (h : kills'.eraseDups = kills.eraseDups) (pids : List Pid) :
    leading pids kills' = leading pids kills := by
  have hmem (e : Kill) : e ∈ kills' ↔ e ∈ kills := by
    rw [← List.mem_eraseDups, h, List.mem_eraseDups]
  rw [leading, leading, ← filter_eraseDups, ← filter_eraseDups, h]
  simp only [first?_congr hmem]

end Kill

namespace Simulation

variable {jobs : List Job} {kills kills' : List Kill} {pid : Pid} {p : Progress}

/-! ### The kills that are due -/

theorem mem_jobs_of_isLive {n : Nat} (hl : ((start jobs kills).steps n).isLive pid = true) :
    pid ∈ jobs.map (·.pid) := by
  have hm := mem_pids_of_isLive hl
  rw [pids_steps (Placed.start jobs kills)] at hm
  exact mem_pids_start_iff.mp hm

theorem tick_le_of_active (n : Nat) (hp : ((start jobs kills).steps n).roster.find? pid = some p)
    (ha : p.isFinal = false) {e : Kill} (he : e ∈ kills) (hpid : e.pid = pid) :
    ((start jobs kills).steps n).tick ≤ e.tick := by
  refine entry_induction (P := fun now p => p.isFinal = false → now ≤ e.tick) ?_ ?_ n hp ha
  · exact fun _ _ _ _ => Nat.zero_le _
  · intro n p q hp ht hle hq
    obtain ⟨hactive, hd⟩ := ht.move.active_of_active hq
    have hs := (Placed.start jobs kills).steps n
    have htick := tick_steps _ n (isFinished_eq_false hs hp hactive)
    rw [tick_start, Nat.zero_add] at htick
    have hne : e.tick ≠ n := fun he' => of_decide_eq_false hd
      ((mem_due_iff (pending_steps (pending_start jobs kills) n)).mpr
        ⟨e, he, he'.trans htick.symm, hpid⟩)
    have := hle hactive
    omega

theorem first?_of_isLive {n : Nat} (hl : ((start jobs kills).steps n).isLive pid = true) {e : Kill}
    (he : e ∈ kills) (hpid : e.pid = pid) (ht : e.tick = ((start jobs kills).steps n).tick) :
    Kill.first? kills pid = some e.tick := by
  obtain ⟨p, hp, ha⟩ := ((Placed.start jobs kills).steps n).exists_of_isLive hl
  refine Kill.first?_eq_some_iff.mpr ⟨⟨e, he, hpid, rfl⟩, fun e' he' hpid' => ?_⟩
  rw [ht]
  exact tick_le_of_active n hp ha he' hpid'

theorem mem_due_iff_first? {n : Nat} (hl : ((start jobs kills).steps n).isLive pid = true) :
    pid ∈ ((start jobs kills).steps n).due ↔
      Kill.first? kills pid = some ((start jobs kills).steps n).tick := by
  rw [mem_due_iff (pending_steps (pending_start jobs kills) n)]
  constructor
  · rintro ⟨e, he, ht, hpid⟩
    rw [← ht]
    exact first?_of_isLive hl he hpid ht
  · intro hfirst
    obtain ⟨e, he, hpid, ht⟩ := (Kill.first?_eq_some_iff.mp hfirst).1
    exact ⟨e, he, ht, hpid⟩

theorem felled_eq (jobs : List Job) (kills : List Kill) (n : Nat) :
    let s := (start jobs kills).steps n
    s.felled =
      ((Kill.leading (jobs.map (·.pid)) kills).filter fun e => e.tick = s.tick ∧ s.isLive e.pid).map
        (·.pid) := by
  intro s
  -- in one tick kills at the same job are the same kill
  have hinj : ∀ a ∈ (kills.filter (·.tick = s.tick)).filter (s.isLive ·.pid),
      ∀ b ∈ (kills.filter (·.tick = s.tick)).filter (s.isLive ·.pid), a.pid = b.pid → a = b := by
    intro a ha b hb hpid
    have hta := of_decide_eq_true (List.mem_filter.mp (List.mem_of_mem_filter ha)).2
    have htb := of_decide_eq_true (List.mem_filter.mp (List.mem_of_mem_filter hb)).2
    exact Kill.ext hpid (hta.trans htb.symm)
  have hlive : s.due.filter s.isLive =
      ((kills.filter (·.tick = s.tick)).filter (s.isLive ·.pid)).map (·.pid) := by
    rw [due_eq (pending_steps (pending_start jobs kills) n), List.filter_map]
    rfl
  rw [felled, hlive, eraseDups_map hinj, Kill.leading, filter_eraseDups, List.filter_filter,
    List.filter_filter]
  refine congrArg (fun es : List Kill => es.eraseDups.map (·.pid)) (List.filter_congr fun e he => ?_)
  rw [Bool.eq_iff_iff]
  simp only [Bool.and_eq_true, decide_eq_true_eq]
  constructor
  · rintro ⟨hl, ht⟩
    exact ⟨⟨ht, hl⟩, mem_jobs_of_isLive hl, first?_of_isLive hl he rfl ht⟩
  · rintro ⟨⟨ht, hl⟩, _⟩
    exact ⟨hl, ht⟩

/-! ### Runs with the same first kills -/

theorem mirrors_start (jobs : List Job) (kills kills' : List Kill) :
    Mirrors id (start jobs kills) (start jobs kills') := by
  rw [start_eq, start_eq]
  exact mirrors_fresh (List.forall₂_same.mpr fun j _ => ⟨rfl, .refl j⟩) kills kills'

theorem mirrors_of_first? (h : ∀ pid ∈ jobs.map (·.pid), Kill.first? kills' pid = Kill.first? kills pid)
    (n : Nat) : Mirrors id ((start jobs kills).steps n) ((start jobs kills').steps n) := by
  have hs := Placed.start jobs kills
  have ht := Placed.start jobs kills'
  refine (mirrors_start jobs kills kills').steps hs ht (fun n hm pid hl => ?_) n
  have hl' := (hm.isLive_eq (ht.steps n) (mem_pids_of_isLive hl)).trans hl
  rw [mem_due_iff_first? hl, mem_due_iff_first? hl', id_eq, h pid (mem_jobs_of_isLive hl), hm.tick]

theorem roster_finish_eq
    (h : ∀ pid ∈ jobs.map (·.pid), Kill.first? kills' pid = Kill.first? kills pid) :
    (start jobs kills').finish.roster = (start jobs kills).finish.roster := by
  refine (Mirrors.finish (mirrors_of_first? h)).roster.eq_of_map_job_eq ?_
  rw [finish, finish, map_job_steps (Placed.start jobs kills), map_job_steps (Placed.start jobs kills'),
    map_job_start, map_job_start]

end Simulation

namespace Outcome

def KilledAt (o : Outcome) (pid : Pid) (t : Nat) : Prop :=
  ∃ r, o.result? pid = some r ∧ r.killed = true ∧ r.killedAt = some t

/-- The same outcome, but for the counters of kills without effect and for the order of jobs that were
killed in the same tick. -/
structure SameUpToTies (o o' : Outcome) : Prop where
  results : o'.results = o.results
  timeline : o'.timeline = o.timeline
  finalTick : o'.finalTick = o.finalTick
  tally : o'.tally =
    { o.tally with
      killsIgnored := o'.tally.killsIgnored
      killsUnfired := o'.tally.killsUnfired }
  perm : o'.completionOrder.Perm o.completionOrder
  ties : ∀ a b, [a, b].Sublist o.completionOrder → [b, a].Sublist o'.completionOrder →
    ∃ t, o.KilledAt a t ∧ o.KilledAt b t

end Outcome

namespace Simulation

variable {jobs : List Job} {kills kills' : List Kill} {s t : Simulation} {a b : Pid}

theorem killedAt_of_phase {p : Progress} {n : Nat} (h : Placed s) (hp : s.roster.find? a = some p)
    (hφ : p.phase = .killed n) : s.outcome.KilledAt a n := by
  have hr : s.outcome.result? a = Result.ofProgress? p := by
    rw [result?_outcome h, resultOf, hp, Option.bind_some]
  rw [Result.ofProgress?_of_killed hφ] at hr
  exact ⟨_, hr, rfl, rfl⟩

theorem Chronological.ties (hs : Chronological s) (ht : Chronological t) (h : Placed s)
    (hr : t.roster = s.roster) (hab : [a, b].Sublist s.finished.entries)
    (hba : [b, a].Sublist t.finished.entries) :
    ∃ n, s.outcome.KilledAt a n ∧ s.outcome.KilledAt b n := by
  obtain ⟨p, q, hp, hq, horder⟩ := List.pairwise_pair.mp (hs.sublist hab)
  obtain ⟨q', p', hq', hp', horder'⟩ := List.pairwise_pair.mp (ht.sublist hba)
  rw [hr] at hp' hq'
  obtain rfl := Option.some.inj (hp.symm.trans hp')
  obtain rfl := Option.some.inj (hq.symm.trans hq')
  obtain hlt | ⟨n, hpn, hqn⟩ := horder
  · obtain hlt' | ⟨n, hqn, hpn⟩ := horder'
    · exact absurd hlt (Nat.lt_asymm hlt')
    · exact ⟨n, killedAt_of_phase h hp hpn, killedAt_of_phase h hq hqn⟩
  · exact ⟨n, killedAt_of_phase h hp hpn, killedAt_of_phase h hq hqn⟩

theorem sameUpToTies_of_first?
    (h : ∀ pid ∈ jobs.map (·.pid), Kill.first? kills' pid = Kill.first? kills pid) :
    (start jobs kills).finish.outcome.SameUpToTies (start jobs kills').finish.outcome := by
  have hm := Mirrors.finish (mirrors_of_first? h)
  have hroster := roster_finish_eq h
  have hs := (Placed.start jobs kills).finish
  have ht := (Placed.start jobs kills').finish
  refine ⟨?_, ?_, hm.tick, ?_, ?_, fun a b hab hba => ?_⟩
  · have hsame : (start jobs kills').finish.resultOf = (start jobs kills).finish.resultOf := by
      funext pid
      rw [resultOf, resultOf, hroster]
    rw [results_outcome hs, results_outcome ht, hroster, hsame]
  · have htimeline := hm.timeline
    rw [Option.map_id, Array.map_id] at htimeline
    exact htimeline
  · have hsame := hm.tally_eq ht (Ledger.run jobs kills _) (Ledger.run jobs kills' _)
    exact congrArg (fun tally : Tally =>
      { tally with killsUnfired := (start jobs kills').finish.kills.size }) hsame
  · have hperm := hs.perm_finished (isFinished_finish jobs kills)
    have hperm' := ht.perm_finished (isFinished_finish jobs kills')
    rw [hroster] at hperm'
    exact hperm'.trans hperm.symm
  · have hc : Chronological (start jobs kills).finish :=
      (Chronological.start jobs kills).steps (Sound.start jobs kills) _
    have hc' : Chronological (start jobs kills').finish :=
      (Chronological.start jobs kills').steps (Sound.start jobs kills') _
    exact hc.ties hc' hs hroster hab hba

theorem completionOrder_of_leading
    (h : Kill.leading (jobs.map (·.pid)) kills' = Kill.leading (jobs.map (·.pid)) kills) :
    (start jobs kills').finish.outcome.completionOrder =
      (start jobs kills).finish.outcome.completionOrder := by
  have hfirst : ∀ pid ∈ jobs.map (·.pid), Kill.first? kills' pid = Kill.first? kills pid :=
    fun pid hp => by rw [← Kill.first?_leading hp, h, Kill.first?_leading hp]
  have hm := mirrors_of_first? hfirst
  have hs := Placed.start jobs kills
  have ht := Placed.start jobs kills'
  have hfelled (n : Nat) :
      ((start jobs kills').steps n).felled = ((start jobs kills).steps n).felled.map id := by
    rw [List.map_id, felled_eq, felled_eq, h, (hm n).tick]
    refine congrArg (List.map fun e : Kill => e.pid) (List.filter_congr fun e he => ?_)
    have hp : e.pid ∈ ((start jobs kills).steps n).roster.pids := by
      rw [pids_steps hs, mem_pids_start_iff]
      exact (Kill.mem_leading_iff.mp he).1
    have hl := (hm n).isLive_eq (ht.steps n) hp
    rw [id_eq] at hl
    rw [hl]
  have hend := Mirrors.finished_finish hs ht hm hfelled (finished_start ..) (finished_start ..)
  rw [List.map_id] at hend
  exact hend

/-! ### The order of the kills -/

/-- The order in which the kills are listed shows only in the order in which the jobs that are killed in
the same tick leave the system. -/
theorem kills_commute (jobs : List Job) {kills kills' : List Kill} (h : kills'.Perm kills) :
    let o := (start jobs kills).finish.outcome
    let o' := (start jobs kills').finish.outcome
    o.SameUpToTies o' ∧ o'.tally = o.tally := by
  intro o o'
  have hfirst : ∀ pid ∈ jobs.map (·.pid), Kill.first? kills' pid = Kill.first? kills pid :=
    fun pid _ => Kill.first?_congr (fun e => h.mem_iff) pid
  have hm := Mirrors.finish (mirrors_of_first? hfirst)
  have ht := (Placed.start jobs kills').finish
  exact ⟨sameUpToTies_of_first? hfirst,
    hm.tally_outcome ht (Ledger.run jobs kills _) (Ledger.run jobs kills' _) (h.map _)⟩

/-- Two jobs killed in the same tick, and a third that completes: the two leave in the order of their
kills, and nothing else differs. -/
theorem kills_commute_three :
    let jobs : List Job :=
      [{ pid := 1, name := "a", burst := 4 }, { pid := 2, name := "b", burst := 4 },
        { pid := 3, name := "c", burst := 2 }]
    let kills : List Kill := [⟨1, 1⟩, ⟨2, 1⟩, ⟨2, 1⟩, ⟨3, 9⟩]
    let kills' : List Kill := [⟨2, 1⟩, ⟨3, 9⟩, ⟨1, 1⟩, ⟨2, 1⟩]
    let o := (start jobs kills).finish.outcome
    let o' := (start jobs kills').finish.outcome
    kills'.Perm kills ∧ (o.SameUpToTies o' ∧ o'.tally = o.tally) ∧
      o.completionOrder = [1, 2, 3] ∧ o'.completionOrder = [2, 1, 3] := by
  intro jobs kills kills' o o'
  have hperm : kills'.Perm kills := by decide
  exact ⟨hperm, kills_commute jobs hperm, by decide, by decide⟩

/-! ### Kills without effect -/

/-- A run does not change when only the leading kills are kept. So it changes when kills are repeated,
at any places, at most as it does when they are listed in another order, and not at all when each repeat
is listed behind the kill that it repeats. -/
theorem redundant_kills (jobs : List Job) (kills : List Kill) :
    let o := (start jobs kills).finish.outcome
    let led := (start jobs (Kill.leading (jobs.map (·.pid)) kills)).finish.outcome
    (o.SameUpToTies led ∧ led.completionOrder = o.completionOrder) ∧
      ∀ kills', (∀ e, e ∈ kills' ↔ e ∈ kills) →
        let o' := (start jobs kills').finish.outcome
        o.SameUpToTies o' ∧
          (kills'.eraseDups = kills.eraseDups → o'.completionOrder = o.completionOrder) := by
  intro o led
  refine ⟨⟨?_, ?_⟩, fun kills' hmem => ⟨?_, fun hfirst => ?_⟩⟩
  · exact sameUpToTies_of_first? fun pid hp => Kill.first?_leading hp
  · exact completionOrder_of_leading (Kill.leading_leading ..)
  · exact sameUpToTies_of_first? fun pid _ => Kill.first?_congr hmem pid
  · exact completionOrder_of_leading (Kill.leading_congr hfirst _)

/-- The first job has a second kill to come, the second is killed twice in one tick, and nobody is known
by the last pid. -/
theorem redundant_kills_two :
    let jobs : List Job :=
      [{ pid := 1, name := "a", burst := 4 }, { pid := 2, name := "b", burst := 4 }]
    let kills : List Kill := [⟨1, 3⟩, ⟨2, 1⟩, ⟨1, 1⟩, ⟨2, 1⟩, ⟨9, 0⟩]
    let kills' : List Kill := [⟨1, 3⟩, ⟨2, 1⟩, ⟨2, 1⟩, ⟨1, 1⟩, ⟨9, 0⟩, ⟨1, 3⟩]
    let o := (start jobs kills).finish.outcome
    let o' := (start jobs kills').finish.outcome
    (Kill.leading (jobs.map (·.pid)) kills = [⟨2, 1⟩, ⟨1, 1⟩] ∧
        (start jobs [⟨2, 1⟩, ⟨1, 1⟩]).finish.outcome.completionOrder = o.completionOrder) ∧
      (∀ e, e ∈ kills' ↔ e ∈ kills) ∧ kills'.eraseDups = kills.eraseDups ∧
      o.SameUpToTies o' ∧ o'.completionOrder = o.completionOrder ∧ o.completionOrder = [2, 1] := by
  intro jobs kills kills' o o'
  have hlead : Kill.leading (jobs.map (·.pid)) kills = [⟨2, 1⟩, ⟨1, 1⟩] := by decide
  have hfirst : kills'.eraseDups = kills.eraseDups := by decide
  have hmem (e : Kill) : e ∈ kills' ↔ e ∈ kills := by
    rw [← List.mem_eraseDups, hfirst, List.mem_eraseDups]
  obtain ⟨⟨_, hled⟩, hrepeats⟩ := redundant_kills jobs kills
  obtain ⟨hsame, horder⟩ := hrepeats kills' hmem
  rw [hlead] at hled
  exact ⟨⟨hlead, hled⟩, hmem, hfirst, hsame, horder hfirst, by decide⟩

/-- A repeat that is listed ahead of the kill can come ahead of other kills of the same tick. -/
theorem repeat_ahead_reorders :
    ¬∀ (jobs : List Job) (before after : List Kill) (e : Kill), e ∈ before ++ after →
      (start jobs (before ++ e :: after)).finish.outcome.completionOrder =
        (start jobs (before ++ after)).finish.outcome.completionOrder := by
  intro h
  have hsame := h [{ pid := 1, name := "a", burst := 1 }, { pid := 2, name := "b", burst := 1 }]
    [] [⟨1, 0⟩, ⟨2, 0⟩] ⟨2, 0⟩ (by decide)
  revert hsame
  decide

end Simulation
end FirstCome
