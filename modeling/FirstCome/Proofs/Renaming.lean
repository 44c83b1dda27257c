import FirstCome.Proofs.Mirror

/-!
What a run does not depend on: which pids the jobs have, how they are named, and what is said of I/O
that no run can come to. Only the order of the jobs, their bursts and the I/O that they can enter count.
-/
namespace FirstCome

theorem Progress.Alike.exists_results {p q : Progress} (h : p.Alike q) (hf : p.isFinal = true) :
    ∃ r r', Result.ofProgress? p = some r ∧ Result.ofProgress? q = some r' ∧
      r'.completionTick = r.completionTick ∧ r'.killed = r.killed ∧ r'.killedAt = r.killedAt := by
  have hq : q.isFinal = true := h.isFinal_eq.trans hf
  obtain ⟨r, hr⟩ := Option.isSome_iff_exists.mp (Result.isSome_ofProgress?_iff.mpr hf)
  obtain ⟨r', hr'⟩ := Option.isSome_iff_exists.mp (Result.isSome_ofProgress?_iff.mpr hq)
  obtain ⟨t, ht, rfl⟩ := Option.map_eq_some_iff.mp hr
  obtain ⟨t', ht', rfl⟩ := Option.map_eq_some_iff.mp hr'
  have htick : q.completionTick = p.completionTick := by rw [completionTick, completionTick, h.phase]
  have hkilled : q.killedAt = p.killedAt := by rw [killedAt, killedAt, h.phase]
  refine ⟨_, _, hr, hr', ?_, h.wasKilled_eq, hkilled⟩
  exact Option.some.inj (ht'.symm.trans (htick.trans ht))

namespace Workload

variable {w w' : Workload} {f : Pid → Pid} {n : Nat} {pid : Pid}

def mentioned (w : Workload) : List Pid := w.jobs.map (·.pid) ++ w.kills.map (·.pid)

theorem placed (w : Workload) : w.simulation.Placed := Simulation.Placed.start w.jobs w.kills

theorem due_steps (w : Workload) (n : Nat) :
    (w.simulation.steps n).due =
      (w.kills.filter (·.tick = (w.simulation.steps n).tick)).map (·.pid) :=
  Simulation.due_eq (Simulation.pending_steps (Simulation.pending_start w.jobs w.kills) n)

theorem mentioned_of_due (hd : pid ∈ (w.simulation.steps n).due) : pid ∈ w.mentioned := by
  rw [due_steps] at hd
  obtain ⟨e, he, rfl⟩ := List.mem_map.mp hd
  exact List.mem_append_right _ (List.mem_map_of_mem (List.mem_of_mem_filter he))

theorem mentioned_of_mem_pids (hm : pid ∈ (w.simulation.steps n).roster.pids) :
    pid ∈ w.mentioned := by
  rw [Simulation.pids_steps w.placed] at hm
  exact List.mem_append_left _ (Simulation.mem_pids_start_iff.mp hm)

/-- The one workload is the other with other pids, the names of its jobs and inert I/O aside. -/
structure Renames (f : Pid → Pid) (w w' : Workload) : Prop where
  jobs : List.Forall₂ (fun j k => k.pid = f j.pid ∧ j.Alike k) w.jobs w'.jobs
  kills : w'.kills = w.kills.map fun e => { e with pid := f e.pid }
  injective : ∀ a ∈ w.mentioned, ∀ b ∈ w.mentioned, f a = f b → a = b

namespace Renames

open Simulation (Mirrors)

theorem due_eq (h : Renames f w w') (hm : Mirrors f (w.simulation.steps n) (w'.simulation.steps n)) :
    (w'.simulation.steps n).due = (w.simulation.steps n).due.map f := by
  rw [due_steps, due_steps, hm.tick, h.kills, List.filter_map, List.map_map, List.map_map]
  rfl

theorem isLive_eq (h : Renames f w w')
    (hm : Mirrors f (w.simulation.steps n) (w'.simulation.steps n)) (hp : pid ∈ w.mentioned) :
    (w'.simulation.steps n).isLive (f pid) = (w.simulation.steps n).isLive pid := by
  by_cases hr : pid ∈ (w.simulation.steps n).roster.pids
  · exact hm.isLive_eq (w'.placed.steps n) hr
  · -- no other pid that is mentioned has the image of a job
    have hnone : f pid ∉ (w'.simulation.steps n).roster.pids := by
      rw [hm.roster.pids_eq, List.mem_map]
      rintro ⟨a, ha, he⟩
      exact hr (h.injective a (mentioned_of_mem_pids ha) pid hp he ▸ ha)
    rw [Bool.eq_false_iff.mpr (mt Simulation.mem_pids_of_isLive hr),
      Bool.eq_false_iff.mpr (mt Simulation.mem_pids_of_isLive hnone)]

theorem felled_eq (h : Renames f w w')
    (hm : Mirrors f (w.simulation.steps n) (w'.simulation.steps n)) :
    (w'.simulation.steps n).felled = (w.simulation.steps n).felled.map f := by
  have hlive : (w.simulation.steps n).due.filter ((w'.simulation.steps n).isLive ∘ f) =
      (w.simulation.steps n).due.filter (w.simulation.steps n).isLive :=
    List.filter_congr fun pid hd => h.isLive_eq hm (mentioned_of_due hd)
  rw [Simulation.felled, Simulation.felled, h.due_eq hm, List.filter_map, hlive]
  refine eraseDups_map fun a ha b hb => ?_
  exact h.injective a (mentioned_of_due (List.mem_of_mem_filter ha)) b
    (mentioned_of_due (List.mem_of_mem_filter hb))

theorem mirrors_start (h : Renames f w w') (hw : w.check = .ok ()) (hw' : w'.check = .ok ()) :
    Mirrors f w.simulation w'.simulation := by
  rw [simulation, simulation, start_of_check hw, start_of_check hw']
  exact Simulation.mirrors_fresh h.jobs w.kills w'.kills

theorem mirrors_steps (h : Renames f w w') (hw : w.check = .ok ()) (hw' : w'.check = .ok ()) (n : Nat) :
    Mirrors f (w.simulation.steps n) (w'.simulation.steps n) := by
  refine (h.mirrors_start hw hw').steps w.placed w'.placed (fun n hm => ?_) n
  exact hm.sameTargets_of_felled (w'.placed.steps n) (h.felled_eq hm)

theorem completionOrder_eq (h : Renames f w w') (hw : w.check = .ok ()) (hw' : w'.check = .ok ()) :
    w'.simulation.finish.outcome.completionOrder =
      w.simulation.finish.outcome.completionOrder.map f := by
  have hm := h.mirrors_steps hw hw'
  exact Mirrors.finished_finish w.placed w'.placed hm (fun n => h.felled_eq (hm n))
    (Simulation.finished_start ..) (Simulation.finished_start ..)

theorem exists_results (h : Renames f w w') (hw : w.check = .ok ()) (hw' : w'.check = .ok ()) {j : Job}
    (hj : j ∈ w.jobs) :
    ∃ r r', w.simulation.finish.outcome.result? j.pid = some r ∧
      w'.simulation.finish.outcome.result? (f j.pid) = some r' ∧
      r'.completionTick = r.completionTick ∧ r'.killed = r.killed ∧ r'.killedAt = r.killedAt := by
  have hm := Mirrors.finish (h.mirrors_steps hw hw')
  have ht := w'.placed.finish
  obtain ⟨p, hp, _, hfin, _, hr⟩ := exists_final_entry hw hj
  obtain ⟨q, hq, halike⟩ := hm.roster.exists_find? ht.nodup hp
  have hr' : w'.simulation.finish.outcome.result? (f j.pid) = Result.ofProgress? q := by
    rw [Simulation.result?_outcome ht, Simulation.resultOf, hq, Option.bind_some]
  obtain ⟨r, r', hpr, hqr, hsame⟩ := halike.exists_results hfin
  exact ⟨r, r', hr.trans hpr, hr'.trans hqr, hsame⟩

end Renames

/-- A workload and its renaming are run alike: the same jobs leave in the same order and have the CPU in
the same ticks, each ends in the same way at the same time, and the counters are the same. -/
theorem simulate_renamed (hw : w.check = .ok ()) (hw' : w'.check = .ok ()) (h : Renames f w w') :
    ∃ o o', w.simulate = .ok o ∧ w'.simulate = .ok o' ∧
      o'.completionOrder = o.completionOrder.map f ∧
      o'.timeline = o.timeline.map (Option.map f) ∧
      o'.finalTick = o.finalTick ∧ o'.tally = o.tally ∧
      ∀ j ∈ w.jobs, ∃ r r', o.result? j.pid = some r ∧ o'.result? (f j.pid) = some r' ∧
        r'.completionTick = r.completionTick ∧ r'.killed = r.killed ∧ r'.killedAt = r.killedAt := by
  have hm := Simulation.Mirrors.finish (h.mirrors_steps hw hw')
  have ht := w'.placed.finish
  have hticks : w'.kills.map (·.tick) = w.kills.map (·.tick) := by
    rw [h.kills, List.map_map]
    rfl
  have htally := hm.tally_outcome ht (Simulation.Ledger.run w.jobs w.kills _)
    (Simulation.Ledger.run w'.jobs w'.kills _) (hticks ▸ List.Perm.refl _)
  exact ⟨_, _, simulate_of_check hw, simulate_of_check hw', h.completionOrder_eq hw hw', hm.timeline,
    hm.tick, htally, fun j hj => h.exists_results hw hw' hj⟩

/-- The pids come in the other order, the names are others, and the second job loses an I/O interval that
would have begun at the end of its burst; it is killed while the first one waits. -/
theorem simulate_renamed_two :
    let w : Workload :=
      { jobs := [{ pid := 1, name := "a", burst := 3, ioStart := some 1, ioDuration := 4 },
          { pid := 2, name := "b", burst := 6, ioStart := some 6, ioDuration := 1 }]
        kills := [⟨2, 3⟩, ⟨7, 0⟩] }
    let w' : Workload :=
      { jobs := [{ pid := 9, name := "x", burst := 3, ioStart := some 1, ioDuration := 4 },
          { pid := 8, name := "y", burst := 6 }]
        kills := [⟨8, 3⟩, ⟨3, 0⟩] }
    w.check = .ok () ∧ w'.check = .ok () ∧ Renames (10 - ·) w w' ∧
      ∃ o o', w.simulate = .ok o ∧ w'.simulate = .ok o' ∧
        o'.completionOrder = o.completionOrder.map (10 - ·) ∧
        o'.timeline = o.timeline.map (Option.map (10 - ·)) ∧
        o'.finalTick = o.finalTick ∧ o'.tally = o.tally ∧
        ∀ j ∈ w.jobs, ∃ r r', o.result? j.pid = some r ∧ o'.result? (10 - j.pid) = some r' ∧
          r'.completionTick = r.completionTick ∧ r'.killed = r.killed ∧
          r'.killedAt = r.killedAt := by
  intro w w'
  have hw : w.check = .ok () := by decide
  have hw' : w'.check = .ok () := by decide
  have hfirst : Job.Alike { pid := 1, name := "a", burst := 3, ioStart := some 1, ioDuration := 4 }
      { pid := 9, name := "x", burst := 3, ioStart := some 1, ioDuration := 4 } :=
    ⟨rfl, .inl ⟨rfl, rfl⟩⟩
  have hsecond : Job.Alike { pid := 2, name := "b", burst := 6, ioStart := some 6, ioDuration := 1 }
      { pid := 8, name := "y", burst := 6 } :=
    ⟨rfl, .inr ⟨by decide, by decide⟩⟩
  have h : Renames (10 - ·) w w' :=
    { jobs := .cons ⟨by decide, hfirst⟩ (.cons ⟨by decide, hsecond⟩ .nil)
      kills := by decide
      injective := fun a _ b _ he => (UInt32.sub_right_inj 10).mp he }
  exact ⟨hw, hw', h, simulate_renamed hw hw' h⟩

end Workload
end FirstCome
