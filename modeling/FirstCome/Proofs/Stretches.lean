import FirstCome.Proofs.Timeline

/-!
When a job has the CPU: in one stretch, or in two with its I/O interval between them. A job on the CPU
is never sent back into the line.
-/
namespace FirstCome

/-- How the ticks of a job on the CPU lie, where `executed` is their number and `free` the tick after
the last of them. A job that blocks runs up to its I/O interval in the first stretch. -/
inductive Stretches (j : Job) (executed free : Nat) (ts : List Nat) : Prop where
  | one (first : Nat) (hts : ts = List.range' first executed) (hfree : first + executed = free)
      (hle : ∀ k, j.blocks = true → j.ioStart = some k → executed ≤ k)
  | two (first k second m : Nat) (hts : ts = List.range' first k ++ List.range' second m)
      (hexecuted : k + m = executed) (hfree : second + m = free) (hm : 0 < m)
      (hb : j.blocks = true) (hs : j.ioStart = some k) (hgap : first + k + j.ioDuration ≤ second)

namespace Progress

def AtIo (p : Progress) : Prop := p.job.blocks = true ∧ p.job.ioStart = some p.executed

/-- What the ticks `ts` before `now` in which a job had the CPU are like, by its phase. -/
def Traced (p : Progress) (now : Nat) (ts : List Nat) : Prop :=
  match p.phase with
  | .ready =>
    (p.executed = 0 ∧ ts = []) ∨
      ∃ free, Stretches p.job p.executed free ts ∧ p.AtIo ∧ free + p.job.ioDuration ≤ now
  | .running => Stretches p.job p.executed now ts ∧ ¬p.AtIo
  | .waiting =>
    ∃ free, Stretches p.job p.executed free ts ∧ p.AtIo ∧
      free + p.job.ioDuration = now + p.ioLeft
  | .completed t => Stretches p.job p.executed t ts ∧ p.executed = p.job.burst
  | .killed t => ∃ free ≤ t, Stretches p.job p.executed free ts ∧ p.executed < p.job.burst

variable {p q : Progress} {now : Nat} {ts : List Nat} {due onCpu : Bool}

theorem Traced.serve (h : p.Traced now ts) (hp : p.phase = .running ∨ p.phase = .ready) :
    Stretches p.job (p.executed + 1) (now + 1) (ts ++ [now]) := by
  obtain hp | hp := hp
  · simp only [Traced, hp] at h
    obtain ⟨h, hio⟩ := h
    cases h with
    | one first hts hfree hle =>
      refine .one first ?_ (by omega) fun k hb hs => ?_
      · rw [hts, List.range'_concat, Nat.one_mul, hfree]
      · have hne : p.executed ≠ k := fun he => hio ⟨hb, he ▸ hs⟩
        have hk := hle k hb hs
        omega
    | two first k second m hts he hfree hm hb hs hgap =>
      refine .two first k second (m + 1) ?_ (by omega) (by omega) (by omega) hb hs hgap
      rw [hts, List.range'_concat, Nat.one_mul, hfree, List.append_assoc]
  · simp only [Traced, hp] at h
    obtain ⟨he, hts⟩ | ⟨free, h, ⟨hb, hs⟩, hfree⟩ := h
    · refine .one now ?_ (by omega) fun k hb hs => ?_
      · rw [hts, he]
        rfl
      · obtain ⟨_, k', hs', hpos, _⟩ := Job.blocks_iff.mp hb
        obtain rfl := Option.some.inj (hs'.symm.trans hs)
        omega
    · cases h with
      | one first hts hend _ =>
        refine .two first p.executed now 1 ?_ rfl rfl Nat.one_pos hb hs (by omega)
        rw [hts]
        rfl
      | two first k second m _ he _ hm _ hs' _ =>
        have hk := Option.some.inj (hs'.symm.trans hs)
        omega

theorem Traced.exists_stretches (h : p.Traced now ts) (hc : p.Consistent now)
    (hf : p.isFinal = false) : ∃ free ≤ now, Stretches p.job p.executed free ts := by
  cases hp : p.phase with
  | ready =>
    simp only [Traced, hp] at h
    obtain ⟨he, hts⟩ | ⟨free, h, _, hfree⟩ := h
    · exact ⟨0, Nat.zero_le now, .one 0 (by simp [hts, he]) (by omega) (by omega)⟩
    · exact ⟨free, by omega, h⟩
  | running =>
    simp only [Traced, hp] at h
    exact ⟨now, Nat.le_refl now, h.1⟩
  | waiting =>
    simp only [Traced, hp] at h
    obtain ⟨free, h, _, hfree⟩ := h
    have hleft := hc.2
    simp only [hp] at hleft
    exact ⟨free, by omega, h⟩
  | completed t | killed t => simp [isFinal, hp, Phase.isFinal] at hf

theorem Traced.turn (h : p.Traced now ts) (hb : 0 < p.job.burst) (ht : Turn p now due onCpu q) :
    q.Traced (now + 1) (ts ++ if onCpu then [now] else []) := by
  have hmax : max 1 p.job.burst = p.job.burst := Nat.max_eq_right hb
  cases ht.move with
  | rest hf =>
    rw [ht.onCpu_of_isFinal hf, if_neg Bool.false_ne_true, List.append_nil]
    cases hp : p.phase with
    | completed t | killed t => simpa only [Traced, hp] using h
    | ready | running | waiting => simp [isFinal, hp, Phase.isFinal] at hf
  | kill hf hd =>
    rw [ht.onCpu_of_due hd, if_neg Bool.false_ne_true, List.append_nil]
    obtain ⟨free, hfree, hs⟩ := h.exists_stretches ht.consistent hf
    have hlt := ht.consistent.executed_lt hf
    rw [hmax] at hlt
    exact ⟨free, hfree, hs, hlt⟩
  | complete hp _ hc hle =>
    have hlt := ht.consistent.executed_lt (isFinal_of_line hp)
    rw [hmax] at hlt
    rw [if_pos hc]
    exact ⟨h.serve hp, Nat.le_antisymm hlt hle⟩
  | block hp _ hc hlt hio =>
    have hblocks : p.job.blocks = true := blocks_of_useCpu hlt hio
    rw [if_pos hc]
    exact ⟨now + 1, h.serve hp, ⟨hblocks, hio.2⟩, rfl⟩
  | run hp _ hc _ hio =>
    rw [if_pos hc]
    exact ⟨h.serve hp, fun hat => hio ⟨(Job.blocks_iff.mp hat.1).1, hat.2⟩⟩
  | queue hp _ hc =>
    rw [hc, if_neg Bool.false_ne_true, List.append_nil]
    simp only [Traced, hp] at h ⊢
    obtain h | ⟨free, h, hat, hfree⟩ := h
    · exact .inl h
    · exact .inr ⟨free, h, hat, Nat.le_succ_of_le hfree⟩
  | wake hp _ hc hl =>
    rw [hc, if_neg Bool.false_ne_true, List.append_nil]
    simp only [Traced, hp] at h
    obtain ⟨free, h, hat, hfree⟩ := h
    have hend : free + p.job.ioDuration ≤ now + 1 := by omega
    exact .inr ⟨free, h, hat, hend⟩
  | drain hp _ hc hl =>
    rw [hc, if_neg Bool.false_ne_true, List.append_nil]
    simp only [Traced, hp] at h ⊢
    obtain ⟨free, h, hat, hfree⟩ := h
    exact ⟨free, h, hat, by omega⟩

end Progress

namespace Stretches

variable {j : Job} {executed free k : Nat} {ts : List Nat}

theorem length_eq (h : Stretches j executed free ts) : ts.length = executed := by
  cases h with
  | one first hts => simp [hts]
  | two first k second m hts he => simp [hts, he]

theorem lt_free (h : Stretches j executed free ts) : ∀ t ∈ ts, t < free := by
  intro t ht
  cases h with
  | one first hts hfree =>
    rw [hts, List.mem_range'_1] at ht
    omega
  | two first k second m hts _ hfree _ _ _ hgap =>
    rw [hts, List.mem_append, List.mem_range'_1, List.mem_range'_1] at ht
    omega

theorem of_not_blocks (h : Stretches j executed free ts) (hb : j.blocks = false) :
    ∃ first, ts = List.range' first executed ∧ first + executed = free := by
  cases h with
  | one first hts hfree => exact ⟨first, hts, hfree⟩
  | two _ _ _ _ _ _ _ _ hb' => simp [hb] at hb'

theorem of_blocks (h : Stretches j executed free ts) (hb : j.blocks = true)
    (hs : j.ioStart = some k) :
    (∃ first, ts = List.range' first executed ∧ executed ≤ k) ∨
      ∃ first second m, ts = List.range' first k ++ List.range' second m ∧ k + m = executed ∧
        second + m = free ∧ 0 < m ∧ first + k + j.ioDuration ≤ second := by
  cases h with
  | one first hts _ hle => exact .inl ⟨first, hts, hle k hb hs⟩
  | two first k' second m hts he hfree hm _ hs' hgap =>
    obtain rfl := Option.some.inj (hs'.symm.trans hs)
    exact .inr ⟨first, second, m, hts, he, hfree, hm, hgap⟩

end Stretches

theorem Progress.Traced.result {p : Progress} {now : Nat} {ts : List Nat} (h : p.Traced now ts)
    (hf : p.isFinal = true) :
    ∃ r free, Result.ofProgress? p = some r ∧ Stretches p.job p.executed free ts ∧
      (r.killed = false → r.completionTick = free ∧ p.executed = p.job.burst) ∧
      (r.killed = true → p.executed < p.job.burst ∧ ∃ t, r.killedAt = some t ∧ free ≤ t) := by
  cases hp : p.phase with
  | completed t =>
    simp only [Traced, hp] at h
    exact ⟨_, t, Result.ofProgress?_of_completed hp, h.1, fun _ => ⟨rfl, h.2⟩, nofun⟩
  | killed t =>
    simp only [Traced, hp] at h
    obtain ⟨free, hfree, hs, hlt⟩ := h
    exact ⟨_, free, Result.ofProgress?_of_killed hp, hs, nofun, fun _ => ⟨hlt, t, rfl, hfree⟩⟩
  | ready | running | waiting => simp [isFinal, hp, Phase.isFinal] at hf

namespace Simulation

variable {jobs : List Job} {kills : List Kill} {j : Job} {p : Progress}

theorem traced_steps (hb : 0 < j.burst) (hn : (jobs.map (·.pid)).Nodup) (hj : j ∈ jobs) (n : Nat)
    (hp : ((start jobs kills).steps n).roster.find? j.pid = some p) :
    p.Traced ((start jobs kills).steps n).tick
      (ticksOf ((start jobs kills).steps n).timeline j.pid) := by
  rw [ticksOf_timeline]
  refine entry_induction (P := fun now p => p.Traced now ((start jobs kills).cpuTicks j.pid now))
    (fun _ _ _ => .inl ⟨rfl, rfl⟩) ?_ n hp
  intro n p q hp ht h
  rw [cpuTicks_succ]
  rw [← job_of_find?_steps hn hj n hp] at hb
  simpa only [decide_eq_true_eq] using h.turn hb ht

end Simulation

namespace Workload

variable {w : Workload} {j : Job}

/-- At the end of a run a job that cannot wait for I/O has had the CPU in one stretch. One that can has
had it in two, the first up to its I/O interval and the second after the end of the interval, or, if it
was killed, perhaps only in the first. A job that completed has run its burst and completes with its
last tick on the CPU; one that was killed has not, and had the CPU only before. -/
theorem cpu_stretches (hw : w.check = .ok ()) (hj : j ∈ w.jobs) :
    ∃ o r, w.simulate = .ok o ∧ o.result? j.pid = some r ∧
      let ts := ticksOf o.timeline j.pid
      (j.blocks = false → ∃ first m, ts = List.range' first m ∧ m ≤ j.burst ∧
        (r.killed = false → r.completionTick = first + m)) ∧
      (∀ k, j.blocks = true → j.ioStart = some k →
        (∃ first m, ts = List.range' first m ∧ m ≤ k ∧ r.killed = true) ∨
        ∃ first second m, ts = List.range' first k ++ List.range' second m ∧
          1 ≤ m ∧ m ≤ j.burst - k ∧ first + k + j.ioDuration ≤ second ∧
          (r.killed = false → r.completionTick = second + m)) ∧
      (r.killed = false → ts.length = j.burst) ∧
      (r.killed = true → ts.length < j.burst ∧ ∃ t, r.killedAt = some t ∧ ∀ u ∈ ts, u < t) := by
  obtain ⟨p, hp, hjob, hf, ho, hr⟩ := exists_final_entry hw hj
  have htraced := Simulation.traced_steps (burst_of_check hw j hj) (nodup_of_check hw) hj _ hp
  obtain ⟨r, free, hofp, hs, hcompleted, hkilled⟩ := htraced.result hf
  rw [hjob] at hs hcompleted hkilled
  have hle : p.executed ≤ j.burst := by
    cases hk : r.killed with
    | false => exact (hcompleted hk).2.le
    | true => exact (hkilled hk).1.le
  refine ⟨_, r, ho, hr.trans hofp, fun hb => ?_, fun k hb hk => ?_, fun h => ?_, fun h => ?_⟩
  · obtain ⟨first, hts, hfree⟩ := hs.of_not_blocks hb
    exact ⟨first, p.executed, hts, hle, fun h => (hcompleted h).1.trans hfree.symm⟩
  · obtain ⟨first, hts, hlek⟩ | ⟨first, second, m, hts, hm, hfree, hpos, hgap⟩ := hs.of_blocks hb hk
    · refine .inl ⟨first, p.executed, hts, hlek, ?_⟩
      by_contra hnot
      have hwhole := (hcompleted (by simpa using hnot)).2
      obtain ⟨_, k', hk', _, hlt⟩ := Job.blocks_iff.mp hb
      obtain rfl := Option.some.inj (hk'.symm.trans hk)
      omega
    · exact .inr ⟨first, second, m, hts, hpos, by omega, hgap,
        fun h => (hcompleted h).1.trans hfree.symm⟩
  · exact hs.length_eq.trans (hcompleted h).2
  · obtain ⟨hlt, t, ht, hfree⟩ := hkilled h
    refine ⟨hs.length_eq.trans_lt hlt, t, ht, fun u hu => ?_⟩
    exact Nat.lt_of_lt_of_le (hs.lt_free u hu) hfree

/-- The first of three jobs leaves the CPU to the others for its I/O; the last is killed when its I/O is
over and it stands in line. -/
theorem cpu_stretches_three :
    let w : Workload :=
      { jobs := [{ pid := 1, name := "a", burst := 4, ioStart := some 2, ioDuration := 3 },
          { pid := 2, name := "b", burst := 3 },
          { pid := 3, name := "c", burst := 5, ioStart := some 1, ioDuration := 1 }]
        kills := [⟨3, 7⟩] }
    let j : Job := { pid := 1, name := "a", burst := 4, ioStart := some 2, ioDuration := 3 }
    (w.check = .ok () ∧ j ∈ w.jobs ∧ j.blocks = true) ∧
      ∃ o r, w.simulate = .ok o ∧ o.result? 1 = some r ∧ r.killed = false ∧
        (ticksOf o.timeline 1).length = 4 ∧
        ∃ first second m, ticksOf o.timeline 1 = List.range' first 2 ++ List.range' second m ∧
          1 ≤ m ∧ m ≤ 2 ∧ first + 5 ≤ second ∧ r.completionTick = second + m := by
  intro w j
  have hw : w.check = .ok () := by decide
  have hj : j ∈ w.jobs := by decide
  have hb : j.blocks = true := by decide
  obtain ⟨o, r, ho, hr, _, hblocks, hcompleted, _⟩ := cpu_stretches hw hj
  have hk : r.killed = false := by
    have hend : ((Simulation.start w.jobs w.kills).finish.resultOf 1).map (·.killed) = some false := by
      decide
    rw [← result?_of_simulate hw ho, hr] at hend
    exact Option.some.inj hend
  obtain ⟨_, _, _, _, hkilled⟩ | ⟨first, second, m, hts, hpos, hle, hgap, hend⟩ := hblocks 2 hb rfl
  · simp [hk] at hkilled
  · exact ⟨⟨hw, hj, hb⟩, o, r, ho, hr, hk, hcompleted hk, first, second, m, hts, hpos, hle, hgap,
      hend hk⟩

end Workload
end FirstCome
