import FirstCome.Proofs.Timeline

/-!
No overtaking: a job that stands in line for the CPU gets it before every job that does not stand
ahead of it, unless it is killed.
-/
namespace FirstCome
namespace Simulation

variable {s : Simulation} {p q : Pid} {t : Nat}

/-- `p` stands in line for the CPU, and `q` does not stand ahead of it. -/
def Leads (s : Simulation) (p q : Pid) : Prop :=
  ∃ ahead behind, s.line = ahead ++ p :: behind ∧ q ∉ ahead ∧ q ≠ p

theorem Placed.leads (h : Placed s) {ahead behind : List Pid}
    (hp : s.ready.entries = ahead ++ p :: behind) (hq : q ∈ behind ∨ q ∈ s.waiting.entries) :
    Leads s p q := by
  refine ⟨s.heldIn .cpu ++ ahead, behind, ?_, ?_⟩
  · rw [line, heldIn, heldIn, hp, List.append_assoc]
  · obtain hq | hq := hq
    · have hn := h.nodup_line
      rw [line, heldIn, heldIn, hp, ← List.append_assoc, List.nodup_append] at hn
      obtain ⟨_, hbehind, hne⟩ := hn
      refine ⟨fun hm => hne q hm q (List.mem_cons_of_mem p hq) rfl, ?_⟩
      rintro rfl
      exact (List.nodup_cons.mp hbehind).1 hq
    · have hplace {x : Place} (hx : q ∈ s.heldIn x) : x = .waiting := h.place_unique hx hq
      have hready : q ∉ s.ready.entries := fun hm =>
        absurd (hplace (x := .ready) hm) (by decide)
      rw [hp] at hready
      refine ⟨fun hm => ?_, fun he => hready (by simp [he])⟩
      obtain hm | hm := List.mem_append.mp hm
      · exact absurd (hplace (x := .cpu) hm) (by decide)
      · exact hready (List.mem_append_left _ hm)

theorem Leads.step (hl : Leads s p q) (h : Placed s) (hf : s.isFinished = false) (hd : p ∉ s.due) :
    s.holder = some p ∨ s.holder ≠ some q ∧ Leads s.step p q := by
  obtain ⟨ahead, behind, hline, hq, hne⟩ := hl
  have hsurvivors : s.survivors =
      ahead.filter (· ∉ s.due) ++ p :: behind.filter (· ∉ s.due) := by
    rw [survivors, hline, List.filter_append, List.filter_cons_of_pos (by simpa using hd)]
  have hq : q ∉ ahead.filter (· ∉ s.due) := fun hm => hq (List.mem_of_mem_filter hm)
  cases ha : ahead.filter (· ∉ s.due) with
  | nil =>
    rw [ha] at hsurvivors
    exact .inl (by rw [holder, hsurvivors]; rfl)
  | cons first rest =>
    rw [ha] at hsurvivors hq
    have hholder : s.holder = some first := by rw [holder, hsurvivors]; rfl
    have hready := h.ready_step hf
    rw [hsurvivors, List.cons_append, List.tail_cons] at hready
    obtain ⟨hfirst, hrest⟩ := not_or.mp fun hm => hq (List.mem_cons.mpr hm)
    refine .inr ⟨?_, s.step.heldIn .cpu ++ rest, behind.filter (· ∉ s.due) ++ s.woken, ?_, ?_, hne⟩
    · rw [hholder]
      exact fun he => hfirst (Option.some.inj he).symm
    · rw [line, heldIn, heldIn, hready]
      simp
    · rw [List.mem_append]
      rintro (hm | hm)
      · obtain hr | hr := h.running_step hf
        · rw [heldIn, hr, hholder] at hm
          exact hfirst (by simpa using hm)
        · rw [heldIn, hr] at hm
          cases hm
      · exact hrest hm

theorem Leads.before (hl : Leads s p q) (h : Placed s) (hsize : s.timeline.size = s.tick) (n : Nat)
    (ht : s.tick ≤ t) (hq : (s.steps n).timeline[t]? = some (some q)) :
    (∃ t', s.tick ≤ t' ∧ t' < t ∧ (s.steps n).timeline[t']? = some (some p)) ∨
      ∃ t' r, s.tick ≤ t' ∧ t' ≤ t ∧ (s.steps n).roster.find? p = some r ∧ r.killedAt = some t' := by
  induction n generalizing s with
  | zero =>
    rw [steps, Array.getElem?_eq_none (by omega)] at hq
    cases hq
  | succ n ih =>
    have hmem : p ∈ s.line := by
      obtain ⟨ahead, behind, hline, _⟩ := hl
      simp [hline]
    obtain ⟨r, hr, ha⟩ := h.exists_of_mem_line hmem
    have hf := isFinished_eq_false h hr ha
    rw [steps_succ] at hq ⊢
    -- the entry of this tick
    have htick := tick_step hf
    have hstep := h.size_timeline_step hsize
    have hnow : (s.step.steps n).timeline[s.tick]? = some s.holder := by
      rw [h.step.getElem?_timeline_steps (by omega), h.timeline_step hf, ← hsize,
        Array.getElem?_push_size]
    by_cases hd : p ∈ s.due
    · have hkill := h.find?_steps_of_mem_due hr ha hd n
      exact .inr ⟨s.tick, r.kill s.tick, Nat.le_refl _, ht, hkill, rfl⟩
    · obtain hholder | ⟨hholder, hl'⟩ := hl.step h hf hd
      · rw [hholder] at hnow
        refine .inl ⟨s.tick, Nat.le_refl _, ?_, hnow⟩
        refine Nat.lt_of_le_of_ne ht ?_
        rintro rfl
        rw [hnow] at hq
        obtain ⟨_, _, _, _, hne⟩ := hl
        exact hne (Option.some.inj (Option.some.inj hq)).symm
      · have hne : t ≠ s.tick := by
          rintro rfl
          rw [hnow] at hq
          exact hholder (Option.some.inj hq)
        obtain ⟨t', hle, hlt, hp⟩ | ⟨t', r', hle, hle', hr'⟩ :=
          ih hl' h.step hstep (by omega) hq
        · exact .inl ⟨t', by omega, hlt, hp⟩
        · exact .inr ⟨t', r', by omega, hle', hr'⟩

/-- From a state of a run in which `p` is ready, a job `q` behind it in the queue or waiting for its
I/O is on the CPU only after `p` has been, or once `p` is killed. -/
theorem no_overtaking (jobs : List Job) (kills : List Kill) (n m : Nat)
    {ahead behind : List Pid} :
    let s := (start jobs kills).steps n
    let e := s.steps m
    s.ready.entries = ahead ++ p :: behind → q ∈ behind ∨ q ∈ s.waiting.entries →
      s.tick ≤ t → e.timeline[t]? = some (some q) →
      (∃ t', s.tick ≤ t' ∧ t' < t ∧ e.timeline[t']? = some (some p)) ∨
        ∃ t' r, s.tick ≤ t' ∧ t' ≤ t ∧ e.roster.find? p = some r ∧ r.killedAt = some t' := by
  intro s e hp hq ht hshown
  have hs : Placed s := (Placed.start jobs kills).steps n
  exact (hs.leads hp hq).before hs (size_timeline jobs kills n) m ht hshown

/-- A job that waits for its I/O gets the CPU in the tick in which the job ahead of it is killed. -/
theorem no_overtaking_three :
    let s := (start [{ pid := 1, name := "a", burst := 3, ioStart := some 1, ioDuration := 2 },
      { pid := 2, name := "b", burst := 2 }, { pid := 3, name := "c", burst := 2 }] [⟨3, 3⟩]).steps 1
    let e := s.steps 3
    (s.ready.entries = [2] ++ 3 :: [] ∧ 1 ∈ s.waiting.entries ∧ s.tick ≤ 3 ∧
        e.timeline[3]? = some (some 1)) ∧
      ((∃ t', s.tick ≤ t' ∧ t' < 3 ∧ e.timeline[t']? = some (some 3)) ∨
        ∃ t' r, s.tick ≤ t' ∧ t' ≤ 3 ∧ e.roster.find? 3 = some r ∧ r.killedAt = some t') := by
  intro s e
  have hready : s.ready.entries = [2] ++ 3 :: [] := by decide
  have hwaiting : 1 ∈ s.waiting.entries := by decide
  have ht : s.tick ≤ 3 := by decide
  have hshown : e.timeline[3]? = some (some 1) := by decide
  exact ⟨⟨hready, hwaiting, ht, hshown⟩,
    no_overtaking _ _ 1 3 hready (.inr hwaiting) ht hshown⟩

end Simulation
end FirstCome
