import FirstCome.Proofs.History

/-!
Where the pids go in one tick, and in which order: the due kills fell their live targets, the holder of
the CPU goes where its new phase belongs, and the finished queue is in the order of the departures.
-/
namespace FirstCome

/-! ### First places: a list with each of its elements kept only where it stands first -/

section FirstPlaces

variable {α β : Type} [BEq α]

@[elab_as_elim]
theorem firstPlaces_induction {motive : List α → Prop} (nil : motive [])
    (cons : ∀ a l, motive (l.filter fun b => !(b == a)) → motive (a :: l)) (l : List α) : motive l := by
  induction hn : l.length using Nat.strongRecOn generalizing l with
  | ind n ih =>
    cases l with
    | nil => exact nil
    | cons a l =>
      have hshort : (l.filter fun b => !(b == a)).length < n :=
        hn ▸ Nat.lt_succ_of_le (List.length_filter_le ..)
      exact cons a l (ih _ hshort _ rfl)

variable [LawfulBEq α] [BEq β] [LawfulBEq β]

theorem nodup_eraseDups (l : List α) : l.eraseDups.Nodup := by
  induction l using firstPlaces_induction with
  | nil => exact List.nodup_nil
  | cons a l ih =>
    rw [List.eraseDups_cons, List.nodup_cons, List.mem_eraseDups]
    exact ⟨by simp, ih⟩

theorem eraseDups_of_nodup {l : List α} (h : l.Nodup) : l.eraseDups = l := by
  induction l with
  | nil => rfl
  | cons a l ih =>
    obtain ⟨ha, hl⟩ := List.nodup_cons.mp h
    have hkept : (l.filter fun b => !(b == a)) = l := by
      refine List.filter_eq_self.mpr fun b hb => ?_
      simpa using ne_of_mem_of_not_mem hb ha
    rw [List.eraseDups_cons, hkept, ih hl]

theorem filter_eraseDups (g : α → Bool) (l : List α) :
    l.eraseDups.filter g = (l.filter g).eraseDups := by
  induction l using firstPlaces_induction with
  | nil => rfl
  | cons a l ih =>
    rw [List.eraseDups_cons]
    cases ha : g a with
    | true =>
      rw [List.filter_cons_of_pos ha, List.filter_cons_of_pos ha, List.eraseDups_cons, ih,
        List.filter_filter, List.filter_filter]
      simp only [Bool.and_comm]
    | false =>
      have hna : ¬g a = true := by simp [ha]
      rw [List.filter_cons_of_neg hna, List.filter_cons_of_neg hna, ih, List.filter_filter]
      congr 1
      refine List.filter_congr fun b _ => ?_
      by_cases hb : b = a
      · rw [hb, ha, Bool.false_and]
      · simp [hb]

theorem eraseDups_map {f : α → β} {l : List α} (hf : ∀ a ∈ l, ∀ b ∈ l, f a = f b → a = b) :
    (l.map f).eraseDups = l.eraseDups.map f := by
  induction l using firstPlaces_induction with
  | nil => rfl
  | cons a l ih =>
    have hkept : (l.map f).filter (fun b => !(b == f a)) = (l.filter fun b => !(b == a)).map f := by
      rw [List.filter_map]
      refine congrArg (List.map f) (List.filter_congr fun b hb => ?_)
      have hsame : f b = f a ↔ b = a :=
        ⟨hf b (List.mem_cons_of_mem a hb) a List.mem_cons_self, congrArg f⟩
      by_cases he : b = a
      · simp [he]
      · simp [he, hsame]
    rw [List.map_cons, List.eraseDups_cons, List.eraseDups_cons, List.map_cons, hkept]
    refine congrArg (f a :: ·) (ih fun b hb c hc => ?_)
    exact hf b (List.mem_cons_of_mem a (List.mem_of_mem_filter hb)) c
      (List.mem_cons_of_mem a (List.mem_of_mem_filter hc))

end FirstPlaces

namespace Simulation

variable {s : Simulation} {pid q : Pid} {x : Place} {p : Progress}

def isAt (s : Simulation) (x : Place) (pid : Pid) : Bool :=
  (s.roster.find? pid).any (·.phase.place = x)

theorem isAt_of_find? (hp : s.roster.find? pid = some p) :
    s.isAt x pid = decide (p.phase.place = x) := by
  rw [isAt, hp, Option.any_some]

theorem Placed.isAt_iff (h : Placed s) : s.isAt x pid = true ↔ pid ∈ s.heldIn x := by
  constructor
  · intro hat
    cases hp : s.roster.find? pid with
    | none => simp [isAt, hp] at hat
    | some p =>
      rw [isAt_of_find? hp] at hat
      exact (h.place_of_find? hp).mpr (of_decide_eq_true hat)
  · intro hm
    obtain ⟨p, hp, hx⟩ := h.exists_entry hm
    rw [isAt_of_find? hp, decide_eq_true hx]

/-! ### Who is felled -/

/-- The live targets of the due kills, each once, in the order of the kills. -/
def felled (s : Simulation) : List Pid := (s.due.filter s.isLive).eraseDups

theorem mem_felled_iff : pid ∈ s.felled ↔ pid ∈ s.due ∧ s.isLive pid = true := by
  rw [felled, List.mem_eraseDups, List.mem_filter]

theorem Placed.isLive_strike (h : Placed s) (pid q : Pid) :
    (s.strike pid).isLive q = (s.isLive q && !(q == pid)) := by
  have hmem {x : Place} (hx : x ≠ .finished) :
      q ∈ (s.strike pid).heldIn x ↔ q ∈ s.heldIn x ∧ q ≠ pid := by
    rw [h.heldIn_strike pid hx, (h.nodup_heldIn x).mem_erase_iff, and_comm]
  rw [Bool.eq_iff_iff, (h.strike pid).isLive_iff, Bool.and_eq_true, h.isLive_iff]
  simp only [Bool.not_eq_true', beq_eq_false_iff_ne]
  constructor
  · rintro ⟨x, hx, hm⟩
    exact ⟨⟨x, hx, ((hmem hx).mp hm).1⟩, ((hmem hx).mp hm).2⟩
  · rintro ⟨⟨x, hx, hm⟩, hne⟩
    exact ⟨x, hx, (hmem hx).mpr ⟨hm, hne⟩⟩

theorem Placed.finished_foldl_strike (h : Placed s) (targets : List Pid) :
    (targets.foldl Simulation.strike s).finished.entries =
      s.finished.entries ++ (targets.filter s.isLive).eraseDups := by
  induction targets generalizing s with
  | nil => simp
  | cons pid targets ih =>
    have hfinished : (s.strike pid).finished.entries =
        if s.isLive pid then s.finished.entries ++ [pid] else s.finished.entries :=
      finished_strike s pid
    rw [List.foldl_cons, ih (h.strike pid), hfinished]
    cases hl : s.isLive pid with
    | true =>
      have hrest : targets.filter (s.strike pid).isLive =
          (targets.filter s.isLive).filter fun q => !(q == pid) := by
        rw [List.filter_filter]
        refine List.filter_congr fun q _ => ?_
        rw [h.isLive_strike, Bool.and_comm]
      rw [List.filter_cons_of_pos hl, List.eraseDups_cons, hrest]
      simp
    | false =>
      have hrest : targets.filter (s.strike pid).isLive = targets.filter s.isLive := by
        refine List.filter_congr fun q _ => ?_
        rw [h.isLive_strike]
        by_cases hq : q = pid
        · simp [hq, hl]
        · simp [hq]
      rw [List.filter_cons_of_neg (by simp [hl]), hrest]
      simp

theorem Placed.finished_fireKills (h : Placed s) :
    s.fireKills.finished.entries = s.finished.entries ++ s.felled := by
  have hk : Placed { s with kills := (s.kills.fire s.tick).2 } := ⟨h.nodup, h.perm, h.held⟩
  exact hk.finished_foldl_strike s.due

/-! ### Where the holder of the CPU goes -/

namespace Placed

theorem exists_of_holder (h : Placed s) (hh : s.holder = some pid) :
    ∃ p, s.roster.find? pid = some p ∧ p.isFinal = false :=
  h.exists_of_mem_line (mem_line_of_holder hh)

theorem not_mem_of_holder (h : Placed s) (hh : s.holder = some pid) (hx : x = .waiting ∨ x = .finished) :
    pid ∉ s.heldIn x := by
  intro hm
  obtain hl | hl := List.mem_append.mp (mem_line_of_holder hh)
  · have hplace := h.place_unique hl hm
    obtain rfl | rfl := hx <;> contradiction
  · have hplace := h.place_unique hl hm
    obtain rfl | rfl := hx <;> contradiction

theorem cpu_step (h : Placed s) (hf : s.isFinished = false) :
    s.step.heldIn .cpu = s.holder.toList.filter (s.step.isAt .cpu) := by
  cases hh : s.holder with
  | none =>
    have hrun : s.step.running = none := by
      obtain hr | hr := h.running_step hf
      · rw [hr, hh]
      · exact hr
    simp [heldIn, hrun]
  | some pid =>
    obtain ⟨p, hp, _⟩ := h.exists_of_holder hh
    have hq := h.find?_step hf hp
    rw [h.heldIn_cpu_step hf hh hq, Option.toList_some, List.filter_singleton, isAt_of_find? hq]
    simp only [Phase.place_eq_cpu, Bool.cond_decide]

theorem waiting_step (h : Placed s) (hf : s.isFinished = false) :
    s.step.heldIn .waiting =
      ((s.heldIn .waiting).filter (· ∉ s.due) ++ s.holder.toList).filter (s.step.isAt .waiting) := by
  have hstep : s.step.heldIn .waiting =
      s.atCpu.useCpu.waiting.entries.filter (· ∉ s.afterIo.drained) := by
    rw [step_eq hf]
    exact h.afterIo.wakeDrained.waiting
  -- who is kept by a filter is who is in the filtered queue
  have hself {l : List Pid} (hl : s.step.heldIn .waiting = l.filter (· ∉ s.afterIo.drained)) :
      s.step.heldIn .waiting = l.filter (s.step.isAt .waiting) := by
    rw [hl]
    refine List.filter_congr fun pid hpid => ?_
    rw [Bool.eq_iff_iff, h.step.isAt_iff, hl, List.mem_filter]
    exact (and_iff_right hpid).symm
  obtain hw | ⟨p, _, hr, _, hw⟩ := h.atCpu.waiting_useCpu
  · rw [hw, h.waiting_atCpu] at hstep
    have hholder : s.holder.toList.filter (s.step.isAt .waiting) = [] := by
      refine List.filter_eq_nil_iff.mpr fun pid hpid hat => ?_
      rw [h.step.isAt_iff, hstep] at hat
      exact h.not_mem_of_holder (Option.mem_toList.mp hpid) (.inl rfl)
        (List.mem_of_mem_filter (List.mem_of_mem_filter hat))
    rw [List.filter_append, hholder, List.append_nil]
    exact hself hstep
  · rw [hw, h.waiting_atCpu] at hstep
    rw [h.running_atCpu] at hr
    rw [hr]
    exact hself hstep

theorem finished_step_eq (h : Placed s) (hf : s.isFinished = false) :
    s.step.finished.entries =
      s.finished.entries ++ (s.felled ++ s.holder.toList.filter (s.step.isAt .finished)) := by
  have hkills := h.finished_fireKills
  obtain hstep | ⟨pid, hh, hstep⟩ := h.finished_step hf
  · have hholder : s.holder.toList.filter (s.step.isAt .finished) = [] := by
      refine List.filter_eq_nil_iff.mpr fun pid hpid hat => ?_
      have hh : s.holder = some pid := Option.mem_toList.mp hpid
      rw [h.step.isAt_iff] at hat
      change pid ∈ s.step.finished.entries at hat
      rw [hstep, hkills, List.mem_append] at hat
      obtain hm | hm := hat
      · exact h.not_mem_of_holder (x := .finished) hh (.inr rfl) hm
      · have hspared : pid ∉ s.due := by
          simpa using (List.mem_filter.mp (List.mem_of_head? hh)).2
        exact hspared (mem_felled_iff.mp hm).1
    rw [hholder, List.append_nil, hstep, hkills]
  · have hat : s.step.isAt .finished pid = true := by
      rw [h.step.isAt_iff]
      change pid ∈ s.step.finished.entries
      rw [hstep]
      exact List.mem_append_right _ List.mem_cons_self
    rw [hstep, hkills, hh, Option.toList_some, List.filter_singleton, hat, List.append_assoc]
    rfl

end Placed
end Simulation

namespace Progress

/-- When a job left the system, in half ticks: a job completes at the very start of a tick, and the
kills of the tick come after that. -/
def departure (p : Progress) : Nat :=
  match p.phase with
  | .completed t => 2 * t
  | .killed t => 2 * t + 1
  | _ => 0

variable {p : Progress} {now t : Nat}

theorem departure_of_completed (hp : p.phase = .completed t) : p.departure = 2 * t := by
  simp only [departure, hp]

theorem departure_of_killed (hp : p.phase = .killed t) : p.departure = 2 * t + 1 := by
  simp only [departure, hp]

theorem Consistent.departure_le (h : p.Consistent now) : p.departure ≤ 2 * now := by
  have h2 := h.2
  cases hp : p.phase with
  | ready | running | waiting => simp [departure, hp]
  | completed t =>
    simp only [hp] at h2
    rw [departure_of_completed hp]
    omega
  | killed t =>
    simp only [hp] at h2
    rw [departure_of_killed hp]
    omega

end Progress

namespace Simulation

variable {s : Simulation} {a b pid : Pid} {p : Progress}

/-! ### The order of the departures -/

/-- The one job left the system before the other, or both were killed in the same tick. -/
def Precedes (s : Simulation) (a b : Pid) : Prop :=
  ∃ p q, s.roster.find? a = some p ∧ s.roster.find? b = some q ∧
    (p.departure < q.departure ∨ ∃ t, p.phase = .killed t ∧ q.phase = .killed t)

theorem Placed.exists_of_isLive (h : Placed s) (hl : s.isLive pid = true) :
    ∃ p, s.roster.find? pid = some p ∧ p.isFinal = false := by
  obtain ⟨x, hx, hm⟩ := h.isLive_iff.mp hl
  obtain ⟨p, hp, rfl⟩ := h.exists_entry hm
  refine ⟨p, hp, ?_⟩
  rw [ne_eq, Phase.place_eq_finished] at hx
  simpa [Progress.isFinal] using hx

theorem Placed.find?_step_of_felled (h : Placed s) (hm : pid ∈ s.felled) :
    ∃ p, s.step.roster.find? pid = some p ∧ p.phase = .killed s.tick := by
  obtain ⟨hdue, hlive⟩ := mem_felled_iff.mp hm
  obtain ⟨p, hp, ha⟩ := h.exists_of_isLive hlive
  exact ⟨p.kill s.tick, h.find?_steps_of_mem_due hp ha hdue 0, rfl⟩

theorem Placed.find?_step_of_completed (h : Placed s) (hf : s.isFinished = false)
    (hh : s.holder = some pid) (hat : s.step.isAt .finished pid = true) :
    ∃ p, s.step.roster.find? pid = some p ∧ p.phase = .completed (s.tick + 1) := by
  obtain ⟨p, hp, _⟩ := h.exists_of_holder hh
  obtain rfl := Roster.pid_of_find? hp
  obtain ⟨hline, hspared⟩ := h.phase_of_holder (Roster.mem_of_find? hp) hh
  obtain ⟨q, hq, hm⟩ := h.exists_move hf hp
  rw [isAt_of_find? hq, decide_eq_true_eq, Phase.place_eq_finished] at hat
  refine ⟨q, hq, ?_⟩
  cases hm with
  | complete => rfl
  | rest hfin => simp [Progress.isFinal_of_line hline] at hfin
  | kill _ hd => exact absurd (of_decide_eq_true hd) hspared
  | block | run => contradiction
  | queue _ _ hc | wake _ _ hc | drain _ _ hc => simp [hh] at hc

theorem Sound.find?_of_finished (h : Sound s) (hm : pid ∈ s.finished.entries) :
    ∃ p, s.step.roster.find? pid = some p ∧ s.roster.find? pid = some p ∧
      p.departure ≤ 2 * s.tick := by
  obtain ⟨p, hp, hx⟩ := h.placed.exists_entry (x := .finished) hm
  have hfin : p.isFinal = true := Phase.place_eq_finished.mp hx
  exact ⟨p, h.placed.find?_step_of_isFinal hp hfin, hp,
    (h.consistent p (Roster.mem_of_find? hp)).departure_le⟩

theorem finished_start (jobs : List Job) (kills : List Kill) :
    (start jobs kills).finished.entries = [] := by
  rw [start_eq]
  rfl

/-- The finished queue is in the order of the departures. -/
def Chronological (s : Simulation) : Prop := s.finished.entries.Pairwise s.Precedes

namespace Chronological

theorem step (h : Chronological s) (hs : Sound s) : Chronological s.step := by
  cases hf : s.isFinished with
  | true => rw [step_of_isFinished hf]; exact h
  | false =>
    have hlast {b : Pid} (hb : b ∈ s.holder.toList.filter (s.step.isAt .finished)) :
        ∃ q, s.step.roster.find? b = some q ∧ q.phase = .completed (s.tick + 1) := by
      obtain ⟨hh, hat⟩ := List.mem_filter.mp hb
      exact hs.placed.find?_step_of_completed hf (Option.mem_toList.mp hh) hat
    rw [Chronological, hs.placed.finished_step_eq hf]
    refine List.pairwise_append.mpr ⟨?_, List.pairwise_append.mpr ⟨?_, ?_, ?_⟩, ?_⟩
    · -- those who had left already
      refine List.Pairwise.imp_of_mem (fun ha hb hab => ?_) h
      obtain ⟨p, hp, hp', _⟩ := hs.find?_of_finished ha
      obtain ⟨q, hq, hq', _⟩ := hs.find?_of_finished hb
      obtain ⟨p', q', hfa, hfb, horder⟩ := hab
      obtain rfl := Option.some.inj (hp'.symm.trans hfa)
      obtain rfl := Option.some.inj (hq'.symm.trans hfb)
      exact ⟨_, _, hp, hq, horder⟩
    · -- those who are killed now
      refine List.pairwise_of_forall_mem_list fun a ha b hb => ?_
      obtain ⟨p, hp, hpk⟩ := hs.placed.find?_step_of_felled ha
      obtain ⟨q, hq, hqk⟩ := hs.placed.find?_step_of_felled hb
      exact ⟨p, q, hp, hq, .inr ⟨s.tick, hpk, hqk⟩⟩
    · -- at most one completes
      apply List.Pairwise.filter
      cases s.holder with
      | none => exact List.Pairwise.nil
      | some pid => exact List.pairwise_singleton ..
    · intro a ha b hb
      obtain ⟨p, hp, hpk⟩ := hs.placed.find?_step_of_felled ha
      obtain ⟨q, hq, hqc⟩ := hlast hb
      refine ⟨p, q, hp, hq, .inl ?_⟩
      rw [Progress.departure_of_killed hpk, Progress.departure_of_completed hqc]
      omega
    · intro a ha b hb
      obtain ⟨p, hp, _, hle⟩ := hs.find?_of_finished ha
      obtain hb | hb := List.mem_append.mp hb
      · obtain ⟨q, hq, hqk⟩ := hs.placed.find?_step_of_felled hb
        refine ⟨p, q, hp, hq, .inl ?_⟩
        rw [Progress.departure_of_killed hqk]
        omega
      · obtain ⟨q, hq, hqc⟩ := hlast hb
        refine ⟨p, q, hp, hq, .inl ?_⟩
        rw [Progress.departure_of_completed hqc]
        omega

theorem start (jobs : List Job) (kills : List Kill) : Chronological (start jobs kills) := by
  rw [Chronological, finished_start]
  exact List.Pairwise.nil

theorem steps (h : Chronological s) (hs : Sound s) (n : Nat) : Chronological (s.steps n) := by
  induction n generalizing s with
  | zero => exact h
  | succ n ih => rw [steps_succ]; exact ih (h.step hs) hs.step

end Chronological
end Simulation
end FirstCome
