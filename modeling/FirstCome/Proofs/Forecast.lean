import FirstCome.Proofs.KillEffect

/-!
What one pass over the jobs, in registration order, foretells of a run in which no job waits for I/O.
-/
namespace FirstCome

/-- The part of one job in a run: for how many ticks it has the CPU, and when and how it ends. -/
structure Stint where
  job : Job
  ticks : Nat
  completionTick : Nat
  killedAt : Option Nat := none
deriving DecidableEq

namespace Stint

def result (st : Stint) : Result :=
  { pid := st.job.pid
    name := st.job.name
    burst := st.job.burst
    ioDuration := st.job.ioDuration
    completionTick := st.completionTick
    killed := st.killedAt.isSome
    killedAt := st.killedAt }

def slots (st : Stint) : List (Option Pid) := List.replicate st.ticks (some st.job.pid)

end Stint

/-- The stint of a job with `left` ticks of its burst left for which the CPU is free at `clock`. -/
def serve (kills : List Kill) (clock : Nat) (j : Job) (left : Nat) : Stint :=
  match Kill.first? kills j.pid with
  | none => ⟨j, left, clock + left, none⟩
  | some k =>
    if k ≤ clock then ⟨j, 0, k, some k⟩
    else if k < clock + left then ⟨j, k - clock, k, some k⟩
    else ⟨j, left, clock + left, none⟩

def forecast (kills : List Kill) (clock : Nat) : List (Job × Nat) → List Stint
  | [] => []
  | (j, left) :: line =>
    let st := serve kills clock j left
    st :: forecast kills (clock + st.ticks) line

variable {kills : List Kill} {j : Job} {left clock k t : Nat} {st : Stint} {line : List (Job × Nat)}

theorem job_serve (kills : List Kill) (clock : Nat) (j : Job) (left : Nat) :
    (serve kills clock j left).job = j := by
  cases hk : Kill.first? kills j.pid with
  | none => simp [serve, hk]
  | some k =>
    simp only [serve, hk]
    split
    · rfl
    · split <;> rfl

theorem serve_of_killed (hk : Kill.first? kills j.pid = some k) (h : k ≤ clock) (left : Nat) :
    serve kills clock j left = ⟨j, 0, k, some k⟩ := by
  simp [serve, hk, h]

theorem serve_one (h : ∀ k, Kill.first? kills j.pid = some k → clock < k) :
    serve kills clock j 1 = ⟨j, 1, clock + 1, none⟩ := by
  cases hk : Kill.first? kills j.pid with
  | none => simp [serve, hk]
  | some k =>
    have hlt := h k hk
    have hle : ¬k ≤ clock := by omega
    have hend : ¬k < clock + 1 := by omega
    simp [serve, hk, hle, hend]

theorem serve_succ (h : ∀ k, Kill.first? kills j.pid = some k → clock < k) (left : Nat) :
    serve kills clock j (left + 2) =
      { serve kills (clock + 1) j (left + 1) with
        ticks := (serve kills (clock + 1) j (left + 1)).ticks + 1 } := by
  have hsum : clock + (left + 2) = clock + 1 + (left + 1) := by omega
  cases hk : Kill.first? kills j.pid with
  | none => simp [serve, hk, hsum]
  | some k =>
    have hlt := h k hk
    have hle : ¬k ≤ clock := by omega
    by_cases hnext : k ≤ clock + 1
    · have hnow : k < clock + 1 + (left + 1) := by omega
      have hone : k - clock = 1 := by omega
      simp [serve, hk, hsum, hle, hnext, hnow, hone]
    · by_cases hend : k < clock + 1 + (left + 1)
      · have hticks : k - clock = k - (clock + 1) + 1 := by omega
        simp [serve, hk, hsum, hle, hnext, hend, hticks]
      · simp [serve, hk, hsum, hle, hnext, hend]

theorem forecast_one (h : ∀ k, Kill.first? kills j.pid = some k → clock < k)
    (line : List (Job × Nat)) :
    forecast kills clock ((j, 1) :: line) =
      ⟨j, 1, clock + 1, none⟩ :: forecast kills (clock + 1) line := by
  rw [forecast, serve_one h]

theorem forecast_succ (h : ∀ k, Kill.first? kills j.pid = some k → clock < k) (left : Nat)
    (line : List (Job × Nat)) :
    forecast kills clock ((j, left + 2) :: line) =
      let st := serve kills (clock + 1) j (left + 1)
      { st with ticks := st.ticks + 1 } :: forecast kills (clock + 1 + st.ticks) line := by
  rw [forecast, serve_succ h]
  dsimp only
  rw [Nat.add_right_comm, Nat.add_assoc]

theorem map_job_forecast (kills : List Kill) (clock : Nat) (line : List (Job × Nat)) :
    (forecast kills clock line).map (·.job) = line.map (·.1) := by
  induction line generalizing clock with
  | nil => rfl
  | cons b line ih =>
    rw [forecast, List.map_cons, List.map_cons, job_serve, ih]

theorem slots_forecast_filter {pids : List Pid}
    (hk : ∀ b ∈ line, b.1.pid ∈ pids → Kill.first? kills b.1.pid = some t) (ht : t ≤ clock) :
    (forecast kills clock (line.filter (·.1.pid ∉ pids))).flatMap Stint.slots =
      (forecast kills clock line).flatMap Stint.slots := by
  induction line generalizing clock with
  | nil => rfl
  | cons b line ih =>
    obtain ⟨j, left⟩ := b
    have hline := fun b hb => hk b (List.mem_cons_of_mem _ hb)
    by_cases hj : j.pid ∈ pids
    · have hst := serve_of_killed (hk (j, left) List.mem_cons_self hj) ht left
      rw [List.filter_cons_of_neg (by simpa using hj), ih hline ht, forecast, hst]
      simp [Stint.slots]
    · rw [List.filter_cons_of_pos (by simpa using hj), forecast, forecast, List.flatMap_cons,
        List.flatMap_cons, ih hline (Nat.le_add_right_of_le ht)]

theorem mem_forecast_filter {pids : List Pid}
    (hk : ∀ b ∈ line, b.1.pid ∈ pids → Kill.first? kills b.1.pid = some t) (ht : t ≤ clock)
    (hst : st ∈ forecast kills clock line) :
    st ∈ forecast kills clock (line.filter (·.1.pid ∉ pids)) ∨
      st.job.pid ∈ pids ∧ st = ⟨st.job, 0, t, some t⟩ := by
  induction line generalizing clock with
  | nil => cases hst
  | cons b line ih =>
    obtain ⟨j, left⟩ := b
    have hline := fun b hb => hk b (List.mem_cons_of_mem _ hb)
    rw [forecast, List.mem_cons] at hst
    by_cases hj : j.pid ∈ pids
    · have hserve := serve_of_killed (hk (j, left) List.mem_cons_self hj) ht left
      rw [List.filter_cons_of_neg (by simpa using hj)]
      obtain rfl | hst := hst
      · refine .inr ⟨?_, ?_⟩
        · rw [job_serve]; exact hj
        · rw [hserve]
      · rw [hserve] at hst
        exact ih hline ht hst
    · rw [List.filter_cons_of_pos (by simpa using hj), forecast, List.mem_cons]
      obtain hst | hst := hst
      · exact .inl (.inl hst)
      · exact (ih hline (Nat.le_add_right_of_le ht) hst).imp_left .inr

theorem completionTick_forecast_nil (clock : Nat) (line : List (Job × Nat)) :
    (forecast [] clock line).map (·.completionTick) =
      ((line.map (·.2)).scanl (· + ·) clock).tail := by
  induction line generalizing clock with
  | nil => rfl
  | cons b line ih =>
    have hserve : serve [] clock b.1 b.2 = ⟨b.1, b.2, clock + b.2, none⟩ := rfl
    rw [forecast, hserve, List.map_cons, ih, List.map_cons, List.scanl_cons, List.tail_cons]
    cases line <;> simp

end FirstCome
