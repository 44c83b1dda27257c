import FirstCome.Job
import Mathlib.Algebra.GroupWithZero.Nat
import Mathlib.Data.List.Basic

/-!
What a plan of kills answers when it is fired at ticks in any order: each event goes out with the first call at
its tick, so a second call at that tick finds nothing, and what no call has asked for stays.
-/
namespace FirstCome
namespace KillPlan

/-- Call number `n` is at `tick`, and none before it is. -/
def FirstCall (ticks : List Nat) (n tick : Nat) : Prop := ticks[n]? = some tick ∧ tick ∉ ticks.take n

instance (ticks : List Nat) (n tick : Nat) : Decidable (FirstCall ticks n tick) :=
  inferInstanceAs (Decidable (_ ∧ _))

def firedBy (kills : List Kill) (ticks : List Nat) (n : Nat) : List Kill :=
  kills.filter fun e => FirstCall ticks n e.tick

def unfired (kills : List Kill) (ticks : List Nat) (n : Nat) : List Kill :=
  kills.filter (·.tick ∉ ticks.take n)

variable {kills : List Kill} {ticks : List Nat} {n m tick : Nat}

/-! ### First calls -/

theorem mem_take_succ_iff (h : ticks[n]? = some m) :
    tick ∈ ticks.take (n + 1) ↔ tick ∈ ticks.take n ∨ tick = m := by
  rw [List.take_add_one, h, List.mem_append, Option.toList_some, List.mem_singleton]

theorem FirstCall.le (h : FirstCall ticks n tick) (h' : ticks[m]? = some tick) : n ≤ m := by
  by_contra hlt
  have hm : m < n := Nat.lt_of_not_le hlt
  apply h.2
  apply List.mem_of_getElem? (i := m)
  rw [List.getElem?_take_of_lt hm, h']

theorem FirstCall.unique (h : FirstCall ticks n tick) (h' : FirstCall ticks m tick) : n = m :=
  Nat.le_antisymm (h.le h'.1) (h'.le h.1)

theorem exists_firstCall (h : tick ∈ ticks) : ∃ n, FirstCall ticks n tick := by
  obtain ⟨before, behind, rfl, hbefore⟩ := List.eq_append_cons_of_mem h
  refine ⟨before.length, ?_, ?_⟩
  · rw [List.getElem?_append_right (Nat.le_refl _), Nat.sub_self]
    rfl
  · rwa [List.take_left]

/-! ### One call -/

theorem unfired_zero (kills : List Kill) (ticks : List Nat) : unfired kills ticks 0 = kills := by
  simp [unfired]

theorem firedBy_eq (h : ticks[n]? = some tick) :
    firedBy kills ticks n = (unfired kills ticks n).filter (·.tick = tick) := by
  rw [firedBy, unfired, List.filter_filter]
  apply List.filter_congr
  intro e _
  rw [← Bool.decide_and, decide_eq_decide, FirstCall, h, Option.some_inj, eq_comm]

theorem unfired_succ (h : ticks[n]? = some tick) :
    unfired kills ticks (n + 1) = (unfired kills ticks n).filter (·.tick ≠ tick) := by
  rw [unfired, unfired, List.filter_filter]
  apply List.filter_congr
  intro e _
  rw [← Bool.decide_and, decide_eq_decide, mem_take_succ_iff h, not_or, and_comm]

theorem fire_unfired (h : ticks[n]? = some tick) :
    fire ⟨unfired kills ticks n⟩ tick =
      ((firedBy kills ticks n).map (·.pid), ⟨unfired kills ticks (n + 1)⟩) := by
  rw [fire, firedBy_eq h, unfired_succ h]

theorem firedBy_of_le (h : ticks.length ≤ n) : firedBy kills ticks n = [] := by
  rw [firedBy, List.filter_eq_nil_iff]
  intro e _
  rw [decide_eq_true_eq, FirstCall, List.getElem?_eq_none h]
  simp

theorem unfired_succ_of_le (h : ticks.length ≤ n) :
    unfired kills ticks (n + 1) = unfired kills ticks n := by
  rw [unfired, unfired, List.take_of_length_le h, List.take_of_length_le (Nat.le_succ_of_le h)]

theorem perm_firedBy (kills : List Kill) (ticks : List Nat) (n : Nat) :
    (firedBy kills ticks n ++ unfired kills ticks (n + 1)).Perm (unfired kills ticks n) := by
  cases h : ticks[n]? with
  | none =>
    have hn : ticks.length ≤ n := List.getElem?_eq_none_iff.mp h
    rw [firedBy_of_le hn, unfired_succ_of_le hn, List.nil_append]
  | some tick =>
    have hsplit := List.filter_append_perm (·.tick = tick) (unfired kills ticks n)
    rw [firedBy_eq h, unfired_succ h]
    simpa using hsplit

/-! ### All calls -/

def after (k : KillPlan) (ticks : List Nat) : KillPlan := ticks.foldl (fun k tick => (k.fire tick).2) k

theorem getElem?_fireAll (k : KillPlan) (ticks : List Nat) (n : Nat) :
    (k.fireAll ticks)[n]? = ticks[n]?.map (k.after (ticks.take n)).fire := by
  induction ticks generalizing k n with
  | nil => rfl
  | cons tick ticks ih =>
    cases n with
    | zero => rfl
    | succ n => exact ih (k.fire tick).2 n

theorem after_take (kills : List Kill) (ticks : List Nat) (n : Nat) :
    after ⟨kills⟩ (ticks.take n) = ⟨unfired kills ticks n⟩ := by
  induction n with
  | zero =>
    rw [unfired_zero]
    rfl
  | succ n ih =>
    rw [after] at ih
    rw [after, List.take_add_one, List.foldl_append, ih]
    cases h : ticks[n]? with
    | none =>
      rw [unfired_succ_of_le (List.getElem?_eq_none_iff.mp h)]
      rfl
    | some tick => exact congrArg Prod.snd (fire_unfired h)

theorem answer_eq (kills : List Kill) (ticks : List Nat) (n : Nat) :
    (fireAll ⟨kills⟩ ticks)[n]? =
      ticks[n]?.map fun _ => ((firedBy kills ticks n).map (·.pid), ⟨unfired kills ticks (n + 1)⟩) := by
  rw [getElem?_fireAll, after_take]
  cases h : ticks[n]? with
  | none => rfl
  | some tick => exact congrArg some (fire_unfired h)

theorem perm_flatMap_firedBy (kills : List Kill) (ticks : List Nat) (n : Nat) :
    ((List.range n).flatMap (firedBy kills ticks) ++ unfired kills ticks n).Perm kills := by
  induction n with
  | zero =>
    rw [unfired_zero]
    exact List.Perm.refl kills
  | succ n ih =>
    rw [List.range_succ, List.flatMap_append, List.append_assoc, List.flatMap_singleton]
    exact ((perm_firedBy kills ticks n).append_left _).trans ih

theorem sum_length_answers (kills : List Kill) (ticks : List Nat) (n : Nat) :
    (((fireAll ⟨kills⟩ ticks).take n).map (·.1.length)).sum + (unfired kills ticks n).length =
      kills.length := by
  induction n with
  | zero =>
    rw [unfired_zero]
    exact Nat.zero_add _
  | succ n ih =>
    have hcall := (perm_firedBy kills ticks n).length_eq
    rw [List.length_append] at hcall
    rw [List.take_add_one, answer_eq, List.map_append, List.sum_append]
    cases h : ticks[n]? with
    | none =>
      rw [unfired_succ_of_le (List.getElem?_eq_none_iff.mp h)]
      exact ih
    | some tick =>
      simp only [Option.map_some, Option.toList_some, List.map_singleton, List.sum_singleton, List.length_map]
      omega

theorem firedBy_eq_ite (h : ticks[n]? = some tick) :
    firedBy kills ticks n = if tick ∈ ticks.take n then [] else kills.filter (·.tick = tick) := by
  rw [firedBy_eq h, unfired, List.filter_filter]
  split
  next hbefore =>
    rw [List.filter_eq_nil_iff]
    intro e _ hdue
    obtain ⟨htick, hkept⟩ : e.tick = tick ∧ e.tick ∉ ticks.take n := by simpa using hdue
    exact hkept (htick ▸ hbefore)
  next hfirst =>
    apply List.filter_congr
    intro e _
    rw [← Bool.decide_and, decide_eq_decide]
    exact ⟨And.left, fun hdue => ⟨hdue, hdue ▸ hfirst⟩⟩

theorem existsUnique_firedBy {e : Kill} (he : e ∈ kills) (hcalled : e.tick ∈ ticks) :
    ∃! n, e ∈ firedBy kills ticks n := by
  have hfired (n : Nat) : e ∈ firedBy kills ticks n ↔ FirstCall ticks n e.tick := by
    simp [firedBy, he]
  obtain ⟨n, hn⟩ := exists_firstCall hcalled
  exact ⟨n, (hfired n).mpr hn, fun m hm => ((hfired m).mp hm).unique hn⟩

theorem mem_unfired {e : Kill} (he : e ∈ kills) (hnever : e.tick ∉ ticks) (n : Nat) :
    e ∈ unfired kills ticks n := by
  have hkept : e.tick ∉ ticks.take n := fun hm => hnever (List.mem_of_mem_take hm)
  simp [unfired, he, hkept]

/-- Fired at any ticks in any order, a plan gives out each of its events once, with the first call at its
tick, and keeps those at no tick called; both in the order of the plan. -/
theorem fireAll_each_once (kills : List Kill) (ticks : List Nat) :
    (∀ n, (fireAll ⟨kills⟩ ticks)[n]? =
      ticks[n]?.map fun _ => ((firedBy kills ticks n).map (·.pid), ⟨unfired kills ticks (n + 1)⟩)) ∧
    (∀ n tick, ticks[n]? = some tick →
      firedBy kills ticks n = if tick ∈ ticks.take n then [] else kills.filter (·.tick = tick)) ∧
    (∀ e ∈ kills, if e.tick ∈ ticks then ∃! n, e ∈ firedBy kills ticks n
      else ∀ n, e ∈ unfired kills ticks n) ∧
    (∀ n, ((List.range n).flatMap (firedBy kills ticks) ++ unfired kills ticks n).Perm kills) ∧
    ∀ n, (((fireAll ⟨kills⟩ ticks).take n).map (·.1.length)).sum + (unfired kills ticks n).length =
      kills.length := by
  refine ⟨answer_eq kills ticks, fun n tick h => firedBy_eq_ite h, fun e he => ?_,
    perm_flatMap_firedBy kills ticks, sum_length_answers kills ticks⟩
  split
  next hcalled => exact existsUnique_firedBy he hcalled
  next hnever => exact mem_unfired he hnever

/-- Ticks that go back and come again, and an event that is planned twice. -/
example : fireAll ⟨[⟨1, 4⟩, ⟨2, 0⟩, ⟨1, 4⟩, ⟨3, 9⟩]⟩ [4, 0, 4] =
    [([1, 1], ⟨[⟨2, 0⟩, ⟨3, 9⟩]⟩), ([2], ⟨[⟨3, 9⟩]⟩), ([], ⟨[⟨3, 9⟩]⟩)] := by decide

end KillPlan
end FirstCome
