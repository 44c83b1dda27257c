import FirstCome.Proofs.Conservation

/-!
Results are looked up by pid. However early a run is closed, they are in strictly ascending order of pids, so
halving them finds what a look at each of them finds: the result of a job that has left the system.
-/
namespace FirstCome

namespace Result

variable {as bs rs : List Result} {b : Result} {pid : Pid}

/-- Search results in ascending order of pids: halve them until one is left. -/
def bisect (pid : Pid) (rs : List Result) : Option Result :=
  if h : rs.length ≤ 1 then rs.head?.filter (·.pid = pid)
  else
    have : rs.length / 2 < rs.length := by omega
    if pid < rs[rs.length / 2].pid then bisect pid (rs.take (rs.length / 2))
    else bisect pid (rs.drop (rs.length / 2))
termination_by rs.length
decreasing_by
  · rw [List.length_take]
    omega
  · rw [List.length_drop]
    omega

theorem find?_append_of_lt (h : (as ++ b :: bs).Pairwise fun a b => a.pid < b.pid)
    (hlt : pid < b.pid) : (as ++ b :: bs).find? (·.pid = pid) = as.find? (·.pid = pid) := by
  have hbehind : (b :: bs).find? (·.pid = pid) = none := by
    obtain ⟨_, hb, _⟩ := List.pairwise_append.mp h
    refine List.find?_eq_none.mpr fun r hr => ?_
    have hle : pid < r.pid := by
      obtain rfl | hr := List.mem_cons.mp hr
      · exact hlt
      · exact UInt32.lt_trans hlt (List.rel_of_pairwise_cons hb hr)
    simpa using (UInt32.ne_of_lt hle).symm
  rw [List.find?_append, hbehind, Option.or_none]

theorem find?_append_of_le (h : (as ++ b :: bs).Pairwise fun a b => a.pid < b.pid)
    (hle : b.pid ≤ pid) : (as ++ b :: bs).find? (·.pid = pid) = (b :: bs).find? (·.pid = pid) := by
  have hfront : as.find? (·.pid = pid) = none := by
    obtain ⟨_, _, hab⟩ := List.pairwise_append.mp h
    refine List.find?_eq_none.mpr fun r hr => ?_
    have hlt : r.pid < pid := UInt32.lt_of_lt_of_le (hab r hr b List.mem_cons_self) hle
    simpa using UInt32.ne_of_lt hlt
  rw [List.find?_append, hfront, Option.none_or]

theorem bisect_eq_find? (h : rs.Pairwise fun a b => a.pid < b.pid) :
    bisect pid rs = rs.find? (·.pid = pid) := by
  fun_induction bisect pid rs with
  | case1 rs hlen =>
    match rs, hlen with
    | [], _ => rfl
    | [r], _ => by_cases hr : r.pid = pid <;> simp [hr]
  | case2 rs hlen hmid hlt ih =>
    have hrs := List.take_append_drop (rs.length / 2) rs
    rw [List.drop_eq_getElem_cons hmid] at hrs
    rw [ih (h.sublist (List.take_sublist ..)), ← find?_append_of_lt (hrs.symm ▸ h) hlt, hrs]
  | case3 rs hlen hmid hge ih =>
    have hrs := List.take_append_drop (rs.length / 2) rs
    rw [ih (h.sublist (List.drop_sublist ..))]
    rw [List.drop_eq_getElem_cons hmid] at hrs ⊢
    rw [← find?_append_of_le (hrs.symm ▸ h) (UInt32.not_lt.mp hge), hrs]

end Result

namespace Simulation

/-- Whenever a run is closed, its results are in strictly ascending order of pids, halving finds the same
as a scan, and there is a result for a pid just if it is registered and its job has left the system: the
one that the entry of that job gives. -/
theorem lookup_exact (jobs : List Job) (kills : List Kill) (n : Nat) :
    let s := (start jobs kills).steps n
    let o := s.outcome
    o.results.Pairwise (fun a b => a.pid < b.pid) ∧
      ∀ pid, Result.bisect pid o.results = o.result? pid ∧
        ((o.result? pid).isSome ↔
          pid ∈ jobs.map (·.pid) ∧ ∃ p, s.roster.find? pid = some p ∧ p.isFinal = true) ∧
        ∀ r, o.result? pid = some r →
          r.pid = pid ∧ ∃ p, s.roster.find? pid = some p ∧ Result.ofProgress? p = some r := by
  intro s o
  have hstart := Placed.start jobs kills
  have hs : Placed s := hstart.steps n
  refine ⟨hs.ascending_results, fun pid => ?_⟩
  have hlookup : o.result? pid = s.resultOf pid := result?_outcome hs pid
  rw [hlookup]
  refine ⟨(Result.bisect_eq_find? hs.ascending_results).trans hlookup, ?_, fun r hr => ?_⟩
  · constructor
    · intro hr
      obtain ⟨r, hr⟩ := Option.isSome_iff_exists.mp hr
      obtain ⟨p, hp, hpr⟩ := Option.bind_eq_some_iff.mp hr
      have hm : pid ∈ s.roster.pids := Roster.isSome_find?_iff.mp (Option.isSome_iff_exists.mpr ⟨p, hp⟩)
      rw [pids_steps hstart, mem_pids_start_iff] at hm
      exact ⟨hm, p, hp, Result.isFinal_of_ofProgress? hpr⟩
    · rintro ⟨-, p, hp, hfinal⟩
      rw [resultOf, hp, Option.bind_some, Result.isSome_ofProgress?_iff]
      exact hfinal
  · obtain ⟨p, hp, hpr⟩ := Option.bind_eq_some_iff.mp hr
    exact ⟨pid_of_resultOf hr, p, hp, hpr⟩

end Simulation
end FirstCome
