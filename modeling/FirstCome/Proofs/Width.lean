import Mathlib.Algebra.GroupWithZero.Nat
import FirstCome.Fault
import FirstCome.Outcome
import FirstCome.Workload

/-!
Which values have a written form: texts and documents hold numbers of 64 bits, while a run counts without
bound.
-/
namespace FirstCome

structure Job.Fits (j : Job) : Prop where
  burst : j.burst < 2 ^ 64
  ioStart : ∀ s ∈ j.ioStart, s < 2 ^ 64
  ioDuration : j.ioDuration < 2 ^ 64

structure Kill.Fits (k : Kill) : Prop where
  tick : k.tick < 2 ^ 64

structure Workload.Fits (w : Workload) : Prop where
  jobs : ∀ j ∈ w.jobs, j.Fits
  kills : ∀ k ∈ w.kills, k.Fits

structure Result.Fits (r : Result) : Prop where
  burst : r.burst < 2 ^ 64
  ioDuration : r.ioDuration < 2 ^ 64
  completionTick : r.completionTick < 2 ^ 64
  killedAt : ∀ t ∈ r.killedAt, t < 2 ^ 64

structure Tally.Fits (t : Tally) : Prop where
  ticks : t.ticks < 2 ^ 64
  dispatches : t.dispatches < 2 ^ 64
  ioWaits : t.ioWaits < 2 ^ 64
  completions : t.completions < 2 ^ 64
  killsApplied : t.killsApplied < 2 ^ 64
  killsIgnored : t.killsIgnored < 2 ^ 64
  killsUnfired : t.killsUnfired < 2 ^ 64
  busy : t.busy < 2 ^ 64
  idle : t.idle < 2 ^ 64

/-- The number of a line is the only one among the details of a fault. -/
def Fault.Fits : Fault → Prop
  | badLine line _ => line < 2 ^ 64
  | _ => True

instance (j : Job) : Decidable j.Fits :=
  decidable_of_iff (j.burst < 2 ^ 64 ∧ (∀ s ∈ j.ioStart, s < 2 ^ 64) ∧ j.ioDuration < 2 ^ 64)
    ⟨fun ⟨hb, hs, hd⟩ => ⟨hb, hs, hd⟩, fun ⟨hb, hs, hd⟩ => ⟨hb, hs, hd⟩⟩

instance (k : Kill) : Decidable k.Fits := decidable_of_iff (k.tick < 2 ^ 64) ⟨.mk, Kill.Fits.tick⟩

instance (w : Workload) : Decidable w.Fits :=
  decidable_of_iff ((∀ j ∈ w.jobs, j.Fits) ∧ ∀ k ∈ w.kills, k.Fits)
    ⟨fun ⟨hj, hk⟩ => ⟨hj, hk⟩, fun ⟨hj, hk⟩ => ⟨hj, hk⟩⟩

instance : (f : Fault) → Decidable f.Fits
  | .badLine line _ => inferInstanceAs (Decidable (line < 2 ^ 64))
  | .duplicatePid _ | .invalidJob _ _ | .badJson _ | .io _ | .configuration _ =>
    inferInstanceAs (Decidable True)

end FirstCome
