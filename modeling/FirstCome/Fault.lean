import FirstCome.Job

/-!
Everything that can go wrong before or after a run; the run itself has no way to fail.
-/

/-! ### Computations that may fail -/

namespace Except

variable {ε ε' α β : Type} {r : Except ε α} {e : ε} {e' : ε'} {a : α} {b : β}

@[simp] theorem ok_bind (a : α) (f : α → Except ε β) : (ok a >>= f) = f a := rfl
@[simp] theorem error_bind (e : ε) (f : α → Except ε β) : (error e >>= f) = error e := rfl
@[simp] theorem pure_eq_ok (a : α) : (pure a : Except ε α) = ok a := rfl
@[simp] theorem mapError_ok (f : ε → ε') (a : α) : (ok a).mapError f = ok a := rfl
@[simp] theorem mapError_error (f : ε → ε') (e : ε) :
    (error e : Except ε α).mapError f = error (f e) := rfl

theorem bind_eq_ok_iff {f : α → Except ε β} : (r >>= f) = ok b ↔ ∃ a, r = ok a ∧ f a = ok b := by
  cases r <;> simp

theorem bind_eq_error_iff {f : α → Except ε β} :
    (r >>= f) = error e ↔ r = error e ∨ ∃ a, r = ok a ∧ f a = error e := by
  cases r <;> simp

theorem map_eq_ok_iff {f : α → β} : f <$> r = ok b ↔ ∃ a, r = ok a ∧ f a = b := by
  cases r <;> simp [Functor.map, Except.map]

theorem map_eq_error_iff {f : α → β} : f <$> r = error e ↔ r = error e := by
  cases r <;> simp [Functor.map, Except.map]

theorem mapError_eq_ok_iff {f : ε → ε'} : r.mapError f = ok a ↔ r = ok a := by
  cases r <;> simp

theorem mapError_eq_error_iff {f : ε → ε'} :
    r.mapError f = error e' ↔ ∃ e, r = error e ∧ f e = e' := by
  cases r <;> simp

end Except

/-! ### Faults -/

namespace FirstCome

inductive Fault where
  | duplicatePid (pid : Pid)
  | invalidJob (pid : Pid) (reason : String)
  | badLine (line : Nat) (message : String)
  | badJson (message : String)
  | io (message : String)
  | configuration (message : String)
deriving DecidableEq

namespace Fault

inductive Kind where
  | duplicatePid
  | invalidJob
  | badLine
  | badJson
  | io
  | configuration
deriving DecidableEq

def kind : Fault → Kind
  | duplicatePid _ => .duplicatePid
  | invalidJob _ _ => .invalidJob
  | badLine _ _ => .badLine
  | badJson _ => .badJson
  | io _ => .io
  | configuration _ => .configuration

namespace Kind

def all : List Kind := [duplicatePid, invalidJob, badLine, badJson, io, configuration]

def name : Kind → String
  | duplicatePid => "duplicate_pid"
  | invalidJob => "invalid_process"
  | badLine => "parse"
  | badJson => "json"
  | io => "io"
  | configuration => "configuration"

def code : Kind → String
  | duplicatePid => "workload::duplicate_pid"
  | invalidJob => "workload::invalid_process"
  | badLine => "workload::parse_error"
  | badJson => "workload::invalid_json"
  | io => "sim::io_error"
  | configuration => "sim::configuration_error"

def help : Kind → String
  | duplicatePid => "Every process line must use a distinct id."
  | invalidJob => "Names must be non-empty, ids and CPU bursts must be positive."
  | badLine =>
    "Expected `<name> <pid> <burst> <io_start|-> <io_duration|->` or `KILL <pid> <tick>`."
  | badJson =>
    "The document must be an object with `processes` and optional `kills` arrays."
  | io => "Check that the input path exists and is readable."
  | configuration => "FCFS_OUTPUT accepts `table` or `json`."

end Kind

def message : Fault → String
  | duplicatePid pid => "Duplicate process id " ++ toString pid.toNat
  | invalidJob pid reason =>
    "Invalid process specification for pid " ++ toString pid.toNat ++ ": " ++ reason
  | badLine line message => "Parse error on line " ++ toString line ++ ": " ++ message
  | badJson message => "Invalid JSON workload: " ++ message
  | io message => "I/O error: " ++ message
  | configuration message => "Configuration error: " ++ message

end Fault
end FirstCome
