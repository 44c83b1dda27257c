import FirstCome.Proofs.Sources
import FirstCome.Proofs.TextEnds

/-!
What the program answers: a whole report, or nothing. It answers with a report just if options and workload
are in order, as no workload that is loaded fails later on; and it does not matter whether lines of text come
from standard input or from a file.
-/
namespace FirstCome

/-- A table as it is, or a document with a line feed behind it. -/
def Report.wholeText (r : Report) (format : Format) (withTimeline : Bool) : String :=
  match format with
  | .table => r.text withTimeline
  | .json => r.toJson.pretty 0 ++ "\n"

namespace Invocation

variable {i j : Invocation} {w : Workload} {text : String}

theorem endLine_render (r : Report) (o : Options) :
    endLine (r.render o) = r.wholeText o.format o.showTimeline := by
  unfold Report.render Report.wholeText
  cases o.format with
  | table => exact r.endLine_text o.showTimeline
  | json => exact r.endLine_pretty

theorem Loads.check (h : i.Loads w) : w.check = .ok () := by
  cases h with
  | input _ _ hread => exact Workload.check_of_ofText hread
  | lines _ _ _ _ hread => exact Workload.check_of_ofText hread
  | document _ _ _ _ hread => exact Workload.check_of_ofJson hread

theorem Loads.simulate (h : i.Loads w) : ∃ outcome, w.simulate = .ok outcome :=
  ⟨_, Workload.simulate_of_check h.check⟩

theorem run_eq_ok_iff :
    i.run = .ok text ↔ i.args.length ≤ 1 ∧ ∃ format w outcome, i.Asks format ∧ i.Loads w ∧
      w.simulate = .ok outcome ∧
      text = (Report.ofOutcome outcome).wholeText format i.asksForTimeline := by
  simp only [run, Except.bind_eq_ok_iff]
  constructor
  · rintro ⟨o, ho, w, hw, outcome, houtcome, h⟩
    obtain ⟨hlength, hformat, hinput, -, htimeline⟩ := options_eq_ok_iff.mp ho
    obtain rfl := Except.ok.inj h
    refine ⟨hlength, _, w, outcome, hformat, (workload_eq_ok_iff hinput).mp hw, houtcome, ?_⟩
    rw [endLine_render, htimeline]
  · rintro ⟨hlength, format, w, outcome, hformat, hw, houtcome, rfl⟩
    let o : Options :=
      { input := i.args.head?.filter (· ≠ "-"), format
        traceJson := (i.env Options.traceJsonVariable).any Options.isOn
        showTimeline := i.asksForTimeline }
    refine ⟨o, options_eq_ok_iff.mpr ⟨hlength, hformat, rfl, rfl, rfl⟩, w, (workload_eq_ok_iff rfl).mpr hw,
      outcome, houtcome, ?_⟩
    rw [endLine_render]
    rfl

theorem answer_eq_zero_iff : i.answer = (0, text) ↔ i.run = .ok text := by
  rw [answer]
  cases i.run with
  | ok text' => simp
  | error f => simp

theorem answer_eq_one_or_zero (i : Invocation) :
    i.answer = (1, "") ∨ ∃ text, i.answer = (0, text) := by
  rw [answer]
  cases i.run with
  | ok text => exact .inr ⟨text, rfl⟩
  | error f => exact .inl rfl

theorem answer_congr (h : ∀ text, j.run = .ok text ↔ i.run = .ok text) : j.answer = i.answer := by
  obtain hi | ⟨text, hi⟩ := i.answer_eq_one_or_zero
  · obtain hj | ⟨text, hj⟩ := j.answer_eq_one_or_zero
    · rw [hi, hj]
    · rw [answer_eq_zero_iff, h, ← answer_eq_zero_iff] at hj
      rw [hi] at hj
      exact absurd (congrArg Prod.fst hj) Nat.one_ne_zero
  · rw [hi, answer_eq_zero_iff, h, ← answer_eq_zero_iff, hi]

/-! ### Standard input and files -/

theorem Asks.congr {format : Format} (henv : j.env = i.env) (h : i.Asks format) : j.Asks format := by
  cases h with
  | unset hvalue => exact .unset (henv ▸ hvalue)
  | table hvalue hname => exact .table (henv ▸ hvalue) hname
  | json hvalue hname => exact .json (henv ▸ hvalue) hname

/-- The file that `j` names holds what `i` is given on standard input, as lines of text. -/
structure SameLines (i j : Invocation) (path : String) : Prop where
  input : i.args = [] ∨ i.args = ["-"]
  file : j.args = [path]
  path_ne : path ≠ "-"
  name : ¬Path.NamesDocument path
  bytes : j.file path = i.input
  env : j.env = i.env

variable {path : String}

theorem SameLines.loads_iff (h : SameLines i j path) : j.Loads w ↔ i.Loads w := by
  have hdash : ∀ arg ∈ i.args.head?, arg = "-" := by
    obtain hargs | hargs := h.input <;> simp [hargs]
  have hpath : j.args.head? = some path := by rw [h.file, List.head?_cons]
  constructor
  · intro hj
    cases hj with
    | input harg => exact absurd (harg path hpath) h.path_ne
    | lines harg _ hbytes _ hread =>
      obtain rfl := Option.some.inj (hpath.symm.trans harg)
      exact .input hdash (h.bytes ▸ hbytes) hread
    | document harg _ _ hname =>
      obtain rfl := Option.some.inj (hpath.symm.trans harg)
      exact absurd hname h.name
  · intro hi
    cases hi with
    | input _ hbytes hread => exact .lines hpath h.path_ne (h.bytes ▸ hbytes) h.name hread
    | lines harg hne => exact absurd (hdash _ harg) hne
    | document harg hne => exact absurd (hdash _ harg) hne

theorem SameLines.answer_eq (h : SameLines i j path) : j.answer = i.answer := by
  have hasks (format : Format) : j.Asks format ↔ i.Asks format :=
    ⟨Asks.congr h.env.symm, Asks.congr h.env⟩
  have hlength : j.args.length ≤ 1 ↔ i.args.length ≤ 1 := by
    obtain hargs | hargs := h.input <;> simp [hargs, h.file]
  refine answer_congr fun text => ?_
  simp only [run_eq_ok_iff, hlength, hasks, h.loads_iff, asksForTimeline, h.env]

/-- The answer is exit code 1 and no text, or exit code 0 and the whole text of the report. There is a report
just if there is at most one argument, the environment asks for a format that exists and the workload can be
loaded; once it is loaded nothing fails. The same lines of text have the same answer from standard input and
from a file. -/
theorem answer_whole_or_nothing (i : Invocation) :
    (i.answer = (1, "") ∨ ∃ text, i.answer = (0, text)) ∧
      (∀ text, i.answer = (0, text) ↔ i.args.length ≤ 1 ∧ ∃ format w outcome, i.Asks format ∧
        i.Loads w ∧ w.simulate = .ok outcome ∧
        text = (Report.ofOutcome outcome).wholeText format i.asksForTimeline) ∧
      (i.answer.1 = 0 ↔ i.args.length ≤ 1 ∧ (∃ format, i.Asks format) ∧ ∃ w, i.Loads w) ∧
      (∀ w, i.Loads w → ∃ outcome, w.simulate = .ok outcome) ∧
      ∀ j path, SameLines i j path → j.answer = i.answer := by
  have htext (text : String) : i.answer = (0, text) ↔ _ := answer_eq_zero_iff.trans run_eq_ok_iff
  refine ⟨i.answer_eq_one_or_zero, htext, ?_, fun w hw => hw.simulate, fun j path h => h.answer_eq⟩
  constructor
  · intro hzero
    obtain hone | ⟨text, hanswer⟩ := i.answer_eq_one_or_zero
    · rw [hone] at hzero
      contradiction
    · obtain ⟨hlength, format, w, _, hformat, hw, -⟩ := (htext text).mp hanswer
      exact ⟨hlength, ⟨format, hformat⟩, w, hw⟩
  · rintro ⟨hlength, ⟨format, hformat⟩, w, hw⟩
    obtain ⟨outcome, houtcome⟩ := hw.simulate
    rw [(htext _).mpr ⟨hlength, format, w, outcome, hformat, hw, houtcome, rfl⟩]

/-- A job that is killed while it waits for its I/O, once behind a dash and once in a file, reported in a table
with its timeline. -/
theorem answer_whole_or_nothing_dash :
    let text := "2\na#1 7 3 1 9\nb 2 1 - -\n1\nkill 7 3 # waits\n"
    let w : Workload :=
      { jobs := [{ pid := 7, name := "a#1", burst := 3, ioStart := some 1, ioDuration := 9 },
          { pid := 2, name := "b", burst := 1 }]
        kills := [⟨7, 3⟩] }
    let env := fun name => [("FCFS_OUTPUT", " Text\n"), ("FCFS_SHOW_TIMELINE", "TRUE")].lookup name
    let i : Invocation :=
      { args := ["-"], env, input := .ok text.toUTF8, file := fun _ => .error .notFound }
    let j : Invocation :=
      { args := ["runs.json/jobs"], env, input := .error .notFound, file := fun _ => .ok text.toUTF8 }
    SameLines i j "runs.json/jobs" ∧ i.Loads w ∧ i.Asks .table ∧ ∃ outcome, w.simulate = .ok outcome ∧
      i.answer = (0, (Report.ofOutcome outcome).text true) ∧ j.answer = i.answer := by
  intro text w env i j
  have hname : ¬Path.NamesDocument "runs.json/jobs" := mt Path.isJsonPath_iff.mpr (by decide)
  have hsame : SameLines i j "runs.json/jobs" := ⟨.inr rfl, rfl, by decide, hname, rfl, rfl⟩
  have hw : i.Loads w := .input (by simp [i]) rfl (by decide)
  have hformat : i.Asks .table := .table rfl (.inr (by decide))
  obtain ⟨-, htext, -, hruns, hanswers⟩ := i.answer_whole_or_nothing
  obtain ⟨outcome, houtcome⟩ := hruns w hw
  refine ⟨hsame, hw, hformat, outcome, houtcome, ?_, hanswers j _ hsame⟩
  exact (htext _).mpr ⟨by decide, .table, w, outcome, hformat, hw, houtcome, rfl⟩

end Invocation
end FirstCome
