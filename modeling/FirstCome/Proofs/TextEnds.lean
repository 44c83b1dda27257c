import FirstCome.CommandLine
import FirstCome.Proofs.Layout
import FirstCome.Proofs.TableReadBack

/-!
How the text of a report ends: a table with a line feed that does not follow white space, a document with its
closing mark. Hence the last step of an invocation, which trims the text and ends the line, takes nothing
away.
-/
namespace FirstCome

namespace Text

def EndsSolid (cs : List Char) : Prop := ∃ c, cs.getLast? = some c ∧ isBlank c = false

variable {cs : List Char}

theorem EndsSolid.append (as : List Char) (h : EndsSolid cs) : EndsSolid (as ++ cs) := by
  obtain ⟨c, hc, hsolid⟩ := h
  refine ⟨c, ?_, hsolid⟩
  rw [List.getLast?_append, hc, Option.some_or]

theorem endsSolid_of_solid (hne : cs ≠ []) (h : ∀ c ∈ cs, isBlank c = false) : EndsSolid cs :=
  ⟨cs.getLast hne, List.getLast?_eq_some_getLast hne, h _ (List.getLast_mem hne)⟩

theorem trimEnd_of_endsSolid (h : EndsSolid cs) : trimEnd cs = cs := by
  obtain ⟨c, hc, hsolid⟩ := h
  obtain ⟨as, rfl⟩ := List.getLast?_eq_some_iff.mp hc
  rw [trimEnd, List.reverse_append, List.reverse_singleton, List.singleton_append,
    List.dropWhile_cons_of_neg (by simp [hsolid]), List.reverse_cons, List.reverse_reverse]

end Text

namespace Report

open FirstCome.Text Workload.Text

theorem endsSolid_places (x : Decimal.Binary) (n : Nat) : EndsSolid (x.places n).toList := by
  have hdecimal (k : Nat) : EndsSolid (Nat.toDigits 10 k) :=
    endsSolid_of_solid (plain_decimal k).ne_nil (plain_decimal k).solid
  simp only [Decimal.Binary.places, String.toList_append, String.toList_ofList]
  refine EndsSolid.append _ ?_
  refine EndsSolid.append _ ?_
  exact hdecimal _

theorem endsSolid_summaryLine (s : Summary) : EndsSolid s.line.toList := by
  have hsign : EndsSolid "%".toList := ⟨'%', rfl, rfl⟩
  unfold Summary.line
  rw [String.toList_append]
  exact hsign.append _

theorem endsSolid_averages (s : Summary) : ∀ l ∈ s.averages, EndsSolid l.toList := by
  intro l hl
  unfold Summary.averages at hl
  split at hl
  · rw [List.mem_singleton] at hl
    rw [hl, String.toList_append]
    exact (endsSolid_places _ 2).append _
  · contradiction

theorem endsSolid_timelineLine (slots : List (Option Pid)) : EndsSolid (timelineLine slots).toList := by
  have hbar : EndsSolid ['|'] := ⟨'|', rfl, rfl⟩
  rw [toList_timelineLine]
  exact hbar.append _

theorem exists_textLines_eq_append (r : Report) (withTimeline : Bool) :
    ∃ ls l, r.textLines withTimeline = ls ++ [l] ∧ EndsSolid l.toList := by
  cases withTimeline with
  | true => exact ⟨_, _, textLines_true r, endsSolid_timelineLine _⟩
  | false =>
    have hlines : r.textLines false =
        (headerLine :: r.rows.map Row.line ++ [""]) ++ r.summary.line :: r.summary.averages := by
      simp [textLines]
    rw [hlines]
    cases hlast : r.summary.averages.getLast? with
    | none =>
      rw [List.getLast?_eq_none_iff.mp hlast]
      exact ⟨_, _, rfl, endsSolid_summaryLine r.summary⟩
    | some l =>
      obtain ⟨ls, hls⟩ := List.getLast?_eq_some_iff.mp hlast
      rw [hls, ← List.cons_append, ← List.append_assoc]
      exact ⟨_, _, rfl, endsSolid_averages r.summary l (List.mem_of_getLast? hlast)⟩

theorem endLine_text (r : Report) (withTimeline : Bool) :
    Invocation.endLine (r.text withTimeline) = r.text withTimeline := by
  obtain ⟨ls, l, hlines, hl⟩ := exists_textLines_eq_append r withTimeline
  have htext : (r.text withTimeline).toList =
      (ls.map String.toList).flatMap (· ++ ['\n']) ++ l.toList ++ ['\n'] := by
    rw [toList_text, hlines]
    simp
  have hfeed : ∀ b ∈ ['\n'], isBlank b = true := List.forall_mem_singleton.mpr rfl
  have htrim := trimEnd_append ((ls.map String.toList).flatMap (· ++ ['\n']) ++ l.toList) hfeed
  rw [trimEnd_of_endsSolid (hl.append _)] at htrim
  rw [← String.toList_inj, Invocation.endLine, htext, htrim]
  simp

theorem endsSolid_enclose (l : Json.Layout) (depth : Nat) (opening : Char) {closing : Char}
    (hclosing : isBlank closing = false) (items : List (List Char)) :
    EndsSolid (l.enclose depth opening closing items) := by
  have hlast : EndsSolid [closing] := ⟨closing, rfl, hclosing⟩
  cases items with
  | nil => exact hlast.append [opening]
  | cons item items =>
    rw [Json.Layout.enclose, ← List.cons_append]
    exact hlast.append _

theorem endLine_pretty (r : Report) : Invocation.endLine (r.toJson.pretty 0) = r.toJson.pretty 0 ++ "\n" := by
  have hsolid : EndsSolid (r.toJson.pretty 0).toList := by
    rw [Json.Layout.pretty_eq, toJson, Json.Layout.spell]
    exact endsSolid_enclose _ _ _ rfl _
  rw [Invocation.endLine, trimEnd_of_endsSolid hsolid, String.ofList_toList]

end Report
end FirstCome
