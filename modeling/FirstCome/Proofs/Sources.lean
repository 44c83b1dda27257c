import FirstCome.CommandLine
import FirstCome.Proofs.Grammar

/-!
What an invocation asks for: the format of its report by the environment, and its workload by the first
argument, as a document where the name of the file says so and as lines of text everywhere else.
-/
namespace FirstCome

open Workload.Text (InAnyCase map_toLower_eq_iff)

/-! ### Names of files -/

namespace Path

variable {path as ext : List Char}

theorem before_dot (h : '.' ∉ as) : ∀ c ∈ as, decide (c ≠ '.') = true := by
  intro c hc
  exact decide_eq_true fun he => h (he ▸ hc)

theorem extension?_eq_bind (path : List Char) :
    extension? path = (fileName? path).bind fun name =>
      match name.reverse.dropWhile (· ≠ '.') with
      | _ :: _ :: _ => some (name.reverse.takeWhile (· ≠ '.')).reverse
      | _ => none := rfl

theorem extension?_eq_some_iff :
    extension? path = some ext ↔
      ∃ stem, stem ≠ [] ∧ '.' ∉ ext ∧ fileName? path = some (stem ++ '.' :: ext) := by
  rw [extension?_eq_bind, Option.bind_eq_some_iff]
  constructor
  · rintro ⟨name, hname, h⟩
    by_cases hdot : '.' ∈ name.reverse
    · obtain ⟨as, bs, hsplit, has⟩ := List.eq_append_cons_of_mem hdot
      rw [hsplit, List.dropWhile_append_of_pos (before_dot has),
        List.takeWhile_append_of_pos (before_dot has)] at h
      cases bs with
      | nil => simp at h
      | cons c cs =>
        have hext : as.reverse = ext := by simpa using h
        refine ⟨(c :: cs).reverse, by simp, fun hm => has (List.mem_reverse.mp (hext ▸ hm)), ?_⟩
        rw [hname, ← List.reverse_reverse name, hsplit, ← hext]
        simp
    · rw [List.dropWhile_eq_nil_iff.mpr (before_dot hdot)] at h
      contradiction
  · rintro ⟨stem, hstem, hdot, hname⟩
    have hext : '.' ∉ ext.reverse := mt List.mem_reverse.mp hdot
    obtain ⟨c, cs, hcs⟩ := List.exists_cons_of_ne_nil (mt List.reverse_eq_nil_iff.mp hstem)
    have hreverse : (stem ++ '.' :: ext).reverse = ext.reverse ++ '.' :: c :: cs := by simp [hcs]
    refine ⟨_, hname, ?_⟩
    rw [hreverse, List.dropWhile_append_of_pos (before_dot hext),
      List.takeWhile_append_of_pos (before_dot hext)]
    simp

/-- The last part of the path ends in `.json`, in small letters or capitals, behind something else. -/
def NamesDocument (path : String) : Prop :=
  ∃ stem ext, stem ≠ [] ∧ InAnyCase "JSON" ext ∧ fileName? path.toList = some (stem ++ '.' :: ext)

theorem inAnyCase_json_iff : InAnyCase "JSON" ext ↔ ext.map Char.toLower = ['j', 's', 'o', 'n'] := by
  have h : ['j', 's', 'o', 'n'] = "JSON".toList.map Char.toLower := by decide
  rw [h, InAnyCase]
  exact (map_toLower_eq_iff (List.all_eq_true.mp (by decide))).symm

theorem dot_not_mem_of_inAnyCase (h : InAnyCase "JSON" ext) : '.' ∉ ext := by
  rw [inAnyCase_json_iff] at h
  intro hm
  have hlower : Char.toLower '.' ∈ ext.map Char.toLower := List.mem_map_of_mem hm
  rw [h] at hlower
  exact absurd hlower (by decide)

theorem isJsonPath_iff {path : String} : Workload.isJsonPath path = true ↔ NamesDocument path := by
  rw [Workload.isJsonPath, Option.any_eq_true]
  constructor
  · rintro ⟨ext, hext, hcase⟩
    obtain ⟨stem, hstem, -, hname⟩ := extension?_eq_some_iff.mp hext
    exact ⟨stem, ext, hstem, inAnyCase_json_iff.mpr (beq_iff_eq.mp hcase), hname⟩
  · rintro ⟨stem, ext, hstem, hcase, hname⟩
    have hext : extension? path.toList = some ext :=
      extension?_eq_some_iff.mpr ⟨stem, hstem, dot_not_mem_of_inAnyCase hcase, hname⟩
    exact ⟨ext, hext, beq_iff_eq.mpr (inAnyCase_json_iff.mp hcase)⟩

end Path

/-! ### Contents of files -/

namespace Workload

variable {bytes : ByteArray} {contents : Except ReadFault ByteArray} {text path : String} {w : Workload}

theorem readUtf8_eq_ok_iff : readUtf8 bytes = .ok text ↔ bytes = text.toUTF8 := by
  unfold readUtf8 String.fromUTF8?
  by_cases hvalid : bytes.IsValidUTF8
  · rw [dif_pos hvalid, String.toUTF8_eq_toByteArray, Except.ok.injEq, ← String.toByteArray_inj]
    rfl
  · rw [dif_neg hvalid]
    refine ⟨fun h => ?_, fun h => ?_⟩
    · contradiction
    · exact absurd (h ▸ text.isValidUTF8) hvalid

theorem bind_readUtf8_eq_ok_iff : contents.bind readUtf8 = .ok text ↔ contents = .ok text.toUTF8 := by
  change (contents >>= readUtf8) = .ok text ↔ _
  simp only [Except.bind_eq_ok_iff, readUtf8_eq_ok_iff, exists_eq_right]

theorem ofInput_eq_ok_iff :
    ofInput contents = .ok w ↔ ∃ text, contents = .ok text.toUTF8 ∧ ofText text = .ok w := by
  simp only [ofInput, Except.bind_eq_ok_iff, Except.mapError_eq_ok_iff, bind_readUtf8_eq_ok_iff]

theorem ofFile_eq_ok_iff :
    ofFile path contents = .ok w ↔ ∃ text, contents = .ok text.toUTF8 ∧
      (if isJsonPath path then ofJson text else ofText text) = .ok w := by
  simp only [ofFile, Except.bind_eq_ok_iff, Except.mapError_eq_ok_iff, bind_readUtf8_eq_ok_iff]

end Workload

/-! ### Arguments and environment -/

namespace Options

variable {args : List String} {input : Option String} {value : String} {format : Format}

theorem readInput_eq_ok_iff :
    readInput args = .ok input ↔ args.length ≤ 1 ∧ input = args.head?.filter (· ≠ "-") := by
  match args with
  | [] => simp [readInput, eq_comm]
  | [arg] => by_cases h : arg = "-" <;> simp [readInput, Option.filter, h, eq_comm]
  | _ :: _ :: _ => simp [readInput]

def bareName (value : String) : String := Text.lowerCase (.ofList (Text.trim value.toList))

theorem readFormat_eq_ok_iff :
    readFormat value = .ok format ↔
      (bareName value = "table" ∨ bareName value = "text") ∧ format = .table ∨
        bareName value = "json" ∧ format = .json := by
  rw [readFormat, ← bareName]
  split
  next htable =>
    have hjson : bareName value ≠ "json" := by
      intro h
      simp [h] at htable
    constructor
    · intro h
      exact .inl ⟨htable, (Except.ok.inj h).symm⟩
    · rintro (⟨-, rfl⟩ | ⟨h, -⟩)
      · rfl
      · exact absurd h hjson
  next htable =>
    split
    next hjson => simp [hjson, eq_comm]
    next hjson => simp [htable, hjson]

def chosenFormat (env : String → Option String) : Except Fault Format :=
  match env outputVariable with
  | some value => readFormat value
  | none => .ok .table

theorem ofSources_eq (args : List String) (env : String → Option String) :
    ofSources args env = do
      let input ← readInput args
      let format ← chosenFormat env
      return { input, format
               traceJson := (env traceJsonVariable).any isOn
               showTimeline := (env showTimelineVariable).any isOn } := by
  unfold ofSources chosenFormat
  cases env outputVariable <;> rfl

end Options

namespace Invocation

variable {i : Invocation} {o : Options} {format : Format} {w : Workload}

/-- The environment asks for a report in this format. -/
inductive Asks (i : Invocation) : Format → Prop
  | unset (hvalue : i.env Options.outputVariable = none) : Asks i .table
  | table {value : String} (hvalue : i.env Options.outputVariable = some value)
    (hname : Options.bareName value = "table" ∨ Options.bareName value = "text") : Asks i .table
  | json {value : String} (hvalue : i.env Options.outputVariable = some value)
    (hname : Options.bareName value = "json") : Asks i .json

def asksForTimeline (i : Invocation) : Bool := (i.env Options.showTimelineVariable).any Options.isOn

/-- The first argument leads to this workload: from standard input if there is none or a dash, from a file
otherwise. -/
inductive Loads (i : Invocation) (w : Workload) : Prop
  | input {text : String} (harg : ∀ arg ∈ i.args.head?, arg = "-")
    (hbytes : i.input = .ok text.toUTF8) (hread : Workload.ofText text = .ok w)
  | lines {path text : String} (harg : i.args.head? = some path) (hpath : path ≠ "-")
    (hbytes : i.file path = .ok text.toUTF8) (hname : ¬Path.NamesDocument path)
    (hread : Workload.ofText text = .ok w)
  | document {path text : String} (harg : i.args.head? = some path) (hpath : path ≠ "-")
    (hbytes : i.file path = .ok text.toUTF8) (hname : Path.NamesDocument path)
    (hread : Workload.ofJson text = .ok w)

theorem chosenFormat_eq_ok_iff : Options.chosenFormat i.env = .ok format ↔ i.Asks format := by
  rw [Options.chosenFormat]
  constructor
  · intro h
    split at h
    next value hvalue =>
      obtain ⟨hname, rfl⟩ | ⟨hname, rfl⟩ := Options.readFormat_eq_ok_iff.mp h
      · exact .table hvalue hname
      · exact .json hvalue hname
    next hvalue =>
      obtain rfl := Except.ok.inj h
      exact .unset hvalue
  · intro h
    cases h with
    | unset hvalue => rw [hvalue]
    | table hvalue hname =>
      rw [hvalue]
      exact Options.readFormat_eq_ok_iff.mpr (.inl ⟨hname, rfl⟩)
    | json hvalue hname =>
      rw [hvalue]
      exact Options.readFormat_eq_ok_iff.mpr (.inr ⟨hname, rfl⟩)

theorem options_eq_ok_iff :
    i.options = .ok o ↔ i.args.length ≤ 1 ∧ i.Asks o.format ∧
      o.input = i.args.head?.filter (· ≠ "-") ∧
      o.traceJson = (i.env Options.traceJsonVariable).any Options.isOn ∧
      o.showTimeline = i.asksForTimeline := by
  rw [options, Except.mapError_eq_ok_iff, Options.ofSources_eq]
  simp only [Except.bind_eq_ok_iff, Options.readInput_eq_ok_iff, chosenFormat_eq_ok_iff]
  constructor
  · rintro ⟨input, ⟨hlength, rfl⟩, format, hformat, h⟩
    obtain rfl := Except.ok.inj h
    exact ⟨hlength, hformat, rfl, rfl, rfl⟩
  · obtain ⟨input, format, traceJson, showTimeline⟩ := o
    rintro ⟨hlength, hformat, rfl, rfl, rfl⟩
    exact ⟨_, ⟨hlength, rfl⟩, _, hformat, rfl⟩

theorem workload_eq_ok_iff (hinput : o.input = i.args.head?.filter (· ≠ "-")) :
    i.workload o = .ok w ↔ i.Loads w := by
  rw [workload, hinput]
  constructor
  · intro h
    split at h
    next path hfirst =>
      obtain ⟨harg, hpath⟩ := Option.filter_eq_some_iff.mp hfirst
      have hpath : path ≠ "-" := of_decide_eq_true hpath
      obtain ⟨text, hbytes, hread⟩ := Workload.ofFile_eq_ok_iff.mp h
      by_cases hname : Path.NamesDocument path
      · rw [if_pos (Path.isJsonPath_iff.mpr hname)] at hread
        exact .document harg hpath hbytes hname hread
      · rw [if_neg (mt Path.isJsonPath_iff.mp hname)] at hread
        exact .lines harg hpath hbytes hname hread
    next hfirst =>
      have harg : ∀ arg ∈ i.args.head?, arg = "-" := by simpa using hfirst
      obtain ⟨text, hbytes, hread⟩ := Workload.ofInput_eq_ok_iff.mp h
      exact .input harg hbytes hread
  · have hfile {path : String} (harg : i.args.head? = some path) (hpath : path ≠ "-") :
        i.args.head?.filter (· ≠ "-") = some path :=
      Option.filter_eq_some_iff.mpr ⟨harg, decide_eq_true hpath⟩
    intro h
    cases h with
    | input harg hbytes hread =>
      have hfirst : i.args.head?.filter (· ≠ "-") = none := by simpa using harg
      rw [hfirst]
      exact Workload.ofInput_eq_ok_iff.mpr ⟨_, hbytes, hread⟩
    | lines harg hpath hbytes hname hread =>
      rw [hfile harg hpath]
      refine Workload.ofFile_eq_ok_iff.mpr ⟨_, hbytes, ?_⟩
      rwa [if_neg (mt Path.isJsonPath_iff.mp hname)]
    | document harg hpath hbytes hname hread =>
      rw [hfile harg hpath]
      refine Workload.ofFile_eq_ok_iff.mpr ⟨_, hbytes, ?_⟩
      rwa [if_pos (Path.isJsonPath_iff.mpr hname)]

end Invocation
end FirstCome
