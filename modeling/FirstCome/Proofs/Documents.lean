import FirstCome.Fault.Document
import FirstCome.Outcome.Document
import FirstCome.Proofs.Encoding
import FirstCome.Proofs.Width
import FirstCome.Workload.Document

/-!
What is written as a document is read back: workloads, before they are checked, results, counters and
faults. Whatever a document leaves out comes back as what its absence stands for.
-/
namespace FirstCome

open Json (Encodes Value Node)

theorem encodes_optionalWord64 {o : Option Nat} (h : ∀ n ∈ o, n < 2 ^ 64) :
    Option.Rel (Encodes (Node.optional Node.word64)) (o.map .natural) (o.map some) := by
  cases o with
  | none => exact .none
  | some n =>
    have hn := (Encodes.word64 (h n rfl)).map some
    exact .some ⟨hn.discrete, hn.decode_eq⟩

theorem encodes_ite {α : Type} {decode : Node → Except Json.Fault α} {o o' : Option Value} {b b' : Option α}
    (c : Prop) [Decidable c] (h : Option.Rel (Encodes decode) o b) (h' : Option.Rel (Encodes decode) o' b') :
    Option.Rel (Encodes decode) (if c then o else o') (if c then b else b') := by
  split
  · exact h
  · exact h'

theorem encodes_unlessZero {n : Nat} (h : n < 2 ^ 64) :
    Option.Rel (Encodes Node.word64) (Value.unlessZero n) (if n = 0 then none else some n) :=
  encodes_ite (n = 0) .none (.some (.word64 h))

theorem getD_unlessZero (n : Nat) : (if n = 0 then none else some n).getD 0 = n := by
  split <;> simp_all

theorem Job.encodes_toJson {j : Job} (h : j.Fits) : Encodes Job.ofJson j.toJson j := by
  refine Encodes.record (r := Job.shape) (by decide)
    (.required (.word32 j.pid) rfl <| .required (.string j.name) rfl <|
      .required (.word64 h.burst) rfl <|
      .optional (fun o d => { d with ioStart := o }) (encodes_optionalWord64 h.ioStart)
        rfl rfl (fun _ => rfl) <|
      .required (.word64 h.ioDuration) rfl <| .nil _) ?_
  have hstart : (j.ioStart.map some).join = j.ioStart := by cases j.ioStart <;> rfl
  change Except.ok { j with ioStart := (j.ioStart.map some).join } = _
  rw [hstart]

theorem Kill.encodes_toJson {k : Kill} (h : k.Fits) : Encodes Kill.ofJson k.toJson k :=
  Encodes.record (r := Kill.shape) (by decide)
    (.required (.word32 k.pid) rfl <| .required (.word64 h.tick) rfl <| .nil _) rfl

theorem Workload.encodes_toJson {w : Workload} (h : w.Fits) : Encodes Workload.shape.ofNode w.toJson w := by
  have hkills : Option.Rel (Encodes (Node.sequence Kill.ofJson))
      (if w.kills.isEmpty then none else some (.list (w.kills.map Kill.toJson)))
      (if w.kills.isEmpty then none else some w.kills) :=
    encodes_ite _ .none (.some (.list fun k hk => Kill.encodes_toJson (h.kills k hk)))
  have hgetD : (if w.kills.isEmpty then none else some w.kills).getD [] = w.kills := by
    cases w.kills <;> rfl
  refine Encodes.record (by decide)
    (.required (.list fun j hj => Job.encodes_toJson (h.jobs j hj)) rfl <|
      .optional (fun o d => { d with kills := o }) hkills rfl rfl (fun _ => rfl) <| .nil _) ?_
  change Except.ok { w with kills := (if w.kills.isEmpty then none else some w.kills).getD [] } = _
  rw [hgetD]

theorem Result.encodes_toJson {r : Result} (h : r.Fits) : Encodes Result.shape.ofNode r.toJson r := by
  have hkilled : Option.Rel (Encodes Node.bool) (if r.killed then some (.boolean true) else none)
      (if r.killed then some true else none) :=
    encodes_ite _ (.some (.bool true)) .none
  have hgetD : (if r.killed then some true else none).getD false = r.killed := by
    cases r.killed <;> rfl
  have hjoin : (r.killedAt.map some).join = r.killedAt := by cases r.killedAt <;> rfl
  refine Encodes.record (by decide)
    (.required (.word32 r.pid) rfl <| .required (.string r.name) rfl <|
      .required (.word64 h.burst) rfl <| .required (.word64 h.ioDuration) rfl <|
      .required (.word64 h.completionTick) rfl <|
      .optional (fun o d => { d with killed := o }) hkilled rfl rfl (fun _ => rfl) <|
      .optional (fun o d => { d with killedAt := o }) (encodes_optionalWord64 h.killedAt)
        rfl rfl (fun _ => rfl) <| .nil _) ?_
  change Except.ok { r with killed := (if r.killed then some true else none).getD false
                            killedAt := (r.killedAt.map some).join } = _
  rw [hgetD, hjoin]

theorem Tally.encodes_toJson {t : Tally} (h : t.Fits) : Encodes Tally.shape.ofNode t.toJson t := by
  refine Encodes.record (by decide)
    (.required (.word64 h.ticks) rfl <|
      .optional (fun o d => { d with dispatches := o }) (encodes_unlessZero h.dispatches)
        rfl rfl (fun _ => rfl) <|
      .optional (fun o d => { d with ioWaits := o }) (encodes_unlessZero h.ioWaits)
        rfl rfl (fun _ => rfl) <|
      .optional (fun o d => { d with completions := o }) (encodes_unlessZero h.completions)
        rfl rfl (fun _ => rfl) <|
      .optional (fun o d => { d with killsApplied := o }) (encodes_unlessZero h.killsApplied)
        rfl rfl (fun _ => rfl) <|
      .optional (fun o d => { d with killsIgnored := o }) (encodes_unlessZero h.killsIgnored)
        rfl rfl (fun _ => rfl) <|
      .optional (fun o d => { d with killsUnfired := o }) (encodes_unlessZero h.killsUnfired)
        rfl rfl (fun _ => rfl) <|
      .required (.word64 h.busy) rfl <| .required (.word64 h.idle) rfl <| .nil _) ?_
  simp [Tally.shape, Json.require, getD_unlessZero]

namespace Fault

theorem Kind.ofName_name (k : Kind) : Kind.ofName k.name = .ok k := by
  cases k <;> rfl

theorem encodes_details {f : Fault} (h : f.Fits) : Encodes (ofDetails · f.kind) f.details f := by
  cases f with
  | duplicatePid pid => exact (Encodes.word32 pid).map duplicatePid
  | invalidJob pid reason =>
    have hpid : pid.toNat < 2 ^ 32 := pid.toNat_lt
    refine Encodes.objectOnly (r := invalidJobShape) (by decide)
      (.required (.natural "u32" hpid (Nat.lt_trans hpid (by decide))) rfl <|
        .required (.string reason) rfl <| .nil _) ?_
    change Except.ok (invalidJob (.ofNat pid.toNat) reason) = _
    rw [UInt32.ofNat_toNat]
  | badLine line message =>
    exact Encodes.objectOnly (r := badLineShape) (by decide)
      (.required (.natural "usize" h h) rfl <| .required (.string message) rfl <| .nil _) rfl
  | badJson message => exact (Encodes.string message).map badJson
  | io message => exact (Encodes.string message).map io
  | configuration message => exact (Encodes.string message).map configuration

theorem seek_spelling {name : String} (h : name = kindKey ∨ name = detailsKey) (value : Node)
    (tail : Json.Members) :
    seek (.cons (.spelling name) value tail) = .ok (some (name, .ok value, tail)) := by
  simp [seek, Json.text_spelling, h]

theorem ofNode_kind (k : Kind) : Kind.ofNode (Value.text k.name).node = .ok k := by
  have htext := Json.text_spelling k.name
  change (do Kind.ofName (← (Json.Quotation.spelling k.name).text)) = .ok k
  rw [htext]
  exact Kind.ofName_name k

theorem encodes_toJson {f : Fault} (h : f.Fits) : Encodes ofNode f.toJson f := by
  have hdetails := encodes_details h
  refine ⟨.object ?_, ?_⟩
  · simpa using ⟨.text _, hdetails.discrete⟩
  · have hkind := seek_spelling (.inl rfl) (Value.text f.kind.name).node
      (.cons (.spelling detailsKey) f.details.node (.done .closed))
    have hrest := seek_spelling (.inr rfl) f.details.node (.done .closed)
    have hkey : detailsKey ≠ kindKey := by decide
    change ofMembers (.cons (.spelling kindKey) (Value.text f.kind.name).node
      (.cons (.spelling detailsKey) f.details.node (.done .closed))) = .ok f
    simp only [ofMembers, hkind, hrest, ofNode_kind, hdetails.decode_eq, hkey, if_true, if_false,
      Except.ok_bind]
    rfl

end Fault

/-- A printed workload is read back and checked. -/
theorem Workload.ofJson_toJson {w : Workload} {text : String} (h : w.Fits)
    (htext : w.toJson.PrintsAs text) :
    (w.check = .ok () → ofJson text = .ok w) ∧ ∀ f, w.check = .error f → ofJson text = .error f := by
  have hread : Workload.read text = .ok w := (encodes_toJson h).decode_printed htext
  have hchecked : ofJson text = w.checked := by
    rw [ofJson, hread]
    rfl
  rw [hchecked]
  exact w.checked_of_check

/-- Names that have to be escaped, the largest numbers, an I/O start and kills that are left out and that
are not; and a second workload in which a pid comes twice. -/
theorem Workload.ofJson_toJson_largest :
    let w : Workload :=
      { jobs :=
          [{ pid := 4294967295, name := "\"\\/\x00\x1f\x7f\n\t é😀", burst := 18446744073709551615,
             ioStart := some 18446744073709551615, ioDuration := 18446744073709551615 },
            { pid := 1, name := "b", burst := 1 }]
        kills := [⟨9, 0⟩, ⟨4294967295, 18446744073709551615⟩] }
    let twice : Workload := { jobs := w.jobs ++ [{ pid := 1, name := "c", burst := 1 }] }
    (ofJson w.toJson.compact = .ok w ∧ ofJson (w.toJson.pretty 0) = .ok w) ∧
      ofJson twice.toJson.compact = .error (.duplicatePid 1) := by
  intro w twice
  have hw : w.Fits := by decide
  have hcheck : w.check = .ok () := by decide
  have htwice := ofJson_toJson (w := twice) (by decide) .compact
  exact ⟨⟨(ofJson_toJson hw .compact).1 hcheck, (ofJson_toJson hw (.pretty 0)).1 hcheck⟩,
    htwice.2 _ (by decide)⟩

/-- Printed results, counters and faults are read back as they were, whatever is left out. -/
theorem ofJson_of_printsAs :
    (∀ (r : Result) (text : String), r.Fits → r.toJson.PrintsAs text → Result.ofJson text = .ok r) ∧
      (∀ (t : Tally) (text : String), t.Fits → t.toJson.PrintsAs text → Tally.ofJson text = .ok t) ∧
      ∀ (f : Fault) (text : String), f.Fits → f.toJson.PrintsAs text → Fault.ofJson text = .ok f :=
  ⟨fun _ _ h htext => (Result.encodes_toJson h).decode_printed htext,
    fun _ _ h htext => (Tally.encodes_toJson h).decode_printed htext,
    fun _ _ h htext => (Fault.encodes_toJson h).decode_printed htext⟩

/-- Entries that are left out and that are not side by side, and a fault of each kind. -/
theorem ofJson_of_printsAs_largest :
    let r : Result :=
      { pid := 4294967295, name := "\"\\\x00\x1f\n é😀", burst := 18446744073709551615, ioDuration := 0,
        completionTick := 18446744073709551615, killed := true, killedAt := some 0 }
    let t : Tally :=
      { ticks := 18446744073709551615, ioWaits := 1, killsApplied := 18446744073709551615, busy := 7 }
    let faults : List Fault :=
      [.duplicatePid 4294967295, .invalidJob 0 "\"reason\"", .badLine 18446744073709551615 "\\",
        .badJson "\x01", .io "", .configuration "é😀"]
    Result.ofJson r.toJson.compact = .ok r ∧ Tally.ofJson (t.toJson.pretty 0) = .ok t ∧
      ∀ f ∈ faults, Fault.ofJson f.toJson.compact = .ok f := by
  intro r t faults
  obtain ⟨hresult, htally, hfault⟩ := ofJson_of_printsAs
  have hfaults : ∀ f ∈ faults, f.Fits := by decide
  have hr : r.Fits := by constructor <;> decide
  have ht : t.Fits := by constructor <;> decide
  exact ⟨hresult r _ hr .compact, htally t _ ht (.pretty 0),
    fun f hf => hfault f _ (hfaults f hf) .compact⟩

end FirstCome
