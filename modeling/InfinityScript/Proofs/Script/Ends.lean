import InfinityScript.Proofs.Code.Postcondition
import InfinityScript.Proofs.Script.Passes

/-!
# What records and scripts end in

A record is made of lexemes of the code (`TriggerRecord.Of`, `ActionRecord.Of`), and a
script of the lines of its triggers and actions (`Decompiler.Frame.ends_script`). What
damages a block or a record is told in its place, so that only an abort is left.
-/

namespace InfinityScript

open Reader

variable {L : Lexeme → Prop} {E : DecodeError → Prop}

structure ObjectRecord.Of (L : Lexeme → Prop) (record : ObjectRecord) : Prop where
  numbers : ∀ n ∈ record.numbers, L (.number n)
  area : ∀ area ∈ record.area, L (.coordinate area)
  name : L (.string record.name)

/-- The fields of the record are lexemes of `L`; an integer that is missing is zero. -/
structure TriggerRecord.Of (L : Lexeme → Prop) (record : TriggerRecord) : Prop where
  integers : ∀ n ∈ record.integers, n = 0 ∨ L (.number n)
  point : ∀ point ∈ record.point, L (.coordinate point)
  strings : ∀ strings ∈ record.strings, L (.string strings.1) ∧ L (.string strings.2)
  object : record.object.Of L

structure ActionRecord.Of (L : Lexeme → Prop) (record : ActionRecord) : Prop where
  opcode : L (.number record.opcode)
  actor : record.actor.Of L
  objects : ∀ object ∈ record.objects, object.Of L
  integers : ∀ n ∈ record.integers, L (.number n)
  x : L (.number record.x)
  y : L (.number record.y)
  strings : ∀ strings ∈ record.strings, L (.string strings.1) ∧ L (.string strings.2)

def Mismatches (L : Lexeme → Prop) (E : DecodeError → Prop) : Prop :=
  ∀ expected found, (∀ l ∈ found, L l) → E (.damage (.mismatch expected found))

structure ObjectFaults (profile : Profile) (L : Lexeme → Prop) (E : DecodeError → Prop) :
    Prop where
  mismatch : Mismatches L E
  width : ∀ expected found, E (.damage (.objectWidth expected found))
  qualifiers : ∀ record : ObjectRecord, record.numbers.length = profile.objectNumberCount →
    record.qualifiers profile = [] → E (.abort .noQualifiers)

theorem Reader.ends_number (h : Mismatches L E) : Ends L (fun n => L (.number n)) E number := by
  refine ends_accept (fun l n hl htake => ?_) (h _)
  split at htake
  · next found =>
    obtain rfl := Option.some.inj htake
    exact hl (.number found) rfl
  · cases htake

theorem Reader.ends_string (h : Mismatches L E) :
    Ends L (fun text => L (.string text)) E string := by
  refine ends_accept (fun l text hl htake => ?_) (h _)
  split at htake
  · next found =>
    obtain rfl := Option.some.inj htake
    exact hl (.string found) rfl
  · cases htake

theorem Reader.ends_marker (h : Mismatches L E) (m : Marker) :
    Ends L (fun _ => True) E (marker m) :=
  ends_accept (fun _ _ _ _ => trivial) (h _)

theorem Reader.ends_numbers_of : Ends L (fun ns => ∀ n ∈ ns, L (.number n)) E numbers := by
  intro ls hls
  rw [parse_numbers]
  show ∀ n ∈ (splitNumbers ls).1, L (.number n)
  induction ls with
  | nil => simp [splitNumbers]
  | cons l ls ih =>
    cases l with
    | number n =>
      obtain ⟨hn, hrest⟩ := List.forall_mem_cons.mp hls
      exact List.forall_mem_cons.mpr ⟨hn, ih hrest⟩
    | _ => simp [splitNumbers]

variable {profile : Profile}

theorem ObjectRecord.ends_read (h : ObjectFaults profile L E) : Ends L (Of L) E (read profile) := by
  refine ends_numbers_of.bind fun before hbefore => ends_coordinate?.bind fun area harea => ?_
  refine (ends_string h.mismatch).bind fun name hname => ends_numbers_of.bind fun after hafter => ?_
  refine (ends_marker h.mismatch _).bind fun _ _ => ?_
  dsimp only
  split
  · exact ends_fail (h.width _ _)
  · next hlength =>
    split
    · next hnone => exact ends_fail (h.qualifiers _ (Decidable.of_not_not hlength) hnone)
    · refine ends_pure ⟨fun n hn => ?_, harea, hname⟩
      exact (List.mem_append.mp hn).elim (hbefore n) (hafter n)

theorem TriggerRecord.ends_read (h : ObjectFaults profile L E) :
    Ends L (Of L) E (read profile) := by
  have hnumber := ends_number h.mismatch
  have hstring := ends_string h.mismatch
  refine hnumber.bind fun first hfirst => ?_
  refine ends_look (fun next => do
    let record ← readFields profile first next
    marker .trigger
    return record) fun next => ?_
  refine Ends.bind (P := Of L) ?_ fun record hrecord =>
    (ends_marker h.mismatch _).bind fun _ _ => ends_pure hrecord
  unfold readFields
  split
  · refine (ends_marker h.mismatch _).bind fun _ _ => (ObjectRecord.ends_read h).bind fun object hobject => ?_
    exact ends_pure ⟨by simp [hfirst], by simp, by simp, hobject⟩
  · refine hnumber.bind fun _ _ => hnumber.bind fun second hsecond => hnumber.bind fun third hthird => ?_
    refine ends_coordinate?.bind fun point hpoint => ?_
    refine hstring.bind fun string1 h1 => hstring.bind fun string2 h2 => ?_
    refine (ends_marker h.mismatch _).bind fun _ _ => (ObjectRecord.ends_read h).bind fun object hobject => ?_
    exact ends_pure ⟨by simp [hfirst, hsecond, hthird], hpoint, by simp [h1, h2], hobject⟩

theorem ActionRecord.ends_read (h : ObjectFaults profile L E) : Ends L (Of L) E (read profile) := by
  have hobject := ObjectRecord.ends_read h
  have hnumber := ends_number h.mismatch
  have hstring := ends_string h.mismatch
  have hmarker := ends_marker h.mismatch
  refine hnumber.bind fun opcode hopcode => (hmarker _).bind fun _ _ => ?_
  refine hobject.bind fun actor hactor => (hmarker _).bind fun _ _ => ?_
  refine hobject.bind fun object1 h1 => (hmarker _).bind fun _ _ => ?_
  refine hobject.bind fun object2 h2 => ?_
  refine hnumber.bind fun first hfirst => hnumber.bind fun x hx => hnumber.bind fun y hy => ?_
  refine hnumber.bind fun second hsecond => hnumber.bind fun third hthird => ?_
  refine ends_look (fun next => do
    let strings ← readStrings next
    marker .action
    return ({ opcode, actor, objects := [object1, object2], integers := [first, second, third],
              x, y, strings } : ActionRecord)) fun next => ?_
  refine Ends.bind (P := fun strings => ∀ pair ∈ strings, L (.string pair.1) ∧ L (.string pair.2)) ?_
    fun strings hstrings => (hmarker _).bind fun _ _ => ends_pure
      ⟨hopcode, hactor, by simp [h1, h2], by simp [hfirst, hsecond, hthird], hx, hy, hstrings⟩
  unfold readStrings
  split
  · refine hstring.bind fun string1 h1 => hstring.bind fun string2 h2 => ?_
    exact ends_pure (by simp [h1, h2])
  · exact ends_pure (by simp)

def DecodeError.IsAbort (E : DecodeError → Prop) : DecodeError → Prop
  | .damage _ => False
  | .abort reason => E (.abort reason)

/-- A reader whose damage is told of has only aborts left. -/
theorem Reader.Ends.recover_damage {P : α → Prop} {reader : Reader α}
    {handle : Damage → Reader α} (h : Ends L P E reader)
    (hhandle : ∀ damage, E (.damage damage) → Ends L P (DecodeError.IsAbort E) (handle damage)) :
    Ends L P (DecodeError.IsAbort E) (reader.recover handle) := by
  intro ls hls
  have hreader := h ls hls
  rw [parse_recover]
  rcases hparse : reader.parse ls with ⟨(damage | abort) | value, rest⟩
  · rw [hparse] at hreader
    exact hhandle damage hreader rest (mem_of_parse hparse hls)
  · rw [hparse] at hreader
    exact hreader
  · rw [hparse] at hreader
    exact hreader

/-- Triggers, actions and all that stands around them: the lines of the decompiler are of
`Q`, its errors of `E`. -/
structure Decompiler.Frame (decompiler : Decompiler) (L : Lexeme → Prop) (Q : SourceLine → Prop)
    (E : DecodeError → Prop) : Prop where
  mismatch : Mismatches L E
  trigger : (Trigger.decode decompiler.symbols decompiler.profile).Ends L (fun line =>
    Q (line.indented decompiler.indent) ∧ Q (line.indented (decompiler.indent ++ decompiler.indent)) ∧
      ∀ fault, orCount line.text = .error fault → E (.abort (.numeral fault))) E
  action : (Action.decode decompiler.symbols decompiler.profile).Ends L (fun line =>
    Q (line.indented (decompiler.indent ++ decompiler.indent))) E
  weight : ∀ n, L (.number n) → Q { text := decompiler.indent ++ "RESPONSE #" ++ Text.ofInt n }
  fixed : ∀ text ∈ ["IF".toList, "THEN".toList, "END".toList, []], Q { text }
  damage : ∀ damage, E (.damage damage) → Q (.ofDamage damage)

namespace Decompiler.Frame

variable {decompiler : Decompiler} {Q : SourceLine → Prop}

theorem ends_condition (h : decompiler.Frame L Q E) :
    Ends L (fun lines => ∀ line ∈ lines, Q line) E decompiler.condition := by
  have hsweep : Ends L (fun result => ∀ line ∈ result.1.lines, Q line) E
      (sweep (some .condition) decompiler.conditionStep { lines := [{ text := "IF" }] }) := by
    refine ends_sweep (I := fun condition : Condition => ∀ line ∈ condition.lines, Q line) ?_
      (by simpa using h.fixed _ (by simp))
    intro condition l _ hcondition
    unfold conditionStep
    split
    · refine h.trigger.bind fun trigger htrigger => ?_
      obtain ⟨hsingle, hdouble, hcount⟩ := htrigger
      unfold Condition.add
      by_cases hmissing : condition.missing > 0
      · simp only [if_pos hmissing]
        exact ends_pure (List.forall_mem_append.mpr ⟨hcondition, (by simpa using hdouble)⟩)
      · simp only [if_neg hmissing]
        cases horCount : orCount trigger.text with
        | error fault => exact ends_fail (hcount fault horCount)
        | ok count => exact ends_pure (List.forall_mem_append.mpr ⟨hcondition, (by simpa using hsingle)⟩)
    · exact ends_pure hcondition
  refine hsweep.bind fun result hresult => ?_
  obtain ⟨condition, closed⟩ := result
  cases closed with
  | true => exact ends_pure hresult
  | false => exact ends_fail (h.mismatch _ _ (by simp))

theorem ends_response (h : decompiler.Frame L Q E) :
    Ends L (fun lines => ∀ line ∈ lines, Q line) E decompiler.response := by
  refine (ends_number h.mismatch).bind fun weight hweight => ?_
  refine h.action.many.bind fun actions hactions => ?_
  refine (ends_marker h.mismatch _).bind fun _ _ => ends_pure ?_
  refine List.forall_mem_cons.mpr ⟨h.weight weight hweight, fun line hline => ?_⟩
  obtain ⟨action, haction, rfl⟩ := List.mem_map.mp hline
  exact hactions action haction

theorem ends_responseSet (h : decompiler.Frame L Q E) :
    Ends L (fun lines => ∀ line ∈ lines, Q line) E decompiler.responseSet := by
  have hsweep : Ends L (fun result => ∀ line ∈ result.1, Q line) E
      (sweep (some .responseSet) decompiler.responseSetStep [{ text := "THEN" }]) := by
    refine ends_sweep (I := fun lines => ∀ line ∈ lines, Q line) ?_
      (by simpa using h.fixed _ (by simp))
    intro lines l _ hlines
    refine ends_look (decompiler.responseAt lines l) fun next => ?_
    unfold responseAt
    split
    · exact h.ends_response.bind fun _ hmore => ends_pure (List.forall_mem_append.mpr ⟨hlines, hmore⟩)
    · exact ends_pure hlines
  refine hsweep.bind fun result hresult => ?_
  obtain ⟨lines, closed⟩ := result
  cases closed with
  | true => exact ends_pure hresult
  | false => exact ends_fail (h.mismatch _ _ (by simp))

theorem ends_block (h : decompiler.Frame L Q E) :
    Ends L (fun lines => ∀ line ∈ lines, Q line) E decompiler.block := by
  have hsweep : Ends L (fun result => ∀ line ∈ result.1, Q line) E
      (sweep (some .block) decompiler.blockStep []) := by
    refine ends_sweep (I := fun lines => ∀ line ∈ lines, Q line) ?_ (by simp)
    intro lines l _ hlines
    unfold blockStep
    split
    · exact h.ends_condition.bind fun _ hmore => ends_pure (List.forall_mem_append.mpr ⟨hlines, hmore⟩)
    · exact h.ends_responseSet.bind fun _ hmore => ends_pure (List.forall_mem_append.mpr ⟨hlines, hmore⟩)
    · exact ends_pure hlines
  refine hsweep.bind fun result hresult => ends_pure (List.forall_mem_append.mpr ⟨hresult, ?_⟩)
  simpa using ⟨h.fixed "END".toList (by simp), h.fixed [] (by simp)⟩

theorem ends_script (h : decompiler.Frame L Q E) :
    Ends L (fun lines => ∀ line ∈ lines, Q line) (DecodeError.IsAbort E) decompiler.script := by
  have hblock : Ends L (fun lines => ∀ line ∈ lines, Q line) (DecodeError.IsAbort E)
      decompiler.blockOrDamage := by
    refine h.ends_block.recover_damage fun damage hdamage => ?_
    refine (ends_skipPast _).bind fun _ _ => ends_pure ?_
    simpa using ⟨h.damage damage hdamage, h.fixed [] (by simp)⟩
  have hsweep : Ends L (fun result => ∀ line ∈ result.1, Q line) (DecodeError.IsAbort E)
      (sweep none decompiler.scriptStep []) := by
    refine ends_sweep (I := fun lines => ∀ line ∈ lines, Q line) ?_ (by simp)
    intro lines l _ hlines
    unfold scriptStep
    split
    · exact hblock.bind fun _ hmore => ends_pure (List.forall_mem_append.mpr ⟨hlines, hmore⟩)
    · exact ends_pure hlines
  exact hsweep.bind fun result hresult => ends_pure hresult

end Decompiler.Frame

theorem Decompiler.ends_records {record : Reader SourceLine} {Q : SourceLine → Prop}
    (hrecord : Ends L Q E record) (hdamage : ∀ damage, E (.damage damage) → Q (.ofDamage damage))
    (m : Marker) :
    Ends L (fun lines => ∀ line ∈ lines, Q line) (DecodeError.IsAbort E) (records m record) := by
  have hone : Ends L Q (DecodeError.IsAbort E) (recordOrDamage m record) :=
    hrecord.recover_damage fun damage hfound =>
      (ends_skipPast _).bind fun _ _ => ends_pure (hdamage damage hfound)
  have hsweep : Ends L (fun result => ∀ line ∈ result.1, Q line) (DecodeError.IsAbort E)
      (sweep none (recordsStep m record) []) := by
    refine ends_sweep (I := fun lines => ∀ line ∈ lines, Q line) ?_ (by simp)
    intro lines l _ hlines
    unfold recordsStep
    split
    · exact hone.bind fun _ hline => ends_pure (List.forall_mem_append.mpr ⟨hlines, (by simpa using hline)⟩)
    · exact ends_pure hlines
  exact hsweep.bind fun result hresult => ends_pure hresult

end InfinityScript
