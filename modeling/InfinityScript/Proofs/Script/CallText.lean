import InfinityScript.Proofs.Argument.Call
import InfinityScript.Proofs.Script.Expressed
import InfinityScript.Proofs.Script.Relayout
import InfinityScript.Proofs.Script.RoundTrip
import InfinityScript.Proofs.Symbol.Lookup

/-!
# Calls as statements

A function that is found by its name is called by a text of the name and its arguments
(`Callable.calls_callText`), and a source of nothing but this text, with a comment behind
it or without, has the call for its one statement (`Callable.listing_callText`).
-/

namespace InfinityScript

/-- The function is found by its name, which says nothing but itself. -/
structure Callable (symbols : Symbols) (table : Text) (entry : Entry) : Prop where
  parenthesis : '(' ∉ entry.name
  newline : '\n' ∉ entry.name
  statement : Text.statement entry.name = entry.name
  trimmed : Text.trimRight entry.name = entry.name
  function : symbols.function table entry.name = .ok entry

theorem Symbols.IsRead.callable {symbols : Symbols} {ids : Table} {entry : Entry}
    (hread : symbols.IsRead) (hids : symbols.table? table = some ids)
    (hmem : entry ∈ ids.entries.toList)
    (hname : ∀ other ∈ ids.entries.toList, Text.upper other.name = Text.upper entry.name →
      other = entry) (hfunction : entry.isFunction) : Callable symbols table entry := by
  have hmade := hread.made table ids hids
  have hentry := hmade.of_mem hmem
  have hstatement := ((hread.made_statement table ids hids).of_mem hmem).2
  have htrim := (Text.beforeComment_trim_eq_self hstatement).2
  have hfound : symbols.byName? table entry.name = some entry := by
    rw [Symbols.byName?, hids, Option.bind_some, hmade.lookup?_name hmem hname htrim]
  refine ⟨hentry.parenthesis, hentry.name, hstatement, ?_, ?_⟩
  · have hleft := Text.trimLeft_eq_self (Text.isBlank_head_of_trim_eq_self htrim)
    rwa [Text.trim, hleft] at htrim
  · rw [Symbols.function, hfound]
    simp [hfunction]

theorem Entry.isFunction_of_signature {entry : Entry} (h : entry.signature = .ok (first :: rest)) :
    entry.isFunction := by
  cases hparameters : entry.parameters with
  | none =>
    have hnone : entry.signature = .ok [] := by
      rw [Entry.signature, Entry.definitions, hparameters]
      rfl
    rw [hnone] at h
    cases h
  | some parameters => rw [Entry.isFunction, hparameters]; rfl

theorem statement_call (hname : Text.statement name = name)
    (hcomment : Text.beforeComment text = text) :
    Text.statement (name ++ '(' :: text) = name ++ '(' :: Text.trimRight text := 
  Text.statement_append_cons hname (by decide) (by decide) hcomment

/-- The text stands for itself as an argument of a statement. -/
structure Call.Spoken (value : Text) : Prop extends Call.IsArgument value where
  comment : Text.beforeComment value = value
  newline : '\n' ∉ value

theorem beforeComment_join {values : List Text} (hmark : mark ≠ '/')
    (h : ∀ value ∈ values, Text.beforeComment value = value) :
    Text.beforeComment (Text.join [mark] values) = Text.join [mark] values := by
  induction values with
  | nil => rfl
  | cons value values ih =>
    obtain ⟨hvalue, hvalues⟩ := List.forall_mem_cons.mp h
    cases values with
    | nil => simpa using hvalue
    | cons next values =>
      have hjoin : Text.join [mark] (value :: next :: values) =
          value ++ mark :: Text.join [mark] (next :: values) := by
        rw [Text.join_cons_cons]
        simp
      rw [hjoin, Text.beforeComment_append hvalue hmark, ih hvalues]

theorem newline_notMem_append {line : Text} (h : '\n' ∉ line) (comment : Option Text) :
    '\n' ∉ Comment.append line comment := by
  cases comment with
  | none => exact h
  | some comment =>
    simp only [Comment.append, List.mem_append, List.mem_map, not_or]
    refine ⟨⟨h, by decide⟩, ?_⟩
    rintro ⟨c, -, hc⟩
    split at hc
    · exact absurd hc (by decide)
    · next hne => exact hne hc

theorem statement_append_comment (line : Text) (comment : Option Text) :
    Text.statement (Comment.append line comment) = Text.statement line := by
  cases comment with
  | none => rfl
  | some comment =>
    have hnone : ∀ c ∈ ([] : Text), Text.isBlank c := by simp
    have hcomment := Text.statement_indent_comment hnone line
      (' ' :: comment.map fun c => if c = '\n' then ' ' else c)
    simpa [Comment.append] using hcomment

def Action.Calls (symbols : Symbols) (line : Text) (entry : Entry)
    (arguments : List (Parameter × Text)) : Prop :=
  ∃ name inside values, Call.split line = .ok (name, inside) ∧
    symbols.function "ACTION.IDS" name = .ok entry ∧
    Call.arguments inside false = .ok values ∧ Call.bind entry values = .ok arguments

theorem Action.Calls.map_fst {symbols : Symbols} {entry : Entry} {pairs : List (Parameter × Text)}
    (h : Calls symbols line entry pairs) (hsignature : entry.signature = .ok signature) :
    pairs.map Prod.fst = signature := by
  obtain ⟨_, _, _, -, -, -, hbind⟩ := h
  obtain ⟨found, hfound, -, hpairs⟩ := Call.bind_ok hbind
  obtain rfl := Except.ok.inj (hsignature.symm.trans hfound)
  exact hpairs

namespace Callable

variable {symbols : Symbols} {table : Text} {entry : Entry} {values : List Text}

theorem calls_callText (h : Callable symbols "ACTION.IDS" entry)
    (hsignature : entry.signature = .ok signature) (hlength : values.length = signature.length)
    (hvalues : ∀ value ∈ values, Call.IsArgument value) :
    Action.Calls symbols (callText entry values) entry (signature.zip values) := by
  refine ⟨entry.name, Text.join "," values, values, ?_, h.function,
    Call.arguments_join hvalues false, Call.bind_zip hsignature hlength⟩
  have hsplit := Call.split_concat h.parenthesis h.trimmed (Text.join "," values)
  simpa [callText] using hsplit

theorem statement_callText (h : Callable symbols table entry)
    (hvalues : ∀ value ∈ values, Text.beforeComment value = value) :
    Text.statement (callText entry values) = callText entry values := by
  have hcall : callText entry values = entry.name ++ '(' :: (Text.join "," values ++ [')']) := by
    simp [callText]
  have hclosed : Text.EndsVisibly (Text.join "," values ++ [')']) := ⟨')', by simp, by decide⟩
  rw [hcall, statement_call h.statement, Text.trimRight_eq_self hclosed]
  exact Text.beforeComment_append (beforeComment_join (by decide) hvalues) (by decide) []

theorem newline_notMem_callText (h : Callable symbols table entry)
    (hvalues : ∀ value ∈ values, '\n' ∉ value) : '\n' ∉ callText entry values := by
  simp only [callText, List.mem_append, not_or]
  refine ⟨⟨⟨h.newline, by decide⟩, fun hmem => ?_⟩, by decide⟩
  rcases Text.mem_join hmem with hcomma | ⟨value, hvalue, hmem⟩
  · exact absurd hcomma (by decide)
  · exact hvalues value hvalue hmem

theorem listing_callText (h : Callable symbols table entry)
    (hvalues : ∀ value ∈ values, Call.Spoken value) (comment : Option Text) :
    (Source.text (Comment.append (callText entry values) comment ++ "\n")).listing.lines =
      [⟨1, callText entry values⟩] := by
  have hnewline := newline_notMem_append (h.newline_notMem_callText fun value hvalue =>
    (hvalues value hvalue).newline) comment
  have hlines : Text.physicalLines (Comment.append (callText entry values) comment ++ "\n") =
      [Comment.append (callText entry values) comment] := by
    simpa [Text.ofLines] using Text.physicalLines_ofLines (List.forall_mem_singleton.mpr hnewline)
  have hne : callText entry values ≠ [] := by simp [callText]
  simp only [Source.listing, Source.physicalLines, hlines, Line.statements,
    statement_append_comment, h.statement_callText fun value hvalue => (hvalues value hvalue).comment,
    hne, if_false]

end Callable

end InfinityScript
