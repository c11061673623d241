import InfinityScript.Fault
import InfinityScript.Proofs.Outcome
import InfinityScript.Proofs.Text.Over
import InfinityScript.Symbol.Entry

/-!
# Messages of faults

A message is made of plain characters and of the texts that its fault is about
(`Fault.over_message`). A fault of a signature is about one of the definitions of its
entry.
-/

namespace InfinityScript

open Text

variable {K : Char → Prop}

def ParameterFault.definition : ParameterFault → Text
  | .malformed definition | .unknownKind definition => definition

theorem ParameterFault.over_message (hK : HasPlain K) {fault : ParameterFault}
    (h : Over K fault.definition) : Over K fault.message := by
  unfold message
  split
  all_goals
    simp only [over_append]
    exact ⟨⟨hK.over (by decide), h⟩, hK.over (by decide)⟩

theorem Parameter.ends_parse (text : Text) :
    Outcome.Ends (fun parameter => parameter.definition = trim text)
      (fun fault => fault.definition = trim text) (parse text) := by
  unfold parse
  dsimp only
  generalize trim text = text
  split
  · split
    · rfl
    · split <;> rfl
  · rfl

theorem Entry.ends_signature (entry : Entry) :
    Outcome.Ends (fun signature => ∀ parameter ∈ signature,
        parameter.definition ⊆ entry.parameters.getD [])
      (fun fault => fault.definition ⊆ entry.parameters.getD []) entry.signature := by
  refine Outcome.ends_mapM fun text htext => ?_
  have hsubset : trim text ⊆ entry.parameters.getD [] := by
    obtain ⟨piece, hpiece, rfl⟩ := List.mem_map.mp (List.mem_filter.mp htext).1
    exact fun c hc => subset_of_mem_splitOn hpiece (trim_subset piece (trim_subset _ hc))
  exact (Parameter.ends_parse text).mono (fun _ h => h ▸ hsubset) fun _ h => h ▸ hsubset

def Fault.texts : Fault → List Text
  | .missingIf | .missingThen | .missingEnd | .missingWeight | .nestedOr | .missingTriggers _
  | .missingParenthesis | .unclosedVector | .areaWithoutField => []
  | .unclosed _ text | .tooManyArguments text | .tooFewArguments text | .noSlotLeft text
  | .pointIncomplete text | .pointNotNumeric text | .unclosedCall text | .tooManyQualifiers text
  | .unknownSymbol text | .missingBeginQuote text | .missingQuotes text => [text]
  | .notFound name table => [name, table]
  | .signature fault => [fault.definition]
  | .expected definition value | .invalidArea definition value => [definition, value]

theorem Fault.over_message (hK : HasPlain K) {fault : Fault}
    (h : ∀ text ∈ fault.texts, Over K text) : Over K fault.message := by
  cases fault with
  | missingIf | missingThen | missingEnd | missingWeight | nestedOr | missingParenthesis
  | unclosedVector | areaWithoutField => exact hK.over (by decide)
  | missingTriggers count =>
    exact over_append.mpr
      ⟨over_append.mpr ⟨hK.over (by decide), hK.ofInt count⟩, hK.over (by decide)⟩
  | unclosed delimiter text =>
    have hname : Over K delimiter.name := by cases delimiter <;> exact hK.over (by decide)
    have hopening :=
      over_append.mpr ⟨hK.over (by decide : "Missing end ".toList.all isPlain), hname⟩
    exact over_append.mpr ⟨over_append.mpr ⟨hopening, hK.over (by decide)⟩, h _ List.mem_cons_self⟩
  | signature fault => exact ParameterFault.over_message hK (h _ List.mem_cons_self)
  | unclosedCall text | tooManyQualifiers text | unknownSymbol text | missingBeginQuote text
  | missingQuotes text | noSlotLeft text =>
    exact over_append.mpr ⟨hK.over (by decide), h _ List.mem_cons_self⟩
  | tooManyArguments text | tooFewArguments text | pointIncomplete text | pointNotNumeric text =>
    exact over_append.mpr ⟨over_append.mpr ⟨hK.over (by decide), h _ List.mem_cons_self⟩,
      hK.over (by decide)⟩
  | notFound name table =>
    obtain ⟨hname, htable⟩ := List.forall_mem_cons.mp h
    exact over_append.mpr
      ⟨over_append.mpr ⟨hname, hK.over (by decide)⟩, htable _ List.mem_cons_self⟩
  | expected definition value | invalidArea definition value =>
    obtain ⟨hdefinition, hvalue⟩ := List.forall_mem_cons.mp h
    exact over_append.mpr ⟨over_append.mpr ⟨over_append.mpr ⟨hK.over (by decide), hdefinition⟩,
      hK.over (by decide)⟩, hvalue _ List.mem_cons_self⟩

theorem Fault.over_placeholder (hK : HasPlain K) {fault : Fault} (h : Over K fault.message) :
    Over K fault.placeholder :=
  over_append.mpr ⟨hK.over (by decide), h⟩

end InfinityScript
