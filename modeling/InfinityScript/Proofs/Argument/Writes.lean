import InfinityScript.Proofs.Argument.Call
import InfinityScript.Proofs.Argument.Halts
import InfinityScript.Proofs.Argument.Slots

/-!
# Characters of encoded arguments

An encoding that finds no fault writes the characters of its source, plain ones and line
feeds. Where it finds one it writes what the fault is about, and there the symbols have their
say: the parameters of the function, and the names of tables in upper case
(`Symbols.Declares`). Both are said at once (`Encoding.Writes`).
-/

namespace InfinityScript

open Text

variable {T : Prop} {K : Char → Prop} {symbols : Symbols} {profile : Profile}

structure Text.HasLines (K : Char → Prop) : Prop where
  plain : HasPlain K
  newline : K '\n'

theorem Text.HasLines.over (hK : HasLines K) (h : text.all fun c => isPlain c || c == '\n') :
    Over K text := by
  intro c hc
  rcases Bool.or_eq_true_iff.mp (List.all_eq_true.mp h c hc) with hplain | hnewline
  · exact hK.plain c hplain
  · exact beq_iff_eq.mp hnewline ▸ hK.newline

-- --------------------
-- What the symbols declare
-- --------------------

/-- The definition of the parameter, and the name of the table that it gives to an integer, are
over an alphabet. -/
structure Parameter.Over (K : Char → Prop) (parameter : Parameter) : Prop where
  definition : Text.Over K parameter.definition
  table : ∀ table ∈ Argument.integerTable? parameter.definition, Text.Over K table

def Symbols.NamesTables (P : Text → Prop) (symbols : Symbols) : Prop :=
  ∀ table name entry signature, symbols.byName? table name = some entry →
    entry.signature = .ok signature → ∀ parameter ∈ signature,
      ∀ named ∈ Argument.integerTable? parameter.definition, P named

/-- What the symbols and the profile give to the messages of faults is over an alphabet. -/
structure Symbols.Declares (K : Char → Prop) (profile : Profile) (symbols : Symbols) : Prop where
  parameters : ∀ table name entry, symbols.byName? table name = some entry →
    Text.Over K (entry.parameters.getD [])
  tables : symbols.NamesTables (Text.Over K)
  objectTables : ∀ table ∈ profile.objectTables, Text.Over K table

theorem Symbols.Declares.parameter {table name : Text} (h : symbols.Declares K profile)
    (hentry : symbols.byName? table name = some entry)
    (hsignature : entry.signature = .ok signature) :
    ∀ parameter ∈ signature, parameter.Over K := fun parameter hmem =>
  ⟨(h.parameters table name entry hentry).of_subset
      (entry.ends_signature.of_ok hsignature parameter hmem),
    h.tables table name entry signature hentry hsignature parameter hmem⟩

theorem Slots.fill_error {slots : Slots} (h : slots.fill value = .error refusal) :
    refusal = .fault (.noSlotLeft value) ∨ ∃ reason, refusal = .halt reason := by
  cases hassign : assignSlot slots.values slots.next value with
  | ok filled =>
    rw [Slots.fill, hassign] at h
    cases h
  | error found =>
    rw [Slots.fill, hassign] at h
    cases h
    unfold assignSlot at hassign
    split at hassign
    · split at hassign
      · cases hassign
      · exact .inl (Except.error.inj hassign).symm
    · split at hassign
      · cases hassign
      · split at hassign
        · exact .inr ⟨_, (Except.error.inj hassign).symm⟩
        · exact .inr ⟨_, (Except.error.inj hassign).symm⟩

-- --------------------
-- What encodings write
-- --------------------

namespace Encoding

variable {α β σ : Type} {P : α → Prop} {Q : β → Prop}

/-- If `T` holds or no fault is found, the result is of `P`; and if `T` holds, a fault that
ends the encoding is told in the alphabet. -/
def Writes (T : Prop) (K : Char → Prop) (P : α → Prop) (x : Encoding α) : Prop :=
  T ∨ Faultless x.outcome.notes →
    Outcome.Ends P (Refusal.Over T K fun _ => True) x.outcome.value

theorem writes_pure (h : P value) : Writes T K P (pure value) := fun _ => h

theorem Writes.bind {x : Encoding α} {f : α → Encoding β} (h : Writes T K P x)
    (hf : ∀ value, P value → Writes T K Q (f value)) : Writes T K Q (x >>= f) := by
  obtain ⟨value, remarks⟩ := x
  cases value with
  | ok value =>
    intro hclean
    have hvalue : P value := h (hclean.imp_right fun hall => (faultless_append.mp hall).1)
    exact hf value hvalue (hclean.imp_right fun hall => (faultless_append.mp hall).2)
  | error refusal =>
    intro hclean
    exact h (hclean.imp_right fun hall => (faultless_append.mp hall).1)

theorem writes_fault (hK : HasPlain K) (h : T → ∀ text ∈ fault.texts, Text.Over K text) :
    Writes T K P (throw (.fault fault) : Encoding α) := fun _ => Outcome.ends_fault hK h

theorem writes_ofExcept {x : Except Fault α}
    (h : Outcome.Ends P (fun fault => T → Text.Over K fault.message) x) :
    Writes T K P (ofExcept x) := by
  intro _
  cases x with
  | ok value => exact h
  | error fault => exact h

theorem writes_ofNumeral {x : Except NumeralFault α} (h : ∀ value, x = .ok value → P value) :
    Writes T K P (ofNumeral x) := by
  intro _
  cases x with
  | ok value => exact h value rfl
  | error fault => trivial

theorem writes_ofNoted {x : Noted Remark α} (h : P x.value) : Writes T K P (ofNoted x) := fun _ => h

/-- A part at fault leaves a placeholder, and a remark that there is a fault. -/
theorem writes_ofPart (hK : HasPlain K) {x : Except Refusal (Noted Remark Text)}
    (h : Outcome.Ends (fun part => Text.Over K part.value) (Refusal.Over T K fun _ => True) x) :
    Writes T K (Text.Over K) (ofPart x) := by
  cases x with
  | ok part => exact writes_ofNoted h
  | error refusal =>
    cases refusal with
    | halt reason => exact fun _ => trivial
    | fault fault =>
      rintro (hT | hfaultless)
      · exact Fault.over_placeholder hK (h hT)
      · exact absurd List.mem_cons_self (hfaultless fault)

theorem writes_foldlM {I : σ → Prop} {f : σ → α → Encoding σ} {xs : List α} (hinit : I init)
    (hstep : ∀ state, ∀ x ∈ xs, I state → Writes T K I (f state x)) :
    Writes T K I (xs.foldlM f init) :=
  Outcome.holds_foldlM (fun _ => writes_pure) (fun _ _ => Writes.bind) hinit hstep

theorem writes_fill (hK : HasPlain K) {slots : Slots} (hslots : slots.All count (Text.Over K))
    (hvalue : Text.Over K value) :
    Writes T K (Slots.All count (Text.Over K)) (fill slots value) := by
  have htold : Text.Over K (Fault.noSlotLeft value).message :=
    Fault.over_message hK (by simpa [Fault.texts] using hvalue)
  unfold fill
  split
  · next filled hfilled => exact writes_pure (hslots.of_fill hvalue hfilled)
  · next refusal hrefusal =>
    intro _
    rcases Slots.fill_error hrefusal with rfl | ⟨reason, rfl⟩
    · exact fun _ => htold
    · trivial

theorem writes_packStrings (hK : HasPlain K) (h : ∀ text ∈ strings, Text.Over K text)
    (opcode : Int) :
    Writes T K (fun packed => ∀ text ∈ packed, Text.Over K text)
      (packStrings symbols opcode strings) := by
  unfold packStrings
  split
  · next packed faults hpack =>
    refine writes_ofNoted (Scope.all_pack_of (fun _ hvalue hlast => over_append.mpr ⟨?_, ?_⟩)
      (hK.over (by decide)) hpack h)
    · exact hvalue.of_subset (List.take_subset _ _)
    · exact hlast.of_subset (List.drop_subset _ _)
  · exact fun _ => trivial

end Encoding

-- --------------------
-- Arguments
-- --------------------

namespace Argument

theorem ends_sumOfSymbols (hK : HasPlain K) {names : List Text}
    (hnames : ∀ name ∈ names, Text.Over K name) (htable : T → Text.Over K table) :
    Outcome.Ends (fun _ => True) (fun fault => T → Text.Over K fault.message)
      (sumOfSymbols symbols table names) := by
  induction names with
  | nil => trivial
  | cons name names ih =>
    obtain ⟨hname, hothers⟩ := List.forall_mem_cons.mp hnames
    have hname : Text.Over K (trim name) := hname.of_subset (trim_subset name)
    have hrest : ∀ here : Int, Outcome.Ends (fun _ => True)
        (fun fault => T → Text.Over K fault.message)
        (sumOfSymbols symbols table names >>= fun rest => pure (here + rest)) := fun _ =>
      (ih hothers).bind fun _ _ => trivial
    unfold sumOfSymbols
    dsimp only
    split
    · exact hrest 0
    · split
      · next entry _ => exact hrest entry.id
      · exact fun hT => Fault.over_message hK (by simpa [Fault.texts] using ⟨hname, htable hT⟩)

theorem ends_symbolic (hK : HasPlain K) (hvalue : Text.Over K value) {parameter : Parameter}
    (hparameter : T → parameter.Over K) :
    Outcome.Ends (fun _ => True) (fun fault => T → Text.Over K fault.message)
      (symbolic symbols parameter.definition value) := by
  unfold symbolic
  split
  · exact fun hT => Fault.over_message hK (by
      simpa [Fault.texts] using ⟨(hparameter hT).definition, hvalue⟩)
  · next table htable =>
    have htable : T → Text.Over K table := fun hT => (hparameter hT).table table htable
    split
    · trivial
    · split
      · have hnames : ∀ name ∈ splitOn '|' value, Text.Over K name := fun name hname =>
          hvalue.of_subset (subset_of_mem_splitOn hname)
        exact Outcome.Ends.bind (ends_sumOfSymbols hK hnames htable) fun _ _ => trivial
      · exact fun hT => Fault.over_message hK (by simpa [Fault.texts] using ⟨hvalue, htable hT⟩)

theorem writes_encodeInteger (hK : HasPlain K) (hvalue : Text.Over K value) {parameter : Parameter}
    (hparameter : T → parameter.Over K) :
    Encoding.Writes T K (Text.Over K) (encodeInteger symbols parameter.definition value) := by
  have hnumeral : ∀ {α : Type} (x : Except NumeralFault α), Outcome.Ends (fun _ => True)
      (Refusal.Over T K fun _ => True) (Refusal.ofNumeral x) := fun x =>
    Outcome.ends_ofNumeral (fun _ _ => trivial) fun _ _ => trivial
  refine Encoding.writes_ofPart hK (Outcome.Ends.bind (P := fun _ => True) ?_ fun n _ => hK.ofInt n)
  unfold integer
  generalize Text.writable = writable
  refine (hnumeral _).bind fun literal _ => ?_
  cases literal with
  | some n => exact hnumeral _
  | none =>
    refine Outcome.Ends.bind (P := fun _ => True) ?_ fun n _ => hnumeral _
    exact Outcome.ends_ofFault (fun _ _ => trivial) fun fault =>
      (ends_symbolic hK hvalue hparameter).of_error

theorem writes_encodePoint (hK : HasPlain K) (hvalue : Text.Over K value)
    (hdefinition : T → Text.Over K definition) :
    Encoding.Writes T K (Text.Over K) (encodePoint definition value) := by
  have hinner : Text.Over K (inner value) := hvalue.of_subset (inner_subset value)
  refine Encoding.writes_ofPart hK (Outcome.Ends.bind (P := fun _ => True) ?_ fun numbers _ =>
    Object.over_numbers hK numbers)
  refine Outcome.ends_ofFault (fun _ _ => trivial) fun fault hfault hT => ?_
  unfold point at hfault
  dsimp only at hfault
  split at hfault
  · split at hfault
    · cases hfault
      exact Fault.over_message hK (by simpa [Fault.texts] using hinner)
    · split at hfault
      · cases hfault
      · cases hfault
        exact Fault.over_message hK (by simpa [Fault.texts] using hinner)
  · cases hfault
    exact Fault.over_message hK (by simpa [Fault.texts] using ⟨hdefinition hT, hvalue⟩)

end Argument

theorem Object.writes_encode (hK : HasLines K)
    (htables : T → ∀ table ∈ profile.objectTables, Text.Over K table) (hvalue : Text.Over K value)
    (definition : Text) :
    Encoding.Writes T K (Text.Over K) (Object.encode symbols profile definition value) :=
  Encoding.writes_ofPart hK.plain (ends_code (conversions_any symbols) hK.plain hK.newline htables
    (fun _ _ => trivial) definition trivial hvalue)

-- --------------------
-- Calls
-- --------------------

namespace Call

theorem writes_split (hK : HasPlain K) (hline : Text.Over K line) :
    Encoding.Writes T K (fun parts => Text.Over K parts.1 ∧ Text.Over K parts.2)
      (Encoding.ofExcept (split line)) := by
  refine Encoding.writes_ofExcept ?_
  cases hsplit : split line with
  | ok parts =>
    obtain ⟨hname, hinside⟩ := split_sublist hsplit
    exact ⟨hline.of_subset hname.subset, hline.of_subset hinside.subset⟩
  | error fault =>
    intro _
    unfold split at hsplit
    split at hsplit
    · cases hsplit
    · cases hsplit
      exact Fault.over_message hK (by simp [Fault.texts])

theorem writes_function (hK : HasPlain K) (hname : Text.Over K name) (htable : Text.Over K table) :
    Encoding.Writes T K (fun entry => symbols.byName? table name = some entry)
      (Encoding.ofExcept (symbols.function table name)) := by
  have htold : Text.Over K (Fault.notFound name table).message :=
    Fault.over_message hK (by simpa [Fault.texts] using ⟨hname, htable⟩)
  refine Encoding.writes_ofExcept ?_
  unfold Symbols.function
  split
  · next entry hentry =>
    split
    · exact hentry
    · exact fun _ => htold
  · exact fun _ => htold

theorem ends_mend (hK : HasPlain K) (hargument : Text.Over K argument) {pieces : List Text}
    (hpieces : ∀ piece ∈ pieces, Text.Over K piece) (delimiter : Delimiter) :
    Outcome.Ends (fun mended => Text.Over K mended.1 ∧ ∀ piece ∈ mended.2.1, Text.Over K piece)
      (fun fault => Text.Over K fault.message) (mend delimiter argument pieces) := by
  unfold mend
  split
  · split
    · exact Fault.over_message hK (by simpa [Fault.texts] using hargument)
    · next piece rest =>
      obtain ⟨hpiece, hrest⟩ := List.forall_mem_cons.mp hpieces
      have hjoined : Text.Over K (argument ++ ',' :: piece) :=
        over_append.mpr ⟨hargument, over_cons.mpr ⟨hK _ (by decide), hpiece⟩⟩
      exact ⟨hjoined.of_subset (trim_subset _), hrest⟩
  · exact ⟨hargument, hpieces⟩

theorem ends_assemble (hK : HasPlain K) {pieces : List Text}
    (hpieces : ∀ piece ∈ pieces, Text.Over K piece) (first second : Delimiter) :
    Outcome.Ends (fun _ => True) (fun fault => Text.Over K fault.message)
      (assemble first second pieces) := by
  induction hlength : pieces.length using Nat.strongRecOn generalizing pieces with
  | ind n ih =>
    cases pieces with
    | nil =>
      rw [assemble]
      trivial
    | cons piece pieces =>
      obtain ⟨hpiece, hpieces⟩ := List.forall_mem_cons.mp hpieces
      rw [assemble]
      refine (ends_mend hK (hpiece.of_subset (trim_subset piece)) hpieces first).bind ?_
      rintro ⟨argument, pieces₁, hlength₁⟩ ⟨hargument, hpieces₁⟩
      refine (ends_mend hK hargument hpieces₁ second).bind ?_
      rintro ⟨argument, pieces₂, hlength₂⟩ ⟨-, hpieces₂⟩
      refine (ih pieces₂.length ?_ hpieces₂ rfl).bind fun _ _ => trivial
      rw [← hlength, List.length_cons]
      exact Nat.lt_succ_of_le (Nat.le_trans hlength₂ hlength₁)

theorem writes_arguments (hK : HasPlain K) (htext : Text.Over K text) (quotesFirst : Bool) :
    Encoding.Writes T K (fun values => arguments text quotesFirst = .ok values)
      (Encoding.ofExcept (arguments text quotesFirst)) := by
  refine Encoding.writes_ofExcept ?_
  cases hvalues : arguments text quotesFirst with
  | ok values => rfl
  | error fault =>
    intro _
    have hpieces : ∀ piece ∈ (splitOn ',' text).filter fun piece => trim piece ≠ [],
        Text.Over K piece := fun piece hmem =>
      htext.of_subset (subset_of_mem_splitOn (List.mem_filter.mp hmem).1)
    unfold arguments at hvalues
    dsimp only at hvalues
    split at hvalues
    · exact (ends_assemble hK hpieces .quote .bracket).of_error hvalues
    · exact (ends_assemble hK hpieces .bracket .quote).of_error hvalues

theorem writes_bind (hK : HasPlain K) (hdeclares : T → symbols.Declares K profile)
    (hentry : symbols.byName? table name = some entry) (htext : Text.Over K text)
    (hvalues : arguments text quotesFirst = .ok values) :
    Encoding.Writes T K
      (fun bound => ∀ argument ∈ bound, (T → argument.1.Over K) ∧ Text.Over K argument.2)
      (Encoding.ofExcept (bind entry values)) := by
  refine Encoding.writes_ofExcept ?_
  cases hbind : bind entry values with
  | ok bound =>
    intro argument hmem
    refine ⟨fun hT => ?_, htext.of_subset (sublist_bound hvalues hbind argument hmem).subset⟩
    obtain ⟨signature, hsignature, rfl, -⟩ := bind_ok hbind
    exact (hdeclares hT).parameter hentry hsignature argument.1 (List.of_mem_zip hmem).1
  | error fault =>
    intro hT
    have hparameters := (hdeclares hT).parameters table name entry hentry
    unfold bind at hbind
    split at hbind
    · next fault hfault =>
      cases hbind
      exact Fault.over_message hK (by
        simpa [Fault.texts] using hparameters.of_subset (entry.ends_signature.of_error hfault))
    · dsimp only at hbind
      split at hbind
      · cases hbind
        exact Fault.over_message hK (by simpa [Fault.texts] using hparameters)
      · split at hbind
        · cases hbind
          exact Fault.over_message hK (by simpa [Fault.texts] using hparameters)
        · cases hbind

end Call

theorem Object.over_emptyObject (hK : HasLines K) (profile : Profile) :
    Over K profile.emptyObject :=
  over_objectLayout hK.plain profile [0] (over_leadingZeros hK.plain profile)
    (over_noArea hK.plain) (hK.over (by decide)) (over_trailingZeros hK.plain profile) hK.newline

end InfinityScript
