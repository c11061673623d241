import InfinityScript.Action
import InfinityScript.Proofs.Argument.Object
import InfinityScript.Proofs.Encoding
import InfinityScript.Proofs.Fault

/-!
# Arguments and reasons to halt

An argument is encoded, or is at fault; what is left that ends the compilation is a number
that cannot be converted (`Conversions`). The text of an argument is made of its own
characters and of plain ones, and so is what is told of an object at fault, the names of the
tables apart (`Object.ends_code`).
-/

namespace InfinityScript

open Text

variable {T : Prop} {K : Char → Prop} {V : Text → Prop} {H : Halt → Prop} {symbols : Symbols}
  {profile : Profile}

/-- A fault that is told in an alphabet if `T` holds, or a halt for a reason of `H`. -/
def Refusal.Over (T : Prop) (K : Char → Prop) (H : Halt → Prop) : Refusal → Prop
  | .fault cause => T → Text.Over K cause.message
  | .halt reason => H reason

theorem Refusal.Over.only (h : Refusal.Over T K H refusal) : refusal.Only H := by
  cases refusal with
  | fault fault => trivial
  | halt reason => exact h

theorem Outcome.ends_fault {P : α → Prop} (hK : HasPlain K)
    (h : T → ∀ text ∈ fault.texts, Text.Over K text) :
    Outcome.Ends P (Refusal.Over T K H) (.error (.fault fault)) := fun hT =>
  fault.over_message hK (h hT)

/-- In texts of `V`, and in the texts that are left of these, a number that cannot be
converted is a reason of `H`; and so is an id of the symbols that cannot be. -/
structure Conversions (symbols : Symbols) (V : Text → Prop) (H : Halt → Prop) : Prop where
  part : ∀ {part text : Text}, part.Sublist text → V text → V part
  integer : ∀ definition value, V value →
    Outcome.Ends (fun _ => True) (Refusal.Only H) (Argument.integer symbols definition value)
  number : ∀ component, V component → ∀ fault, Text.number component = .error fault →
    H (.numeral fault)
  id : ∀ id, Object.IsId symbols id → ∀ fault, Text.writable (toSigned32 id) = .error fault →
    H (.numeral fault)

theorem conversions_any (symbols : Symbols) :
    Conversions symbols (fun _ => True) fun _ => True where
  part _ _ := trivial
  integer definition value _ := by
    cases Argument.integer symbols definition value with
    | ok n => trivial
    | error refusal => cases refusal <;> trivial
  number _ _ _ _ := trivial
  id _ _ _ _ := trivial

-- --------------------
-- Objects
-- --------------------

namespace Object

theorem ends_checkQualifiers
    (h : ∀ id ∈ qualifiers, ∀ fault, Text.writable (toSigned32 id) = .error fault →
      H (.numeral fault)) :
    Outcome.Ends (fun _ => True) (Refusal.Over T K H)
      (Refusal.ofNumeral (checkQualifiers qualifiers)) := by
  refine Outcome.ends_ofNumeral (fun _ _ => trivial) fun fault hfault => ?_
  induction qualifiers with
  | nil => cases hfault
  | cons id qualifiers ih =>
    rw [checkQualifiers, List.forM_eq_forM, List.forM_cons] at hfault
    cases hid : Text.writable (toSigned32 id) with
    | error found =>
      rw [hid] at hfault
      cases hfault
      exact h id (by simp) _ hid
    | ok n =>
      rw [hid] at hfault
      exact ih (fun other hother => h other (by simp [hother])) hfault

theorem ends_vectorNumbers (hC : Conversions symbols V H) (hK : HasPlain K)
    {tables components : List Text} (htables : T → ∀ table ∈ tables, Text.Over K table)
    (hcomponents : ∀ component ∈ components, V component ∧ Text.Over K component) :
    Outcome.Ends (fun _ => True) (Refusal.Over T K H)
      (vectorNumbers symbols tables components) := by
  induction tables generalizing components with
  | nil => trivial
  | cons table tables ih =>
    have hothers : T → ∀ table ∈ tables, Text.Over K table := fun hT other hother =>
      htables hT other (by simp [hother])
    cases components with
    | nil =>
      rw [vectorNumbers]
      exact (ih hothers (by simp)).bind fun _ _ => trivial
    | cons component components =>
      obtain ⟨⟨hcomponent, hover⟩, hrest⟩ := List.forall_mem_cons.mp hcomponents
      rw [vectorNumbers]
      split
      · next entry hentry =>
        have hid := hC.id entry.id ⟨_, _, entry, hentry, rfl⟩
        generalize Text.writable (toSigned32 entry.id) = written at hid
        have hwritten := Outcome.ends_ofNumeral (P := fun _ => True) (E := Refusal.Over T K H)
          (fun _ _ => trivial) hid
        exact hwritten.bind fun _ _ => (ih hothers hrest).bind fun _ _ => trivial
      · refine (Outcome.ends_ofNumeral (P := fun _ => True) (fun _ _ => trivial)
          (hC.number component hcomponent)).bind fun number _ => ?_
        cases number with
        | none =>
          exact Outcome.ends_fault hK fun hT => by
            simpa [Fault.texts] using ⟨hover, htables hT table (by simp)⟩
        | some n => exact (ih hothers hrest).bind fun _ _ => trivial

theorem sublist_bracketGroups {opened : Option Text} (h : some group ∈ bracketGroups opened text) :
    group.Sublist (opened.getD [] ++ text) := by
  induction text generalizing opened with
  | nil =>
    unfold bracketGroups at h
    split at h <;> simp at h
  | cons c text ih =>
    cases opened with
    | none =>
      have hgroup := ih h
      split at hgroup
      · exact hgroup.cons c
      · exact hgroup.cons c
    | some begun =>
      unfold bracketGroups at h
      dsimp only at h
      split at h
      · rcases List.mem_cons.mp h with h | h
        · obtain rfl := Option.some.inj h
          exact List.sublist_append_left _ _
        · exact ((ih h).cons c).trans (List.sublist_append_right _ _)
      · have hgroup := ih h
        simpa using hgroup

structure Fields.Over (K : Char → Prop) (fields : Fields) : Prop where
  leading : Text.Over K fields.leading
  area : Text.Over K fields.area
  trailing : Text.Over K fields.trailing

theorem over_noArea (hK : HasPlain K) : Text.Over K noArea := hK.over (by decide)

theorem over_zeros (hK : HasPlain K) (count : Nat) :
    Text.Over K (List.replicate count ("0 " : Text)).flatten :=
  over_flatten fun _ hpiece => List.eq_of_mem_replicate hpiece ▸ hK.over (by decide)

theorem over_leadingZeros (hK : HasPlain K) (profile : Profile) :
    Text.Over K profile.leadingZeros :=
  over_zeros hK _

theorem over_trailingZeros (hK : HasPlain K) (profile : Profile) :
    Text.Over K profile.trailingZeros := by
  unfold Profile.trailingZeros
  split
  · exact over_cons.mpr ⟨hK _ (by decide), over_zeros hK _⟩
  · exact over_nil

theorem over_numbers (hK : HasPlain K) (numbers : List Int) :
    Text.Over K (Text.join " " (numbers.map Text.ofInt)) := by
  refine over_join (hK.over (by decide)) fun piece hpiece => ?_
  obtain ⟨n, -, rfl⟩ := List.mem_map.mp hpiece
  exact hK.ofInt n

theorem over_objectLayout (hK : HasPlain K) (profile : Profile) (qualifiers : List Int)
    (hleading : Text.Over K leading) (harea : Text.Over K area) (hname : Text.Over K name)
    (htrailing : Text.Over K trailing) (hnewline : K '\n') :
    Text.Over K (profile.objectLayout leading qualifiers area name trailing) := by
  have hqualifiers : Text.Over K (Profile.qualifierText qualifiers) :=
    over_flatMap fun id _ => over_append.mpr ⟨hK.ofInt _, hK.over (by decide)⟩
  have hclosing : Text.Over K "OB".toList := hK.over (by decide)
  have hblank : Text.Over K " ".toList := hK.over (by decide)
  have htail : Text.Over K (profile.objectTail area name trailing) := by
    unfold Profile.objectTail
    split
    · exact over_append.mpr ⟨hname, hclosing⟩
    · split
      · simp only [over_append]
        exact ⟨⟨⟨⟨harea, hblank⟩, hname⟩, htrailing⟩, hclosing⟩
      · simp only [over_append]
        exact ⟨⟨⟨harea, hblank⟩, hname⟩, hclosing⟩
  have hopening : Text.Over K "OB\n".toList := by
    simp [hnewline, hK 'O' (by decide), hK 'B' (by decide)]
  simp only [Profile.objectLayout, over_append]
  exact ⟨⟨⟨hopening, hleading⟩, hqualifiers⟩, htail⟩

theorem Fields.ends_add (hC : Conversions symbols V H) (hK : HasPlain K)
    (htables : T → ∀ table ∈ profile.objectTables, Text.Over K table) {fields : Fields}
    (hfields : fields.Over K) {group : Option Text} (hV : ∀ text ∈ group, V text)
    (hover : ∀ text ∈ group, Text.Over K text) :
    Outcome.Ends (Fields.Over K) (Refusal.Over T K H) (fields.add symbols profile group) := by
  cases group with
  | none => exact Outcome.ends_fault hK (by simp [Fault.texts])
  | some group =>
    unfold Fields.add
    dsimp only
    split
    · exact ⟨over_append.mpr ⟨hfields.leading, over_leadingZeros hK profile⟩, hfields.area,
        hfields.trailing⟩
    · have hcomponents : ∀ component ∈ (Text.splitOn '.' group).filter (· ≠ []),
          V component ∧ Text.Over K component := by
        intro component hmem
        have hsublist := sublist_of_mem_splitOn (List.mem_filter.mp hmem).1
        exact ⟨hC.part hsublist (hV group rfl), (hover group rfl).of_subset hsublist.subset⟩
      refine (ends_vectorNumbers hC hK htables hcomponents).bind fun result _ => ?_
      obtain ⟨numbers, named⟩ := result
      dsimp only
      split
      · refine ⟨?_, ?_, hfields.trailing⟩
        · dsimp only
          split
          · exact over_leadingZeros hK profile
          · exact hfields.leading
        · simp only [over_append]
          exact ⟨⟨hK.over (by decide), hover group rfl⟩, hK.over (by decide)⟩
      · refine ⟨?_, hfields.area, ?_⟩
        · exact over_append.mpr ⟨hfields.leading,
            over_append.mpr ⟨over_numbers hK _, hK.over (by decide)⟩⟩
        · dsimp only
          split
          · exact over_cons.mpr ⟨hK _ (by decide),
              over_append.mpr ⟨over_numbers hK _, hK.over (by decide)⟩⟩
          · exact hfields.trailing

theorem ends_vectorCode (hC : Conversions symbols V H) (hK : HasPlain K) (hnewline : K '\n')
    (htables : T → ∀ table ∈ profile.objectTables, Text.Over K table)
    (hzeros : ∀ fault, profile.checkTrailing = .error fault → H (.repetition fault))
    (hids : ∀ id ∈ qualifiers, IsId symbols id) (hV : V core) (hcore : Text.Over K core) :
    Outcome.Ends (Text.Over K) (Refusal.Over T K H)
      (vectorCode symbols profile qualifiers core) := by
  have hfields : Outcome.Ends (Fields.Over K) (Refusal.Over T K H)
      ((bracketGroups none core).foldlM (Fields.add symbols profile)
        { trailing := profile.trailingZeros }) := by
    refine Outcome.ends_foldlM ⟨over_nil, over_noArea hK, over_trailingZeros hK profile⟩ ?_
    intro fields group hgroup hfields
    have hsublist : ∀ text ∈ group, text.Sublist core := by
      rintro text rfl
      exact sublist_bracketGroups hgroup
    exact Fields.ends_add hC hK htables hfields (fun text htext => hC.part (hsublist text htext) hV)
      fun text htext => hcore.of_subset (hsublist text htext).subset
  refine (Outcome.ends_ofRepeat (P := fun _ => True) (fun _ _ => trivial) hzeros).bind fun _ _ => ?_
  refine hfields.bind fun fields hfields => ?_
  refine (ends_checkQualifiers fun id hid => hC.id id (hids id hid)).bind fun _ _ => ?_
  exact over_objectLayout hK profile qualifiers hfields.leading hfields.area (hK.over (by decide))
    hfields.trailing hnewline

theorem ends_nameCode (hC : Conversions symbols V H) (hK : HasPlain K) (hnewline : K '\n')
    (hids : ∀ id ∈ qualifiers, IsId symbols id) (hcore : Text.Over K core) :
    Outcome.Ends (Text.Over K) (Refusal.Over T K H) (nameCode profile qualifiers core) := by
  unfold nameCode
  split
  · exact Outcome.ends_fault hK fun _ => by simpa [Fault.texts] using hcore
  · refine (ends_checkQualifiers fun id hid => hC.id id (hids id hid)).bind fun _ _ => ?_
    exact over_objectLayout hK profile qualifiers (over_leadingZeros hK profile)
      (over_noArea hK) hcore (over_trailingZeros hK profile) hnewline

theorem over_symbolParts (hK : HasPlain K) (hcore : Text.Over K core) :
    Text.Over K (symbolParts core).1 ∧ Text.Over K (symbolParts core).2 := by
  unfold symbolParts
  split
  · next before after hcut =>
    split
    · rw [(cut?_eq_some hcut).2] at hcore
      obtain ⟨hbefore, harea⟩ := over_append.mp hcore
      exact ⟨hbefore.of_subset (trim_subset before), harea⟩
    · exact ⟨hcore, over_noArea hK⟩
  · exact ⟨hcore, over_noArea hK⟩

theorem ends_symbolCode (hC : Conversions symbols V H) (hK : HasPlain K) (hnewline : K '\n')
    (hids : ∀ id ∈ qualifiers, IsId symbols id) (hcore : Text.Over K core) :
    Outcome.Ends (Text.Over K) (Refusal.Over T K H)
      (symbolCode symbols profile qualifiers core) := by
  obtain ⟨hsymbol, harea⟩ := over_symbolParts hK hcore
  unfold symbolCode
  generalize symbolParts core = parts at hsymbol harea ⊢
  obtain ⟨symbol, area⟩ := parts
  dsimp only
  have hid : ∀ fault, Text.writable (toSigned32 (((if symbol = [] then none
      else symbols.byName? "OBJECT.IDS" symbol).map Entry.id).getD 0)) = .error fault →
        H (.numeral fault) := by
    intro fault hfault
    cases hentry : (if symbol = [] then none else symbols.byName? "OBJECT.IDS" symbol) with
    | none =>
      rw [hentry] at hfault
      rw [Text.writable_eq_ok_iff.mpr ⟨rfl, by decide⟩] at hfault
      cases hfault
    | some entry =>
      rw [hentry] at hfault
      refine hC.id entry.id ⟨"OBJECT.IDS", symbol, entry, ?_, rfl⟩ fault hfault
      split at hentry
      · cases hentry
      · exact hentry
  generalize (if symbol = [] then none else symbols.byName? "OBJECT.IDS" symbol) = entry at hid ⊢
  split
  · exact Outcome.ends_fault hK fun _ => by simpa [Fault.texts] using hsymbol
  · split
    · exact Outcome.ends_fault hK fun _ => by simpa [Fault.texts] using hsymbol
    · have hall : ∀ id ∈ qualifiers ++ [(entry.map Entry.id).getD 0], ∀ fault,
          Text.writable (toSigned32 id) = .error fault → H (.numeral fault) := by
        intro id hmem
        rcases List.mem_append.mp hmem with hmem | hmem
        · exact hC.id id (hids id hmem)
        · obtain rfl := List.mem_singleton.mp hmem
          exact hid
      refine (ends_checkQualifiers hall).bind fun _ _ => ?_
      split
      · exact Outcome.ends_fault hK (by simp [Fault.texts])
      · exact over_objectLayout hK profile _ (over_leadingZeros hK profile) harea
          (hK.over (by decide)) (over_trailingZeros hK profile) hnewline

theorem ends_peel (hK : HasPlain K) (hvalue : Text.Over K value) :
    Outcome.Ends (fun _ => True) (fun fault => Text.Over K fault.message)
      (peel symbols room value) := by
  fun_induction peel symbols room value with
  | case1 => trivial
  | case2 => exact Fault.over_message hK (by simpa [Fault.texts] using hvalue)
  | case3 room value before after hcut qualifier =>
    have hqualifier : Text.Over K qualifier := by
      rw [(cut?_eq_some hcut).2] at hvalue
      exact (over_append.mp hvalue).1.of_subset (trim_subset before)
    exact Fault.over_message hK (List.forall_mem_cons.mpr
      ⟨hqualifier, by simpa using (hK.over (by decide) : Text.Over K "OBJECT.IDS")⟩)
  | case4 => exact Fault.over_message hK (by simpa [Fault.texts] using hvalue)
  | case5 value before after hcut _ _ _ _ room ih =>
    have hinner : Text.Over K (trim after.dropLast) := by
      rw [(cut?_eq_some hcut).2] at hvalue
      exact (over_cons.mp (over_append.mp hvalue).2).2.of_subset fun c hc =>
        List.dropLast_subset after (trim_subset _ hc)
    exact (ih hinner).bind fun _ _ => trivial

theorem ends_qualify (hK : HasPlain K) (hvalue : Text.Over K value) :
    Outcome.Ends (fun _ => True) (fun fault => Text.Over K fault.message)
      (qualify symbols value) := by
  unfold qualify
  split
  · trivial
  · exact (ends_peel hK hvalue).bind fun _ _ => trivial

theorem ends_code (hC : Conversions symbols V H) (hK : HasPlain K) (hnewline : K '\n')
    (htables : T → ∀ table ∈ profile.objectTables, Text.Over K table)
    (hzeros : ∀ fault, profile.checkTrailing = .error fault → H (.repetition fault))
    (definition : Text) (hV : V value) (hvalue : Text.Over K value) :
    Outcome.Ends (fun part => Text.Over K part.value) (Refusal.Over T K H)
      (code symbols profile definition value) := by
  refine (Outcome.ends_ofFault (E := Refusal.Over T K H)
    (P := fun parts => (parts.2 <:+: value ∨ parts.2 = "MYSELF".toList) ∧
      ∀ id ∈ parts.1, IsId symbols id) (fun parts hparts => (qualify_parts hparts).2)
    fun _ hfault _ => (ends_qualify hK hvalue).of_error hfault).bind ?_
  rintro ⟨qualifiers, core⟩ ⟨hwithin, hids⟩
  have hcore : Text.Over K core := by
    rcases hwithin with hwithin | rfl
    · exact hvalue.of_subset hwithin.subset
    · exact hK.over (by decide)
  dsimp only
  split
  · next hhead =>
    have hVcore : V core := by
      rcases hwithin with hwithin | rfl
      · exact hC.part hwithin.sublist hV
      · cases hhead
    exact (ends_vectorCode hC hK hnewline htables hzeros hids hVcore hcore).bind
      fun _ htext => htext
  · exact (ends_nameCode hC hK hnewline hids hcore).bind fun _ htext => htext
  · exact (ends_symbolCode hC hK hnewline hids hcore).bind fun _ htext => htext

end Object

end InfinityScript
