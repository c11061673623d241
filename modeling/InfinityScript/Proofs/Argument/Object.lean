import InfinityScript.Object.Encode
import InfinityScript.Proofs.Outcome
import InfinityScript.Proofs.Record.Object

/-!
# Object expressions that are encoded

The code of an object expression has numbers, an area and a name for its fields
(`Object.exists_gives_code`), when the texts of the expression that go into the code as
they are end where they should. Where it also gives its numbers once (`Object.Plain`),
the code is a record that can be read (`Object.exists_fits_code`).
-/

namespace InfinityScript

theorem Refusal.ofFault_ok {x : Except Fault α} : Refusal.ofFault x = .ok a ↔ x = .ok a :=
  Outcome.mapError_ok

theorem Refusal.ofNumeral_ok {x : Except NumeralFault α} :
    Refusal.ofNumeral x = .ok a ↔ x = .ok a :=
  Outcome.mapError_ok

namespace Object

variable {symbols : Symbols} {profile : Profile}

-- --------------------
-- Plain expressions
-- --------------------

/-- A bracket group that is an area: up to four numbers, where the profile has areas. -/
def IsArea (symbols : Symbols) (profile : Profile) (group : Text) : Prop :=
  let components := (Text.splitOn '.' group).filter (· ≠ [])
  profile.hasObjectArea ∧ group ≠ [] ∧ Text.upper group ≠ "ANYONE" ∧ components.length ≤ 4 ∧
    ∀ pair ∈ profile.objectTables.zip components, symbols.byName? pair.1 pair.2 = none

instance : Decidable (IsArea symbols profile group) :=
  inferInstanceAs (Decidable (_ ∧ _ ∧ _ ∧ _ ∧ _))

/-- A core that says one vector, one name or one symbol: of its bracket groups all but
the first are areas, and neither a name nor an area is closed before its end. -/
def PlainCore (symbols : Symbols) (profile : Profile) (core : Text) : Prop :=
  if core.head? = some '[' then
    ∀ group ∈ (bracketGroups none core).tail, ∀ text ∈ group, IsArea symbols profile text
  else if core.head? = some '"' then '"' ∉ Text.inner core
  else core.getLast? = some ']' → ∀ parts ∈ Text.cut? '[' core, ']' ∉ parts.2.dropLast

instance : Decidable (PlainCore symbols profile core) :=
  inferInstanceAs (Decidable (ite _ _ _))

def Plain (symbols : Symbols) (profile : Profile) (value : Text) : Prop :=
  ∀ parts ∈ (qualify symbols value).toOption, PlainCore symbols profile parts.2

instance : Decidable (Plain symbols profile value) :=
  inferInstanceAs (Decidable (∀ parts ∈ (qualify symbols value).toOption, _))

-- --------------------
-- Qualifiers
-- --------------------

def IsId (symbols : Symbols) (id : Int) : Prop :=
  ∃ table name entry, symbols.byName? table name = some entry ∧ entry.id = id

theorem peel_ok (h : peel symbols room value = .ok (qualifiers, core)) :
    qualifiers.length ≤ room ∧ core <:+: value ∧ ∀ id ∈ qualifiers, IsId symbols id := by
  induction room generalizing value qualifiers with
  | zero =>
    unfold peel at h
    split at h
    · cases h
      exact ⟨Nat.zero_le _, List.infix_rfl, by simp⟩
    · dsimp only at h
      split at h
      · cases h
      · split at h <;> cases h
  | succ room ih =>
    unfold peel at h
    split at h
    · cases h
      exact ⟨Nat.zero_le _, List.infix_rfl, by simp⟩
    · next before after hcut =>
      dsimp only at h
      split at h
      · cases h
      · split at h
        · cases h
        · next entry hentry =>
          obtain ⟨⟨inner, core'⟩, hinner, h⟩ := Outcome.bind_ok.mp h
          obtain ⟨rfl, rfl⟩ := Prod.mk.inj (Outcome.pure_ok.mp h)
          obtain ⟨hlength, hwithin, hids⟩ := ih hinner
          have hafter : after <:+: value := by
            rw [(Text.cut?_eq_some hcut).2]
            exact ((List.suffix_cons _ after).trans (List.suffix_append _ _)).isInfix
          refine ⟨Nat.succ_le_succ hlength, ?_, List.forall_mem_cons.mpr ⟨⟨_, _, entry, hentry, rfl⟩, hids⟩⟩
          exact ((hwithin.trans (Text.trim_isInfix _)).trans (List.dropLast_prefix after).isInfix).trans hafter

theorem qualify_parts (h : qualify symbols value = .ok (qualifiers, core)) :
    qualifiers.length ≤ 5 ∧ (core <:+: value ∨ core = "MYSELF") ∧
      ∀ id ∈ qualifiers, IsId symbols id := by
  unfold qualify at h
  split at h
  · cases h
    exact ⟨Nat.zero_le _, .inl List.infix_rfl, by simp⟩
  · obtain ⟨⟨qualifiers', core'⟩, hpeel, h⟩ := Outcome.bind_ok.mp h
    obtain ⟨rfl, rfl⟩ := Prod.mk.inj (Outcome.pure_ok.mp h)
    obtain ⟨hlength, hwithin, hids⟩ := peel_ok hpeel
    refine ⟨hlength, ?_, hids⟩
    split
    · exact .inr rfl
    · exact .inl hwithin

theorem checkQualifiers_ok (h : checkQualifiers qualifiers = .ok ()) :
    ∀ n ∈ qualifiers, Text.FewDigits (Text.ofInt (toSigned32 n)) := by
  induction qualifiers with
  | nil => simp
  | cons n qualifiers ih =>
    rw [checkQualifiers, List.forM_eq_forM, List.forM_cons] at h
    obtain ⟨_, hfirst, h⟩ := Outcome.bind_ok.mp h
    obtain ⟨m, hwritable⟩ := Outcome.discard_ok.mp hfirst
    have hn := (Text.writable_eq_ok_iff.mp hwritable).2
    intro k hk
    rcases List.mem_cons.mp hk with rfl | hk
    · exact hn
    · exact ih h k hk

-- --------------------
-- Vectors
-- --------------------

def componentNumber (symbols : Symbols) (component : Text × Text) : Int :=
  match symbols.byName? component.1 component.2 with
  | some entry => toSigned32 entry.id
  | none => (Text.readSigned? component.2).getD 0

theorem vectorNumbers_ok
    (h : vectorNumbers symbols tables components = .ok (numbers, named)) :
    numbers.length = tables.length ∧ (∀ n ∈ numbers, Text.FewDigits (Text.ofInt n)) ∧
      (named = false ↔ ∀ pair ∈ tables.zip components, symbols.byName? pair.1 pair.2 = none) ∧
      numbers = (tables.zip components).map (componentNumber symbols) ++
        List.replicate (tables.length - components.length) 0 := by
  induction tables generalizing components numbers named with
  | nil =>
    rw [vectorNumbers] at h
    obtain ⟨rfl, rfl⟩ := Prod.mk.inj (Except.ok.inj h)
    exact ⟨rfl, by simp, by simp, by simp⟩
  | cons table tables ih =>
    cases components with
    | nil =>
      rw [vectorNumbers] at h
      obtain ⟨⟨others, named'⟩, hothers, h⟩ := Outcome.bind_ok.mp h
      obtain ⟨rfl, rfl⟩ := Prod.mk.inj (Outcome.pure_ok.mp h)
      obtain ⟨hlength, hfew, hnamed, heq⟩ := ih hothers
      refine ⟨by simp [hlength], ?_, by simpa using hnamed, by simpa [List.replicate_succ] using heq⟩
      simpa using ⟨by decide, hfew⟩
    | cons component components =>
      rw [vectorNumbers] at h
      cases hentry : symbols.byName? table component with
      | some entry =>
        simp only [hentry] at h
        obtain ⟨n, hn, h⟩ := Outcome.bind_ok.mp h
        obtain ⟨⟨others, named'⟩, hothers, h⟩ := Outcome.bind_ok.mp h
        obtain ⟨rfl, rfl⟩ := Prod.mk.inj (Outcome.pure_ok.mp h)
        obtain ⟨rfl, hwritable⟩ := Text.writable_eq_ok_iff.mp (Refusal.ofNumeral_ok.mp hn)
        obtain ⟨hlength, hfew, -, heq⟩ := ih hothers
        refine ⟨by simp [hlength], ?_, by simp [hentry], by simpa [componentNumber, hentry] using heq⟩
        simpa using ⟨hwritable, hfew⟩
      | none =>
        simp only [hentry] at h
        obtain ⟨number, hnumber, h⟩ := Outcome.bind_ok.mp h
        cases number with
        | none => cases h
        | some n =>
          obtain ⟨⟨others, named'⟩, hothers, h⟩ := Outcome.bind_ok.mp h
          obtain ⟨rfl, rfl⟩ := Prod.mk.inj (Outcome.pure_ok.mp h)
          have hread := (Text.number_ok (Refusal.ofNumeral_ok.mp hnumber)).1
          obtain ⟨hlength, hfew, hnamed, heq⟩ := ih hothers
          refine ⟨by simp [hlength], ?_, ?_, by simpa [componentNumber, hentry, hread] using heq⟩
          · simpa using ⟨Text.fewDigits_of_number (Refusal.ofNumeral_ok.mp hnumber), hfew⟩
          · rw [hnamed, List.zip_cons_cons, List.forall_mem_cons]
            simp only [hentry, true_and]

section

variable {numbers : List Int} (hlow : 0 ≤ profile.leadingWidth)
  (hhigh : profile.leadingWidth ≤ profile.vectorWidth)
  (hlength : numbers.length = profile.vectorWidth)

include hlow hhigh hlength

theorem length_window_leading :
    ((window 0 profile.leadingWidth numbers).length : Int) = profile.leadingWidth := by
  have hlast : ¬ profile.leadingWidth < 0 := by omega
  simp only [window, clampIndex, if_neg hlast, List.length_drop, List.length_take]
  simp
  omega

theorem length_window_trailing :
    ((window profile.leadingWidth numbers.length numbers).length : Int) = profile.trailingWidth := by
  have hwidth : profile.trailingWidth = profile.vectorWidth - profile.leadingWidth := rfl
  have hfirst : ¬ profile.leadingWidth < 0 := by omega
  have hlast : ¬ (numbers.length : Int) < 0 := by omega
  simp only [window, clampIndex, if_neg hfirst, if_neg hlast, List.length_drop, List.length_take]
  omega

variable (hfew : ∀ n ∈ numbers, Text.FewDigits (Text.ofInt n))

include hfew

theorem exists_splits_leadingText :
    ∃ ns : List Int, (ns.length : Int) = profile.leadingWidth ∧
      SplitsNumbers (profile.leadingText numbers) ns :=
  ⟨_, length_window_leading hlow hhigh hlength, .join fun n hn => hfew n (window_subset _ _ _ hn)⟩

theorem trails_trailingText : profile.Trails (profile.trailingText numbers) := by
  refine Profile.trails_of fun _ _ => ⟨_, length_window_trailing hlow hhigh hlength, ?_⟩
  exact SplitsNumbers.blank.append (.join fun n hn => hfew n (window_subset _ _ _ hn))

end

-- --------------------
-- Bracket groups
-- --------------------

/-- A bracket group stands between brackets in the text, and is closed there. -/
theorem mem_bracketGroups {opened : Option Text} (h : some group ∈ bracketGroups opened text)
    (hopened : ∀ begun ∈ opened, ']' ∉ begun) :
    ']' ∉ group ∧ '[' :: (group ++ [']']) <:+: (opened.map ('[' :: ·)).getD [] ++ text := by
  induction text generalizing opened with
  | nil =>
    unfold bracketGroups at h
    split at h <;> simp at h
  | cons c text ih =>
    cases opened with
    | none =>
      unfold bracketGroups at h
      dsimp only at h
      split at h
      · next hopening =>
        obtain rfl := hopening
        exact ih h (by simp)
      · obtain ⟨hclosed, hwithin⟩ := ih h (by simp)
        exact ⟨hclosed, hwithin.trans (List.suffix_cons c text).isInfix⟩
    | some begun =>
      have hbegun := hopened begun rfl
      unfold bracketGroups at h
      dsimp only at h
      split at h
      · next hclosing =>
        obtain rfl := hclosing
        rcases List.mem_cons.mp h with h | h
        · obtain rfl := Option.some.inj h
          exact ⟨hbegun, [], text, by simp⟩
        · obtain ⟨hclosed, hwithin⟩ := ih h (by simp)
          exact ⟨hclosed, hwithin.trans ⟨'[' :: (begun ++ [']']), [], by simp⟩⟩
      · next hclosing =>
        obtain ⟨hclosed, hwithin⟩ := ih h (by simp [hbegun, Ne.symm hclosing])
        exact ⟨hclosed, by simpa using hwithin⟩

theorem bracketGroups_ne_nil (begun text : Text) : bracketGroups (some begun) text ≠ [] := by
  induction text generalizing begun with
  | nil => simp [bracketGroups]
  | cons c text ih =>
    unfold bracketGroups
    dsimp only
    split
    · simp
    · exact ih _

/-- The area is the one that says nothing, or it stands in the text. -/
def SaysArea (core area : Text) : Prop := area = noArea ∨ area <:+: core

/-- The fields of a record in which leading numbers have been given once, and then
`again` times over. -/
structure Fields.Counts (profile : Profile) (core : Text) (again : Nat) (fields : Fields) : Prop where
  leading : ∃ ns : List Int, (ns.length : Int) = profile.leadingWidth * (again + 1) ∧
    SplitsNumbers fields.leading ns
  area : Bracketed fields.area ∧ SaysArea core fields.area
  trailing : profile.Trails fields.trailing

section

variable (hlow : 0 ≤ profile.leadingWidth) (hhigh : profile.leadingWidth ≤ profile.vectorWidth)
  {fields fields' : Fields}

include hlow hhigh

/-- A bracket group is an area, which takes the place of an earlier one, or it adds
leading numbers to those that there are. -/
theorem Fields.add_ok (h : fields.add symbols profile (some group) = .ok fields') :
    (IsArea symbols profile group ∧ fields' = { fields with
      leading := if fields.leading = [] then profile.leadingZeros else fields.leading
      area := "[" ++ group ++ "]" }) ∨
    (¬ IsArea symbols profile group ∧ ∃ leading trailing,
      fields' = { fields with leading := fields.leading ++ leading, trailing } ∧
      (∃ ns : List Int, (ns.length : Int) = profile.leadingWidth ∧ SplitsNumbers leading ns) ∧
      (profile.Trails fields.trailing → profile.Trails trailing)) := by
  unfold Fields.add at h
  dsimp only at h
  split at h
  · next hanyone =>
    obtain rfl := Except.ok.inj h
    refine .inr ⟨?_, _, _, rfl, Profile.exists_splits_leadingZeros hlow, id⟩
    rintro ⟨-, hne, hnamed, -⟩
    exact hanyone.elim hne hnamed
  · next hgroup =>
    obtain ⟨hne, hanyone⟩ := not_or.mp hgroup
    obtain ⟨⟨numbers, named⟩, hnumbers, h⟩ := Outcome.bind_ok.mp h
    obtain ⟨hlength, hfew, hnamed, -⟩ := vectorNumbers_ok hnumbers
    dsimp only at h
    split at h
    · next harea =>
      obtain ⟨hunnamed, hcount, hprofile⟩ := harea
      exact .inl ⟨⟨hprofile, hne, hanyone, hcount, hnamed.mp (by simpa using hunnamed)⟩,
        (Outcome.pure_ok.mp h).symm⟩
    · next harea =>
      refine .inr ⟨?_, _, _, (Outcome.pure_ok.mp h).symm,
        exists_splits_leadingText hlow hhigh hlength hfew, fun htrailing => ?_⟩
      · rintro ⟨hprofile, -, -, hcount, hunnamed⟩
        exact harea ⟨by simp [hnamed.mpr hunnamed], hcount, hprofile⟩
      · split
        · exact trails_trailingText hlow hhigh hlength hfew
        · exact htrailing

variable (hgroup : some group ∈ bracketGroups none core)

include hgroup

omit hlow hhigh in
theorem bracketed_group :
    Bracketed ("[" ++ group ++ "]") ∧ SaysArea core ("[" ++ group ++ "]") := by
  obtain ⟨hclosed, hwithin⟩ := mem_bracketGroups hgroup (by simp)
  exact ⟨⟨group, rfl, hclosed⟩, .inr hwithin⟩

theorem Fields.counts_add_first
    (h : Fields.add symbols profile { trailing := profile.trailingZeros } (some group) =
      .ok fields') : fields'.Counts profile core 0 := by
  have htrailing := Profile.trails_zeros hhigh
  rcases add_ok hlow hhigh h with ⟨-, rfl⟩ | ⟨-, leading, trailing, rfl, hleading, hkeep⟩
  · obtain ⟨ns, hlength, hsplits⟩ := Profile.exists_splits_leadingZeros hlow
    exact ⟨⟨ns, by simpa using hlength, hsplits⟩, bracketed_group hgroup, htrailing⟩
  · obtain ⟨ns, hlength, hsplits⟩ := hleading
    exact ⟨⟨ns, by simpa using hlength, hsplits⟩, ⟨bracketed_noArea.1, .inl rfl⟩, hkeep htrailing⟩

theorem Fields.Counts.add_area (hfields : fields.Counts profile core again)
    (harea : IsArea symbols profile group)
    (h : fields.add symbols profile (some group) = .ok fields') :
    fields'.Counts profile core again := by
  rcases add_ok hlow hhigh h with ⟨-, rfl⟩ | ⟨hnot, -⟩
  · refine ⟨?_, bracketed_group hgroup, hfields.trailing⟩
    obtain ⟨ns, hlength, hsplits⟩ := hfields.leading
    dsimp only
    split
    · next hnil =>
      -- Numbers that were given without a text are none, so none are to lead.
      rw [hnil] at hsplits
      rw [hsplits.eq_nil] at hlength
      have hzero : profile.leadingWidth = 0 := by
        rcases Int.mul_eq_zero.mp hlength.symm with hzero | hzero
        · exact hzero
        · omega
      obtain ⟨zeros, hzeros, hsplits⟩ := Profile.exists_splits_leadingZeros hlow
      exact ⟨zeros, by rw [hzeros, hzero, Int.zero_mul], hsplits⟩
    · exact ⟨ns, hlength, hsplits⟩
  · exact absurd harea hnot

omit hgroup in
theorem Fields.Counts.add_vector (hfields : fields.Counts profile core again)
    (harea : ¬ IsArea symbols profile group)
    (h : fields.add symbols profile (some group) = .ok fields') :
    fields'.Counts profile core (again + 1) := by
  rcases add_ok hlow hhigh h with ⟨harea', -⟩ | ⟨-, leading, trailing, rfl, hleading, hkeep⟩
  · exact absurd harea' harea
  · obtain ⟨ns, hns, hsplits⟩ := hfields.leading
    obtain ⟨ms, hms, hsplits'⟩ := hleading
    refine ⟨⟨ns ++ ms, ?_, hsplits.append hsplits'⟩, hfields.area, hkeep hfields.trailing⟩
    rw [List.length_append]
    push_cast
    rw [hns, hms, Int.mul_add _ (again + 1 : Int), Int.mul_one]

omit hgroup in
theorem Fields.Counts.foldlM {groups : List (Option Text)}
    (hgroups : groups ⊆ bracketGroups none core) (hfields : fields.Counts profile core again)
    (h : groups.foldlM (Fields.add symbols profile) fields = .ok fields') :
    fields'.Counts profile core (again + groups.countP fun group =>
      ¬ ∀ text ∈ group, IsArea symbols profile text) := by
  induction groups generalizing fields again with
  | nil =>
    obtain rfl := Outcome.pure_ok.mp h
    simpa using hfields
  | cons group groups ih =>
    rw [List.foldlM_cons] at h
    obtain ⟨next, hnext, hrest⟩ := Outcome.bind_ok.mp h
    obtain ⟨hgroup, hothers⟩ := List.cons_subset.mp hgroups
    cases group with
    | none => cases hnext
    | some group =>
      rw [List.countP_cons]
      by_cases harea : IsArea symbols profile group
      · have hstep := hfields.add_area hlow hhigh hgroup harea hnext
        simpa [harea] using ih hothers hstep hrest
      · have hstep := hfields.add_vector hlow hhigh harea hnext
        simpa [harea, Nat.add_assoc, Nat.add_comm 1] using ih hothers hstep hrest

end

-- --------------------
-- The code of an expression
-- --------------------

def ClosedCore (core : Text) : Prop :=
  if core.head? = some '[' then True
  else if core.head? = some '"' then '"' ∉ Text.inner core
  else Bracketed (symbolParts core).2

def repeats (symbols : Symbols) (profile : Profile) (core : Text) : Nat :=
  if core.head? = some '[' then
    (bracketGroups none core).tail.countP fun group => ¬ ∀ text ∈ group, IsArea symbols profile text
  else 0

/-- The area after a symbol is closed at its end. -/
theorem bracketed_symbolParts_iff : Bracketed (symbolParts core).2 ↔
    (core.getLast? = some ']' → ∀ parts ∈ Text.cut? '[' core, ']' ∉ parts.2.dropLast) := by
  unfold symbolParts
  split
  · next before after hcut =>
    obtain ⟨-, hcore⟩ := Text.cut?_eq_some hcut
    simp only [hcut, Option.mem_def, Option.some.injEq, forall_eq']
    split
    · next hlast =>
      have hafter : after.getLast? = some ']' := by
        rw [hcore] at hlast
        cases after with
        | nil => simp at hlast
        | cons c after => simpa using hlast
      simp [enclosed_iff, hlast, hafter, Text.inner]
    · next hlast => simp [hlast, bracketed_noArea.1]
  · next hcut => simp [hcut, bracketed_noArea.1]

theorem saysArea_symbolParts (core : Text) : SaysArea core (symbolParts core).2 := by
  unfold symbolParts
  split
  · next before after hcut =>
    split
    · exact .inr ⟨before, [], by simp [← (Text.cut?_eq_some hcut).2]⟩
    · exact .inl rfl
  · exact .inl rfl

theorem plainCore_iff :
    PlainCore symbols profile core ↔ ClosedCore core ∧ repeats symbols profile core = 0 := by
  unfold PlainCore ClosedCore repeats
  split
  · simp [List.countP_eq_zero]
  · split
    · simp
    · simp [bracketed_symbolParts_iff]

theorem exists_layout_nameCode (hhead : core.head? = some '"')
    (h : nameCode profile qualifiers core = .ok text) :
    ∃ inside, core = '"' :: (inside ++ ['"']) ∧
      (∀ n ∈ qualifiers, Text.FewDigits (Text.ofInt (toSigned32 n))) ∧
      text = profile.objectLayout profile.leadingZeros qualifiers noArea core
        profile.trailingZeros := by
  unfold nameCode at h
  split at h
  · cases h
  · next hclosed =>
    obtain ⟨_, hqualifiers, h⟩ := Outcome.bind_ok.mp h
    obtain rfl := Outcome.pure_ok.mp h
    have hfew := checkQualifiers_ok (Refusal.ofNumeral_ok.mp hqualifiers)
    obtain ⟨hlength, hlast⟩ := not_or.mp hclosed
    cases core with
    | nil => cases hhead
    | cons c rest =>
      obtain rfl := Option.some.inj hhead
      cases rest with
      | nil => exact absurd rfl hlength
      | cons d rest =>
        obtain ⟨inside, hinside⟩ := List.getLast?_eq_some_iff.mp
          (show (d :: rest).getLast? = some '"' by simpa using hlast)
        exact ⟨inside, by rw [hinside], hfew, rfl⟩

theorem exists_layout_symbolCode {qualifiers : List Int} (hcount : qualifiers.length ≤ 5)
    (h : symbolCode symbols profile qualifiers core = .ok text) :
    ∃ id, (id = 0 ∨ IsId symbols id) ∧ (qualifiers ++ [id]).length ≤ 5 ∧
      (∀ n ∈ qualifiers ++ [id], Text.FewDigits (Text.ofInt (toSigned32 n))) ∧
      (¬ profile.hasObjectArea → (symbolParts core).2 = noArea) ∧
      text = profile.objectLayout profile.leadingZeros (qualifiers ++ [id]) (symbolParts core).2
        emptyString profile.trailingZeros := by
  unfold symbolCode at h
  generalize symbolParts core = parts at h ⊢
  obtain ⟨symbol, area⟩ := parts
  dsimp only at h ⊢
  generalize hentry : (if symbol = [] then none else symbols.byName? "OBJECT.IDS" symbol) = entry at h
  split at h
  · cases h
  · split at h
    · cases h
    · next hroom =>
      obtain ⟨_, hqualifiers, h⟩ := Outcome.bind_ok.mp h
      split at h
      · cases h
      · next hfield =>
        obtain rfl := Outcome.pure_ok.mp h
        refine ⟨_, ?_, ?_, checkQualifiers_ok (Refusal.ofNumeral_ok.mp hqualifiers), fun hnone => ?_,
          rfl⟩
        · cases entry with
          | none => exact .inl rfl
          | some entry =>
            split at hentry
            · cases hentry
            · exact .inr ⟨_, _, entry, hentry, rfl⟩
        · rw [List.length_append, List.length_singleton]
          omega
        · exact Decidable.byContradiction fun hne => hfield ⟨hnone, hne⟩

/-- The text is the code of fields that come of the core, which gives the leading numbers
`again` times over. -/
structure Gives (profile : Profile) (core : Text) (again : Nat) (text : Text)
    (fields : ObjectFields) : Prop where
  spells : fields.Spells text
  few : ∀ n ∈ fields.record.numbers, Text.FewDigits (Text.ofInt n)
  before : (fields.before.length : Int) = profile.leadingWidth * (again + 1) + 5
  after : (fields.after.length : Int) = profile.trailingWidth ↔
    (profile.trailingWidth ≠ 0 → profile.hasObjectArea)
  area : ∀ area ∈ fields.area, Bracketed area ∧ SaysArea core area
  name : Quoted fields.name ∧ (fields.name = emptyString ∨ fields.name = core)

section

variable {qualifiers : List Int} (hcount : qualifiers.length ≤ 5)

include hcount

theorem exists_gives_objectLayout {again : Nat}
    (hqualifiers : ∀ n ∈ qualifiers, Text.FewDigits (Text.ofInt (toSigned32 n)))
    (hleading : ∃ ns : List Int, (ns.length : Int) = profile.leadingWidth * (again + 1) ∧
      SplitsNumbers leading ns)
    (harea : Bracketed area ∧ SaysArea core area)
    (hname : Quoted name ∧ (name = emptyString ∨ name = core)) (htrailing : profile.Trails trailing) :
    ∃ fields, Gives profile core again
      (profile.objectLayout leading qualifiers area name trailing) fields := by
  obtain ⟨ns, hns, hsplits⟩ := hleading
  obtain ⟨qs, hqs, hqsplits⟩ := Profile.exists_splits_qualifierText hcount hqualifiers
  obtain ⟨after, hafter, htrails⟩ := htrailing
  have hbefore := hsplits.append hqsplits
  have hspells := Profile.spells_object hbefore.splits (fun _ => harea.1) hname.1 hafter.splits
  rw [← List.append_assoc] at hspells
  refine ⟨_, hspells, fun n hn => ?_, ?_, htrails, fun found hfound => ?_, hname⟩
  · exact (List.mem_append.mp hn).elim (hbefore.few n) (hafter.few n)
  · rw [List.length_append, hqs, Int.natCast_add, hns]
    rfl
  · dsimp only at hfound
    split at hfound
    · exact Option.some.inj hfound ▸ harea
    · cases hfound

variable (hlow : 0 ≤ profile.leadingWidth) (hhigh : profile.leadingWidth ≤ profile.vectorWidth)

include hlow hhigh

theorem exists_gives_vectorCode (hhead : core.head? = some '[')
    (h : vectorCode symbols profile qualifiers core = .ok text) :
    ∃ fields, Gives profile core (repeats symbols profile core) text fields := by
  obtain ⟨_, -, h⟩ := Outcome.bind_ok.mp h
  obtain ⟨fields, hfields, h⟩ := Outcome.bind_ok.mp h
  obtain ⟨_, hqualifiers, h⟩ := Outcome.bind_ok.mp h
  obtain rfl := Outcome.pure_ok.mp h
  have hcounts : fields.Counts profile core (repeats symbols profile core) := by
    rw [repeats, if_pos hhead]
    cases hgroups : bracketGroups none core with
    | nil =>
      cases core with
      | nil => cases hhead
      | cons c rest =>
        obtain rfl := Option.some.inj hhead
        exact absurd hgroups (bracketGroups_ne_nil [] rest)
    | cons first groups =>
      rw [hgroups, List.foldlM_cons] at hfields
      obtain ⟨next, hnext, hrest⟩ := Outcome.bind_ok.mp hfields
      cases first with
      | none => cases hnext
      | some first =>
        have hgroup : some first ∈ bracketGroups none core := by simp [hgroups]
        have hfirst := Fields.counts_add_first hlow hhigh hgroup hnext
        simpa using hfirst.foldlM hlow hhigh (by simp [hgroups]) hrest
  exact exists_gives_objectLayout hcount (checkQualifiers_ok (Refusal.ofNumeral_ok.mp hqualifiers))
    hcounts.leading hcounts.area ⟨quoted_emptyString, .inl rfl⟩ hcounts.trailing

omit hcount hhigh in
theorem exists_splits_leadingZeros_once :
    ∃ ns : List Int, (ns.length : Int) = profile.leadingWidth * ((0 : Nat) + 1) ∧
      SplitsNumbers profile.leadingZeros ns := by
  simpa using Profile.exists_splits_leadingZeros hlow

theorem exists_gives_nameCode (hhead : core.head? = some '"') (hclosed : '"' ∉ Text.inner core)
    (h : nameCode profile qualifiers core = .ok text) :
    ∃ fields, Gives profile core 0 text fields := by
  obtain ⟨inside, rfl, hqualifiers, rfl⟩ := exists_layout_nameCode hhead h
  have hquoted : Quoted ('"' :: (inside ++ ['"'])) :=
    ⟨inside, rfl, by simpa [Text.inner] using hclosed⟩
  exact exists_gives_objectLayout hcount hqualifiers (exists_splits_leadingZeros_once hlow)
    ⟨bracketed_noArea.1, .inl rfl⟩ ⟨hquoted, .inr rfl⟩ (Profile.trails_zeros hhigh)

theorem exists_gives_symbolCode (hclosed : Bracketed (symbolParts core).2)
    (h : symbolCode symbols profile qualifiers core = .ok text) :
    ∃ fields, Gives profile core 0 text fields := by
  obtain ⟨id, -, hlength, hqualifiers, -, rfl⟩ := exists_layout_symbolCode hcount h
  exact exists_gives_objectLayout hlength hqualifiers
    (exists_splits_leadingZeros_once hlow) ⟨hclosed, saysArea_symbolParts core⟩
    ⟨quoted_emptyString, .inl rfl⟩ (Profile.trails_zeros hhigh)

end

/-- An expression that closes its texts at their ends is encoded to fields. -/
theorem exists_gives_code (hlow : 0 ≤ profile.leadingWidth)
    (hhigh : profile.leadingWidth ≤ profile.vectorWidth)
    (hqualify : qualify symbols value = .ok (qualifiers, core)) (hclosed : ClosedCore core)
    (h : code symbols profile definition value = .ok part) :
    ∃ fields, Gives profile core (repeats symbols profile core) part.value fields := by
  obtain ⟨hcount, -⟩ := qualify_parts hqualify
  obtain ⟨parts, hparts, h⟩ := Outcome.bind_ok.mp h
  obtain rfl := Except.ok.inj (hqualify.symm.trans (Refusal.ofFault_ok.mp hparts))
  dsimp only at h
  unfold ClosedCore at hclosed
  split at h
  · next hhead =>
    obtain ⟨text, htext, h⟩ := Outcome.bind_ok.mp h
    obtain rfl := Outcome.pure_ok.mp h
    exact exists_gives_vectorCode hcount hlow hhigh hhead htext
  · next hhead =>
    rw [if_neg (by simp [hhead]), if_pos hhead] at hclosed
    obtain ⟨text, htext, h⟩ := Outcome.bind_ok.mp h
    obtain rfl := Outcome.pure_ok.mp h
    rw [repeats, if_neg (by simp [hhead])]
    exact exists_gives_nameCode hcount hlow hhigh hhead hclosed htext
  · next hbracket hquote =>
    rw [if_neg hbracket, if_neg hquote] at hclosed
    obtain ⟨text, htext, h⟩ := Outcome.bind_ok.mp h
    obtain rfl := Outcome.pure_ok.mp h
    rw [repeats, if_neg hbracket]
    exact exists_gives_symbolCode hcount hlow hhigh hclosed htext

theorem Gives.codes (hprofile : profile.Sized) (h : Gives profile core 0 text fields) :
    fields.Codes profile text := by
  refine ⟨h.spells, ?_⟩
  have hbefore := h.before
  have hafter := h.after.mpr hprofile.trailing
  have hvector : (profile.objectNumberCount : Int) = profile.vectorWidth + 5 := rfl
  have htrailing : profile.trailingWidth = profile.vectorWidth - profile.leadingWidth := rfl
  simp only [ObjectFields.record, List.length_append]
  omega

/-- A plain expression is encoded to a record that can be read. -/
theorem exists_fits_code (hprofile : profile.Regular) (hline : '\n' ∉ value)
    (hplain : Plain symbols profile value)
    (h : code symbols profile definition value = .ok part) :
    ∃ fields : ObjectFields, fields.Fits profile part.value := by
  obtain ⟨⟨qualifiers, core⟩, hparts, -⟩ := Outcome.bind_ok.mp h
  have hqualify := Refusal.ofFault_ok.mp hparts
  obtain ⟨hclosed, honce⟩ := plainCore_iff.mp
    (show PlainCore symbols profile core from hplain (qualifiers, core) (by rw [hqualify]; rfl))
  obtain ⟨fields, hgives⟩ := exists_gives_code (Int.le_of_lt hprofile.leading) hprofile.vector
    hqualify hclosed h
  rw [honce] at hgives
  have hcore : '\n' ∉ core := by
    rcases (qualify_parts hqualify).2.1 with hwithin | rfl
    · exact fun hmem => hline (hwithin.subset hmem)
    · decide
  refine ⟨fields, ⟨hgives.codes hprofile.sized, hgives.few⟩, ?_, fun area harea => ?_⟩
  · show '\n' ∉ fields.name
    rcases hgives.name.2 with hname | hname
    · rw [hname]
      decide
    · rwa [hname]
  · rcases (hgives.area area harea).2 with rfl | hwithin
    · exact bracketed_noArea.2
    · exact fun hmem => hcore (hwithin.subset hmem)

end Object

end InfinityScript
