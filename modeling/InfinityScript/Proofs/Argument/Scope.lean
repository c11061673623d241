import InfinityScript.Proofs.Argument.Slots

/-!
# Packed variables

The name and the scope of a variable are packed into one string. Unpacking it gives the
name and the scope again exactly when the name has more than one character
(`Scope.unpack_pack`).
-/

namespace InfinityScript.Scope

/-- A text that begins and ends with a quote, which may be the same one. -/
structure Wrapped (value : Text) : Prop where
  begins : value.head? = some '"'
  ends : value.getLast? = some '"'

theorem quoteFault?_eq_none (h : Wrapped value) : quoteFault? value = .ok none := by
  obtain ⟨rest, rfl⟩ := List.head?_eq_some_iff.mp h.begins
  have hends := h.ends
  simp only [quoteFault?, hends]
  rfl

theorem mapM_quoteFault? {strings : List Text} (h : ∀ value ∈ strings, Wrapped value) :
    strings.mapM quoteFault? = .ok (strings.map fun _ => none) := by
  rw [Outcome.mapM_ok, List.map_map]
  exact List.map_congr_left fun value hvalue => quoteFault?_eq_none (h value hvalue)

theorem not_isScope_emptyString (symbols : Symbols) : isScope symbols emptyString = false := by
  refine Bool.eq_false_iff.mpr fun hscope => ?_
  exact absurd (length_of_isScope hscope) (by decide)

/-- Only a scope is packed into the string before it. -/
theorem packNext_of_not_isScope (h : isScope symbols value = false) (opcode : Int)
    (earlier : List Text) : packNext symbols opcode earlier value = value :: earlier := by
  cases earlier with
  | nil => rfl
  | cons last earlier => simp [packNext, h]

theorem pack_string (h : Wrapped value) (symbols : Symbols) (opcode : Int) :
    pack symbols opcode [value, emptyString, emptyString, emptyString] =
      .ok ([value, emptyString, emptyString, emptyString], []) := by
  have hempty : Wrapped emptyString := ⟨rfl, rfl⟩
  have hwrapped : ∀ text ∈ [value, emptyString, emptyString, emptyString], Wrapped text := by
    simp [h, hempty]
  have hnext := packNext_of_not_isScope (not_isScope_emptyString symbols) opcode
  rw [pack, mapM_quoteFault? hwrapped]
  simp only [List.foldl_cons, List.foldl_nil, hnext]
  rfl

structure Variable where
  name : Text
  scope : Text

namespace Variable

def strings (v : Variable) : List Text := [v.name, v.scope]

def packed (v : Variable) : Text := v.scope.take 7 ++ v.name.drop 1

/-- Both strings are quoted, the name has a character, and of the two only the scope is
a scope. -/
structure Proper (symbols : Symbols) (v : Variable) : Prop where
  name : Wrapped v.name
  scope : Wrapped v.scope
  nonempty : 2 < v.name.length
  isName : isScope symbols v.name = false
  isScope : isScope symbols v.scope

section

variable {symbols : Symbols} {v : Variable}

theorem Proper.take_scope (h : v.Proper symbols) : v.scope.take 7 ++ "\"" = v.scope := by
  have hlength := length_of_isScope h.isScope
  obtain ⟨before, hbefore⟩ := List.getLast?_eq_some_iff.mp h.scope.ends
  have hseven : before.length = 7 := by
    rw [hbefore, List.length_append, List.length_singleton] at hlength
    omega
  rw [hbefore, ← hseven, List.take_left]
  rfl

theorem Proper.drop_name (h : v.Proper symbols) : '"' :: v.name.drop 1 = v.name := by
  obtain ⟨rest, hrest⟩ := List.head?_eq_some_iff.mp h.name.begins
  simp [hrest]

theorem Proper.length_take_scope (h : v.Proper symbols) : (v.scope.take 7).length = 7 := by
  rw [List.length_take, length_of_isScope h.isScope]
  rfl

theorem Proper.length_packed (h : v.Proper symbols) : v.packed.length = v.name.length + 6 := by
  have hnonempty := h.nonempty
  rw [packed, List.length_append, h.length_take_scope, List.length_drop]
  omega

/-- A packed string is divided when it has more than nine characters: a name of one
character is one short of that. -/
theorem Proper.unpackOne_packed (h : v.Proper symbols) :
    unpackOne symbols v.packed = if 3 < v.name.length then v.strings else [v.packed] := by
  have htake : v.packed.take 7 = v.scope.take 7 := by
    rw [packed, List.take_append_of_le_length (Nat.le_of_eq h.length_take_scope.symm),
      List.take_of_length_le (Nat.le_of_eq h.length_take_scope)]
  have hdrop : v.packed.drop 7 = v.name.drop 1 := by
    rw [packed, List.drop_append_of_le_length (Nat.le_of_eq h.length_take_scope.symm),
      List.drop_of_length_le (Nat.le_of_eq h.length_take_scope), List.nil_append]
  have hlong : v.packed.length > 9 ↔ 3 < v.name.length := by
    rw [h.length_packed]
    omega
  simp only [unpackOne, htake, hdrop, h.take_scope, h.drop_name, hlong, h.isScope, and_true]
  rfl

/-- Packing one more variable: its name is a string of its own, and its scope goes into
that string. -/
theorem Proper.foldl_packNext (h : v.Proper symbols) (hopcode : opcode ∉ unpackedOpcodes)
    (earlier : List Text) :
    v.strings.foldl (packNext symbols opcode) earlier = v.packed :: earlier := by
  rw [strings, List.foldl_cons, packNext_of_not_isScope h.isName, List.foldl_cons, List.foldl_nil,
    packNext, if_pos ⟨hopcode, h.isScope, by simp [h.isName]⟩, packed]

end

section

variable {symbols : Symbols} {vs : List Variable}

theorem foldl_packNext_variables (h : ∀ v ∈ vs, v.Proper symbols)
    (hopcode : opcode ∉ unpackedOpcodes) (earlier : List Text) :
    (vs.flatMap strings).foldl (packNext symbols opcode) earlier =
      (vs.map packed).reverse ++ earlier := by
  induction vs generalizing earlier with
  | nil => rfl
  | cons v vs ih =>
    rw [List.flatMap_cons, List.foldl_append, (h v (by simp)).foldl_packNext hopcode,
      ih fun w hw => h w (by simp [hw])]
    simp

theorem foldl_packNext_emptyString (symbols : Symbols) (opcode : Int) (n : Nat)
    (earlier : List Text) :
    (List.replicate n emptyString).foldl (packNext symbols opcode) earlier =
      List.replicate n emptyString ++ earlier := by
  induction n generalizing earlier with
  | zero => rfl
  | succ n ih =>
    rw [List.replicate_succ, List.foldl_cons,
      packNext_of_not_isScope (not_isScope_emptyString symbols), ih, ← List.replicate_succ,
      List.replicate_succ', List.append_assoc]
    rfl

theorem pack_variables (h : ∀ v ∈ vs, v.Proper symbols)
    (hopcode : opcode ∉ unpackedOpcodes) (n : Nat) :
    pack symbols opcode (vs.flatMap strings ++ List.replicate n emptyString) =
      .ok (vs.map packed ++ List.replicate (n + vs.length) emptyString, []) := by
  have hwrapped : ∀ value ∈ vs.flatMap strings ++ List.replicate n emptyString,
      Wrapped value := by
    intro value hvalue
    rcases List.mem_append.mp hvalue with hvalue | hvalue
    · obtain ⟨v, hv, hvalue⟩ := List.mem_flatMap.mp hvalue
      rcases List.mem_cons.mp hvalue with rfl | hvalue
      · exact (h v hv).name
      · rw [List.mem_singleton.mp hvalue]
        exact (h v hv).scope
    · rw [List.eq_of_mem_replicate hvalue]
      exact ⟨rfl, rfl⟩
  have hlength : (vs.flatMap strings).length = 2 * vs.length := by
    simp [List.length_flatMap, strings, List.map_const', Nat.mul_comm]
  have hfold : (vs.flatMap strings ++ List.replicate n emptyString).foldl
      (packNext symbols opcode) [] =
        List.replicate n emptyString ++ (vs.map packed).reverse := by
    rw [List.foldl_append, foldl_packNext_variables h hopcode, foldl_packNext_emptyString,
      List.append_nil]
  have hpad : 2 * vs.length + n - (n + vs.length) = vs.length := by omega
  rw [pack, mapM_quoteFault? hwrapped, hfold]
  simp only [List.reverse_append, List.reverse_reverse, List.reverse_replicate, List.length_append,
    List.length_map, List.length_replicate, hlength, Nat.add_comm vs.length n, hpad,
    List.append_assoc, List.replicate_append_replicate]
  simp [Bind.bind, Except.bind, pure, Except.pure]

end

end Variable

theorem unpackOne_emptyString (symbols : Symbols) :
    unpackOne symbols emptyString = [emptyString] := by
  simp [unpackOne, emptyString]

/-- Unpacking undoes packing, of one variable and of two, exactly when no name has a
single character only. -/
theorem unpack_pack {symbols : Symbols} {first second : Variable} (hfirst : first.Proper symbols)
    (hsecond : second.Proper symbols) (hopcode : opcode ∉ unpackedOpcodes) :
    (∃ packed, pack symbols opcode [first.name, first.scope, emptyString, emptyString] =
        .ok ([packed, emptyString, emptyString, emptyString], []) ∧
      (unpack symbols packed emptyString =
          [some first.name, some first.scope, some emptyString, none] ↔ 3 < first.name.length)) ∧
    ∃ packed₁ packed₂, pack symbols opcode [first.name, first.scope, second.name, second.scope] =
        .ok ([packed₁, packed₂, emptyString, emptyString], []) ∧
      (unpack symbols packed₁ packed₂ =
          [some first.name, some first.scope, some second.name, some second.scope] ↔
        3 < first.name.length ∧ 3 < second.name.length) := by
  -- A name of one character stays packed, in a string that is longer than the name.
  have hwhole : first.packed ≠ first.name := fun heq => by
    have hlength := hfirst.length_packed
    rw [heq] at hlength
    omega
  have hone : pack symbols opcode ([first].flatMap Variable.strings ++
      List.replicate 2 emptyString) = _ :=
    Variable.pack_variables (by simpa using hfirst) hopcode 2
  have htwo : pack symbols opcode ([first, second].flatMap Variable.strings ++
      List.replicate 0 emptyString) = _ :=
    Variable.pack_variables (by simpa using ⟨hfirst, hsecond⟩) hopcode 0
  refine ⟨⟨first.packed, hone, ?_⟩, first.packed, second.packed, htwo, ?_⟩
  · rw [unpack, hfirst.unpackOne_packed, unpackOne_emptyString]
    by_cases hlong : 3 < first.name.length
    · simp [hlong, Variable.strings]
    · simp [hlong, hwhole]
  · rw [unpack, hfirst.unpackOne_packed, hsecond.unpackOne_packed]
    by_cases hlong : 3 < first.name.length
    · by_cases hlong₂ : 3 < second.name.length
      · simp [hlong, hlong₂, Variable.strings]
      · simp [hlong, hlong₂, Variable.strings]
    · by_cases hlong₂ : 3 < second.name.length
      · simp [hlong, hlong₂, hwhole, Variable.strings]
      · simp [hlong, hlong₂, hwhole]

def Variable.quest : Variable := ⟨"\"Quest\"", "\"ar0602\""⟩

theorem unpack_pack_quest : Variable.quest.Proper {} ∧
    ∃ packed₁ packed₂, pack {} 1 (Variable.quest.strings ++ Variable.quest.strings) =
        .ok ([packed₁, packed₂, emptyString, emptyString], []) ∧
      unpack {} packed₁ packed₂ =
        (Variable.quest.strings ++ Variable.quest.strings).map some := by
  have hquest : Variable.quest.Proper {} :=
    ⟨⟨rfl, rfl⟩, ⟨rfl, rfl⟩, by decide, by decide, by decide⟩
  obtain ⟨-, packed₁, packed₂, hpack, hunpack⟩ :=
    @unpack_pack 1 {} _ _ hquest hquest (by decide)
  exact ⟨hquest, packed₁, packed₂, hpack, hunpack.mpr (by decide)⟩

/-- The variable `x` of the whole game is packed, and not divided again. -/
theorem unpack_pack_letter :
    pack {} 1 ["\"x\"", "\"GLOBAL\"", emptyString, emptyString] =
        .ok (["\"GLOBALx\"", emptyString, emptyString, emptyString], []) ∧
      unpack {} "\"GLOBALx\"" emptyString =
        [some ("\"GLOBALx\"" : Text), some emptyString, none, none] :=
  ⟨rfl, by decide⟩

end InfinityScript.Scope
