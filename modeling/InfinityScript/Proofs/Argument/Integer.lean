import Mathlib.Data.Nat.Bitwise
import InfinityScript.Proofs.Record.Notes
import InfinityScript.Argument.Encode
import InfinityScript.Proofs.Symbol.Lookup

/-!
# Integers read back

An integer is expressed by a symbol, by the symbols of its bits, or in digits. Whichever
it is, the argument is encoded as the integer (`Argument.encodeInteger_expressInteger`).
-/

namespace InfinityScript

-- --------------------
-- Flags
-- --------------------

namespace Flags

inductive Sums (lookup : Int → Option Text) : List Text → Int → Prop
  | nil : Sums lookup [] 0
  | cons (n : Nat) (hname : lookup n = some name) (hrest : Sums lookup names total) :
      Sums lookup (name :: names) (n + total)

theorem Sums.eq_zero (h : Sums lookup [] total) : total = 0 := by
  cases h
  rfl

/-- Taking out a bit that is set subtracts it. -/
theorem xor_add_of_testBit {word bit : Nat} (h : word.testBit bit) :
    (word ^^^ 1 <<< bit) + 1 <<< bit = word := by
  induction bit generalizing word with
  | zero =>
    have hodd : word % 2 = 1 := by simpa [Nat.testBit_zero] using h
    rw [Nat.shiftLeft_zero, Nat.xor_one_of_odd (Nat.odd_iff.mpr hodd)]
    omega
  | succ bit ih =>
    have hhalf := @ih (word / 2) (by rwa [Nat.testBit_succ] at h)
    have hshift : 1 <<< (bit + 1) = 2 * 1 <<< bit := Nat.shiftLeft_succ 1 bit
    have hdiv : (word ^^^ 1 <<< (bit + 1)) / 2 = word / 2 ^^^ 1 <<< bit := by
      rw [Nat.xor_div_two, hshift, Nat.mul_div_cancel_left _ (by decide)]
    have hmod : (word ^^^ 1 <<< (bit + 1)) % 2 = word % 2 := by
      rw [Nat.xor_mod_two_eq, hshift]
      omega
    omega

theorem sums_split (lookup : Int → Option Text) (bits : List Nat) (word : Nat) :
    Sums lookup (split lookup bits word).1 (word - (split lookup bits word).2) := by
  induction bits generalizing word with
  | nil =>
    rw [split, Int.sub_self]
    exact .nil
  | cons bit bits ih =>
    rw [split]
    split
    · rw [Int.sub_self]
      exact .nil
    split
    · next hbit =>
      split
      · next name hname =>
        have hrest := Sums.cons (1 <<< bit) hname (ih (word ^^^ 1 <<< bit))
        have hword := xor_add_of_testBit hbit
        dsimp only
        convert hrest using 1
        omega
      · exact ih word
    · exact ih word

/-- The names of a number that has no other bits add up to it, as an unsigned number. -/
theorem sums_decompose (lookup : Int → Option Text) (hn : IsWord n)
    (hrest : (decompose lookup n).2 = 0) :
    Sums lookup (decompose lookup n).1 (if n < 0 then n + 4294967296 else n) := by
  unfold decompose at hrest ⊢
  unfold IsWord at hn
  cases hword : (if n < 0 then n + 4294967296 else n) with
  | negSucc below =>
    split at hword <;> omega
  | ofNat word =>
    have hsums := sums_split lookup (List.range 32) word
    simp only [hword] at hrest ⊢
    rwa [hrest, Int.sub_zero] at hsums

end Flags

-- --------------------
-- Symbols with bars between them
-- --------------------

namespace Argument

variable {symbols : Symbols} {table : Table} {listed : Text}

/-- The symbol for a number that is no negative one has that number as its id. -/
theorem lookup?_natural (h : table.Nameable marks) {n : Nat}
    (hname : (table.get? n).map Entry.name = some name) :
    ∃ (entry : Entry) (found : Entry), entry.Nameable marks ∧ entry.name = name ∧
      table.lookup? name = some found ∧ found.id = n := by
  obtain ⟨entry, hentry, rfl⟩ := Option.map_eq_some_iff.mp hname
  obtain ⟨hmem, hid⟩ := h.made.of_get?_id hentry
  obtain ⟨found, hfound, heq⟩ := h.lookup?_of_mem hmem
  refine ⟨entry, found, h.entries entry hmem, rfl, hfound, ?_⟩
  omega

theorem sumOfSymbols_cons (h : table.Nameable "|") (htable : symbols.table? listed = some table)
    {n : Nat} (hname : (table.get? n).map Entry.name = some name)
    (hbefore : ∀ c ∈ before, Text.isBlank c) (hafter : ∀ c ∈ after, Text.isBlank c)
    (pieces : List Text) :
    sumOfSymbols symbols listed ((before ++ name ++ after) :: pieces) =
      (sumOfSymbols symbols listed pieces).map ((n : Int) + ·) := by
  obtain ⟨entry, found, hentry, rfl, hfound, hid⟩ := lookup?_natural h hname
  have hbyName : symbols.byName? listed entry.name = some found := by
    rw [Symbols.byName?, htable]
    exact hfound
  rw [sumOfSymbols, Text.trim_append hbefore hafter, hentry.trimmed]
  simp only [hentry.nonempty, hbyName, hid, if_false]
  rfl

theorem sumOfSymbols_join (h : table.Nameable "|") (htable : symbols.table? listed = some table)
    (hsums : Flags.Sums (fun bit => (table.get? bit).map Entry.name) names total)
    (hne : names ≠ []) (hbefore : ∀ c ∈ before, Text.isBlank c) :
    sumOfSymbols symbols listed (Text.splitOn '|' (before ++ Text.join " | " names)) =
      .ok total := by
  have hbar : ∀ blanks : Text, (∀ c ∈ blanks, Text.isBlank c) → '|' ∉ blanks := fun blanks hblanks hmem =>
    absurd (hblanks '|' hmem) (by decide)
  induction hsums generalizing before with
  | nil => exact absurd rfl hne
  | @cons name names total n hname hrest ih =>
    obtain ⟨entry, -, hentry, rfl, -, -⟩ := lookup?_natural h hname
    have hmark : '|' ∉ entry.name := hentry.marks '|' (by simp)
    cases names with
    | nil =>
      cases hrest
      have hone := @sumOfSymbols_cons _ _ _ _ _ [] h htable n hname hbefore (by simp) []
      rw [List.append_nil] at hone
      rw [Text.join_singleton, Text.splitOn_eq_singleton (by simp [hmark, hbar before hbefore]), hone]
      rfl
    | cons second names =>
      have hspace : ∀ c ∈ [' '], Text.isBlank c := by decide
      have htext : before ++ Text.join " | " (entry.name :: second :: names) =
          (before ++ entry.name ++ [' ']) ++ '|' :: ([' '] ++ Text.join " | " (second :: names)) := by
        rw [Text.join_cons_cons]
        simp
      rw [htext, Text.splitOn_append (by simp [hmark, hbar before hbefore]),
        sumOfSymbols_cons h htable hname hbefore hspace, ih (by simp) hspace]
      rfl

-- --------------------
-- Numbers
-- --------------------

theorem encodeInteger_eq {value : Text} (hn : IsWord n) (h : Text.literal value = .ok (some n) ∨
      Text.literal? value = none ∧ symbolic symbols definition value = .ok n) :
    encodeInteger symbols definition value = pure (Text.ofInt n) := by
  have hwritable := Text.writable_of_isWord hn
  have hinteger : integer symbols definition value = .ok n := by
    rcases h with hliteral | ⟨hliteral, hsymbolic⟩
    · rw [integer, hliteral]
      simp only [Refusal.ofNumeral, hwritable, Except.mapError, Bind.bind, Except.bind]
    · rw [integer, Text.literal_eq_none hliteral, hsymbolic]
      simp only [Refusal.ofNumeral, Refusal.ofFault, hwritable, Except.mapError, Bind.bind,
        Except.bind]
  rw [encodeInteger, hinteger]
  rfl

theorem symbolic_symbol (h : table.Nameable "|") (hdefinition : integerTable? definition = some listed)
    (htable : symbols.table? listed = some table) (hn : IsWord n)
    (hentry : table.get? n = some entry) :
    Text.literal? entry.name = none ∧ symbolic symbols definition entry.name = .ok n := by
  obtain ⟨hnameable, found, hfound, hid⟩ := h.exists_lookup? hn hentry
  refine ⟨hnameable.literal, ?_⟩
  simp [symbolic, hdefinition, Symbols.byName?, htable, hfound, hid]

theorem symbolic_flags (h : table.Nameable "|") (hdefinition : integerTable? definition = some listed)
    (htable : symbols.table? listed = some table)
    (hsums : Flags.Sums (fun bit => (table.get? bit).map Entry.name) names total) (hne : names ≠ []) :
    Text.literal? (Text.join " | " names) = none ∧
      symbolic symbols definition (Text.join " | " names) = .ok (toSigned32 total) := by
  have hsum := @sumOfSymbols_join _ _ _ _ _ [] h htable hsums hne (by simp)
  rw [List.nil_append] at hsum
  cases hsums with
  | nil => exact absurd rfl hne
  | @cons name names total n hname hrest =>
    cases names with
    | nil =>
      -- One symbol alone is found by its name.
      cases hrest
      obtain ⟨entry, found, hentry, rfl, hfound, hid⟩ := lookup?_natural h hname
      refine ⟨by simpa using hentry.literal, ?_⟩
      simp [symbolic, hdefinition, Symbols.byName?, htable, hfound, hid]
    | cons second names =>
      -- No symbol has a bar in its name, so that the sum is made.
      have hbar : '|' ∈ Text.join " | " (name :: second :: names) := by
        rw [Text.join_cons_cons]
        simp
      have hmark : '|' ∈ "|".toList := by simp
      have hnone := h.lookup?_mark hmark (by decide +kernel) (by decide) hbar
      refine ⟨Text.literal?_bar hbar, ?_⟩
      simp only [symbolic, hdefinition, Symbols.byName?, htable, Option.bind_some, hnone, hbar,
        if_true, hsum, Except.map]

end Argument

-- --------------------
-- Declarations
-- --------------------

theorem tableName_upper_append (h : ∃ c ∈ text, Text.isBlank c = false) :
    tableName (Text.upper text ++ ".IDS") = Text.upper (Text.upper (Text.trimLeft text)) ++ ".IDS" := by
  have hdots : Text.upper ".IDS" = ".IDS".toList := by decide
  have hends : Text.EndsVisibly ".IDS" := ⟨'S', rfl, rfl⟩
  have htrim : Text.trim (Text.upper text ++ ".IDS") = Text.upper (Text.trimLeft text) ++ ".IDS" := by
    rw [Text.trim, Text.trimLeft_upper_append h, Text.trimRight_eq_self (Text.endsVisibly_append hends _)]
  simp only [tableName, htrim, Text.upper_append, hdots]
  rw [if_pos]
  simp

theorem tableName_tableName (h : Text.EndsVisibly text)
    (hsuffix : ¬ ".IDS".toList <:+ Text.upper (Text.trim text)) :
    tableName (tableName text) = tableName (Text.upper text ++ ".IDS") := by
  have hvisible : ∃ c ∈ text, Text.isBlank c = false := by
    obtain ⟨c, hc, hblank⟩ := h
    exact ⟨c, List.mem_of_mem_getLast? hc, hblank⟩
  have htrim : ∃ c ∈ Text.trim text, Text.isBlank c = false := by
    obtain ⟨c, hc, hblank⟩ := hvisible
    exact ⟨c, Text.mem_trim hc hblank, hblank⟩
  have hname : tableName text = Text.upper (Text.trim text) ++ ".IDS" := by
    simp only [tableName]
    rw [if_neg (by simpa using hsuffix)]
  have hleft : Text.trimLeft (Text.trim text) = Text.trimLeft text := by
    rw [Text.trimLeft_eq_self (Text.isBlank_head_of_trim_eq_self (Text.trim_trim text)),
      Text.trim_eq_trimLeft h]
  rw [hname, tableName_upper_append htrim, tableName_upper_append hvisible, hleft]

theorem Entry.trim_of_mem_definitions {entry : Entry} (h : definition ∈ entry.definitions) :
    Text.trim definition = definition := by
  obtain ⟨piece, -, rfl⟩ := List.mem_map.mp (List.mem_filter.mp h).1
  exact Text.trim_trim piece

namespace Parameter

variable {definition name table rest before : Text}

/-- The declaration of an integer, which may name a table. -/
def integerDefinition (name : Text) : Option Text → Text
  | none => "I:" ++ name
  | some table => "I:" ++ name ++ "*" ++ table

theorem trim_integer (name : Text) : Text.trim ("I:" ++ name) = "I:" ++ Text.trimRight name := by
  have hends : Text.EndsVisibly "I:" := ⟨':', rfl, rfl⟩
  rw [Text.trim, Text.trimLeft_eq_self (by simp; rfl), Text.trimRight_append hends]

theorem trim_integerDefinition (name table : Text) :
    Text.trim (integerDefinition name (some table)) =
      integerDefinition name (some (Text.trimRight table)) := by
  have hends : Text.EndsVisibly "*" := ⟨'*', rfl, rfl⟩
  have hdefinition : integerDefinition name (some table) = "I:" ++ (name ++ "*" ++ table) := by
    simp [integerDefinition]
  rw [hdefinition, trim_integer, Text.trimRight_append (Text.endsVisibly_append hends name)]
  simp [integerDefinition]

theorem parse_integer (htrim : Text.trim definition = "I:" ++ rest)
    (hcut : Text.cut? '*' rest = none ∨ ∃ before, Text.cut? '*' rest = some (before, [])) :
    ∃ parameter, parse definition = .ok parameter ∧ parameter.table = none := by
  have hletter : ParameterKind.ofLetter? 'I' = some .integer := by decide
  refine ⟨⟨.integer, rest.takeWhile (· != '*'), none, Text.trim definition⟩, ?_, rfl⟩
  rcases hcut with hcut | ⟨before, hcut⟩
  · simp [parse, htrim, hletter, hcut]
  · simp [parse, htrim, hletter, hcut]

theorem parse_integer_table (htrim : Text.trim definition = "I:" ++ rest)
    (hcut : Text.cut? '*' rest = some (before, table)) (hne : table ≠ []) :
    ∃ parameter, parse definition = .ok parameter ∧ parameter.table = some (tableName table) := by
  have hletter : ParameterKind.ofLetter? 'I' = some .integer := by decide
  obtain ⟨c, table, rfl⟩ := List.exists_cons_of_ne_nil hne
  refine ⟨⟨.integer, before, some (tableName (c :: table)), Text.trim definition⟩, ?_, rfl⟩
  simp [parse, htrim, hletter, hcut]

/-- The table that a declaration names is read off it in two ways, which lead to the same
table. -/
theorem exists_parse_integer (hname : '*' ∉ name)
    (htable : ∀ table ∈ table?, '*' ∉ table ∧ ¬ ".IDS".toList <:+ Text.upper (Text.trim table)) :
    ∃ parameter, parse (integerDefinition name table?) = .ok parameter ∧
      (∀ listed ∈ parameter.table, ∃ table ∈ table?, listed = tableName table) ∧
      (Argument.integerTable? (Text.trim (integerDefinition name table?))).map tableName =
        parameter.table.map tableName := by
  cases table? with
  | none =>
    have hstar : '*' ∉ Text.trimRight name := fun hmem => hname ((Text.trimRight_sublist name).subset hmem)
    have htrim := trim_integer name
    obtain ⟨parameter, hparse, hnone⟩ := parse_integer htrim (.inl (Text.cut?_eq_none hstar))
    refine ⟨parameter, hparse, by simp [hnone], ?_⟩
    rw [integerDefinition, htrim, Argument.integerTable?, Text.cutLast?_eq_none (by simp [hstar]), hnone]
  | some table =>
    obtain ⟨hstar, hsuffix⟩ := htable table rfl
    have hstar : '*' ∉ Text.trimRight table := fun hmem => hstar ((Text.trimRight_sublist table).subset hmem)
    have htrim : Text.trim (integerDefinition name (some table)) =
        "I:" ++ (name ++ '*' :: Text.trimRight table) := by
      rw [trim_integerDefinition]
      simp [integerDefinition]
    have hcut := Text.cut?_append hname (Text.trimRight table)
    have hlisted : Argument.integerTable? (Text.trim (integerDefinition name (some table))) =
        if Text.trimRight table = [] then none else some (Text.upper (Text.trimRight table) ++ ".IDS") := by
      rw [htrim, ← List.append_assoc, Argument.integerTable?, Text.cutLast?_append hstar]
    by_cases hempty : Text.trimRight table = []
    · rw [hempty] at hcut htrim
      obtain ⟨parameter, hparse, hnone⟩ := parse_integer htrim (.inr ⟨name, hcut⟩)
      exact ⟨parameter, hparse, by simp [hnone], by simp [hlisted, hempty, hnone]⟩
    · obtain ⟨parameter, hparse, hsome⟩ := parse_integer_table htrim hcut hempty
      have hsame : tableName (Text.trimRight table) = tableName table := by
        simp [tableName, Text.trim_trimRight]
      have hfull := tableName_tableName (Text.endsVisibly_trimRight hempty)
        (by rwa [Text.trim_trimRight])
      refine ⟨parameter, hparse, by simp [hsome, hsame], ?_⟩
      rw [hlisted, if_neg hempty, hsome, Option.map_some, Option.map_some, hfull]

end Parameter

-- --------------------
-- Arguments
-- --------------------

namespace Argument

theorem toSigned32_unsigned (h : IsWord n) :
    toSigned32 (if n < 0 then n + 4294967296 else n) = n := by
  unfold IsWord at h
  unfold toSigned32
  split
  · split <;> omega
  · split <;> omega

theorem encodeInteger_of_table {symbols : Symbols} {parameter : Parameter}
    (hsame : (integerTable? definition).map tableName = parameter.table.map tableName)
    (htable : ∀ listed ∈ parameter.table, ∀ table, symbols.table? listed = some table →
      table.Nameable "|") (hn : IsWord n) :
    encodeInteger symbols definition (expressInteger symbols parameter n).value =
      pure (Text.ofInt n) := by
  have hdigits : encodeInteger symbols definition (Text.ofInt n) = pure (Text.ofInt n) :=
    encodeInteger_eq hn (.inl (Text.literal_ofInt hn))
  unfold expressInteger expressIntegerM
  split
  · exact hdigits
  · next listed hlisted =>
    split
    · exact hdigits
    · next table hfound =>
      have hnameable := htable listed hlisted table hfound
      obtain ⟨listed', hdefinition, hname⟩ := Option.map_eq_some_iff.mp
        (hsame.trans (by rw [hlisted, Option.map_some]))
      have hfound' : symbols.table? listed' = some table := by
        rw [← hfound, Symbols.table?, Symbols.table?, hname]
      split
      · next entry hentry =>
        exact encodeInteger_eq hn (.inr (symbolic_symbol hnameable hdefinition hfound' hn hentry))
      · split
        · next hflags =>
          dsimp only
          split
          · next hrest =>
            have hsums := Flags.sums_decompose _ hn hrest
            have hne : (Flags.decompose (fun bit => (table.get? bit).map Entry.name) n).1 ≠ [] := by
              intro hnil
              rw [hnil] at hsums
              have hzero := hsums.eq_zero
              unfold IsWord at hn
              split at hzero <;> omega
            have hsymbolic := symbolic_flags hnameable hdefinition hfound' hsums hne
            rw [toSigned32_unsigned hn] at hsymbolic
            exact encodeInteger_eq hn (.inr hsymbolic)
          · exact hdigits
        · exact hdigits

end Argument

end InfinityScript
