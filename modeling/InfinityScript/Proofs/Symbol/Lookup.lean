import InfinityScript.Proofs.Symbol.Table
import InfinityScript.Proofs.Text.Case
import InfinityScript.Proofs.Text.Numeral

/-!
# Symbols that can be read back

The symbol that a table gives out for a number is found in it again by its name, and
then stands for the same number (`Table.Nameable.exists_lookup?`). A number that is
written in digits is not taken for a symbol (`Table.Nameable.lookup?_numeral`).
-/

namespace InfinityScript

/-- The numbers that the engine keeps in a field. -/
def IsWord (n : Int) : Prop := -2147483648 ≤ n ∧ n < 2147483648

instance : Decidable (IsWord n) := inferInstanceAs (Decidable (_ ∧ _))

-- --------------------
-- Literals
-- --------------------

namespace Text

theorem isSome_of_foldlM {value? : Char → Option Nat} {digits : Text} {start : Nat}
    (h : digits.foldlM (fun n c => (value? c).map (base * n + ·)) start = some n) :
    ∀ c ∈ digits, (value? c).isSome := by
  induction digits generalizing start with
  | nil => simp
  | cons d digits ih =>
    obtain ⟨next, hnext, hrest⟩ := Option.bind_eq_some_iff.mp (by rwa [List.foldlM_cons] at h)
    obtain ⟨value, hvalue, -⟩ := Option.map_eq_some_iff.mp hnext
    intro c hc
    rcases List.mem_cons.mp hc with rfl | hc
    · simp [hvalue]
    · exact ih hrest c hc

theorem isSome_of_readDigits? {value? : Char → Option Nat} (h : readDigits? base value? text = some n) :
    ∀ c ∈ text, (value? c).isSome := by
  unfold readDigits? at h
  split at h
  · cases h
  · exact isSome_of_foldlM h

theorem mem_of_readSigned? (h : readSigned? text = some n) :
    ∀ c ∈ text, isDecimalDigit c ∨ c = '+' ∨ c = '-' := by
  intro c hc
  unfold readSigned? at h
  split at h
  · obtain ⟨m, hm, -⟩ := Option.map_eq_some_iff.mp h
    obtain ⟨k, hk, -⟩ := Option.bind_eq_some_iff.mp hm
    rcases List.mem_cons.mp hc with rfl | hc
    · exact .inr (.inr rfl)
    · exact .inl (isSome_of_readDigits? hk c hc)
  · obtain ⟨m, hm, -⟩ := Option.map_eq_some_iff.mp h
    rcases List.mem_cons.mp hc with rfl | hc
    · exact .inr (.inl rfl)
    · exact .inl (isSome_of_readDigits? hm c hc)
  · obtain ⟨m, hm, -⟩ := Option.map_eq_some_iff.mp h
    exact .inl (isSome_of_readDigits? hm c hc)

theorem literal?_of_readSigned? (h : readSigned? text = some n) :
    literal? text = some (toSigned32 n) := by
  unfold literal?
  split
  · next x digit digits =>
    split
    · next hx =>
      -- The `x` of a hexadecimal number stands in no decimal one.
      have hchar := mem_of_readSigned? h x (by simp)
      rcases hx with rfl | rfl
      · exact absurd hchar (by decide)
      · exact absurd hchar (by decide)
    · simp [h]
  · simp [h]

theorem literal?_bar (h : '|' ∈ text) : literal? text = none := by
  refine Option.eq_none_iff_forall_ne_some.mpr fun n hn => ?_
  have hread : ∀ m, readSigned? text ≠ some m := fun m hm =>
    absurd (mem_of_readSigned? hm '|' h) (by decide)
  unfold literal? at hn
  split at hn
  · next x digit digits =>
    split at hn
    · next hx =>
      obtain ⟨m, hm, -⟩ := Option.map_eq_some_iff.mp hn
      obtain ⟨k, hk, -⟩ := Option.bind_eq_some_iff.mp hm
      rcases List.mem_cons.mp h with h | h
      · exact absurd h (by decide)
      · rcases List.mem_cons.mp h with rfl | h
        · exact absurd hx (by decide)
        · exact absurd (isSome_of_readDigits? hk '|' h) (by decide)
    · obtain ⟨m, hm, -⟩ := Option.map_eq_some_iff.mp hn
      exact hread m hm
  · obtain ⟨m, hm, -⟩ := Option.map_eq_some_iff.mp hn
    exact hread m hm

theorem literal_eq_none (h : literal? text = none) : literal text = .ok none := by
  have hnumber : isNumber text = false := by
    cases hread : readSigned? text with
    | none => simp [isNumber, hread]
    | some n =>
      rw [literal?_of_readSigned? hread] at h
      cases h
  simp [literal, hnumber, h, pure, Except.pure]

theorem toSigned32_of_isWord (h : IsWord n) : toSigned32 n = n := by
  unfold IsWord at h
  rw [toSigned32, if_neg (by omega)]

theorem fewDigits_of_isWord (h : IsWord n) : FewDigits (ofInt n) := by
  unfold IsWord at h
  have hlimit : 10 ^ 10 ≤ 10 ^ digitLimit := Nat.pow_le_pow_right (by decide) (by decide)
  rw [fewDigits_ofInt]
  omega

theorem literal_ofInt (h : IsWord n) : literal (ofInt n) = .ok (some n) := by
  have hread := readSigned?_ofInt n
  have hcheck := checkDigits_eq_ok_iff.mpr (fewDigits_of_isWord h)
  simp [literal, isNumber, hread, hcheck, literal?_of_readSigned? hread, toSigned32_of_isWord h,
    Bind.bind, Except.bind, pure, Except.pure]

theorem writable_of_isWord (h : IsWord n) : writable n = .ok n :=
  writable_eq_ok_iff.mpr ⟨rfl, fewDigits_of_isWord h⟩

theorem isCaseless_of_readSigned? (h : readSigned? text = some n) : ∀ c ∈ text, isCaseless c := by
  intro c hc
  rcases mem_of_readSigned? h c hc with hdigit | rfl | rfl
  · exact isCaseless_of_isDecimalDigit hdigit
  · decide +kernel
  · decide +kernel

theorem isBlank_of_readSigned? (h : readSigned? text = some n) :
    ∀ c ∈ text, isBlank c = false := by
  intro c hc
  rcases mem_of_readSigned? h c hc with hdigit | rfl | rfl
  · exact isBlank_eq_false_of_isDecimalDigit hdigit
  · rfl
  · rfl

theorem trim_eq_self_of_forall (h : ∀ c ∈ text, isBlank c = false) : trim text = text :=
  trim_eq_self (fun c hc => h c (List.mem_of_mem_head? hc))
    (fun c hc => h c (List.mem_of_mem_getLast? hc))

end Text

-- --------------------
-- Indices of a table
-- --------------------

def Table.definitions (table : Table) (id : Int) : List Entry :=
  table.entries.toList.filter (·.id = id)

namespace Table.Made

variable {P : Entry → Prop} {table : Table}

theorem getElem?_insertIfNew_self [Ord κ] [Std.TransOrd κ] (index : Std.TreeMap κ Entry) (key : κ)
    (entry : Entry) : (index.insertIfNew key entry)[key]? = (index[key]?).or (some entry) := by
  rw [Std.TreeMap.getElem?_insertIfNew]
  split
  · next hnew => rw [Std.TreeMap.getElem?_eq_none hnew.2, Option.none_or]
  · next hold =>
    simp only [Std.ReflCmp.compare_self, true_and, Decidable.not_not] at hold
    obtain ⟨found, hfound⟩ := Option.isSome_iff_exists.mp (Std.TreeMap.isSome_getElem?_iff_mem.mpr hold)
    rw [hfound, Option.some_or]

theorem getElem?_insertIfNew_ne [Ord κ] [Std.TransOrd κ] [Std.LawfulEqOrd κ]
    {index : Std.TreeMap κ Entry} {key other : κ} (h : key ≠ other) (entry : Entry) :
    (index.insertIfNew key entry)[other]? = index[other]? := by
  rw [Std.TreeMap.getElem?_insertIfNew, if_neg]
  exact fun hnew => h (Std.LawfulEqCmp.eq_of_compare hnew.1)

theorem getElem?_definitions (h : Made P table) (n : Int) :
    table.byId[n]? = (table.definitions n)[0]? ∧
      table.overflowById[n]? = (table.definitions n)[1]? := by
  induction h with
  | empty name => simp [Table.empty, definitions]
  | @add table entry h hentry ih =>
    obtain ⟨hbase, hoverflow⟩ := ih
    by_cases hid : entry.id = n
    · subst hid
      have hpush : (table.add entry).definitions entry.id = table.definitions entry.id ++ [entry] := by
        simp [definitions, Table.add]
      have hcontains : table.byId.contains entry.id = (table.definitions entry.id)[0]?.isSome := by
        rw [Std.TreeMap.contains_eq_isSome_getElem?, hbase]
      rw [hpush]
      simp only [Table.add, hcontains, getElem?_insertIfNew_self, hbase]
      cases hdefinitions : table.definitions entry.id with
      | nil => simpa [hdefinitions] using hoverflow
      | cons first others =>
        rw [hdefinitions] at hoverflow
        simp only [List.getElem?_cons_zero, Option.isSome_some, if_true, getElem?_insertIfNew_self,
          hoverflow]
        cases others <;> simp
    · have hpush : (table.add entry).definitions n = table.definitions n := by
        simp [definitions, Table.add, hid]
      rw [hpush]
      simp only [Table.add, getElem?_insertIfNew_ne hid]
      refine ⟨hbase, ?_⟩
      split
      · rw [getElem?_insertIfNew_ne hid, hoverflow]
      · exact hoverflow

theorem of_mem_definitions (h : entry ∈ table.definitions n) :
    entry ∈ table.entries.toList ∧ entry.id = n := by
  simpa [definitions] using h

theorem of_getElem?_byId {n : Int} (h : Made P table) (hid : table.byId[n]? = some entry) :
    entry ∈ table.entries.toList ∧ entry.id = n := by
  rw [(h.getElem?_definitions n).1] at hid
  exact of_mem_definitions (List.mem_of_getElem? hid)

theorem of_getElem?_byName {key : Text} (h : Made P table)
    (hname : table.byName[key]? = some entry) :
    entry ∈ table.entries.toList ∧ Text.upper entry.name = key := by
  induction h with
  | empty name => simp [Table.empty] at hname
  | add h hentry ih =>
    simp only [Table.add, Std.TreeMap.getElem?_insertIfNew] at hname
    simp only [Table.add, Array.toList_push, List.mem_append, List.mem_singleton]
    split at hname
    · next hnew =>
      obtain rfl := Option.some.inj hname
      exact ⟨.inr rfl, Std.LawfulEqCmp.eq_of_compare hnew.1⟩
    · obtain ⟨hmem, hkey⟩ := ih hname
      exact ⟨.inl hmem, hkey⟩

theorem of_getElem?_overflowById {n : Int} (h : Made P table)
    (hid : table.overflowById[n]? = some entry) :
    entry ∈ table.entries.toList ∧ entry.id = n := by
  rw [(h.getElem?_definitions n).2] at hid
  exact of_mem_definitions (List.mem_of_getElem? hid)

theorem isSome_insertIfNew [Ord κ] [Std.TransOrd κ] {index : Std.TreeMap κ Entry} {key added : κ}
    (h : added = key ∨ (index[key]?).isSome) (entry : Entry) :
    ((index.insertIfNew added entry)[key]?).isSome := by
  rcases h with rfl | h
  · simp
  · rw [Std.TreeMap.getElem?_insertIfNew]
    split
    · rfl
    · exact h

theorem isSome_of_mem (h : Made P table) (hmem : entry ∈ table.entries.toList) :
    (table.byName[Text.upper entry.name]?).isSome ∧ (table.byId[entry.id]?).isSome := by
  induction h with
  | empty name => simp [Table.empty] at hmem
  | add h hentry ih =>
    simp only [Table.add, Array.toList_push, List.mem_append, List.mem_singleton] at hmem
    rcases hmem with hmem | rfl
    · exact ⟨isSome_insertIfNew (.inr (ih hmem).1) _, isSome_insertIfNew (.inr (ih hmem).2) _⟩
    · exact ⟨isSome_insertIfNew (.inl rfl) _, isSome_insertIfNew (.inl rfl) _⟩

theorem of_mem (h : Made P table) (hmem : entry ∈ table.entries.toList) : P entry := by
  induction h with
  | empty name => simp [Table.empty] at hmem
  | add h hentry ih =>
    simp only [Table.add, Array.toList_push, List.mem_append, List.mem_singleton] at hmem
    rcases hmem with hmem | rfl
    · exact ih hmem
    · exact hentry

theorem of_wrapped_id {entries : List Entry} {index : Std.TreeMap Int Entry}
    (hindex : ∀ (n : Int) entry, index[n]? = some entry → entry ∈ entries ∧ entry.id = n)
    (h : wrapped index n = some entry) :
    entry ∈ entries ∧ (entry.id = n ∨ n < 0 ∧ entry.id = n + 4294967296) := by
  unfold wrapped at h
  split at h
  · next found hfound =>
    obtain rfl := Option.some.inj h
    exact (hindex n found hfound).imp_right .inl
  · split at h
    · next hneg => exact (hindex _ entry h).imp_right fun heq => .inr ⟨hneg, heq⟩
    · cases h

/-- The id of what is found for a number is that number, or the number unsigned. -/
theorem of_get?_id (h : Made P table) (hid : table.get? n = some entry) :
    entry ∈ table.entries.toList ∧ (entry.id = n ∨ n < 0 ∧ entry.id = n + 4294967296) :=
  of_wrapped_id (fun _ _ => h.of_getElem?_byId) hid

theorem of_getOverflow?_id (h : Made P table) (hid : table.getOverflow? n = some entry) :
    entry ∈ table.entries.toList ∧ (entry.id = n ∨ n < 0 ∧ entry.id = n + 4294967296) :=
  of_wrapped_id (fun _ _ => h.of_getElem?_overflowById) hid

/-- What is filed under an id is found by its signed number, if nothing else is. -/
theorem wrapped_signed {index : Std.TreeMap Int Entry} (h : index[n]? = some entry)
    (hhigh : n < 4294967296) (hsigned : toSigned32 n ≠ n → index[toSigned32 n]? = none) :
    wrapped index (toSigned32 n) = some entry := by
  unfold wrapped
  by_cases hsame : toSigned32 n = n
  · rw [hsame, h]
  · have hback : toSigned32 n = n - 4294967296 := by
      unfold toSigned32 at hsame ⊢
      split
      · rfl
      · next hsmall => exact absurd (if_neg hsmall) hsame
    rw [hsigned hsame]
    dsimp only
    rw [hback, if_pos (by omega), Int.sub_add_cancel, h]

theorem lookup?_name (h : Made P table) (hmem : entry ∈ table.entries.toList)
    (hname : ∀ other ∈ table.entries.toList, Text.upper other.name = Text.upper entry.name →
      other = entry) (htrim : Text.trim entry.name = entry.name) :
    table.lookup? entry.name = some entry := by
  obtain ⟨found, hfound⟩ := Option.isSome_iff_exists.mp (h.isSome_of_mem hmem).1
  obtain ⟨hmem, hupper⟩ := h.of_getElem?_byName hfound
  rw [Table.lookup?, htrim, hfound, hname found hmem hupper]

end Table.Made

-- --------------------
-- Nameable tables
-- --------------------

/-- The name of the entry can stand for its id: it is a text of its own between `marks`, and is
no number. -/
structure Entry.Nameable (marks : Text) (entry : Entry) : Prop where
  nonempty : entry.name ≠ []
  trimmed : Text.trim entry.name = entry.name
  marks : ∀ mark ∈ marks, mark ∉ entry.name
  literal : Text.literal? entry.name = none

instance : Decidable (Entry.Nameable marks entry) :=
  decidable_of_iff (entry.name ≠ [] ∧ Text.trim entry.name = entry.name ∧
      (∀ mark ∈ marks, mark ∉ entry.name) ∧ Text.literal? entry.name = none)
    ⟨fun ⟨nonempty, trimmed, marks, literal⟩ => ⟨nonempty, trimmed, marks, literal⟩,
    fun ⟨nonempty, trimmed, marks, literal⟩ => ⟨nonempty, trimmed, marks, literal⟩⟩

/-- All entries are symbols, and those of one name have one id. -/
structure Table.Nameable (marks : Text) (table : Table) : Prop where
  made : table.Made fun _ => True
  entries : ∀ entry ∈ table.entries.toList, entry.Nameable marks
  unique : ∀ entry ∈ table.entries.toList, ∀ other ∈ table.entries.toList,
    Text.upper entry.name = Text.upper other.name → entry.id = other.id

namespace Table.Nameable

variable {table : Table} {marks : Text}

theorem lookup?_of_mem (h : table.Nameable marks) (hmem : entry ∈ table.entries.toList) :
    ∃ found, table.lookup? entry.name = some found ∧ found.id = entry.id := by
  obtain ⟨found, hfound⟩ := Option.isSome_iff_exists.mp (h.made.isSome_of_mem hmem).1
  obtain ⟨hmem', hupper⟩ := h.made.of_getElem?_byName hfound
  refine ⟨found, ?_, h.unique found hmem' entry hmem hupper⟩
  rw [lookup?, (h.entries entry hmem).trimmed]
  exact hfound

/-- The symbol for a number is found by its name, and stands for the number. -/
theorem exists_lookup? (h : table.Nameable marks) (hn : IsWord n)
    (hid : table.get? n = some entry) :
    entry.Nameable marks ∧
      ∃ found, table.lookup? entry.name = some found ∧ toSigned32 found.id = n := by
  obtain ⟨hmem, hentry⟩ := h.made.of_get?_id hid
  obtain ⟨found, hfound, heq⟩ := h.lookup?_of_mem hmem
  refine ⟨h.entries entry hmem, found, hfound, ?_⟩
  unfold IsWord at hn
  unfold toSigned32
  rw [heq]
  split
  · omega
  · omega

theorem lookup?_mark (h : table.Nameable marks) (hmark : mark ∈ marks)
    (hcaseless : Text.isCaseless mark) (hblank : Text.isBlank mark = false) (hc : mark ∈ text) :
    table.lookup? text = none := by
  refine Option.eq_none_iff_forall_ne_some.mpr fun found hfound => ?_
  obtain ⟨hmem, hupper⟩ := h.made.of_getElem?_byName hfound
  refine (h.entries found hmem).marks mark hmark ((Text.mem_upper_iff hcaseless).mp ?_)
  rw [hupper]
  exact (Text.mem_upper_iff hcaseless).mpr (Text.mem_trim hc hblank)

theorem lookup?_numeral (h : table.Nameable marks) (hread : Text.readSigned? text = some n) :
    table.lookup? text = none := by
  refine Option.eq_none_iff_forall_ne_some.mpr fun found hfound => ?_
  obtain ⟨hmem, hupper⟩ := h.made.of_getElem?_byName hfound
  have hcaseless := Text.isCaseless_of_readSigned? hread
  rw [Text.trim_eq_self_of_forall (Text.isBlank_of_readSigned? hread),
    Text.upper_of_isCaseless hcaseless] at hupper
  have hname : found.name = text := by
    rw [← hupper]
    exact (Text.upper_eq_self (by rwa [hupper])).symm
  have hliteral := (h.entries found hmem).literal
  rw [hname, Text.literal?_of_readSigned? hread] at hliteral
  cases hliteral

end Table.Nameable

-- --------------------
-- Single entries
-- --------------------

/-- No other entry of the table has the name of this one, or its id, be it as it is or as a
signed number of 32 bits. -/
structure Table.Sole (table : Table) (entry : Entry) : Prop where
  mem : entry ∈ table.entries.toList
  high : entry.id < 4294967296
  name : ∀ other ∈ table.entries.toList, Text.upper other.name = Text.upper entry.name →
    other = entry
  id : ∀ other ∈ table.entries.toList, other.id = entry.id ∨ other.id = toSigned32 entry.id →
    other = entry

theorem Table.Sole.get? {P : Entry → Prop} {table : Table} {entry : Entry} (h : table.Sole entry)
    (hmade : table.Made P) : table.get? (toSigned32 entry.id) = some entry := by
  obtain ⟨found, hfound⟩ := Option.isSome_iff_exists.mp (hmade.isSome_of_mem h.mem).2
  obtain ⟨hmem, hid⟩ := hmade.of_getElem?_byId hfound
  obtain rfl := h.id found hmem (.inl hid)
  refine Made.wrapped_signed hfound h.high fun hne => Option.eq_none_iff_forall_ne_some.mpr ?_
  intro other hother
  obtain ⟨hmem, hid⟩ := hmade.of_getElem?_byId hother
  obtain rfl := h.id other hmem (.inr hid)
  exact hne hid.symm

/-- The entry stands for a number of 32 bits, signed or unsigned, and no other of its table
has its name or its number. -/
structure Table.Single (table : Table) (entry : Entry) : Prop where
  mem : entry ∈ table.entries.toList
  low : -2147483648 ≤ entry.id
  high : entry.id < 4294967296
  name : ∀ other ∈ table.entries.toList, Text.upper other.name = Text.upper entry.name →
    other = entry
  number : ∀ other ∈ table.entries.toList, toSigned32 other.id = toSigned32 entry.id →
    other = entry

namespace Table.Single

variable {P : Entry → Prop} {table : Table} {entry : Entry}

theorem isWord (h : table.Single entry) : IsWord (toSigned32 entry.id) := by
  have hlow := h.low
  have hhigh := h.high
  unfold IsWord toSigned32
  split
  · omega
  · omega

theorem eq_of_id (h : table.Single entry) (hmem : other ∈ table.entries.toList)
    (hid : other.id = toSigned32 entry.id ∨
      toSigned32 entry.id < 0 ∧ other.id = toSigned32 entry.id + 4294967296) : other = entry := by
  have hword := h.isWord
  refine h.number other hmem ?_
  unfold IsWord at hword
  generalize toSigned32 entry.id = n at *
  unfold toSigned32
  split
  · omega
  · omega

theorem sole (h : table.Single entry) : table.Sole entry where
  mem := h.mem
  high := h.high
  name := h.name
  id other hmem hid := by
    rcases hid with hid | hid
    · exact h.number other hmem (congrArg toSigned32 hid)
    · exact h.eq_of_id hmem (.inl hid)

/-- A second definition of the number could only be the entry once more. -/
theorem getOverflow? (h : table.Single entry) (hmade : table.Made P)
    (hfound : table.getOverflow? (toSigned32 entry.id) = some found) : found = entry := by
  obtain ⟨hmem, hid⟩ := hmade.of_getOverflow?_id hfound
  exact h.eq_of_id hmem hid

end Table.Single

end InfinityScript
