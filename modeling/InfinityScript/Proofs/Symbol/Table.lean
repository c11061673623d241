import InfinityScript.Proofs.Text.Cut
import InfinityScript.Proofs.Text.Lines
import InfinityScript.Symbol.Table
import InfinityScript.Symbol.Reading
import InfinityScript.Word

/-!
# Entries that tables give out

A table is made by adding entries, so that what holds of each entry added holds of
each entry found (`Table.Made`). The entries of a table that is read from a text
stand on one line of it. A function is found by its id as it is by its name
(`Symbols.Sound.isSome_byId?`).
-/

namespace InfinityScript

-- --------------------
-- Tables
-- --------------------

/-- The table has been made by adding entries of `P`. -/
inductive Table.Made (P : Entry → Prop) : Table → Prop
  | empty (name : Text) : Made P (.empty name)
  | add (h : Made P table) (hentry : P entry) : Made P (table.add entry)

namespace Table.Made

variable {P : Entry → Prop} {n : Int}

theorem of_byId (h : Made P table) (hid : table.byId[n]? = some entry) : P entry := by
  induction h with
  | empty name => simp [Table.empty] at hid
  | add h hentry ih =>
    simp only [Table.add, Std.TreeMap.getElem?_insertIfNew] at hid
    split at hid
    · exact Option.some.inj hid ▸ hentry
    · exact ih hid

theorem of_overflowById (h : Made P table) (hid : table.overflowById[n]? = some entry) :
    P entry := by
  induction h with
  | empty name => simp [Table.empty] at hid
  | add h hentry ih =>
    simp only [Table.add] at hid
    split at hid
    · rw [Std.TreeMap.getElem?_insertIfNew] at hid
      split at hid
      · exact Option.some.inj hid ▸ hentry
      · exact ih hid
    · exact ih hid

theorem of_wrapped {index : Std.TreeMap Int Entry}
    (hindex : ∀ (n : Int) entry, index[n]? = some entry → P entry)
    (hid : Table.wrapped index n = some entry) : P entry := by
  unfold Table.wrapped at hid
  split at hid
  · next found h => exact Option.some.inj hid ▸ hindex _ _ h
  · split at hid
    · exact hindex _ _ hid
    · cases hid

theorem of_get? (h : Made P table) (hid : table.get? n = some entry) : P entry :=
  of_wrapped (fun _ _ => h.of_byId) hid

theorem of_getOverflow? (h : Made P table) (hid : table.getOverflow? n = some entry) : P entry :=
  of_wrapped (fun _ _ => h.of_overflowById) hid

theorem mono {Q : Entry → Prop} (h : Made P table) (hPQ : ∀ entry, P entry → Q entry) :
    Made Q table := by
  induction h with
  | empty name => exact .empty name
  | add h hentry ih => exact .add ih (hPQ _ hentry)

end Table.Made

-- --------------------
-- Symbols
-- --------------------

def Symbols.Made (P : Entry → Prop) (symbols : Symbols) : Prop :=
  ∀ name table, symbols.table? name = some table → table.Made P

theorem mem_of_getElem?_insertMany {index : Std.TreeMap Text Table}
    {pairs : List (Text × Table)} (h : (index.insertMany pairs)[key]? = some table) :
    (key, table) ∈ pairs ∨ index[key]? = some table := by
  induction pairs generalizing index with
  | nil => exact .inr (by simpa using h)
  | cons pair pairs ih =>
    rw [Std.TreeMap.insertMany_cons] at h
    rcases ih h with hmem | hindex
    · exact .inl (by simp [hmem])
    · rw [Std.TreeMap.getElem?_insert] at hindex
      split at hindex
      · next hkey =>
        obtain rfl := Std.LawfulEqCmp.eq_of_compare hkey
        exact .inl (by simp [← Option.some.inj hindex])
      · exact .inr hindex

theorem Symbols.mem_of_table?_build {tables : List Table} {resources : List Text}
    {strings : List (Int × Text)} {descriptions : List (Text × Text)}
    {scriptNames : Option ScriptNames}
    (h : (Symbols.build tables resources strings descriptions scriptNames).table? name =
      some table) : table ∈ tables := by
  have hfound : (Std.TreeMap.ofList (tables.map fun table => (table.name, table)))[tableName name]? =
      some table := h
  rw [Std.TreeMap.ofList_eq_insertMany_empty] at hfound
  rcases mem_of_getElem?_insertMany hfound with hmem | hnone
  · obtain ⟨found, hmem, hfound⟩ := List.mem_map.mp hmem
    rwa [← (Prod.mk.inj hfound).2]
  · simp at hnone

namespace Symbols.Made

variable {P : Entry → Prop}

theorem byId? (h : Made P symbols) (hid : symbols.byId? name n = some entry) : P entry := by
  obtain ⟨table, htable, hentry⟩ := Option.bind_eq_some_iff.mp hid
  exact (h _ _ htable).of_get? hentry

theorem overflowById? (h : Made P symbols) (hid : symbols.overflowById? name n = some entry) :
    P entry := by
  obtain ⟨table, htable, hentry⟩ := Option.bind_eq_some_iff.mp hid
  exact (h _ _ htable).of_getOverflow? hentry

end Symbols.Made

-- --------------------
-- Tables that are read
-- --------------------

/-- The entry can stand on one line: it holds no line feed, and its name no parenthesis. -/
structure Entry.IsRead (entry : Entry) : Prop where
  name : '\n' ∉ entry.name
  parameters : ∀ parameters ∈ entry.parameters, '\n' ∉ parameters
  parenthesis : '(' ∉ entry.name

theorem Entry.unsigned?_suffix (h : readId?.unsigned? line = some (n, rest)) : rest <:+ line := by
  unfold readId?.unsigned? at h
  split at h
  · obtain ⟨_, -, h⟩ := Option.map_eq_some_iff.mp h
    obtain ⟨-, rfl⟩ := Prod.mk.inj h
    exact (List.dropWhile_suffix _).trans (List.suffix_append ['0', 'x'] _)
  · obtain ⟨_, -, h⟩ := Option.map_eq_some_iff.mp h
    obtain ⟨-, rfl⟩ := Prod.mk.inj h
    exact List.dropWhile_suffix _

theorem Entry.readId?_suffix (h : readId? line = some (n, rest)) : rest <:+ line := by
  unfold readId? at h
  split at h
  · obtain ⟨⟨_, _⟩, hdigits, h⟩ := Option.map_eq_some_iff.mp h
    obtain ⟨-, rfl⟩ := Prod.mk.inj h
    exact (unsigned?_suffix hdigits).trans (List.suffix_cons _ _)
  · obtain ⟨⟨_, _⟩, hdigits, h⟩ := Option.map_eq_some_iff.mp h
    obtain ⟨-, rfl⟩ := Prod.mk.inj h
    exact unsigned?_suffix hdigits

theorem Entry.read?_ok (h : read? line = some entry) :
    entry.name ⊆ line ∧ (∀ parameters ∈ entry.parameters, parameters ⊆ line) ∧ '(' ∉ entry.name := by
  obtain ⟨⟨n, rest⟩, hid, h⟩ := Option.bind_eq_some_iff.mp h
  obtain ⟨-, -, h⟩ := Option.bind_eq_some_iff.mp h
  have hcall : Text.trimLeft rest ⊆ line := fun _ hc =>
    (readId?_suffix hid).subset ((List.dropWhile_suffix _).subset hc)
  dsimp only at h
  split at h
  · next hcut =>
    obtain ⟨-, -, h⟩ := Option.bind_eq_some_iff.mp h
    obtain rfl := Option.some.inj h
    exact ⟨hcall, by simp, Text.cut?_eq_none_iff.mp hcut⟩
  · next before after hcut =>
    obtain ⟨hparenthesis, hsplit⟩ := Text.cut?_eq_some hcut
    rw [hsplit] at hcall
    obtain ⟨-, -, h⟩ := Option.bind_eq_some_iff.mp h
    obtain rfl := Option.some.inj h
    have hname : Text.trimRight before ⊆ before := (Text.trimRight_sublist before).subset
    refine ⟨fun c hc => hcall (by simp [hname hc]), fun parameters hparameters c hc => hcall ?_,
      fun hmem => hparenthesis (hname hmem)⟩
    obtain rfl := Option.some.inj hparameters
    simp [List.dropLast_subset after hc]

theorem Entry.isRead_read? (hline : '\n' ∉ line) (h : read? line = some entry) :
    entry.IsRead := by
  obtain ⟨hname, hparameters, hparenthesis⟩ := read?_ok h
  exact ⟨fun hmem => hline (hname hmem),
    fun parameters hsome hmem => hline (hparameters parameters hsome hmem), hparenthesis⟩

theorem Text.statement_of_isInfix (hwithin : text <:+: Text.statement line)
    (hfirst : ∀ c ∈ text.head?, Text.isBlank c = false) (hlast : Text.EndsVisibly text) :
    Text.statement text = text := by
  obtain ⟨first, last, htrim, -, -⟩ := Text.exists_trim (Text.beforeComment line)
  have hstatement : Text.statement line <:+: Text.beforeComment line := ⟨first, last, htrim.symm⟩
  have hcomment : ¬ (['/', '/'] <:+: text) := fun hslashes =>
    Text.not_infix_beforeComment line (hslashes.trans (hwithin.trans hstatement))
  obtain ⟨c, hlast, hvisible⟩ := hlast
  rw [Text.statement, Text.beforeComment_eq_self_of_not_infix hcomment]
  refine Text.trim_eq_self hfirst fun d hd => ?_
  rw [hlast] at hd
  exact Option.some.inj hd ▸ hvisible

/-- The name of an entry says nothing but itself: it stands before the comment of its line,
without blanks at its ends. -/
theorem Entry.statement_name (h : read? (Text.statement line) = some entry) :
    entry.name ≠ [] ∧ Text.statement entry.name = entry.name := by
  obtain ⟨⟨n, rest⟩, hid, h⟩ := Option.bind_eq_some_iff.mp h
  obtain ⟨-, -, h⟩ := Option.bind_eq_some_iff.mp h
  have hrest : Text.trimLeft rest <:+ Text.statement line :=
    (List.dropWhile_suffix _).trans (readId?_suffix hid)
  dsimp only at h
  split at h
  · obtain ⟨_, hguard, h⟩ := Option.bind_eq_some_iff.mp h
    obtain rfl := Option.some.inj h
    have hne : Text.trimLeft rest ≠ [] := by
      unfold guard at hguard
      split at hguard
      · assumption
      · cases hguard
    refine ⟨hne, Text.statement_of_isInfix hrest.isInfix (Text.isBlank_head_trimLeft rest) ?_⟩
    -- The name goes on to the end of the line, which is no blank.
    have hvisible : Text.EndsVisibly (Text.statement line) := by
      refine Text.endsVisibly_trimRight fun hnil => hne ?_
      have hline : Text.statement line = [] := hnil
      exact List.suffix_nil.mp (hline ▸ hrest)
    obtain ⟨before, hbefore⟩ := hrest
    obtain ⟨c, hlast, hc⟩ := hvisible
    refine ⟨c, ?_, hc⟩
    rw [← hbefore, List.getLast?_append, List.getLast?_eq_some_getLast hne] at hlast
    exact (List.getLast?_eq_some_getLast hne).trans hlast
  · next before after hcut =>
    obtain ⟨_, hguard, h⟩ := Option.bind_eq_some_iff.mp h
    obtain rfl := Option.some.inj h
    have hne : Text.trimRight before ≠ [] := by
      unfold guard at hguard
      split at hguard
      · next hname => exact hname.1
      · cases hguard
    have hcall : Text.trimRight before <+: Text.trimLeft rest :=
      (Text.trimRight_isPrefix before).trans ⟨_, (Text.cut?_eq_some hcut).2.symm⟩
    refine ⟨hne, Text.statement_of_isInfix (hcall.isInfix.trans hrest.isInfix) (fun c hc => ?_)
      (Text.endsVisibly_trimRight hne)⟩
    obtain ⟨more, hmore⟩ := hcall
    refine Text.isBlank_head_trimLeft rest c ?_
    rw [← hmore, List.head?_append, hc]
    rfl

section

variable {P : Entry → Prop}

theorem Table.made_readLine (h : Made P table)
    (hline : ∀ entry, Entry.read? (Text.statement line) = some entry → P entry) (number : Nat) :
    (table.readLine number line).value.Made P := by
  unfold readLine
  dsimp only
  split
  · exact h
  · split
    · next entry hentry => exact h.add (hline entry hentry)
    · exact h

theorem Table.made_foldl_readLine {lines : List (Text × Nat)}
    (hlines : ∀ numbered ∈ lines, ∀ entry, Entry.read? (Text.statement numbered.1) = some entry → P entry)
    (h : Made P table) :
    (lines.foldl (fun table (line, number) => (table.readLine number line).value) table).Made P := by
  induction lines generalizing table with
  | nil => exact h
  | cons numbered lines ih =>
    exact ih (fun n hn => hlines n (by simp [hn])) (made_readLine h (hlines numbered (by simp)) _)

/-- The entries of a table that is read stand on its lines. -/
theorem Table.made_read_of (name : Text) (h : ∀ line ∈ Text.displayLines text, ∀ entry,
    Entry.read? (Text.statement line) = some entry → P entry) :
    (Table.read name text).value.Made P := by
  rw [Table.read, readLines, Noted.value_foldlM]
  exact made_foldl_readLine (fun numbered hmem => h numbered.1 (List.fst_mem_of_mem_zipIdx hmem))
    (.empty name)

theorem Symbols.made_build {tables : List Table} (h : ∀ table ∈ tables, table.Made P)
    (resources : List Text) (strings : List (Int × Text)) (descriptions : List (Text × Text))
    (scriptNames : Option ScriptNames) :
    (Symbols.build tables resources strings descriptions scriptNames).Made P :=
  fun _ table htable => h table (mem_of_table?_build htable)

end

theorem Table.made_read (name text : Text) : (Table.read name text).value.Made Entry.IsRead :=
  made_read_of name fun line hline _ => Entry.isRead_read? fun hmem =>
    Text.newline_notMem_displayLines text line hline (Text.statement_subset line hmem)

def Symbols.IsRead (symbols : Symbols) : Prop :=
  ∃ tables resources strings descriptions scriptNames,
    symbols = .build tables resources strings descriptions scriptNames ∧
      ∀ table ∈ tables, ∃ name text, table = (Table.read name text).value

theorem Symbols.IsRead.made (h : IsRead symbols) : symbols.Made Entry.IsRead := by
  obtain ⟨tables, _, _, _, _, rfl, htables⟩ := h
  refine made_build (fun table hmem => ?_) _ _ _ _
  obtain ⟨name, text, rfl⟩ := htables table hmem
  exact Table.made_read name text

theorem Symbols.IsRead.made_statement (h : IsRead symbols) :
    symbols.Made fun entry => entry.name ≠ [] ∧ Text.statement entry.name = entry.name := by
  obtain ⟨tables, _, _, _, _, rfl, htables⟩ := h
  refine made_build (fun table hmem => ?_) _ _ _ _
  obtain ⟨name, text, rfl⟩ := htables table hmem
  exact Table.made_read_of name fun line _ entry => Entry.statement_name

-- --------------------
-- Sound symbols
-- --------------------

/-- The parameters of the entry can be read, its name is no long numeral, and if it is a
function its id fits into a word. -/
structure Entry.Sound (entry : Entry) : Prop where
  signature : entry.signature.isOk
  few : Text.FewDigits entry.name
  word : entry.isFunction → entry.id < 4294967296

instance : Decidable (Entry.Sound entry) :=
  decidable_of_iff (_ ∧ _ ∧ _) ⟨fun ⟨signature, few, word⟩ => ⟨signature, few, word⟩,
    fun ⟨signature, few, word⟩ => ⟨signature, few, word⟩⟩

def Symbols.Sound (symbols : Symbols) : Prop :=
  ∀ table ∈ symbols.tables.toList, ∀ entry ∈ table.2.entries.toList, entry.Sound

instance : Decidable (Symbols.Sound symbols) :=
  inferInstanceAs (Decidable (∀ table ∈ symbols.tables.toList, _))

theorem Table.Made.and {P Q : Entry → Prop} (h : Made P table)
    (hentries : ∀ entry ∈ table.entries.toList, Q entry) :
    table.Made fun entry => P entry ∧ Q entry := by
  induction h with
  | empty name => exact .empty name
  | add h hentry ih =>
    simp only [Table.add, Array.toList_push, List.mem_append, List.mem_singleton] at hentries
    exact .add (ih fun entry hmem => hentries entry (.inl hmem)) ⟨hentry, hentries _ (.inr rfl)⟩

theorem Table.Made.of_byName {P : Entry → Prop} {key : Text} (h : Made P table)
    (hname : table.byName[key]? = some entry) : P entry ∧ (table.byId[entry.id]?).isSome := by
  induction h with
  | empty name => simp [Table.empty] at hname
  | @add table added h hentry ih =>
    simp only [Table.add, Std.TreeMap.getElem?_insertIfNew] at hname ⊢
    split at hname
    · obtain rfl := Option.some.inj hname
      refine ⟨hentry, ?_⟩
      split
      · rfl
      · next hnew =>
        simp only [Std.ReflCmp.compare_self, true_and, Decidable.not_not] at hnew
        exact Std.TreeMap.isSome_getElem?_iff_mem.mpr hnew
    · obtain ⟨hfound, hid⟩ := ih hname
      refine ⟨hfound, ?_⟩
      split
      · rfl
      · exact hid

theorem Symbols.Made.byName? {P : Entry → Prop} {symbols : Symbols} (h : symbols.Made P)
    (hname : symbols.byName? table name = some entry) : P entry := by
  obtain ⟨found, htable, hlookup⟩ := Option.bind_eq_some_iff.mp hname
  exact ((h _ _ htable).of_byName hlookup).1

theorem Table.isSome_get? {table : Table} {n : Int} (h : (table.byId[n]?).isSome)
    (hn : n < 4294967296) :
    (table.get? (toSigned32 n)).isSome := by
  obtain ⟨entry, hentry⟩ := Option.isSome_iff_exists.mp h
  unfold toSigned32
  split
  · next hlarge =>
    unfold get? wrapped
    split
    · rfl
    · have hback : n - 4294967296 + 4294967296 = n := by omega
      rw [if_pos (by omega), hback, hentry]
      rfl
  · rw [get?, wrapped, hentry]
    rfl

namespace Symbols.Sound

variable {symbols : Symbols} {P : Entry → Prop}

theorem made (hsound : symbols.Sound) (hmade : symbols.Made P) :
    symbols.Made fun entry => P entry ∧ entry.Sound := fun name table h =>
  (hmade name table h).and fun entry hentry =>
    hsound (tableName name, table) (Std.TreeMap.mem_toList_iff_getElem?_eq_some.mpr h) entry hentry

theorem isSome_byId? (hsound : symbols.Sound) (hmade : symbols.Made P)
    (h : symbols.byName? table name = some entry) (hfunction : entry.isFunction) :
    (symbols.byId? table (toSigned32 entry.id)).isSome := by
  obtain ⟨found, htable, hlookup⟩ := Option.bind_eq_some_iff.mp h
  obtain ⟨⟨-, hentry⟩, hid⟩ := (hsound.made hmade _ _ htable).of_byName hlookup
  rw [Symbols.byId?, htable]
  exact Table.isSome_get? hid (hentry.word hfunction)

end Symbols.Sound

end InfinityScript
