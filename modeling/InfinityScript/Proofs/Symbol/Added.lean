import InfinityScript.Proofs.Symbol.Written

/-!
# What is found among added entries

A table answers from its indices, which adding an entry changes by rules of their own. After
any history of additions the answers are those of the list of added entries: the first entry
of an id, its second for the overflow, and the first entry of a name (`foldl_add_finds`).
-/

namespace InfinityScript.Table

/-- A negative id under which nothing is filed is looked up unsigned. -/
theorem wrapped_eq_or (index : Std.TreeMap Int Entry) (id : Int) :
    wrapped index id = (index[id]?).or (if id < 0 then index[id + 4294967296]? else none) := by
  unfold wrapped
  cases index[id]? with
  | some entry => rfl
  | none => rfl

namespace Made

variable {P : Entry → Prop} {table : Table} {entry : Entry}

theorem getElem?_byName (h : Made P table) (key : Text) :
    table.byName[key]? = table.entries.toList.find? fun entry => Text.upper entry.name = key := by
  induction h with
  | empty name => simp [Table.empty]
  | @add table entry h hentry ih =>
    simp only [Table.add, Array.toList_push, List.find?_append, ← ih]
    by_cases hkey : Text.upper entry.name = key
    · subst hkey
      rw [getElem?_insertIfNew_self, List.find?_cons_of_pos (by simp)]
    · simp [getElem?_insertIfNew_ne hkey, hkey]

theorem exists_get?_signed (h : Made P table) (hmem : entry ∈ table.entries.toList)
    (hlow : -2147483648 ≤ entry.id) (hhigh : entry.id < 4294967296) :
    ∃ found ∈ table.entries.toList, table.get? (toSigned32 entry.id) = some found ∧
      toSigned32 found.id = toSigned32 entry.id := by
  obtain ⟨found, hfound⟩ :=
    Option.isSome_iff_exists.mp (isSome_get? (h.isSome_of_mem hmem).2 hhigh)
  obtain ⟨hmem, hid⟩ := h.of_get?_id hfound
  refine ⟨found, hmem, hfound, ?_⟩
  have hword : IsWord (toSigned32 entry.id) := by
    unfold IsWord toSigned32
    split <;> omega
  rcases hid with hid | ⟨hneg, hid⟩
  · rw [hid, Text.toSigned32_of_isWord hword]
  · have hlarge : found.id ≥ 2147483648 := by
      rw [hid]
      exact Int.le_add_of_sub_right_le hword.1
    rw [toSigned32, if_pos hlarge, hid, Int.add_sub_cancel]

end Made

theorem made_foldl_add {P : Entry → Prop} {table : Table} {added : List Entry} (h : Made P table)
    (hadded : ∀ entry ∈ added, P entry) : Made P (added.foldl add table) := by
  induction added generalizing table with
  | nil => exact h
  | cons entry added ih =>
    obtain ⟨hentry, hadded⟩ := List.forall_mem_cons.mp hadded
    exact ih (h.add hentry) hadded

/-- A table finds among the entries that were added, in whatever order and however often: by
an id its first entry and for the overflow its second, where a negative id that has none is
taken unsigned, and by a name the first entry that bears it in any case. The entries are kept
in order, and each is found by its signed id or gives way to one with the same. -/
theorem foldl_add_finds (name : Text) (added : List Entry) :
    let table := added.foldl add (Table.empty name)
    let withId (id : Int) := added.filter (·.id = id)
    (∀ id, table.get? id =
      (withId id)[0]?.or (if id < 0 then (withId (id + 4294967296))[0]? else none)) ∧
    (∀ id, table.getOverflow? id =
      (withId id)[1]?.or (if id < 0 then (withId (id + 4294967296))[1]? else none)) ∧
    (∀ text, table.lookup? text =
      added.find? fun entry => Text.upper entry.name = Text.upper (Text.trim text)) ∧
    table.entries.toList = added ∧
    ∀ entry ∈ added, -2147483648 ≤ entry.id → entry.id < 4294967296 →
      ∃ found ∈ added, table.get? (toSigned32 entry.id) = some found ∧
        toSigned32 found.id = toSigned32 entry.id := by
  intro table withId
  have hmade : table.Made fun _ => True := made_foldl_add (.empty name) fun _ _ => trivial
  have hentries : table.entries.toList = added := entries_foldl_add added (.empty name)
  have hdefinitions (id : Int) : table.definitions id = withId id := by
    rw [definitions, hentries]
  refine ⟨?_, ?_, ?_, hentries, ?_⟩
  · intro id
    simp only [get?, wrapped_eq_or, hmade.getElem?_definitions, hdefinitions]
  · intro id
    simp only [getOverflow?, wrapped_eq_or, hmade.getElem?_definitions, hdefinitions]
  · intro text
    rw [lookup?, hmade.getElem?_byName, hentries]
  · intro entry hmem hlow hhigh
    have hfound := hmade.exists_get?_signed (hentries ▸ hmem) hlow hhigh
    rwa [hentries] at hfound

/-- An id that is written unsigned and then signed, the latter three times, under names that
differ in case only. -/
theorem foldl_add_finds_repeated :
    let added : List Entry :=
      [⟨4294967295, "All", none⟩, ⟨-1, "ALL", some []⟩, ⟨-1, "Any", none⟩, ⟨-1, "all", none⟩]
    let table := added.foldl add (Table.empty "flags")
    table.get? (-1) = some ⟨-1, "ALL", some []⟩ ∧ table.getOverflow? (-1) = some ⟨-1, "Any", none⟩ ∧
      table.lookup? " aLL\t" = some ⟨4294967295, "All", none⟩ ∧
      ∃ found ∈ added, table.get? (toSigned32 4294967295) = some found ∧
        toSigned32 found.id = -1 := by
  intro added table
  obtain ⟨hfirst, hsecond, hname, -, hsigned⟩ := foldl_add_finds "flags" added
  refine ⟨(hfirst (-1)).trans (by decide), (hsecond (-1)).trans (by decide),
    (hname " aLL\t").trans (by decide +kernel), ?_⟩
  exact hsigned ⟨4294967295, "All", none⟩ (by simp [added]) (by decide) (by decide)

end InfinityScript.Table
