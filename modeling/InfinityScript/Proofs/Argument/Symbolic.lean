import InfinityScript.Argument.Encode
import InfinityScript.Proofs.Outcome

/-!
# Symbols of an argument

An integer argument that is no literal is looked up in one table, by what stands in it: a symbol,
or symbols with bars between them (`Argument.symbolic_ok_iff`).
-/

namespace InfinityScript.Argument

/-- The table in which the symbols of an argument are looked up. -/
def encodingTable? (symbols : Symbols) (definition : Text) : Option Table :=
  (integerTable? definition).bind symbols.table?

/-- What names add up to when each is looked up in a table; blank ones count for nothing. -/
inductive Adds (table? : Option Table) : List Text → Int → Prop
  | nil : Adds table? [] 0
  | blank (hblank : Text.trim name = []) (hrest : Adds table? names total) :
      Adds table? (name :: names) total
  | symbol {entry : Entry} (hname : Text.trim name ≠ [])
      (hfound : table?.bind (·.lookup? (Text.trim name)) = some entry)
      (hrest : Adds table? names total) : Adds table? (name :: names) (entry.id + total)

/-- What a value stands for when it is looked up in a table: the id of a symbol, or what symbols
with bars between them add up to. -/
inductive Denotes (table? : Option Table) (value : Text) : Int → Prop
  | symbol {entry : Entry} (hfound : table?.bind (·.lookup? value) = some entry) :
      Denotes table? value (toSigned32 entry.id)
  | sum (hnone : table?.bind (·.lookup? value) = none) (hbar : '|' ∈ value)
      (hadds : Adds table? (Text.splitOn '|' value) total) :
      Denotes table? value (toSigned32 total)

theorem sumOfSymbols_ok_iff (symbols : Symbols) (listed : Text) (names : List Text) :
    sumOfSymbols symbols listed names = .ok total ↔ Adds (symbols.table? listed) names total := by
  induction names generalizing total with
  | nil =>
    constructor
    · rintro ⟨⟩
      exact .nil
    · rintro ⟨⟩
      rfl
  | cons name names ih =>
    -- The names after the first add to the number that it counts for.
    have hrest : ∀ here : Int, (do return here + (← sumOfSymbols symbols listed names)) = .ok total ↔
        ∃ rest, Adds (symbols.table? listed) names rest ∧ here + rest = total := by
      intro here
      simp only [Outcome.bind_ok, Outcome.pure_ok, ih]
    rw [sumOfSymbols]
    constructor
    · intro h
      split at h
      · next hblank =>
        obtain ⟨rest, hadds, rfl⟩ := (hrest 0).mp h
        rw [Int.zero_add]
        exact .blank hblank hadds
      · next hname =>
        split at h
        · next entry hfound =>
          obtain ⟨rest, hadds, rfl⟩ := (hrest entry.id).mp h
          exact .symbol hname hfound hadds
        · cases h
    · intro h
      cases h with
      | blank hblank hadds =>
        rw [if_pos hblank]
        exact (hrest 0).mpr ⟨total, hadds, Int.zero_add total⟩
      | @symbol _ _ rest entry hname hfound hadds =>
        rw [if_neg hname, Symbols.byName?, hfound]
        exact (hrest entry.id).mpr ⟨rest, hadds, rfl⟩

theorem symbolic_ok_iff (symbols : Symbols) (definition value : Text) :
    symbolic symbols definition value = .ok n ↔
      (integerTable? definition).isSome ∧ Denotes (encodingTable? symbols definition) value n := by
  unfold symbolic encodingTable?
  cases integerTable? definition with
  | none => simp
  | some listed =>
    rw [Option.bind_some, Option.isSome_some]
    dsimp only [Symbols.byName?]
    cases hfound : (symbols.table? listed).bind (·.lookup? value) with
    | some entry =>
      constructor
      · intro h
        obtain rfl : toSigned32 entry.id = n := Except.ok.inj h
        exact ⟨rfl, .symbol hfound⟩
      · rintro ⟨-, h⟩
        cases h with
        | symbol hsome => rw [Option.some.inj (hfound.symm.trans hsome)]
        | sum hnone => simp [hfound] at hnone
    | none =>
      constructor
      · intro h
        dsimp only at h
        split at h
        · next hbar =>
          obtain ⟨total, hsum, rfl⟩ := Outcome.map_ok.mp h
          exact ⟨rfl, .sum hfound hbar ((sumOfSymbols_ok_iff symbols listed _).mp hsum)⟩
        · cases h
      · rintro ⟨-, h⟩
        cases h with
        | symbol hsome => simp [hfound] at hsome
        | sum _ hbar hadds =>
          dsimp only
          rw [if_pos hbar, (sumOfSymbols_ok_iff symbols listed _).mpr hadds]
          rfl

end InfinityScript.Argument
