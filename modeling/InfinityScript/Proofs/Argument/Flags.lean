import Mathlib.Algebra.Group.Int.Defs
import Mathlib.Algebra.Group.Nat.Defs
import InfinityScript.Proofs.Argument.Integer

/-!
# Flags and the bits they name

Taking the named bits out of a word leaves all its other bits. What one bit does is said by
`split_cons_cases`; from it follow which names are given, what they add up to and which bits
are left, and together these say that a word is parted into its named bits and its other bits
(`decompose_partition`).
-/

namespace InfinityScript.Flags

variable {lookup : Int → Option Text} {bits : List Nat} {word bit : Nat}

/-- A signed or unsigned number as the word that it stands for. -/
def toWord (value : Int) : Nat := (if value < 0 then value + 4294967296 else value).toNat

def named (lookup : Int → Option Text) (bits : List Nat) (word : Nat) : List Nat :=
  bits.filter fun bit => word.testBit bit && (lookup (2 ^ bit)).isSome

theorem cast_shiftLeft (bit : Nat) : ((1 <<< bit : Nat) : Int) = 2 ^ bit := by
  simp [Nat.one_shiftLeft]

theorem testBit_xor_shiftLeft (word bit other : Nat) :
    (word ^^^ 1 <<< bit).testBit other = (word.testBit other ^^ decide (bit = other)) := by
  simp [Nat.testBit_xor, Nat.one_shiftLeft, Nat.testBit_two_pow]

theorem named_xor (h : bit ∉ bits) (lookup : Int → Option Text) (word : Nat) :
    named lookup bits (word ^^^ 1 <<< bit) = named lookup bits word := by
  refine List.filter_congr fun other hother => ?_
  have hne : bit ≠ other := by
    rintro rfl
    exact h hother
  rw [testBit_xor_shiftLeft, decide_eq_false hne, Bool.xor_false]

theorem split_zero (lookup : Int → Option Text) (bits : List Nat) : split lookup bits 0 = ([], 0) := by
  cases bits <;> rfl

theorem split_cons_unset (h : ¬ word.testBit bit) (lookup : Int → Option Text) (bits : List Nat) :
    split lookup (bit :: bits) word = split lookup bits word := by
  by_cases hzero : word = 0
  · rw [hzero, split_zero, split_zero]
  · rw [split, if_neg hzero, if_neg h]

/-- A bit that is set and has a name is taken out and named; any other stays. -/
theorem split_cons_cases (h : bit ∉ bits) (lookup : Int → Option Text) (word : Nat) :
    (∃ name, word.testBit bit ∧ lookup (2 ^ bit) = some name ∧
      named lookup (bit :: bits) word = bit :: named lookup bits (word ^^^ 1 <<< bit) ∧
      (split lookup (bit :: bits) word).1 = name :: (split lookup bits (word ^^^ 1 <<< bit)).1 ∧
      (split lookup (bit :: bits) word).2 = (split lookup bits (word ^^^ 1 <<< bit)).2) ∨
    named lookup (bit :: bits) word = named lookup bits word ∧
      split lookup (bit :: bits) word = split lookup bits word := by
  by_cases hset : word.testBit bit
  · have hword : word ≠ 0 := by
      rintro rfl
      simp at hset
    cases hname : lookup ((1 <<< bit : Nat) : Int) with
    | some name =>
      have hpower : lookup (2 ^ bit) = some name := by rw [← cast_shiftLeft, hname]
      refine .inl ⟨name, hset, hpower, ?_, ?_, ?_⟩
      · rw [named_xor h]
        simp [named, hset, hpower]
      · simp only [split, hword, hset, hname, if_true, if_false]
      · simp only [split, hword, hset, hname, if_true, if_false]
    | none =>
      have hpower : lookup (2 ^ bit) = none := by rw [← cast_shiftLeft, hname]
      refine .inr ⟨?_, ?_⟩
      · simp [named, hpower]
      · simp only [split, hword, hset, hname, if_true, if_false]
  · refine .inr ⟨?_, split_cons_unset hset lookup bits⟩
    simp [named, hset]

theorem names_split (hbits : bits.Nodup) (lookup : Int → Option Text) (word : Nat) :
    (split lookup bits word).1.map some =
      (named lookup bits word).map fun bit => lookup (2 ^ bit) := by
  induction bits generalizing word with
  | nil => rfl
  | cons bit bits ih =>
    obtain ⟨hbit, hbits⟩ := List.nodup_cons.mp hbits
    rcases split_cons_cases hbit lookup word with
      ⟨name, -, hname, hnamed, hnames, -⟩ | ⟨hnamed, hsplit⟩
    · rw [hnamed, hnames, List.map_cons, List.map_cons, hname, ih hbits]
    · rw [hnamed, hsplit, ih hbits]

theorem sum_split (hbits : bits.Nodup) (lookup : Int → Option Text) (word : Nat) :
    (split lookup bits word).2 + ((named lookup bits word).map (2 ^ ·)).sum = word := by
  induction bits generalizing word with
  | nil => rfl
  | cons bit bits ih =>
    obtain ⟨hbit, hbits⟩ := List.nodup_cons.mp hbits
    rcases split_cons_cases hbit lookup word with
      ⟨name, hset, -, hnamed, -, hrest⟩ | ⟨hnamed, hsplit⟩
    · have hword := xor_add_of_testBit hset
      have hsum := ih hbits (word ^^^ 1 <<< bit)
      rw [Nat.one_shiftLeft] at hword hsum
      rw [hnamed, hrest, List.map_cons, List.sum_cons, Nat.one_shiftLeft]
      omega
    · rw [hnamed, hsplit, ih hbits]

theorem testBit_split (hbits : bits.Nodup) (lookup : Int → Option Text) (word other : Nat) :
    (split lookup bits word).2.testBit other ↔
      word.testBit other ∧ other ∉ named lookup bits word := by
  induction bits generalizing word with
  | nil => simp [split, named]
  | cons bit bits ih =>
    obtain ⟨hbit, hbits⟩ := List.nodup_cons.mp hbits
    rcases split_cons_cases hbit lookup word with
      ⟨name, hset, -, hnamed, -, hrest⟩ | ⟨hnamed, hsplit⟩
    · rw [hnamed, hrest, ih hbits, testBit_xor_shiftLeft, List.mem_cons, not_or]
      by_cases heq : bit = other
      · subst heq
        simp [hset]
      · simp [heq, Ne.symm heq]
    · rw [hnamed, hsplit, ih hbits]

/-- Nothing is left exactly when every bit that is set is taken out. -/
theorem split_eq_zero_iff (hbits : bits.Nodup) (lookup : Int → Option Text) (word : Nat) :
    (split lookup bits word).2 = 0 ↔ ∀ bit, word.testBit bit → bit ∈ named lookup bits word := by
  have hleft := testBit_split hbits lookup word
  constructor
  · intro hzero bit hset
    by_contra hother
    simpa [hzero] using (hleft bit).mpr ⟨hset, hother⟩
  · intro hall
    refine Nat.zero_of_testBit_eq_false fun bit => Bool.eq_false_iff.mpr ?_
    intro hset
    obtain ⟨hword, hother⟩ := (hleft bit).mp hset
    exact hother (hall bit hword)

theorem cast_toWord (h : -4294967296 ≤ value) :
    (toWord value : Int) = if value < 0 then value + 4294967296 else value := by
  unfold toWord
  split <;> omega

theorem decompose_eq (h : -4294967296 ≤ value) (lookup : Int → Option Text) :
    decompose lookup value = ((split lookup (List.range 32) (toWord value)).1,
      ((split lookup (List.range 32) (toWord value)).2 : Int)) := by
  unfold decompose
  rw [← cast_toWord h]

/-- A number from -2^32 on is parted by its bits: the names are those of the bits below 32
that are set and named, the lowest first, and what is left has exactly the other bits, so
that nothing is left when all bits that are set are low and named. -/
theorem decompose_partition (lookup : Int → Option Text) {value : Int} (h : -4294967296 ≤ value) :
    let word := toWord value
    let taken := named lookup (List.range 32) word
    ((word : Int) = if value < 0 then value + 4294967296 else value) ∧
    (decompose lookup value).1.map some = taken.map (fun bit => lookup (2 ^ bit)) ∧
    (decompose lookup value).2 = word - ((taken.map (2 ^ ·)).sum : Nat) ∧
    (∃ rest : Nat, (decompose lookup value).2 = rest ∧
      ∀ bit, rest.testBit bit ↔ word.testBit bit ∧ bit ∉ taken) ∧
    ((decompose lookup value).2 = 0 ↔
      ∀ bit, word.testBit bit → bit < 32 ∧ (lookup (2 ^ bit)).isSome) := by
  intro word taken
  have hnodup : (List.range 32).Nodup := List.nodup_range
  rw [decompose_eq h lookup]
  refine ⟨cast_toWord h, names_split hnodup lookup word, ?_,
    ⟨_, rfl, testBit_split hnodup lookup word⟩, ?_⟩
  · have hsum : (split lookup (List.range 32) word).2 + (taken.map (2 ^ ·)).sum = word :=
      sum_split hnodup lookup word
    show ((split lookup (List.range 32) word).2 : Int) = word - ((taken.map (2 ^ ·)).sum : Nat)
    omega
  · rw [Int.natCast_eq_zero, split_eq_zero_iff hnodup]
    refine forall_congr' fun bit => imp_congr_right fun hset => ?_
    simp [named, hset]

/-- The highest and the lowest bit have names, the second has none and the third is not set. -/
theorem decompose_partition_sign :
    let lookup : Int → Option Text := fun n =>
      if n = 2147483648 then some "SIGN" else if n = 1 then some "LOW"
      else if n = 4 then some "OTHER" else none
    (-4294967296 : Int) ≤ -2147483645 ∧
      (decompose lookup (-2147483645)).1.map some = [some "LOW".toList, some "SIGN".toList] ∧
      (decompose lookup (-2147483645)).2 = 2 := by
  intro lookup
  obtain ⟨-, hnames, hrest, -, -⟩ := decompose_partition lookup (by decide : -4294967296 ≤ -2147483645)
  have htaken : named lookup (List.range 32) (toWord (-2147483645)) = [0, 31] := by decide
  rw [htaken] at hnames hrest
  exact ⟨by decide, hnames.trans (by decide), hrest.trans (by decide)⟩

end InfinityScript.Flags
