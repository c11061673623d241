import InfinityScript.Proofs.Argument.Halts
import InfinityScript.Proofs.Argument.Symbolic

/-!
# Short texts and small ids

Numbers in a short text, and sums of small ids that it names, take few enough digits to be
converted (`conversions_short`).
-/

namespace InfinityScript

/-- The text is too short to hold a number that cannot be converted, be it hexadecimal. -/
def Text.IsShort (text : Text) : Prop := text.length ≤ 3500

instance : Decidable (Text.IsShort text) := inferInstanceAs (Decidable (_ ≤ _))

/-- The ids of all entries leave room for adding them up. -/
def Symbols.HasSmallIds (symbols : Symbols) : Prop :=
  ∀ table ∈ symbols.tables.toList, ∀ entry ∈ table.2.entries.toList, entry.id.natAbs < 10 ^ 4000

def HasDigits (count : Nat) (n : Int) : Prop := n.natAbs < 10 ^ count

namespace HasDigits

theorem mono (h : HasDigits k n) (hkl : k ≤ l) : HasDigits l n :=
  Nat.lt_of_lt_of_le h (Nat.pow_le_pow_right (by decide) hkl)

theorem toSigned32 (h : HasDigits k n) (hk : 10 ≤ k) : HasDigits (k + 1) (toSigned32 n) := by
  have hten : 10 ^ 10 ≤ 10 ^ k := Nat.pow_le_pow_right (by decide) hk
  unfold HasDigits at *
  rw [Nat.pow_succ]
  generalize 10 ^ k = bound at *
  unfold InfinityScript.toSigned32
  split <;> omega

theorem of_lt (h : n.natAbs < bound) (hbound : bound ≤ 10 ^ k) : HasDigits k n :=
  Nat.lt_of_lt_of_le h hbound

theorem of_le_mul (h : n.natAbs ≤ count * 10 ^ k) (hcount : count < 10 ^ l) :
    HasDigits (l + k) n := by
  refine Nat.lt_of_le_of_lt h ?_
  rw [Nat.pow_add]
  exact Nat.mul_lt_mul_of_pos_right hcount (Nat.pow_pos (by decide))

theorem writable (h : HasDigits digitLimit n) : Text.writable n = .ok n :=
  Text.writable_eq_ok_iff.mpr ⟨rfl, Text.fewDigits_ofInt.mpr h⟩

end HasDigits

namespace Text

theorem IsShort.of_sublist (hpart : part.Sublist text) (h : IsShort text) : IsShort part :=
  Nat.le_trans hpart.length_le h

theorem IsShort.fewDigits (h : IsShort text) : FewDigits text :=
  Nat.le_trans List.countP_le_length (Nat.le_trans h (by decide))

theorem hasDigits_readSigned? (h : readSigned? text = some n) : HasDigits text.length n := by
  have hdigits : ∀ {digits : Text} {m : Nat}, readNat? digits = some m →
      digits.length ≤ text.length → m < 10 ^ text.length := by
    intro digits m hm hle
    refine Nat.lt_of_lt_of_le (readNat?_lt hm) (Nat.pow_le_pow_right (by decide) ?_)
    exact Nat.le_trans List.countP_le_length hle
  unfold HasDigits
  unfold readSigned? at h
  split at h
  · obtain ⟨_, hbind, rfl⟩ := Option.map_eq_some_iff.mp h
    obtain ⟨m, hm, hint⟩ := Option.bind_eq_some_iff.mp hbind
    obtain rfl := Option.some.inj hint
    simpa using hdigits hm (by simp)
  · obtain ⟨m, hm, rfl⟩ := Option.map_eq_some_iff.mp h
    simpa using hdigits hm (by simp)
  · obtain ⟨m, hm, rfl⟩ := Option.map_eq_some_iff.mp h
    simpa using hdigits hm (Nat.le_refl _)

theorem IsShort.hasDigits_literal? (h : IsShort text) (hliteral : literal? text = some n) :
    HasDigits 4216 n := by
  have hhex : ∀ {k}, k ≤ 3500 → 16 ^ k ≤ 10 ^ 4215 := fun hk =>
    Nat.le_trans (Nat.pow_le_pow_right (by decide) hk) (by decide +kernel)
  have hdecimal : ∀ {m : Int}, readSigned? text = some m → HasDigits 4215 m := fun hm =>
    (hasDigits_readSigned? hm).mono (Nat.le_trans h (by decide))
  unfold literal? at hliteral
  split at hliteral
  · next x digit digits =>
    split at hliteral
    · obtain ⟨_, hbind, rfl⟩ := Option.map_eq_some_iff.mp hliteral
      obtain ⟨m, hm, hint⟩ := Option.bind_eq_some_iff.mp hbind
      obtain rfl := Option.some.inj hint
      refine HasDigits.toSigned32 (HasDigits.of_lt (readHex?_lt hm) (hhex ?_)) (by decide)
      exact Nat.le_trans (by simp) h
    · obtain ⟨m, hm, rfl⟩ := Option.map_eq_some_iff.mp hliteral
      exact (hdecimal hm).toSigned32 (by decide)
  · obtain ⟨m, hm, rfl⟩ := Option.map_eq_some_iff.mp hliteral
    exact (hdecimal hm).toSigned32 (by decide)

theorem IsShort.literal (h : IsShort text) : literal text = .ok (literal? text) := by
  unfold Text.literal
  split
  · rw [checkDigits_eq_ok_iff.mpr h.fewDigits]
    rfl
  · rfl

theorem IsShort.number_ne_error (h : IsShort text) (fault : NumeralFault) :
    number text ≠ .error fault := by
  unfold number
  split
  · nofun
  · rw [checkDigits_eq_ok_iff.mpr h.fewDigits]
    nofun

end Text

section

variable {symbols : Symbols}

theorem Symbols.HasSmallIds.byName? (h : symbols.HasSmallIds) (hread : symbols.IsRead)
    (hentry : symbols.byName? table name = some entry) : HasDigits 4000 entry.id := by
  obtain ⟨found, htable, hlookup⟩ := Option.bind_eq_some_iff.mp hentry
  have hmade := (hread.made _ _ htable).and fun entry hmem =>
    h (tableName table, found) (Std.TreeMap.mem_toList_iff_getElem?_eq_some.mpr htable) entry hmem
  exact (hmade.of_byName hlookup).1.2

theorem Argument.Adds.natAbs_le (h : symbols.HasSmallIds) (hread : symbols.IsRead)
    (hadds : Adds (symbols.table? listed) names n) : n.natAbs ≤ names.length * 10 ^ 4000 := by
  induction hadds with
  | nil => exact Nat.zero_le _
  | blank _ _ ih => exact Nat.le_trans ih (Nat.mul_le_mul_right _ (Nat.le_succ _))
  | @symbol name names total entry _ hfound _ ih =>
    have hid : entry.id.natAbs < 10 ^ 4000 := h.byName? hread hfound
    rw [List.length_cons, Nat.succ_mul]
    generalize 10 ^ 4000 = bound at *
    omega

theorem Text.length_splitOn_le (mark : Char) (text : Text) :
    (splitOn mark text).length ≤ text.length + 1 := by
  induction text with
  | nil => simp [splitOn]
  | cons c text ih =>
    rw [splitOn]
    split
    · simpa using ih
    · split
      · simp
      · next piece pieces hsplit =>
        rw [hsplit] at ih
        simp only [List.length_cons] at ih ⊢
        omega

theorem Argument.hasDigits_symbolic (h : symbols.HasSmallIds) (hread : symbols.IsRead)
    (hvalue : value.IsShort) (hn : symbolic symbols definition value = .ok n) :
    HasDigits 4005 n := by
  obtain ⟨hsome, hdenotes⟩ := (symbolic_ok_iff symbols definition value).mp hn
  obtain ⟨listed, hlisted⟩ := Option.isSome_iff_exists.mp hsome
  rw [encodingTable?, hlisted, Option.bind_some] at hdenotes
  cases hdenotes with
  | symbol hfound => exact ((h.byName? hread hfound).toSigned32 (by decide)).mono (by decide)
  | sum _ _ hadds =>
    have hcount : (Text.splitOn '|' value).length < 10 ^ 4 :=
      Nat.lt_of_le_of_lt (Text.length_splitOn_le '|' value) (Nat.lt_of_le_of_lt
        (Nat.succ_le_succ hvalue) (by decide))
    exact (HasDigits.of_le_mul (hadds.natAbs_le h hread) hcount).toSigned32 (by decide)

/-- All numbers in short texts and of small ids can be converted. -/
theorem conversions_short (h : symbols.HasSmallIds) (hread : symbols.IsRead) :
    Conversions symbols Text.IsShort fun _ => False where
  part hpart htext := htext.of_sublist hpart
  integer definition value hvalue := by
    have hwritable : ∀ n, HasDigits digitLimit n → Text.writable n = .ok n :=
      fun _ => HasDigits.writable
    rw [Argument.integer, hvalue.literal]
    -- the bound behind the limit is a number too large to compute with
    generalize Text.writable = writable at hwritable ⊢
    have hends : ∀ n, HasDigits digitLimit n → Outcome.Ends (fun _ => True)
        (Refusal.Only fun _ => False) (Refusal.ofNumeral (writable n)) := by
      intro n hn
      rw [hwritable n hn]
      trivial
    cases hliteral : Text.literal? value with
    | some n => exact hends n ((hvalue.hasDigits_literal? hliteral).mono (by decide))
    | none =>
      change Outcome.Ends _ _ (Refusal.ofFault (Argument.symbolic symbols definition value) >>= _)
      refine Outcome.Ends.bind (Outcome.ends_ofFault (fun n hn => ?_) fun _ _ => trivial) hends
      exact (Argument.hasDigits_symbolic h hread hvalue hn).mono (by decide)
  number component hcomponent fault hfault := hcomponent.number_ne_error fault hfault
  id id hid fault hfault := by
    obtain ⟨table, name, entry, hentry, rfl⟩ := hid
    have hdigits :=
      ((h.byName? hread hentry).toSigned32 (by decide)).mono (l := digitLimit) (by decide)
    rw [hdigits.writable] at hfault
    cases hfault

end

end InfinityScript
