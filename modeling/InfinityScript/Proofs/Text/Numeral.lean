import Mathlib.Algebra.Group.Nat.Defs
import InfinityScript.Proofs.Outcome
import InfinityScript.Text.Numeral

/-!
# Numbers written and read

`Text.ofInt` writes a numeral, and `Text.readSigned?` reads it back. A numeral is
what a token scanner takes for a number: decimal digits after at most a minus
sign.
-/

namespace InfinityScript.Text

-- --------------------
-- Digits
-- --------------------

theorem digitValue?_of_isDigit {c : Char} (h : c.isDigit) : digitValue? c = some (c.toNat - 48) := by
  have hc := Char.isDigit_iff_toNat.mp h
  have hlow : 48 ≤ c.toNat := hc.1
  have hhigh : c.toNat ≤ 57 := hc.2
  have hascii : c.toNat < 128 := by omega
  simp [digitValue?, hascii, hlow, hhigh]

theorem isDecimalDigit_of_isDigit {c : Char} (h : c.isDigit) : isDecimalDigit c := by
  simp [isDecimalDigit, digitValue?_of_isDigit h]

theorem isDecimalDigit_of_mem_ofNat {c : Char} (h : c ∈ ofNat n) : isDecimalDigit c :=
  isDecimalDigit_of_isDigit (Nat.isDigit_of_mem_toDigits (by decide) (by decide) h)

/-- No run of decimal digits reaches a blank beyond ASCII. -/
theorem decimalZeros_apart : ∀ start ∈ decimalZeros,
    (start + 9 < 0x80 ∨ 0xA0 < start) ∧ (start + 9 < 0x1680 ∨ 0x1680 < start) ∧
      (start + 9 < 0x2000 ∨ 0x205F < start) ∧ (start + 9 < 0x3000 ∨ 0x3000 < start) := by
  decide

theorem isDecimalDigit_eq_false_of_isBlank {c : Char} (h : isBlank c) :
    isDecimalDigit c = false := by
  simp only [isBlank, Bool.or_eq_true, Bool.and_eq_true, decide_eq_true_eq, beq_iff_eq] at h
  by_cases hascii : c.toNat < 128
  · have hlow : ¬ (48 ≤ c.toNat ∧ c.toNat ≤ 57) := by omega
    simp [isDecimalDigit, digitValue?, hascii]
    omega
  · have hnone : decimalZeros.find? (fun start => start ≤ c.toNat && c.toNat ≤ start + 9) = none := by
      rw [List.find?_eq_none]
      intro start hstart
      have := decimalZeros_apart start hstart
      simp only [Bool.and_eq_true, decide_eq_true_eq]
      omega
    simp only [isDecimalDigit, digitValue?, hascii, if_false, hnone, Option.map_none,
      Option.isSome_none]

theorem isBlank_eq_false_of_isDecimalDigit {c : Char} (h : isDecimalDigit c) :
    isBlank c = false := by
  cases hb : isBlank c with
  | false => rfl
  | true => rw [isDecimalDigit_eq_false_of_isBlank hb] at h; exact h.symm

-- --------------------
-- Reading
-- --------------------

theorem foldlM_digitValue? {digits : Text} (h : ∀ c ∈ digits, c.isDigit) (n : Nat) :
    digits.foldlM (fun n c => (digitValue? c).map (10 * n + ·)) n =
      some (Nat.ofDigitChars 10 digits n) := by
  induction digits generalizing n with
  | nil => simp
  | cons c digits ih =>
    have hc := digitValue?_of_isDigit (h c (by simp))
    simp only [List.foldlM_cons, hc, Option.map_some, Option.bind_eq_bind, Option.bind_some]
    rw [ih (fun d hd => h d (by simp [hd])), Nat.ofDigitChars_cons]
    rfl

theorem readNat?_ofNat (n : Nat) : readNat? (ofNat n) = some n := by
  have hdigits : ∀ c ∈ ofNat n, c.isDigit := fun c hc =>
    Nat.isDigit_of_mem_toDigits (by decide) (by decide) hc
  have hne : (ofNat n).isEmpty = false := by simp [ofNat]
  simp only [readNat?, readDigits?, hne, Bool.false_eq_true, if_false, foldlM_digitValue? hdigits]
  simp [ofNat]

theorem foldlM_digitValue?_isSome {digits : Text} (h : ∀ c ∈ digits, isDecimalDigit c) (n : Nat) :
    (digits.foldlM (fun n c => (digitValue? c).map (10 * n + ·)) n).isSome := by
  induction digits generalizing n with
  | nil => rfl
  | cons c digits ih =>
    obtain ⟨value, hvalue⟩ := Option.isSome_iff_exists.mp (h c (by simp))
    simp only [List.foldlM_cons, hvalue, Option.map_some, Option.bind_eq_bind, Option.bind_some]
    exact ih (fun d hd => h d (by simp [hd])) _

theorem readNat?_isSome {digits : Text} (hne : digits ≠ []) (h : ∀ c ∈ digits, isDecimalDigit c) :
    (readNat? digits).isSome := by
  simp only [readNat?, readDigits?, List.isEmpty_eq_false_iff.mpr hne, Bool.false_eq_true, if_false]
  exact foldlM_digitValue?_isSome h 0

theorem isDecimalDigit_of_foldlM {digits : Text} {n : Nat}
    (h : (digits.foldlM (fun n c => (digitValue? c).map (10 * n + ·)) n).isSome) :
    ∀ c ∈ digits, isDecimalDigit c := by
  induction digits generalizing n with
  | nil => simp
  | cons c digits ih =>
    simp only [List.foldlM_cons, Option.bind_eq_bind] at h
    cases hc : digitValue? c with
    | none => simp [hc] at h
    | some value =>
      simp only [hc, Option.map_some, Option.bind_some] at h
      intro d hd
      rcases List.mem_cons.mp hd with rfl | hd
      · simp [isDecimalDigit, hc]
      · exact ih h d hd

theorem readNat?_isSome_iff {digits : Text} :
    (readNat? digits).isSome ↔ digits ≠ [] ∧ ∀ c ∈ digits, isDecimalDigit c := by
  constructor
  · intro h
    by_cases hne : digits = []
    · subst hne; simp [readNat?, readDigits?] at h
    · refine ⟨hne, ?_⟩
      simp only [readNat?, readDigits?, List.isEmpty_eq_false_iff.mpr hne, Bool.false_eq_true,
        if_false] at h
      exact isDecimalDigit_of_foldlM h
  · rintro ⟨hne, h⟩
    exact readNat?_isSome hne h

theorem readSigned?_of_digits {digits : Text} (h : ∀ c ∈ digits, isDecimalDigit c) :
    readSigned? digits = (readNat? digits).map Int.ofNat := by
  unfold readSigned?
  split
  · exact absurd (h '-' (by simp)) (by decide)
  · exact absurd (h '+' (by simp)) (by decide)
  · rfl

theorem readSigned?_ofInt (n : Int) : readSigned? (ofInt n) = some n := by
  cases n with
  | ofNat n =>
    rw [ofInt, readSigned?_of_digits fun c hc => isDecimalDigit_of_mem_ofNat hc, readNat?_ofNat]
    rfl
  | negSucc n =>
    simp only [ofInt, readSigned?, readNat?_ofNat]
    rfl

-- --------------------
-- Numerals
-- --------------------

inductive IsNumeral : Text → Prop
  | plain (hne : digits ≠ []) (h : ∀ c ∈ digits, isDecimalDigit c) : IsNumeral digits
  | minus (hne : digits ≠ []) (h : ∀ c ∈ digits, isDecimalDigit c) : IsNumeral ('-' :: digits)

theorem isNumeral_iff : IsNumeral text ↔ (text ≠ [] ∧ ∀ c ∈ text, isDecimalDigit c) ∨
    text.head? = some '-' ∧ text.tail ≠ [] ∧ ∀ c ∈ text.tail, isDecimalDigit c := by
  constructor
  · intro h
    cases h with
    | plain hne h => exact .inl ⟨hne, h⟩
    | minus hne h => exact .inr ⟨rfl, hne, h⟩
  · rintro (⟨hne, h⟩ | ⟨hhead, hne, h⟩)
    · exact .plain hne h
    · obtain ⟨digits, rfl⟩ := List.head?_eq_some_iff.mp hhead
      exact .minus hne h

instance : Decidable (IsNumeral text) := decidable_of_iff _ isNumeral_iff.symm

theorem isNumeral_ofInt (n : Int) : IsNumeral (ofInt n) := by
  cases n with
  | ofNat n => exact .plain Nat.toDigits_ne_nil fun c hc => isDecimalDigit_of_mem_ofNat hc
  | negSucc n => exact .minus Nat.toDigits_ne_nil fun c hc => isDecimalDigit_of_mem_ofNat hc

theorem IsNumeral.ne_nil (h : IsNumeral text) : text ≠ [] := by
  cases h with
  | plain hne => exact hne
  | minus => simp

theorem IsNumeral.exists_value (h : IsNumeral text) : ∃ n, readSigned? text = some n := by
  cases h with
  | plain hne h =>
    obtain ⟨n, hn⟩ := Option.isSome_iff_exists.mp (readNat?_isSome hne h)
    exact ⟨n, by rw [readSigned?_of_digits h, hn]; rfl⟩
  | minus hne h =>
    obtain ⟨n, hn⟩ := Option.isSome_iff_exists.mp (readNat?_isSome hne h)
    exact ⟨-n, by rw [readSigned?, hn]; rfl⟩

theorem IsNumeral.isBlank_eq_false (h : IsNumeral text) (hc : c ∈ text) : isBlank c = false := by
  cases h with
  | plain hne h => exact isBlank_eq_false_of_isDecimalDigit (h c hc)
  | minus hne h =>
    rcases List.mem_cons.mp hc with rfl | hc
    · rfl
    · exact isBlank_eq_false_of_isDecimalDigit (h c hc)

theorem IsNumeral.notMem (h : IsNumeral text) (hdigit : isDecimalDigit c = false) (hc : c ≠ '-') :
    c ∉ text := by
  cases h with
  | plain hne h => exact fun hmem => by simp [h _ hmem] at hdigit
  | minus hne h =>
    intro hmem
    simp [h _ (by simpa [hc] using hmem)] at hdigit

theorem IsNumeral.slash_notMem (h : IsNumeral text) : '/' ∉ text :=
  h.notMem (by decide +kernel) (by decide)

def FewDigits (text : Text) : Prop := text.countP isDecimalDigit ≤ digitLimit

instance (text : Text) : Decidable (FewDigits text) := inferInstanceAs (Decidable (_ ≤ _))

theorem checkDigits_eq_ok_iff {text : Text} : checkDigits text = .ok () ↔ FewDigits text := by
  simp only [checkDigits, FewDigits]
  split
  · next h => simp; omega
  · next h => simp; omega

theorem countP_ofNat (n : Nat) : (ofNat n).countP isDecimalDigit = (ofNat n).length := by
  rw [List.countP_eq_length]
  exact fun c hc => isDecimalDigit_of_mem_ofNat hc

theorem fewDigits_ofNat {n : Nat} : FewDigits (ofNat n) ↔ n < 10 ^ digitLimit := by
  rw [FewDigits, countP_ofNat, ofNat, Nat.length_toDigits_le_iff (by decide) (by decide)]

/-- A number can be read back exactly when it can be written. -/
theorem fewDigits_ofInt {n : Int} : FewDigits (ofInt n) ↔ n.natAbs < 10 ^ digitLimit := by
  cases n with
  | ofNat n => exact fewDigits_ofNat
  | negSucc n =>
    have hminus : isDecimalDigit '-' = false := by decide
    rw [ofInt, FewDigits, List.countP_cons_of_neg (by simp [hminus])]
    exact fewDigits_ofNat

theorem writable_eq_ok_iff {n m : Int} : writable n = .ok m ↔ n = m ∧ FewDigits (ofInt n) := by
  rw [fewDigits_ofInt]
  simp only [writable, Nat.pow_eq]
  split
  · next h => simp [h]
  · next h => simp [h]

-- --------------------
-- Numbers that were read
-- --------------------

theorem digitValue?_lt {c : Char} (h : digitValue? c = some d) : d < 10 := by
  unfold digitValue? at h
  dsimp only at h
  split at h
  · split at h
    · next hrange =>
      simp only [Bool.and_eq_true, decide_eq_true_eq] at hrange
      have := Option.some.inj h
      omega
    · cases h
  · obtain ⟨start, hfind, rfl⟩ := Option.map_eq_some_iff.mp h
    have hstart := List.find?_some hfind
    simp only [Bool.and_eq_true, decide_eq_true_eq] at hstart
    omega

theorem foldlM_value?_lt {base : Nat} {value? : Char → Option Nat}
    (hvalue : ∀ c d, value? c = some d → d < base) {digits : Text} {a n : Nat}
    (h : digits.foldlM (fun n c => (value? c).map (base * n + ·)) a = some n) :
    n < (a + 1) * base ^ digits.length := by
  induction digits generalizing a with
  | nil =>
    obtain rfl := Option.some.inj h
    simp
  | cons c digits ih =>
    simp only [List.foldlM_cons, Option.bind_eq_bind] at h
    obtain ⟨b, hb, h⟩ := Option.bind_eq_some_iff.mp h
    obtain ⟨d, hd, rfl⟩ := Option.map_eq_some_iff.mp hb
    have hdigit := hvalue c d hd
    have hstep : base * a + d + 1 ≤ (a + 1) * base := by
      rw [Nat.succ_mul, Nat.mul_comm a]
      omega
    calc n < (base * a + d + 1) * base ^ digits.length := ih h
      _ ≤ ((a + 1) * base) * base ^ digits.length := Nat.mul_le_mul_right _ hstep
      _ = (a + 1) * base ^ (c :: digits).length := by
        rw [List.length_cons, Nat.pow_succ, Nat.mul_assoc, Nat.mul_comm base]

theorem readDigits?_lt {base : Nat} {value? : Char → Option Nat}
    (hvalue : ∀ c d, value? c = some d → d < base) {digits : Text}
    (h : readDigits? base value? digits = some n) : n < base ^ digits.length := by
  unfold readDigits? at h
  split at h
  · cases h
  · simpa using foldlM_value?_lt hvalue h

theorem readNat?_lt {digits : Text} (h : readNat? digits = some n) :
    n < 10 ^ digits.countP isDecimalDigit := by
  have hdigits := (readNat?_isSome_iff.mp (Option.isSome_of_eq_some h)).2
  rw [List.countP_eq_length.mpr hdigits]
  exact readDigits?_lt (fun _ _ => digitValue?_lt) h

theorem readHex?_lt {digits : Text} (h : readHex? digits = some n) : n < 16 ^ digits.length := by
  refine readDigits?_lt (fun c d hd => ?_) h
  unfold hexValue? at hd
  simp only [Char.le_def, UInt32.le_iff_toNat_le, Bool.and_eq_true, decide_eq_true_eq] at hd
  split at hd
  · next hrange =>
    have := Option.some.inj hd
    change 48 ≤ c.toNat ∧ c.toNat ≤ 57 at hrange
    omega
  · split at hd
    · next hrange =>
      have := Option.some.inj hd
      change 65 ≤ c.toNat ∧ c.toNat ≤ 70 at hrange
      omega
    · split at hd
      · next hrange =>
        have := Option.some.inj hd
        change 97 ≤ c.toNat ∧ c.toNat ≤ 102 at hrange
        omega
      · cases hd

theorem natAbs_lt_of_digits (hread : readNat? digits = some m)
    (hfew : digits.countP isDecimalDigit ≤ digitLimit) (hn : n.natAbs = m) :
    FewDigits (ofInt n) := by
  rw [fewDigits_ofInt, hn]
  exact Nat.lt_of_lt_of_le (readNat?_lt hread) (Nat.pow_le_pow_right (by decide) hfew)

theorem fewDigits_of_readSigned? (h : readSigned? text = some n) (hfew : FewDigits text) :
    FewDigits (ofInt n) := by
  unfold readSigned? at h
  split at h
  · obtain ⟨_, hbind, rfl⟩ := Option.map_eq_some_iff.mp h
    obtain ⟨m, hm, hint⟩ := Option.bind_eq_some_iff.mp hbind
    obtain rfl := Option.some.inj hint
    exact natAbs_lt_of_digits hm (Nat.le_trans (List.Sublist.countP_le (by simp)) hfew) (by simp)
  · obtain ⟨m, hm, rfl⟩ := Option.map_eq_some_iff.mp h
    exact natAbs_lt_of_digits hm (Nat.le_trans (List.Sublist.countP_le (by simp)) hfew) (by simp)
  · obtain ⟨m, hm, rfl⟩ := Option.map_eq_some_iff.mp h
    exact natAbs_lt_of_digits hm hfew (by simp)

theorem number_ok (h : number text = .ok (some n)) : readSigned? text = some n ∧ FewDigits text := by
  unfold number at h
  split at h
  · cases h
  · next m hread =>
    obtain ⟨_, hcheck, h⟩ := Outcome.bind_ok.mp h
    exact ⟨hread.trans (Outcome.pure_ok.mp h), checkDigits_eq_ok_iff.mp hcheck⟩

theorem fewDigits_of_number (h : number text = .ok (some n)) : FewDigits (ofInt n) :=
  fewDigits_of_readSigned? (number_ok h).1 (number_ok h).2

theorem dropUnderscores?_sublist (h : dropUnderscores? text = some digits) :
    digits.Sublist text := by
  fun_induction dropUnderscores? text generalizing digits with
  | case1 => simp_all
  | case2 => cases h
  | case3 => cases h
  | case4 rest _ _ ih => exact (ih h).cons _
  | case5 c rest _ _ _ ih =>
    obtain ⟨more, hmore, rfl⟩ := Option.map_eq_some_iff.mp h
    exact (ih hmore).cons_cons c

theorem fewDigits_of_readLoose? (h : readLoose? text = some n) : FewDigits (ofInt n) := by
  have hgrouped : ∀ digits m, readLoose?.grouped? digits = some m → n.natAbs = m →
      FewDigits (ofInt n) := by
    intro digits m hm hn
    unfold readLoose?.grouped? at hm
    split at hm
    · cases hm
    · next hlimit =>
      obtain ⟨bare, hbare, hread⟩ := Option.bind_eq_some_iff.mp hm
      refine natAbs_lt_of_digits hread ?_ hn
      have := (dropUnderscores?_sublist hbare).countP_le (p := isDecimalDigit)
      omega
  unfold readLoose? at h
  dsimp only at h
  split at h
  · obtain ⟨_, hbind, rfl⟩ := Option.map_eq_some_iff.mp h
    obtain ⟨m, hm, hint⟩ := Option.bind_eq_some_iff.mp hbind
    obtain rfl := Option.some.inj hint
    exact hgrouped _ m hm (by simp)
  · obtain ⟨m, hm, rfl⟩ := Option.map_eq_some_iff.mp h
    exact hgrouped _ m hm (by simp)
  · obtain ⟨m, hm, rfl⟩ := Option.map_eq_some_iff.mp h
    exact hgrouped _ m hm (by simp)

end InfinityScript.Text
