import InfinityScript.Proofs.Text.Case
import InfinityScript.Word

/-!
# Texts in either case

What is read from a text does not depend on the case of its ASCII letters: a text is cut,
divided and trimmed at the same places (`Text.cut?_foldCase`, `Text.splitOn_foldCase`,
`Text.trim_foldCase`), has the same upper case (`Text.upper_foldCase`) and is the same number
(`Text.literal_foldCase`, `Text.readLoose?_foldCase`) when the letters are in lower case.
-/

namespace InfinityScript.Text

def foldCase (text : Text) : Text := text.map Char.toLower

def capitals : Text := "ABCDEFGHIJKLMNOPQRSTUVWXYZ"

theorem ascii_toLower : (List.range 0x80).all fun n =>
    (Char.ofNat n).toLower == Char.ofNat n || capitals.contains (Char.ofNat n) := by
  decide +kernel

theorem toLower_eq_or (c : Char) : c.toLower = c ∨ c ∈ capitals := by
  by_cases hascii : c.toNat < 0x80
  · have hc := List.all_eq_true.mp ascii_toLower c.toNat (List.mem_range.mpr hascii)
    rw [Char.ofNat_toNat] at hc
    simpa using hc
  · refine .inl ?_
    unfold Char.toLower
    refine dif_neg fun hcapital => hascii ?_
    have hlast : c.toNat ≤ 'Z'.toNat := hcapital.2
    exact Nat.lt_of_le_of_lt hlast (by decide)

/-- What is the same for the capitals and their lower case is the same for all characters. -/
theorem apply_toLower {f : Char → α} (h : ∀ c ∈ capitals, f c.toLower = f c) (c : Char) :
    f c.toLower = f c := by
  rcases toLower_eq_or c with heq | hmem
  · rw [heq]
  · exact h c hmem

theorem toLower_toLower (c : Char) : c.toLower.toLower = c.toLower :=
  apply_toLower (by decide) c

theorem isBlank_toLower (c : Char) : isBlank c.toLower = isBlank c :=
  apply_toLower (by decide) c

theorem isOuterBlank_toLower (c : Char) : isOuterBlank c.toLower = isOuterBlank c :=
  apply_toLower (by decide) c

theorem digitValue?_toLower (c : Char) : digitValue? c.toLower = digitValue? c :=
  apply_toLower (by decide) c

theorem hexValue?_toLower (c : Char) : hexValue? c.toLower = hexValue? c :=
  apply_toLower (by decide) c

theorem upperChar_toLower (c : Char) : upperChar c.toLower = upperChar c :=
  apply_toLower (by decide) c

theorem toLower_eq_iff (h : isCaseless mark) : c.toLower = mark ↔ c = mark := by
  rcases toLower_eq_or c with heq | hmem
  · rw [heq]
  · have hcased : ∀ c ∈ capitals, isCaseless c.toLower = false ∧ isCaseless c = false := by
      decide
    obtain ⟨hlower, hupper⟩ := hcased c hmem
    refine iff_of_false ?_ ?_
    · rintro rfl
      rw [hlower] at h
      cases h
    · rintro rfl
      rw [hupper] at h
      cases h

@[simp] theorem foldCase_nil : foldCase [] = [] := rfl

@[simp] theorem foldCase_cons (c : Char) (text : Text) :
    foldCase (c :: text) = c.toLower :: foldCase text := rfl

@[simp] theorem foldCase_append (a b : Text) : foldCase (a ++ b) = foldCase a ++ foldCase b :=
  List.map_append

@[simp] theorem length_foldCase (text : Text) : (foldCase text).length = text.length :=
  List.length_map _

@[simp] theorem foldCase_eq_nil_iff : foldCase text = [] ↔ text = [] := List.map_eq_nil_iff

theorem foldCase_foldCase (text : Text) : foldCase (foldCase text) = foldCase text := by
  unfold foldCase
  rw [List.map_map]
  exact List.map_congr_left fun c _ => toLower_toLower c

section

variable {mark : Char} (h : isCaseless mark)
include h

theorem foldCase_cons_mark (text : Text) : foldCase (mark :: text) = mark :: foldCase text := by
  rw [foldCase_cons, (toLower_eq_iff h).mpr rfl]

theorem mem_foldCase_iff : mark ∈ foldCase text ↔ mark ∈ text := by
  simp [foldCase, toLower_eq_iff h]

theorem head?_foldCase_iff : (foldCase text).head? = some mark ↔ text.head? = some mark := by
  simp [foldCase, toLower_eq_iff h]

theorem getLast?_foldCase_iff : (foldCase text).getLast? = some mark ↔ text.getLast? = some mark := by
  simp [foldCase, toLower_eq_iff h]

theorem cut?_foldCase (text : Text) :
    cut? mark (foldCase text) = (cut? mark text).map (Prod.map foldCase foldCase) := by
  induction text with
  | nil => rfl
  | cons c text ih =>
    rw [foldCase_cons, cut?, cut?, ih]
    by_cases hc : c = mark
    · simp [hc, toLower_eq_iff h]
    · simp [hc, toLower_eq_iff h, Function.comp_def]

theorem cutLast?_foldCase (text : Text) :
    cutLast? mark (foldCase text) = (cutLast? mark text).map (Prod.map foldCase foldCase) := by
  have hreverse : (foldCase text).reverse = foldCase text.reverse := (List.map_reverse).symm
  rw [cutLast?, cutLast?, hreverse, cut?_foldCase h]
  simp [foldCase, Function.comp_def]

theorem splitOn_foldCase (text : Text) :
    splitOn mark (foldCase text) = (splitOn mark text).map foldCase := by
  induction text with
  | nil => rfl
  | cons c text ih =>
    rw [foldCase_cons, splitOn, splitOn, ih]
    by_cases hc : c = mark
    · simp [hc, toLower_eq_iff h]
    · rw [if_neg hc, if_neg (mt (toLower_eq_iff h).mp hc)]
      cases splitOn mark text <;> simp

end

theorem foldCase_eq_iff (h : ∀ c ∈ a, isCaseless c) : foldCase text = a ↔ text = a := by
  induction text generalizing a with
  | nil => simp
  | cons c text ih =>
    cases a with
    | nil => simp
    | cons d a =>
      obtain ⟨hd, ha⟩ := List.forall_mem_cons.mp h
      rw [foldCase_cons, List.cons.injEq, List.cons.injEq, toLower_eq_iff hd, ih ha]

theorem trimLeft_foldCase (text : Text) : trimLeft (foldCase text) = foldCase (trimLeft text) := by
  rw [trimLeft, trimLeft, foldCase, List.dropWhile_map]
  simp [foldCase, Function.comp_def, isBlank_toLower]

theorem trimRight_foldCase (text : Text) : trimRight (foldCase text) = foldCase (trimRight text) := by
  rw [trimRight, trimRight, foldCase, ← List.map_reverse, List.dropWhile_map]
  simp [foldCase, Function.comp_def, isBlank_toLower]

theorem trim_foldCase (text : Text) : trim (foldCase text) = foldCase (trim text) := by
  rw [trim, trim, trimLeft_foldCase, trimRight_foldCase]

theorem dropLast_foldCase (text : Text) : (foldCase text).dropLast = foldCase text.dropLast :=
  List.map_dropLast.symm

theorem inner_foldCase (text : Text) : inner (foldCase text) = foldCase (inner text) := by
  rw [inner, inner, ← dropLast_foldCase, foldCase, foldCase, List.map_drop]

theorem upper_foldCase (text : Text) : upper (foldCase text) = upper text := by
  simp [upper, foldCase, List.flatMap_map, upperChar_toLower]

theorem physicalLines_foldCase (text : Text) :
    physicalLines (foldCase text) = (physicalLines text).map foldCase := by
  have hlast : ((splitOn '\n' text).map foldCase).getLast? = some [] ↔
      (splitOn '\n' text).getLast? = some [] := by
    simp
  unfold physicalLines
  simp only [splitOn_foldCase (rfl : isCaseless '\n'), hlast]
  split
  · exact List.map_dropLast.symm
  · rfl

theorem beforeComment_cons_eq (c : Char) (rest : Text) : beforeComment (c :: rest) =
    if c = '/' ∧ rest.head? = some '/' then [] else c :: beforeComment rest := by
  rw [beforeComment.eq_def]
  split
  · next heq => cases heq
  · next heq =>
    obtain ⟨rfl, rfl⟩ := List.cons.inj heq
    simp
  · next hother heq =>
    obtain ⟨rfl, rfl⟩ := List.cons.inj heq
    rw [if_neg]
    rintro ⟨rfl, hhead⟩
    obtain ⟨tail, rfl⟩ := List.head?_eq_some_iff.mp hhead
    exact hother tail rfl rfl

theorem beforeComment_foldCase (line : Text) :
    beforeComment (foldCase line) = foldCase (beforeComment line) := by
  have hslash : isCaseless '/' := rfl
  induction line with
  | nil => rfl
  | cons c rest ih =>
    rw [foldCase_cons, beforeComment_cons_eq, beforeComment_cons_eq, ih]
    simp only [toLower_eq_iff hslash, head?_foldCase_iff hslash]
    split <;> rfl

theorem readDigits?_foldCase {value? : Char → Option Nat} (h : ∀ c, value? c.toLower = value? c)
    (base : Nat) (text : Text) :
    readDigits? base value? (foldCase text) = readDigits? base value? text := by
  simp [readDigits?, foldCase, List.foldlM_map, h]

theorem readNat?_foldCase (text : Text) : readNat? (foldCase text) = readNat? text :=
  readDigits?_foldCase digitValue?_toLower 10 text

theorem readHex?_foldCase (text : Text) : readHex? (foldCase text) = readHex? text :=
  readDigits?_foldCase hexValue?_toLower 16 text

theorem countP_foldCase (text : Text) :
    (foldCase text).countP isDecimalDigit = text.countP isDecimalDigit := by
  have hdigit : isDecimalDigit ∘ Char.toLower = isDecimalDigit :=
    funext fun c => congrArg Option.isSome (digitValue?_toLower c)
  rw [foldCase, List.countP_map, hdigit]

def signedBy (read : Text → Option Nat) : Text → Option Int
  | '-' :: digits => (read digits).map fun n => -(n : Int)
  | '+' :: digits => (read digits).map Int.ofNat
  | digits => (read digits).map Int.ofNat

theorem signedBy_of_head? (read : Text → Option Nat) (hminus : text.head? ≠ some '-')
    (hplus : text.head? ≠ some '+') : signedBy read text = (read text).map Int.ofNat := by
  unfold signedBy
  split
  · exact absurd rfl hminus
  · exact absurd rfl hplus
  · rfl

theorem signedBy_foldCase {read : Text → Option Nat} (h : ∀ text, read (foldCase text) = read text)
    (text : Text) : signedBy read (foldCase text) = signedBy read text := by
  have hminus : isCaseless '-' := rfl
  have hplus : isCaseless '+' := rfl
  by_cases htext : text.head? = some '-'
  · obtain ⟨digits, rfl⟩ := List.head?_eq_some_iff.mp htext
    rw [foldCase_cons_mark hminus, signedBy, signedBy, h]
  · by_cases htext' : text.head? = some '+'
    · obtain ⟨digits, rfl⟩ := List.head?_eq_some_iff.mp htext'
      rw [foldCase_cons_mark hplus, signedBy, signedBy, h]
    · rw [signedBy_of_head? read htext htext', signedBy_of_head? read
        (mt (head?_foldCase_iff hminus).mp htext) (mt (head?_foldCase_iff hplus).mp htext'), h]

theorem readSigned?_foldCase (text : Text) : readSigned? (foldCase text) = readSigned? text :=
  signedBy_foldCase readNat?_foldCase text

theorem checkDigits_foldCase (text : Text) : checkDigits (foldCase text) = checkDigits text := by
  rw [checkDigits, checkDigits, countP_foldCase]

theorem number_foldCase (text : Text) : number (foldCase text) = number text := by
  rw [number, number, readSigned?_foldCase, checkDigits_foldCase]

/-- The text could be a hexadecimal literal. -/
def HasHexForm (text : Text) : Prop := ∃ x digit digits, text = '0' :: x :: digit :: digits

theorem hasHexForm_foldCase_iff : HasHexForm (foldCase text) ↔ HasHexForm text := by
  have hzero : isCaseless '0' := rfl
  constructor
  · rintro ⟨x, digit, digits, htext⟩
    obtain ⟨c, _, rfl, hc, htext⟩ := List.map_eq_cons_iff.mp htext
    obtain ⟨x, _, rfl, -, htext⟩ := List.map_eq_cons_iff.mp htext
    obtain ⟨digit, digits, rfl, -, -⟩ := List.map_eq_cons_iff.mp htext
    exact ⟨x, digit, digits, by rw [(toLower_eq_iff hzero).mp hc]⟩
  · rintro ⟨x, digit, digits, rfl⟩
    exact ⟨_, _, _, foldCase_cons_mark hzero _⟩

theorem literal?_of_not_hasHexForm (h : ¬ HasHexForm text) :
    literal? text = (readSigned? text).map toSigned32 := by
  unfold literal?
  split
  · next x digit digits => exact absurd ⟨x, digit, digits, rfl⟩ h
  · rfl

theorem literal?_foldCase (text : Text) : literal? (foldCase text) = literal? text := by
  have hread := readSigned?_foldCase text
  by_cases hform : HasHexForm text
  · obtain ⟨x, digit, digits, rfl⟩ := hform
    have hx : (x.toLower = 'x' ∨ x.toLower = 'X') ↔ (x = 'x' ∨ x = 'X') :=
      iff_of_eq (apply_toLower (f := fun c => c = 'x' ∨ c = 'X') (by decide) x)
    have hreadHex := readHex?_foldCase (digit :: digits)
    rw [foldCase_cons_mark rfl, foldCase_cons, foldCase_cons] at hread ⊢
    rw [foldCase_cons] at hreadHex
    simp only [literal?, hx, hread, hreadHex]
  · rw [literal?_of_not_hasHexForm hform,
      literal?_of_not_hasHexForm (mt hasHexForm_foldCase_iff.mp hform), hread]

theorem literal_foldCase (text : Text) : literal (foldCase text) = literal text := by
  have hnumber : isNumber (foldCase text) = isNumber text :=
    congrArg Option.isSome (readSigned?_foldCase text)
  rw [literal, literal, hnumber, checkDigits_foldCase, literal?_foldCase]

theorem dropUnderscores?_cons (c : Char) (rest : Text) : dropUnderscores? (c :: rest) =
    if c = '_' then if rest = [] ∨ rest.head? = some '_' then none else dropUnderscores? rest
    else (dropUnderscores? rest).map (c :: ·) := by
  rw [dropUnderscores?.eq_def]
  split
  · next heq => cases heq
  · next heq =>
    obtain ⟨rfl, rfl⟩ := List.cons.inj heq
    simp
  · next rest heq =>
    obtain ⟨rfl, rfl⟩ := List.cons.inj heq
    simp
  · next rest hlast hdouble heq =>
    obtain ⟨rfl, rfl⟩ := List.cons.inj heq
    rw [if_pos rfl, if_neg]
    rintro (rfl | hhead)
    · exact hlast rfl
    · obtain ⟨tail, rfl⟩ := List.head?_eq_some_iff.mp hhead
      exact hdouble tail rfl
  · next hother heq =>
    obtain ⟨rfl, rfl⟩ := List.cons.inj heq
    rw [if_neg hother]

theorem dropUnderscores?_foldCase (text : Text) :
    dropUnderscores? (foldCase text) = (dropUnderscores? text).map foldCase := by
  have hline : isCaseless '_' := rfl
  induction text with
  | nil => rfl
  | cons c rest ih =>
    rw [foldCase_cons, dropUnderscores?_cons, dropUnderscores?_cons, ih]
    simp only [toLower_eq_iff hline, head?_foldCase_iff hline, foldCase_eq_nil_iff]
    split
    · split <;> rfl
    · simp [Function.comp_def]

theorem readLoose?_foldCase (text : Text) : readLoose? (foldCase text) = readLoose? text := by
  have hgrouped : ∀ digits, readLoose?.grouped? (foldCase digits) = readLoose?.grouped? digits := by
    intro digits
    have hread : readNat? ∘ foldCase = readNat? := funext readNat?_foldCase
    simp only [readLoose?.grouped?, head?_foldCase_iff (rfl : isCaseless '_'), countP_foldCase,
      dropUnderscores?_foldCase, Option.bind_map, hread]
  have hcore : (((foldCase text).dropWhile isOuterBlank).reverse.dropWhile isOuterBlank).reverse =
      foldCase ((text.dropWhile isOuterBlank).reverse.dropWhile isOuterBlank).reverse := by
    have hblank : isOuterBlank ∘ Char.toLower = isOuterBlank := funext isOuterBlank_toLower
    rw [foldCase, List.dropWhile_map, hblank, ← List.map_reverse, List.dropWhile_map, hblank,
      ← List.map_reverse, foldCase]
  show signedBy readLoose?.grouped? _ = signedBy readLoose?.grouped? _
  rw [hcore, signedBy_foldCase hgrouped]

end InfinityScript.Text
