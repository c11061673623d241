import InfinityScript.Proofs.Text.Cut
import InfinityScript.Text.Case

/-!
# Characters without a case

Punctuation, blanks and digits are their own upper case and nothing else's
(`Text.upperChar_eq_or`), so that they stand in the upper case of a text where they stand
in the text itself. What is in upper case stays as it is (`Text.upper_upper`).
-/

namespace InfinityScript.Text

-- --------------------
-- Tables
-- --------------------

/-- First and last of runs of characters without a case: what is no letter in ASCII, the
blanks and the decimal digits. -/
def caselessRuns : List (Nat × Nat) :=
  [(0x00, 0x40), (0x5B, 0x60), (0x7B, 0x7F), (0x85, 0x85), (0xA0, 0xA0), (0x1680, 0x1680),
    (0x2000, 0x205F), (0x3000, 0x3000)] ++ decimalZeros.map fun start => (start, start + 9)

def isCaseless (c : Char) : Bool :=
  caselessRuns.any fun run => run.1 ≤ c.toNat && c.toNat ≤ run.2

def allCased (first last : Nat) : Bool :=
  caselessRuns.all fun run => Nat.blt last run.1 || Nat.blt run.2 first

def allChars (first last : Nat) : Bool :=
  Nat.blt last 0xD800 || (Nat.blt 0xDFFF first && Nat.blt last 0x110000)

theorem upperRuns_allCased : upperRuns.all fun run => allCased run.first run.last := by
  decide +kernel

theorem upperRuns_target : upperRuns.all fun run =>
    allCased (run.first + run.shift).toNat (run.last + run.shift).toNat &&
      allChars (run.first + run.shift).toNat (run.last + run.shift).toNat := by
  decide +kernel

theorem upperSequences_allCased : upperSequences.all fun entry =>
    allCased entry.1 entry.1 && entry.2.all fun code => allCased code code && allChars code code := by
  decide +kernel

theorem ascii_toUpper : (List.range 0x80).all fun n => (Char.ofNat n).toUpper == Char.ofNat n ||
    (!isCaseless (Char.ofNat n) && !isCaseless (Char.ofNat n).toUpper) := by
  decide +kernel

theorem isCaseless_eq_false (h : allCased first last) (hfirst : first ≤ c.toNat)
    (hlast : c.toNat ≤ last) : isCaseless c = false := by
  rw [isCaseless, List.any_eq_false]
  intro run hrun
  have hapart := List.all_eq_true.mp h run hrun
  simp only [Bool.or_eq_true, Nat.blt_eq] at hapart
  simp only [Bool.and_eq_true, decide_eq_true_eq]
  omega

theorem toNat_ofNat (h : allChars first last) (hfirst : first ≤ n) (hlast : n ≤ last) :
    (Char.ofNat n).toNat = n := by
  simp only [allChars, Bool.or_eq_true, Bool.and_eq_true, Nat.blt_eq] at h
  have hvalid : n.isValidChar := by
    unfold Nat.isValidChar
    omega
  rw [Char.ofNat, dif_pos hvalid]
  rfl

-- --------------------
-- Characters
-- --------------------

/-- Where the upper case of a character comes from: the letters of ASCII, the characters that
become several, or the runs; else it is the character itself. -/
theorem upperChar_cases (c : Char) :
    (c.toNat < 0x80 ∧ upperChar c = [c.toUpper]) ∨
      (∃ entry ∈ upperSequences, entry.1 = c.toNat ∧ upperChar c = entry.2.map Char.ofNat) ∨
      (∃ run ∈ upperRuns, run.covers c.toNat ∧
        upperChar c = [Char.ofNat (c.toNat + run.shift).toNat]) ∨
      upperChar c = [c] := by
  unfold upperChar
  split
  · next hascii => exact .inl ⟨hascii, rfl⟩
  · split
    · next codes hcodes =>
      obtain ⟨before, after, hlist, -⟩ := List.lookup_eq_some_iff.mp hcodes
      exact .inr (.inl ⟨(c.toNat, codes), by rw [hlist]; simp, rfl, rfl⟩)
    · cases hrun : CaseRun.map? upperRuns c.toNat with
      | none => simp
      | some n =>
        obtain ⟨run, hfind, rfl⟩ := Option.map_eq_some_iff.mp hrun
        have hcovers := List.find?_some hfind
        exact .inr (.inr (.inl ⟨run, List.mem_of_find?_eq_some hfind, hcovers, rfl⟩))

/-- A character is its own upper case, or both it and its upper case have a case. -/
theorem upperChar_eq_or (c : Char) : upperChar c = [c] ∨
    isCaseless c = false ∧ ∀ d ∈ upperChar c, isCaseless d = false := by
  rcases upperChar_cases c with
    ⟨hascii, heq⟩ | ⟨entry, hentry, hfirst, heq⟩ | ⟨run, hrun, hcovers, heq⟩ | heq
  · have hc := List.all_eq_true.mp ascii_toUpper c.toNat (List.mem_range.mpr hascii)
    rw [Char.ofNat_toNat] at hc
    rw [heq]
    simpa using hc
  · have hcased := List.all_eq_true.mp upperSequences_allCased entry hentry
    simp only [Bool.and_eq_true] at hcased
    rw [heq]
    refine .inr ⟨isCaseless_eq_false hcased.1 (Nat.le_of_eq hfirst) (Nat.le_of_eq hfirst.symm),
      fun d hd => ?_⟩
    obtain ⟨code, hcode, rfl⟩ := List.mem_map.mp hd
    have hcode := List.all_eq_true.mp hcased.2 code hcode
    simp only [Bool.and_eq_true] at hcode
    have hnumber := toNat_ofNat hcode.2 (Nat.le_refl _) (Nat.le_refl _)
    exact isCaseless_eq_false hcode.1 (Nat.le_of_eq hnumber.symm) (Nat.le_of_eq hnumber)
  · simp only [CaseRun.covers, Bool.and_eq_true, decide_eq_true_eq] at hcovers
    obtain ⟨⟨hfirst, hlast⟩, -⟩ := hcovers
    have htarget := List.all_eq_true.mp upperRuns_target run hrun
    simp only [Bool.and_eq_true] at htarget
    have hnumber := @toNat_ofNat _ _ (c.toNat + run.shift).toNat htarget.2 (by omega) (by omega)
    refine .inr ⟨isCaseless_eq_false (List.all_eq_true.mp upperRuns_allCased run hrun) hfirst hlast,
      fun d hd => ?_⟩
    obtain rfl : d = _ := List.mem_singleton.mp (heq ▸ hd)
    exact isCaseless_eq_false htarget.1 (by omega) (by omega)
  · exact .inl heq

theorem upperChar_of_isCaseless (h : isCaseless c) : upperChar c = [c] := by
  rcases upperChar_eq_or c with heq | ⟨hcased, -⟩
  · exact heq
  · rw [hcased] at h
    cases h

theorem eq_of_mem_upperChar (h : d ∈ upperChar c) (hd : isCaseless d) : d = c := by
  rcases upperChar_eq_or c with heq | ⟨-, hcased⟩
  · rw [heq] at h
    exact List.mem_singleton.mp h
  · rw [hcased d h] at hd
    cases hd

theorem upperChar_or (c : Char) :
    (∃ d, upperChar c = [d]) ∨
      ∃ entry ∈ upperSequences, upperChar c = entry.2.map Char.ofNat := by
  rcases upperChar_cases c with ⟨-, heq⟩ | ⟨entry, hentry, -, heq⟩ | ⟨run, -, -, heq⟩ | heq
  · exact .inl ⟨_, heq⟩
  · exact .inr ⟨entry, hentry, heq⟩
  · exact .inl ⟨_, heq⟩
  · exact .inl ⟨_, heq⟩

theorem upperChar_ne_nil (c : Char) : upperChar c ≠ [] := by
  have hsequences : ∀ entry ∈ upperSequences, entry.2 ≠ [] := by decide +kernel
  rcases upperChar_or c with ⟨d, hd⟩ | ⟨entry, hentry, heq⟩
  · simp [hd]
  · simp [heq, hsequences entry hentry]

theorem isCaseless_of_isDecimalDigit (h : isDecimalDigit c) : isCaseless c := by
  rw [isCaseless, List.any_eq_true]
  unfold isDecimalDigit digitValue? at h
  dsimp only at h
  split at h
  · split at h
    · next hrange =>
      refine ⟨(0x00, 0x40), by simp [caselessRuns], ?_⟩
      simp only [Bool.and_eq_true, decide_eq_true_eq] at hrange ⊢
      omega
    · cases h
  · rw [Option.isSome_map] at h
    obtain ⟨start, hfind⟩ := Option.isSome_iff_exists.mp h
    have hstart := List.find?_some hfind
    refine ⟨(start, start + 9), ?_, hstart⟩
    exact List.mem_append_right _ (List.mem_map_of_mem (List.mem_of_find?_eq_some hfind))

theorem isCaseless_of_isBlank (h : isBlank c) : isCaseless c := by
  have hruns : ∀ run ∈ [(0x00, 0x40), (0x85, 0x85), (0xA0, 0xA0), (0x1680, 0x1680), (0x2000, 0x205F),
      (0x3000, 0x3000)], run ∈ caselessRuns := by decide +kernel
  have hfound : ∃ run ∈ [(0x00, 0x40), (0x85, 0x85), (0xA0, 0xA0), (0x1680, 0x1680),
      (0x2000, 0x205F), (0x3000, 0x3000)], run.1 ≤ c.toNat ∧ c.toNat ≤ run.2 := by
    simp only [isBlank, Bool.or_eq_true, Bool.and_eq_true, decide_eq_true_eq, beq_iff_eq] at h
    simp only [List.mem_cons, List.not_mem_nil, or_false, exists_eq_or_imp, exists_eq_left]
    omega
  obtain ⟨run, hrun, hrange⟩ := hfound
  exact List.any_eq_true.mpr ⟨run, hruns run hrun, by simpa using hrange⟩

-- --------------------
-- Capitals
-- --------------------

namespace CaseRun

variable {run a b : CaseRun} {n : Nat}

def moved (run : CaseRun) : CaseRun :=
  ⟨(run.first + run.shift).toNat, (run.last + run.shift).toNat, run.step, 0⟩

def single (n : Nat) : CaseRun := ⟨n, n, 1, 0⟩

/-- The first run has no character of the second: one ends before the other, or they take
turns, or the first is a single character that the second passes over. -/
def apart (a b : CaseRun) : Bool :=
  Nat.blt a.last b.first || Nat.blt b.last a.first ||
    (a.step == 2 && b.step == 2 && (a.first + b.first) % 2 == 1) ||
    (a.first == a.last && !b.covers a.first)

theorem covers_single (n : Nat) : (single n).covers n := by simp [covers, single]

theorem covers_moved (h : run.covers n) (hfirst : 0 ≤ run.first + run.shift) :
    run.moved.covers (n + run.shift).toNat := by
  simp only [covers, moved, Bool.and_eq_true, decide_eq_true_eq, beq_iff_eq] at h ⊢
  obtain ⟨⟨hlow, hhigh⟩, hstep⟩ := h
  have hoffset : (n + run.shift).toNat - (run.first + run.shift).toNat = n - run.first := by omega
  rw [hoffset]
  exact ⟨⟨decide_eq_true (by omega), decide_eq_true (by omega)⟩, hstep⟩

theorem covers_eq_false_of_apart (h : apart a b) (ha : a.covers n) : b.covers n = false := by
  simp only [covers, Bool.and_eq_true, decide_eq_true_eq, beq_iff_eq] at ha
  obtain ⟨⟨hfirst, hlast⟩, hstep⟩ := ha
  simp only [apart, Bool.or_eq_true, Bool.and_eq_true, Nat.blt_eq, beq_iff_eq,
    Bool.not_eq_true'] at h
  rcases h with ((hbefore | hafter) | ⟨⟨ha, hb⟩, hodd⟩) | ⟨hsingle, hnone⟩
  · simp only [covers, Bool.and_eq_false_iff, decide_eq_false_iff_not]
    omega
  · simp only [covers, Bool.and_eq_false_iff, decide_eq_false_iff_not]
    omega
  · simp only [covers, hb, Bool.and_eq_false_iff, decide_eq_false_iff_not, beq_eq_false_iff_ne]
    rw [ha] at hstep
    omega
  · obtain rfl : n = a.first := by omega
    exact hnone

end CaseRun

/-- The characters whose upper case is another: the small letters of ASCII, those of the
runs, and those that become several. -/
def changingRuns : List CaseRun :=
  ⟨0x61, 0x7A, 1, -32⟩ :: upperRuns ++ upperSequences.map fun entry => .single entry.1

theorem upperRuns_apart : upperRuns.all fun run =>
    decide (0 ≤ run.first + run.shift) && changingRuns.all run.moved.apart := by
  decide +kernel

theorem upperSequences_apart : upperSequences.all fun entry => entry.2.all fun code =>
    changingRuns.all (CaseRun.single code).apart := by
  decide +kernel

theorem ascii_toUpper_toUpper : (List.range 0x80).all fun n =>
    ((Char.ofNat n).toUpper == Char.ofNat n || (decide (0x61 ≤ n) && decide (n ≤ 0x7A))) &&
      upperChar (Char.ofNat n).toUpper == [(Char.ofNat n).toUpper] := by
  decide +kernel

theorem upperChar_eq_self (h : ∀ run ∈ changingRuns, run.covers c.toNat = false) :
    upperChar c = [c] := by
  rcases upperChar_cases c with
    ⟨hascii, heq⟩ | ⟨entry, hentry, hfirst, -⟩ | ⟨run, hrun, hcovers, -⟩ | heq
  · have hc := List.all_eq_true.mp ascii_toUpper_toUpper c.toNat (List.mem_range.mpr hascii)
    rw [Char.ofNat_toNat, Bool.and_eq_true, Bool.or_eq_true] at hc
    rcases hc.1 with hsame | hsmall
    · rw [heq, eq_of_beq hsame]
    · have hnone := h ⟨0x61, 0x7A, 1, -32⟩ (by simp [changingRuns])
      simp [CaseRun.covers, hsmall, Nat.mod_one] at hnone
  · have hnone := h (.single entry.1) (List.mem_append_right _ (List.mem_map_of_mem hentry))
    rw [← hfirst, CaseRun.covers_single] at hnone
    cases hnone
  · have hnone := h run (List.mem_append_left _ (List.mem_cons_of_mem _ hrun))
    rw [hcovers] at hnone
    cases hnone
  · exact heq

theorem upperChar_of_mem_upperChar (h : d ∈ upperChar c) : upperChar d = [d] := by
  rcases upperChar_cases c with
    ⟨hascii, heq⟩ | ⟨entry, hentry, -, heq⟩ | ⟨run, hrun, hcovers, heq⟩ | heq
  · have hc := List.all_eq_true.mp ascii_toUpper_toUpper c.toNat (List.mem_range.mpr hascii)
    rw [Char.ofNat_toNat, Bool.and_eq_true] at hc
    obtain rfl : d = c.toUpper := by simpa [heq] using h
    exact eq_of_beq hc.2
  · rw [heq] at h
    obtain ⟨code, hcode, rfl⟩ := List.mem_map.mp h
    have hchars := List.all_eq_true.mp upperSequences_allCased entry hentry
    simp only [Bool.and_eq_true, List.all_eq_true] at hchars
    have hapart := List.all_eq_true.mp (List.all_eq_true.mp upperSequences_apart entry hentry) code hcode
    refine upperChar_eq_self fun found hfound => ?_
    rw [toNat_ofNat (hchars.2 code hcode).2 (Nat.le_refl _) (Nat.le_refl _)]
    exact CaseRun.covers_eq_false_of_apart (List.all_eq_true.mp hapart found hfound)
      (CaseRun.covers_single code)
  · obtain rfl : d = Char.ofNat (c.toNat + run.shift).toNat := by simpa [heq] using h
    have htarget := List.all_eq_true.mp upperRuns_target run hrun
    have hapart := List.all_eq_true.mp upperRuns_apart run hrun
    simp only [Bool.and_eq_true, decide_eq_true_eq] at htarget hapart
    have hmoved := CaseRun.covers_moved hcovers hapart.1
    simp only [CaseRun.covers, Bool.and_eq_true, decide_eq_true_eq] at hcovers
    refine upperChar_eq_self fun found hfound => ?_
    rw [toNat_ofNat htarget.2 (by omega) (by omega)]
    exact CaseRun.covers_eq_false_of_apart (List.all_eq_true.mp hapart.2 found hfound) hmoved
  · obtain rfl : d = c := by simpa [heq] using h
    exact heq

-- --------------------
-- Texts
-- --------------------

theorem upper_append (a b : Text) : upper (a ++ b) = upper a ++ upper b := List.flatMap_append

theorem upper_cons (c : Char) (text : Text) : upper (c :: text) = upperChar c ++ upper text :=
  List.flatMap_cons

theorem upper_ne_nil (h : text ≠ []) : upper text ≠ [] := by
  obtain ⟨c, rest, rfl⟩ := List.exists_cons_of_ne_nil h
  rw [upper_cons]
  simp [upperChar_ne_nil]

/-- A character without a case stands in the upper case of a text when it stands in it. -/
theorem mem_upper_iff (h : isCaseless c) : c ∈ upper text ↔ c ∈ text := by
  rw [upper, List.mem_flatMap]
  constructor
  · rintro ⟨d, hd, hc⟩
    rwa [eq_of_mem_upperChar hc h]
  · intro hc
    exact ⟨c, hc, by simp [upperChar_of_isCaseless h]⟩

theorem upper_eq_self_of_forall (h : ∀ c ∈ text, upperChar c = [c]) : upper text = text := by
  induction text with
  | nil => rfl
  | cons c text ih =>
    obtain ⟨hc, htext⟩ := List.forall_mem_cons.mp h
    rw [upper_cons, hc, ih htext]
    rfl

theorem upper_upper (text : Text) : upper (upper text) = upper text := by
  refine upper_eq_self_of_forall fun d hd => ?_
  obtain ⟨c, -, hd⟩ := List.mem_flatMap.mp hd
  exact upperChar_of_mem_upperChar hd

theorem upper_eq_self (h : ∀ c ∈ upper text, isCaseless c) : upper text = text := by
  induction text with
  | nil => rfl
  | cons c text ih =>
    rw [upper_cons] at h ⊢
    obtain ⟨d, hd⟩ := List.exists_mem_of_ne_nil _ (upperChar_ne_nil c)
    have hcaseless := h d (List.mem_append_left _ hd)
    obtain rfl := eq_of_mem_upperChar hd hcaseless
    rw [upperChar_of_isCaseless hcaseless, ih fun e he => h e (List.mem_append_right _ he)]
    rfl

theorem upper_of_isCaseless (h : ∀ c ∈ text, isCaseless c) : upper text = text :=
  upper_eq_self_of_forall fun c hc => upperChar_of_isCaseless (h c hc)

theorem isBlank_head?_upperChar (h : isBlank c = false) :
    ∀ d ∈ (upperChar c).head?, isBlank d = false := by
  intro d hd
  refine Bool.eq_false_iff.mpr fun hblank => ?_
  rw [eq_of_mem_upperChar (List.mem_of_mem_head? hd) (isCaseless_of_isBlank hblank), h] at hblank
  cases hblank

theorem trimLeft_upper_append (h : ∃ c ∈ text, isBlank c = false) (rest : Text) :
    trimLeft (upper text ++ rest) = upper (trimLeft text) ++ rest := by
  induction text with
  | nil => simp at h
  | cons c text ih =>
    cases hc : isBlank c with
    | true =>
      have hrest : ∃ d ∈ text, isBlank d = false := by
        obtain ⟨d, hd, hblank⟩ := h
        rcases List.mem_cons.mp hd with rfl | hd
        · rw [hc] at hblank
          cases hblank
        · exact ⟨d, hd, hblank⟩
      rw [upper_cons, upperChar_of_isCaseless (isCaseless_of_isBlank hc), List.singleton_append,
        List.cons_append]
      simpa [trimLeft, hc] using ih hrest
    | false =>
      have hleft : trimLeft (c :: text) = c :: text := by simp [trimLeft, hc]
      rw [hleft, trimLeft_eq_self]
      intro d hd
      obtain ⟨e, es, he⟩ := List.exists_cons_of_ne_nil (upperChar_ne_nil c)
      rw [upper_cons, he] at hd
      exact isBlank_head?_upperChar hc d (by simpa [he] using hd)

end InfinityScript.Text
