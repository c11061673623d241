import InfinityScript.Proofs.Text.Cut
import InfinityScript.Proofs.Text.Numeral

/-!
# Texts over an alphabet

Which characters a text is made of (`Text.Over`), for alphabets that have at least the
characters that the fixed texts of a script are made of.
-/

namespace InfinityScript.Text

/-- The characters of the texts that the compiler and the decompiler write of their own,
line feeds apart. -/
def isPlain (c : Char) : Bool := 0x20 ≤ c.toNat && c.toNat ≤ 0x7E

def Over (K : Char → Prop) (text : Text) : Prop := ∀ c ∈ text, K c

def HasPlain (K : Char → Prop) : Prop := ∀ c, isPlain c → K c

variable {K : Char → Prop}

@[simp] theorem over_nil : Over K [] := by simp [Over]

@[simp] theorem over_cons : Over K (c :: text) ↔ K c ∧ Over K text := by simp [Over]

@[simp] theorem over_append {a b : Text} : Over K (a ++ b) ↔ Over K a ∧ Over K b :=
  List.forall_mem_append

theorem Over.of_subset (h : Over K text) (hpart : part ⊆ text) : Over K part := fun c hc =>
  h c (hpart hc)

theorem over_flatMap {f : α → Text} {xs : List α} (h : ∀ x ∈ xs, Over K (f x)) :
    Over K (xs.flatMap f) := by
  intro c hc
  obtain ⟨x, hx, hc⟩ := List.mem_flatMap.mp hc
  exact h x hx c hc

theorem over_flatten {texts : List Text} (h : ∀ text ∈ texts, Over K text) :
    Over K texts.flatten := by
  intro c hc
  obtain ⟨text, htext, hc⟩ := List.mem_flatten.mp hc
  exact h text htext c hc

theorem over_join (hseparator : Over K separator) (h : ∀ piece ∈ texts, Over K piece) :
    Over K (join separator texts) := by
  intro c hc
  rcases mem_join hc with hc | ⟨piece, hpiece, hc⟩
  · exact hseparator c hc
  · exact h piece hpiece c hc

theorem HasPlain.over (hK : HasPlain K) (h : text.all isPlain) : Over K text := fun c hc =>
  hK c (List.all_eq_true.mp h c hc)

theorem HasPlain.ofNat (hK : HasPlain K) (n : Nat) : Over K (ofNat n) := by
  refine hK.over (List.all_eq_true.mpr fun c hc => ?_)
  have hdigit := Nat.isDigit_of_mem_toDigits (by decide) (by decide) hc
  simp only [Char.isDigit, Bool.and_eq_true, decide_eq_true_eq, ge_iff_le,
    UInt32.le_iff_toNat_le] at hdigit
  simp only [isPlain, Bool.and_eq_true, decide_eq_true_eq]
  change 48 ≤ c.toNat ∧ c.toNat ≤ 57 at hdigit
  omega

theorem HasPlain.ofInt (hK : HasPlain K) (n : Int) : Over K (ofInt n) := by
  cases n with
  | ofNat n => exact hK.ofNat n
  | negSucc n => exact over_cons.mpr ⟨hK _ (by decide), hK.ofNat _⟩

end InfinityScript.Text
