import InfinityScript.Codepage
import InfinityScript.Proofs.Text.Over

/-!
# Texts of the codepage

A text comes from bytes exactly when all its characters have a byte
(`Text.isCoded_iff`), and the bytes it is encoded to are decoded to it again
(`Text.IsCoded.encode`).
-/

namespace InfinityScript

def Text.IsCoded (text : Text) : Prop := ∃ bytes, Codepage.decode bytes = .ok text

namespace Codepage

def Has (c : Char) : Prop := (encodeChar? c).isSome

theorem has_of_ascii (h : c.toNat < 128) : Has c := by
  simp [Has, encodeChar?, h]

theorem encodeChar?_decodeByte? (h : decodeByte? byte = some c) : encodeChar? c = some byte := by
  have hall : ∀ n < 256, (decodeByte? n.toUInt8).all fun c => encodeChar? c == some n.toUInt8 := by
    decide +kernel
  have hbyte : byte.toNat.toUInt8 = byte := by simp
  have hfound := hall byte.toNat byte.toNat_lt
  rw [hbyte, h] at hfound
  exact beq_iff_eq.mp hfound

theorem decodeByte?_encodeChar? (h : encodeChar? c = some byte) : decodeByte? byte = some c := by
  have hupper : ∀ i < upperControls.length, upperControls.getD i 0 ≠ 0 →
      decodeByte? (0x80 + i).toUInt8 = some (Char.ofNat (upperControls.getD i 0)) := by
    decide +kernel
  unfold encodeChar? at h
  dsimp only at h
  split at h
  · next hlatin =>
    obtain rfl := Option.some.inj h
    have hnat : c.toNat.toUInt8.toNat = c.toNat := by
      rw [Nat.toUInt8_eq, UInt8.toNat_ofNat']
      omega
    unfold decodeByte?
    dsimp only
    rw [hnat, if_neg (by omega), Char.ofNat_toNat]
  · next hlatin =>
    split at h
    · next i hi =>
      obtain rfl := Option.some.inj h
      obtain ⟨hlt, hcode, -⟩ := List.idxOf?_eq_some_iff.mp hi
      have hcode : upperControls.getD i 0 = c.toNat := by
        rw [List.getD_eq_getElem?_getD, List.getElem?_eq_getElem hlt]
        exact hcode
      have hc := hupper i hlt (by omega)
      rw [hcode, Char.ofNat_toNat] at hc
      exact hc
    · cases h

theorem over_has_of_decodeFrom (h : decodeFrom position bytes = .ok text) : Text.Over Has text := by
  induction bytes generalizing position text with
  | nil =>
    cases h
    exact Text.over_nil
  | cons byte bytes ih =>
    rw [decodeFrom] at h
    split at h
    · cases h
    · next c hbyte =>
      cases hrest : decodeFrom (position + 1) bytes with
      | error fault =>
        rw [hrest] at h
        cases h
      | ok rest =>
        rw [hrest] at h
        cases h
        refine Text.over_cons.mpr ⟨?_, ih hrest⟩
        rw [Has, encodeChar?_decodeByte? hbyte]
        rfl

theorem exists_encodeFrom (h : Text.Over Has text) (position : Nat) :
    ∃ bytes, encodeFrom position text = .ok bytes ∧ ∀ start, decodeFrom start bytes = .ok text := by
  induction text generalizing position with
  | nil => exact ⟨[], rfl, fun _ => rfl⟩
  | cons c text ih =>
    obtain ⟨hc, htext⟩ := Text.over_cons.mp h
    obtain ⟨byte, hbyte⟩ := Option.isSome_iff_exists.mp hc
    obtain ⟨bytes, hencode, hdecode⟩ := ih htext (position + 1)
    refine ⟨byte :: bytes, ?_, fun start => ?_⟩
    · simp only [encodeFrom, hbyte, hencode, Except.map]
    · simp only [decodeFrom, decodeByte?_encodeChar? hbyte, hdecode, Except.map]

end Codepage

namespace Text

theorem isCoded_iff : IsCoded text ↔ Over Codepage.Has text := by
  constructor
  · rintro ⟨bytes, h⟩
    exact Codepage.over_has_of_decodeFrom h
  · intro h
    obtain ⟨bytes, -, hdecode⟩ := Codepage.exists_encodeFrom h 0
    exact ⟨bytes, hdecode 0⟩

instance : Decidable (IsCoded text) :=
  decidable_of_iff (text.all fun c => (Codepage.encodeChar? c).isSome)
    (List.all_eq_true.trans isCoded_iff.symm)

/-- The bytes of a text give it back. -/
theorem IsCoded.encode (h : IsCoded text) :
    ∃ bytes, Codepage.encode text = .ok bytes ∧ Codepage.decode bytes = .ok text := by
  obtain ⟨bytes, hencode, hdecode⟩ := Codepage.exists_encodeFrom (isCoded_iff.mp h) 0
  exact ⟨bytes, hencode, hdecode 0⟩

end Text

end InfinityScript
