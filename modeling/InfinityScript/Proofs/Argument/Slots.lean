import InfinityScript.Proofs.Record.Object
import InfinityScript.Proofs.Script.Encode
import InfinityScript.Proofs.Script.Faultless
import InfinityScript.Proofs.Text.Case

/-!
# Arguments that fill slots

What the slots of a record hold when every argument has been encoded without a fault:
numbers that can be read, and strings that are closed where they end, also after the
scopes are packed into them (`Scope.all_pack`).
-/

namespace InfinityScript

open Encoding

/-- There are so many slots, and all hold values of `P`. -/
def Slots.All (count : Nat) (P : Text → Prop) (slots : Slots) : Prop :=
  slots.values.length = count ∧ ∀ value ∈ slots.values, P value

theorem Slots.all_blank {P : Text → Prop} (h : P value) (count : Nat) :
    (Slots.blank count value).All count P :=
  ⟨by simp [blank], fun found hfound => List.eq_of_mem_replicate hfound ▸ h⟩

theorem assignSlot_ok (h : assignSlot slots index value = .ok (slots', next)) :
    ∃ i, slots' = slots.set i value := by
  unfold assignSlot at h
  split at h
  · split at h
    · exact ⟨_, (Prod.mk.inj (Except.ok.inj h)).1.symm⟩
    · cases h
  · split at h
    · exact ⟨_, (Prod.mk.inj (Except.ok.inj h)).1.symm⟩
    · split at h <;> cases h

theorem Slots.All.of_fill {P : Text → Prop} {slots filled : Slots} (hslots : slots.All count P)
    (hvalue : P value) (h : slots.fill value = .ok filled) : filled.All count P := by
  obtain ⟨⟨values, next⟩, hassign, hfilled⟩ := Outcome.bind_ok.mp h
  obtain rfl := Outcome.pure_ok.mp hfilled
  obtain ⟨i, rfl⟩ := assignSlot_ok hassign
  refine ⟨by simpa using hslots.1, fun found hfound => ?_⟩
  rcases List.mem_or_eq_of_mem_set hfound with hmem | rfl
  · exact hslots.2 found hmem
  · exact hvalue

theorem Slots.All.fill {P : Text → Prop} {slots filled : Slots} (hslots : slots.All count P)
    (hvalue : P value) (h : Succeeds (Encoding.fill slots value) filled) : filled.All count P :=
  hslots.of_fill hvalue (succeeds_fill.mp h)

namespace Slots

def holding (count : Nat) (blank : Text) (values : List Text) : Slots where
  values := values ++ List.replicate (count - values.length) blank
  next := values.length

theorem fill_holding {values : List Text} (h : values.length < count) (blank value : Text) :
    (holding count blank values).fill value = .ok (holding count blank (values ++ [value])) := by
  obtain ⟨rest, rfl⟩ : ∃ rest, count = values.length + (rest + 1) :=
    ⟨count - values.length - 1, by omega⟩
  have hassign : assignSlot (values ++ List.replicate (rest + 1) blank) values.length value =
      .ok (values ++ value :: List.replicate rest blank, values.length + 1) := by
    show (if values.length < _ then _ else _) = _
    rw [if_pos (by simp), List.set_append_right _ _ (Nat.le_refl _), Nat.sub_self,
      List.replicate_succ, List.set_cons_zero]
  have hrest : values.length + (rest + 1) - (values.length + 1) = rest := by omega
  simp only [holding, fill, Nat.add_sub_cancel_left, hassign, List.length_append,
    List.length_singleton, hrest, List.append_assoc, List.singleton_append]
  rfl

theorem getD_holding (h : i < count) (blank default : Text) (values : List Text) :
    (holding count blank values).values.getD i default = values.getD i blank := by
  simp only [holding, List.getD_eq_getElem?_getD]
  by_cases hi : i < values.length
  · rw [List.getElem?_append_left hi]
    simp [hi]
  · have hnone : values.length ≤ i := Nat.le_of_not_lt hi
    rw [List.getElem?_append_right hnone, List.getElem?_replicate, if_pos (by omega),
      List.getElem?_eq_none hnone]
    rfl

end Slots

def IsNumber (text : Text) : Prop := ∃ n, text = Text.ofInt n ∧ Text.FewDigits (Text.ofInt n)

theorem Slots.All.exists_numbers {slots : Slots} (h : slots.All 3 IsNumber) :
    ∃ first second third, slots.values = [Text.ofInt first, Text.ofInt second, Text.ofInt third] ∧
      ∀ n ∈ [first, second, third], Text.FewDigits (Text.ofInt n) := by
  obtain ⟨hlength, hall⟩ := h
  match hvalues : slots.values, hlength with
  | [a, b, c], _ =>
    rw [hvalues] at hall
    obtain ⟨first, rfl, hfirst⟩ := hall a (by simp)
    obtain ⟨second, rfl, hsecond⟩ := hall b (by simp)
    obtain ⟨third, rfl, hthird⟩ := hall c (by simp)
    exact ⟨first, second, third, rfl, by simp [hfirst, hsecond, hthird]⟩

namespace Argument

theorem integer_ok (h : integer symbols definition value = .ok n) :
    Text.FewDigits (Text.ofInt n) := by
  obtain ⟨literal, -, h⟩ := Outcome.bind_ok.mp h
  cases literal with
  | some m =>
    obtain ⟨rfl, hfew⟩ := Text.writable_eq_ok_iff.mp (Outcome.mapError_ok.mp h)
    exact hfew
  | none =>
    obtain ⟨m, -, h⟩ := Outcome.bind_ok.mp h
    obtain ⟨rfl, hfew⟩ := Text.writable_eq_ok_iff.mp (Outcome.mapError_ok.mp h)
    exact hfew

theorem isNumber_encodeInteger (h : Succeeds (encodeInteger symbols definition value) text) :
    IsNumber text := by
  obtain ⟨part, hpart, rfl, -⟩ := succeeds_ofPart.mp h
  obtain ⟨n, hn, hpart⟩ := Outcome.bind_ok.mp hpart
  obtain rfl := Outcome.pure_ok.mp hpart
  exact ⟨n, rfl, integer_ok hn⟩

def IsPoint (text : Text) : Prop :=
  ∃ x y, text = Text.ofInt x ++ " " ++ Text.ofInt y ∧ Text.FewDigits (Text.ofInt x) ∧
    Text.FewDigits (Text.ofInt y)

theorem isPoint_encodePoint (hcount : (Text.splitOn '.' (Text.inner value)).length = 2)
    (h : Succeeds (encodePoint definition value) text) : IsPoint text := by
  obtain ⟨part, hpart, rfl, -⟩ := succeeds_ofPart.mp h
  obtain ⟨numbers, hnumbers, hpart⟩ := Outcome.bind_ok.mp hpart
  obtain rfl := Outcome.pure_ok.mp hpart
  have hnumbers := Outcome.mapError_ok.mp hnumbers
  unfold point at hnumbers
  dsimp only at hnumbers
  split at hnumbers
  · split at hnumbers
    · cases hnumbers
    · split at hnumbers
      · next found hfound =>
        obtain rfl := Except.ok.inj hnumbers
        match hsplit : Text.splitOn '.' (Text.inner value), hcount with
        | [first, second], _ =>
          rw [hsplit] at hfound
          simp only [List.mapM_cons, List.mapM_nil, Option.bind_eq_bind] at hfound
          obtain ⟨x, hx, hfound⟩ := Option.bind_eq_some_iff.mp hfound
          obtain ⟨rest, hrest, hfound⟩ := Option.bind_eq_some_iff.mp hfound
          obtain ⟨y, hy, hrest⟩ := Option.bind_eq_some_iff.mp hrest
          cases hrest
          cases hfound
          refine ⟨x, y, ?_, Text.fewDigits_of_readLoose? hx, Text.fewDigits_of_readLoose? hy⟩
          simp [Text.join, List.intercalate]
      · cases hnumbers
  · cases hnumbers

end Argument

def IsString (G : Char → Prop) (text : Text) : Prop := Quoted text ∧ ∀ c ∈ text, G c

namespace Scope

/-- No part of a reserved name is the upper case of one character alone. -/
theorem upperSequences_reserved : ∀ entry ∈ Text.upperSequences, ∀ name ∈ reserved,
    ¬ entry.2.map Char.ofNat <:+: name := by
  decide +kernel

theorem length_of_reserved (h : Text.upper value ∈ reserved) : value.length = 8 := by
  have hone : ∀ c ∈ value, (Text.upperChar c).length = 1 := by
    intro c hc
    rcases Text.upperChar_or c with ⟨d, hd⟩ | ⟨entry, hentry, heq⟩
    · rw [hd]
      rfl
    · obtain ⟨before, after, rfl⟩ := List.append_of_mem hc
      refine absurd ?_ (upperSequences_reserved entry hentry _ h)
      rw [← heq, Text.upper, List.flatMap_append, List.flatMap_cons, ← List.append_assoc]
      exact ⟨_, _, rfl⟩
  have hlength : (Text.upper value).length = value.length := by
    rw [Text.upper, List.length_flatMap, List.map_congr_left hone, List.map_const',
      List.sum_replicate_nat, Nat.mul_one]
  have height : ∀ name ∈ reserved, name.length = 8 := by decide
  exact hlength.symm.trans (height _ h)

theorem length_of_isScope (h : isScope symbols value) : value.length = 8 := by
  unfold isScope at h
  simp only [Bool.or_eq_true, Bool.and_eq_true, beq_iff_eq] at h
  rcases h with h | ⟨h, -⟩
  · exact length_of_reserved (by simpa using h)
  · exact h

theorem isString_packed {G : Char → Prop} (hvalue : IsString G value) (hlast : IsString G last)
    (hscope : isScope symbols value) : IsString G (value.take 7 ++ last.drop 1) := by
  have hlength := length_of_isScope hscope
  obtain ⟨⟨body, rfl, hbody⟩, hchars⟩ := hvalue
  obtain ⟨⟨rest, rfl, hrest⟩, hchars'⟩ := hlast
  refine ⟨⟨body.take 6 ++ rest, ?_, ?_⟩, fun c hc => ?_⟩
  · have hbody : 6 ≤ body.length := by
      rw [List.length_cons, List.length_append, List.length_singleton] at hlength
      omega
    simp [List.take_append_of_le_length hbody]
  · simp only [List.mem_append, not_or]
    exact ⟨fun hmem => hbody (List.mem_of_mem_take hmem), hrest⟩
  · rcases List.mem_append.mp hc with hc | hc
    · exact hchars c (List.mem_of_mem_take hc)
    · exact hchars' c (List.mem_of_mem_drop hc)

section

variable {P : Text → Prop}

/-- Packing keeps what holds of strings and of those that a scope is packed into. -/
theorem all_packNext (hpack : ∀ {value last : Text}, isScope symbols value → P value → P last →
      P (value.take 7 ++ last.drop 1))
    {packed : List Text} (hpacked : ∀ text ∈ packed, P text) (hvalue : P value) (opcode : Int) :
    ∀ text ∈ packNext symbols opcode packed value, P text := by
  cases packed with
  | nil => simpa [packNext] using hvalue
  | cons last earlier =>
    rw [packNext]
    split
    · next h =>
      intro text htext
      rcases List.mem_cons.mp htext with rfl | htext
      · exact hpack h.2.1 hvalue (hpacked last (by simp))
      · exact hpacked text (by simp [htext])
    · intro text htext
      rcases List.mem_cons.mp htext with rfl | htext
      · exact hvalue
      · exact hpacked text htext

theorem foldl_packNext (hpack : ∀ {value last : Text}, isScope symbols value → P value → P last →
      P (value.take 7 ++ last.drop 1))
    (opcode : Int) {strings packed : List Text} (hstrings : ∀ text ∈ strings, P text)
    (hpacked : ∀ text ∈ packed, P text) :
    ∀ text ∈ strings.foldl (packNext symbols opcode) packed, P text := by
  induction strings generalizing packed with
  | nil => exact hpacked
  | cons value strings ih =>
    have hnext := all_packNext hpack hpacked (hstrings value (by simp)) opcode
    exact ih (fun text htext => hstrings text (by simp [htext])) hnext

theorem all_pack_of (hpack : ∀ {value last : Text}, isScope symbols value → P value → P last →
      P (value.take 7 ++ last.drop 1))
    (hempty : P emptyString) (h : pack symbols opcode strings = .ok (packed, faults))
    (hstrings : ∀ text ∈ strings, P text) : ∀ text ∈ packed, P text := by
  intro text htext
  obtain ⟨found, -, h⟩ := Outcome.bind_ok.mp h
  obtain ⟨rfl, -⟩ := Prod.mk.inj (Outcome.pure_ok.mp h)
  rcases List.mem_append.mp htext with htext | htext
  · exact foldl_packNext hpack opcode hstrings (by simp) text (List.mem_reverse.mp htext)
  · obtain rfl := List.eq_of_mem_replicate htext
    exact hempty

end

theorem length_packNext_le (symbols : Symbols) (opcode : Int) (packed : List Text) (value : Text) :
    (packNext symbols opcode packed value).length ≤ packed.length + 1 := by
  cases packed with
  | nil => simp [packNext]
  | cons last earlier =>
    rw [packNext]
    split <;> simp

theorem length_foldl_packNext_le (symbols : Symbols) (opcode : Int) (strings packed : List Text) :
    (strings.foldl (packNext symbols opcode) packed).length ≤ packed.length + strings.length := by
  induction strings generalizing packed with
  | nil => simp
  | cons value strings ih =>
    have hle := length_packNext_le symbols opcode packed value
    have hrest := ih (packNext symbols opcode packed value)
    simp only [List.foldl_cons, List.length_cons]
    omega

theorem length_pack (h : pack symbols opcode strings = .ok (packed, faults)) :
    packed.length = strings.length := by
  obtain ⟨found, -, h⟩ := Outcome.bind_ok.mp h
  obtain ⟨rfl, -⟩ := Prod.mk.inj (Outcome.pure_ok.mp h)
  have hlength := length_foldl_packNext_le symbols opcode strings []
  simp only [List.length_append, List.length_reverse, List.length_replicate, List.length_nil] at *
  omega

theorem head?_of_pack (h : pack symbols opcode strings = .ok (packed, [])) :
    ∀ text ∈ strings, text.head? = some '"' := by
  obtain ⟨faults, hfaults, h⟩ := Outcome.bind_ok.mp h
  have hnone := (Prod.mk.inj (Outcome.pure_ok.mp h)).2
  intro text htext
  obtain ⟨fault, hmem, hfault⟩ := Outcome.mem_mapM_ok hfaults htext
  obtain rfl : fault = none := List.filterMap_eq_nil_iff.mp hnone fault hmem
  cases text with
  | nil => cases hfault
  | cons c rest =>
    have hfault := Except.ok.inj hfault
    by_cases hc : c = '"'
    · rw [hc, List.head?_cons]
    · by_cases hlast : (c :: rest).getLast? = some '"'
      · simp [hc, hlast] at hfault
      · simp [hc, hlast] at hfault

theorem all_pack {G : Char → Prop} (hquote : G '"')
    (h : pack symbols opcode strings = .ok (packed, []))
    (hstrings : ∀ text ∈ strings, text.head? = some '"' → IsString G text) :
    packed.length = strings.length ∧ ∀ text ∈ packed, IsString G text := by
  have hstrings : ∀ text ∈ strings, IsString G text := fun text htext =>
    hstrings text htext (head?_of_pack h text htext)
  have hempty : IsString G emptyString := ⟨quoted_emptyString, by simpa [emptyString] using hquote⟩
  exact ⟨length_pack h, all_pack_of (fun hscope hvalue hlast => isString_packed hvalue hlast hscope)
    hempty h hstrings⟩

end Scope

end InfinityScript
