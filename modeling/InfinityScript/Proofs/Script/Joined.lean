import InfinityScript.Proofs.Diagnostics
import InfinityScript.Proofs.Script.Passes

/-!
# Decompiled source put together

The source of lines, what they use and what there is to say about them, when the
lines come in several parts: the diagnostics of a part move down by the lines before
it.
-/

namespace InfinityScript.Decompiled

theorem mem_filterMap_notes {note : α → Note} {pick : Note → Option α} {lines : List SourceLine}
    (hpick : ∀ {n a}, pick n = some a ↔ n = note a) :
    a ∈ (lines.flatMap SourceLine.notes).filterMap pick ↔ ∃ line ∈ lines, note a ∈ line.notes := by
  simp only [List.mem_filterMap, hpick, exists_eq_right, List.mem_flatMap]

theorem mem_resources {lines : List SourceLine} :
    name ∈ (ofLines true lines).resources ↔ ∃ line ∈ lines, .resource name ∈ line.notes := by
  simp only [ofLines, if_true, flatMap_fst_zipIdx]
  rw [Std.TreeSet.mem_ofList, List.contains_iff_mem]
  apply mem_filterMap_notes
  intro note name
  cases note <;> simp [Note.resource?]

theorem mem_stringRefs {lines : List SourceLine} :
    number ∈ (ofLines true lines).stringRefs ↔ ∃ line ∈ lines, .stringRef number ∈ line.notes := by
  simp only [ofLines, if_true, flatMap_fst_zipIdx]
  rw [Std.TreeSet.mem_ofList, List.contains_iff_mem]
  apply mem_filterMap_notes
  intro note number
  cases note <;> simp [Note.stringRef?]

theorem mem_messagesFrom (h : message ∈ messagesFrom first lines) :
    first ≤ message.1 ∧ message.1 < first + lines.length := by
  induction lines generalizing first with
  | nil => simp [messagesFrom] at h
  | cons line lines ih =>
    rw [messagesFrom_cons, List.mem_append] at h
    rcases h with h | h
    · obtain ⟨text, -, rfl⟩ := List.mem_map.mp h
      simp only [List.length_cons]
      omega
    · have := ih h
      simp only [List.length_cons]
      omega

/-- The messages of lines that come after `k` others. -/
theorem about_messagesFrom_add (k first : Nat) (line : Int) (lines : List SourceLine) :
    Diagnostics.about line (messagesFrom (k + first) lines) =
      Diagnostics.about (line - k) (messagesFrom first lines) := by
  induction lines generalizing first with
  | nil => rfl
  | cons head lines ih =>
    rw [messagesFrom_cons, messagesFrom_cons, Diagnostics.about_append, Diagnostics.about_append,
      Nat.add_assoc, ih]
    congr 1
    simp only [Diagnostics.about, List.filterMap_map, Function.comp_def]
    have hiff : (((k + first : Nat) : Int) = line) ↔ ((first : Int) = line - k) := by omega
    simp only [hiff]

theorem getElem?_diagnostics (lines : List SourceLine) (line : Int) :
    (ofLines true lines).diagnostics[line]? =
      (Diagnostics.about line (messagesFrom 1 lines)).getLast? :=
  Diagnostics.getElem?_ofList _ _

theorem getLast?_about_flatten (parts : List (List SourceLine)) (line : Int) (k : Nat) :
    (Diagnostics.about line (messagesFrom (k + 1) parts.flatten)).getLast? = some message ↔
      ∃ before part after, parts = before ++ part :: after ∧
        (Diagnostics.about (line - (k + before.flatten.length : Nat))
          (messagesFrom 1 part)).getLast? = some message := by
  induction parts generalizing k with
  | nil => simp [messagesFrom, Diagnostics.about]
  | cons part parts ih =>
    rw [List.flatten_cons, messagesFrom_append, Diagnostics.about_append]
    have hfirst : ∀ message ∈ messagesFrom (k + 1) part, message.1 < (k + 1 + part.length : Nat) :=
      fun message hmem => by have := mem_messagesFrom hmem; omega
    have hrest : ∀ message ∈ messagesFrom (k + 1 + part.length) parts.flatten,
        (k + 1 + part.length : Nat) ≤ message.1 := fun message hmem => (mem_messagesFrom hmem).1
    -- Of the two lists only one speaks about the line.
    have hsplit : (Diagnostics.about line (messagesFrom (k + 1) part) ++
          Diagnostics.about line (messagesFrom (k + 1 + part.length) parts.flatten)).getLast? =
            some message ↔
        (Diagnostics.about line (messagesFrom (k + 1) part)).getLast? = some message ∨
          (Diagnostics.about line (messagesFrom (k + 1 + part.length) parts.flatten)).getLast? =
            some message := by
      by_cases hline : line < (k + 1 + part.length : Nat)
      · have hnil : Diagnostics.about line
            (messagesFrom (k + 1 + part.length) parts.flatten) = [] :=
          Diagnostics.about_eq_nil fun m hm e => by have := hrest m hm; omega
        simp [hnil]
      · have hnil : Diagnostics.about line (messagesFrom (k + 1) part) = [] :=
          Diagnostics.about_eq_nil fun m hm e => by have := hfirst m hm; omega
        simp [hnil]
    rw [hsplit, about_messagesFrom_add k 1, Nat.add_right_comm, ih]
    constructor
    · rintro (hpart | ⟨before, found, after, rfl, hfound⟩)
      · exact ⟨[], part, parts, rfl, by simpa using hpart⟩
      · refine ⟨part :: before, found, after, rfl, ?_⟩
        simpa [Nat.add_assoc] using hfound
    · rintro ⟨before, found, after, hparts, hfound⟩
      cases before with
      | nil =>
        obtain ⟨rfl, rfl⟩ := List.cons.inj hparts
        exact .inl (by simpa using hfound)
      | cons head before =>
        obtain ⟨rfl, rfl⟩ := List.cons.inj hparts
        refine .inr ⟨before, found, after, rfl, ?_⟩
        simpa [Nat.add_assoc] using hfound

theorem source_flatten (collect : Bool) (parts : List (List SourceLine)) :
    (ofLines collect parts.flatten).source =
      (parts.map (ofLines collect)).flatMap Decompiled.source := by
  induction parts with
  | nil => rfl
  | cons part parts ih =>
    simp only [ofLines, Text.ofLines, List.flatten_cons, List.map_append, List.flatMap_append,
      List.map_cons, List.flatMap_cons] at ih ⊢
    rw [ih]

theorem count_source {lines : List SourceLine} (h : ∀ line ∈ lines, '\n' ∉ line.text) :
    (ofLines true lines).source.count '\n' = lines.length := by
  induction lines with
  | nil => rfl
  | cons line lines ih =>
    have hline : line.text.count '\n' = 0 := List.count_eq_zero_of_not_mem (h line (by simp))
    have hlines := ih fun l hl => h l (by simp [hl])
    simp only [ofLines, Text.ofLines, List.map_cons, List.flatMap_cons, List.count_append,
      hline] at hlines ⊢
    rw [hlines]
    simp
    omega

theorem exists_line_flatten {Q : SourceLine → Prop} {U : Decompiled → Prop}
    (h : ∀ lines, U (ofLines true lines) ↔ ∃ line ∈ lines, Q line)
    (parts : List (List SourceLine)) :
    U (ofLines true parts.flatten) ↔ ∃ part ∈ parts.map (ofLines true), U part := by
  rw [h]
  constructor
  · rintro ⟨line, hline, hQ⟩
    obtain ⟨part, hpart, hline⟩ := List.mem_flatten.mp hline
    exact ⟨_, List.mem_map_of_mem hpart, (h part).mpr ⟨line, hline, hQ⟩⟩
  · rintro ⟨_, hmem, hU⟩
    obtain ⟨part, hpart, rfl⟩ := List.mem_map.mp hmem
    obtain ⟨line, hline, hQ⟩ := (h part).mp hU
    exact ⟨line, List.mem_flatten.mpr ⟨part, hpart, hline⟩, hQ⟩

/-- The diagnostics of parts, each moved down by the line feeds before it. -/
theorem getElem?_diagnostics_flatten {parts : List (List SourceLine)}
    (h : ∀ lines ∈ parts, ∀ line ∈ lines, '\n' ∉ line.text) (line : Int) :
    (ofLines true parts.flatten).diagnostics[line]? = some message ↔
      ∃ before part after, parts.map (ofLines true) = before ++ part :: after ∧
        part.diagnostics[line - (before.flatMap Decompiled.source).count '\n']? =
          some message := by
  have hcount : ∀ before part after, parts = before ++ part :: after →
      ((before.map (ofLines true)).flatMap Decompiled.source).count '\n' = before.flatten.length := by
    rintro before part after rfl
    rw [← source_flatten true, count_source]
    intro line hline
    obtain ⟨lines, hlines, hline⟩ := List.mem_flatten.mp hline
    exact h lines (by simp [hlines]) line hline
  have habout := @getLast?_about_flatten message parts line 0
  simp only [Nat.zero_add] at habout
  rw [getElem?_diagnostics, habout]
  constructor
  · rintro ⟨before, part, after, hparts, hmessage⟩
    refine ⟨before.map (ofLines true), ofLines true part, after.map (ofLines true), ?_, ?_⟩
    · rw [hparts, List.map_append, List.map_cons]
    · rw [hcount before part after hparts, getElem?_diagnostics]
      exact hmessage
  · rintro ⟨before, part, after, hparts, hmessage⟩
    obtain ⟨before, rest, hrest, rfl, hmap⟩ := List.map_eq_append_iff.mp hparts
    obtain ⟨part, after, rfl, rfl, -⟩ := List.map_eq_cons_iff.mp hmap
    rw [hcount before part after hrest, getElem?_diagnostics] at hmessage
    exact ⟨before, part, after, hrest, hmessage⟩

end InfinityScript.Decompiled
