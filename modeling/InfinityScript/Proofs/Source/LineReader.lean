import InfinityScript.Source.Line

/-!
# Reading a source line by line

A reader keeps two counters, the lines it has read and the number of the last of them. What
one look for a statement can do is said by `seek_cases`; from it follows that the counters
stay in step whatever is asked (`InStep.perform`), and that the statements come with the
numbers of their physical lines (`perform_numbers`).
-/

namespace InfinityScript

theorem Line.statements_eq_map (first : Nat) (lines : List Text) :
    Line.statements first lines =
      ((lines.zipIdx first).filter fun pair => Text.statement pair.1 ≠ []).map fun pair =>
        ⟨pair.2, Text.statement pair.1⟩ := by
  induction lines generalizing first with
  | nil => rfl
  | cons line lines ih =>
    by_cases h : Text.statement line = []
    · simp [Line.statements, h, ih]
    · simp [Line.statements, h, ih]

theorem Line.statements_append_blank {passed : List Text}
    (h : ∀ line ∈ passed, Text.statement line = []) (first : Nat) (rest : List Text) :
    Line.statements first (passed ++ rest) = Line.statements (first + passed.length) rest := by
  induction passed generalizing first with
  | nil => rfl
  | cons line passed ih =>
    obtain ⟨hline, hpassed⟩ := List.forall_mem_cons.mp h
    rw [List.cons_append, Line.statements, if_pos hline, ih hpassed, List.length_cons,
      Nat.add_right_comm, Nat.add_assoc]

namespace LineReader

variable {reader : LineReader}

@[simp] theorem advance_advance (reader : LineReader) (first second : Nat) :
    (reader.advance first).advance second = reader.advance (first + second) := by
  simp [advance, Nat.add_assoc]

/-- Lines that say nothing are passed over, up to the first that says something or to the
end. -/
theorem seek_cases (reader : LineReader) (left : List Text) :
    (∃ passed line rest, left = passed ++ line :: rest ∧
      (∀ other ∈ passed, Text.statement other = []) ∧ Text.statement line ≠ [] ∧
      reader.seek left = (Text.statement line, reader.advance (passed.length + 1))) ∨
    (∀ line ∈ left, Text.statement line = []) ∧
      reader.seek left = ([], reader.advance left.length) := by
  induction left generalizing reader with
  | nil => exact .inr ⟨by simp, rfl⟩
  | cons first left ih =>
    by_cases hfirst : Text.statement first = []
    · have hseek : reader.seek (first :: left) = (reader.advance 1).seek left := if_pos hfirst
      rw [hseek]
      rcases ih (reader.advance 1) with
        ⟨passed, line, rest, rfl, hpassed, hline, hfound⟩ | ⟨hall, hend⟩
      · refine .inl ⟨first :: passed, line, rest, rfl, List.forall_mem_cons.mpr ⟨hfirst, hpassed⟩,
          hline, ?_⟩
        rw [hfound, advance_advance, List.length_cons, Nat.add_comm 1]
      · refine .inr ⟨List.forall_mem_cons.mpr ⟨hfirst, hall⟩, ?_⟩
        rw [hend, advance_advance, List.length_cons, Nat.add_comm 1]
    · exact .inl ⟨[], first, left, rfl, by simp, hfirst, if_neg hfirst⟩

theorem peek_eq (reader : LineReader) : reader.peek = (reader.next.1, reader) := by
  have hlines : reader.next.2.lines = reader.lines := reader.lines_seek _
  simp only [peek, hlines]

inductive Request
  | next
  | peek
  | hasMore
  | restart
  | all
  deriving DecidableEq, Repr

/-- The place that a request leaves. -/
def perform (reader : LineReader) : Request → LineReader
  | .next => reader.next.2
  | .peek => reader.peek.2
  | .hasMore => reader.hasMore.2
  | .restart => reader.restart
  | .all => reader.readAll.2

/-- The reader stands in `lines`, and both counters say where. -/
structure InStep (lines : List Text) (reader : LineReader) : Prop where
  lines_eq : reader.lines = lines
  number_eq : reader.number = reader.index
  index_le : reader.index ≤ lines.length

namespace InStep

variable {lines : List Text}

theorem advance (h : InStep lines reader) (hcount : count ≤ (lines.drop reader.index).length) :
    InStep lines (reader.advance count) where
  lines_eq := h.lines_eq
  number_eq := congrArg (· + count) h.number_eq
  index_le := by
    have hindex := h.index_le
    simp only [List.length_drop] at hcount
    simp only [LineReader.advance]
    omega

theorem next_cases (h : InStep lines reader) :
    (∃ passed line rest, lines.drop reader.index = passed ++ line :: rest ∧
      (∀ other ∈ passed, Text.statement other = []) ∧ Text.statement line ≠ [] ∧
      reader.next = (Text.statement line, reader.advance (passed.length + 1))) ∨
    (∀ line ∈ lines.drop reader.index, Text.statement line = []) ∧
      reader.next = ([], reader.advance (lines.drop reader.index).length) := by
  have hcases := reader.seek_cases (lines.drop reader.index)
  rwa [← h.lines_eq] at hcases ⊢

theorem next (h : InStep lines reader) : InStep lines reader.next.2 := by
  rcases h.next_cases with ⟨passed, line, rest, hleft, -, -, hnext⟩ | ⟨-, hnext⟩
  · rw [hnext]
    exact h.advance (by simp [hleft])
  · rw [hnext]
    exact h.advance (Nat.le_refl _)

theorem restart (h : InStep lines reader) : InStep lines reader.restart :=
  ⟨h.lines_eq, rfl, Nat.zero_le _⟩

theorem readAll (h : InStep lines reader) :
    reader.readAll.1 = Line.statements (reader.index + 1) (lines.drop reader.index) ∧
      InStep lines reader.readAll.2 := by
  fun_induction LineReader.readAll reader with
  | case1 reader hend =>
    refine ⟨?_, h.next⟩
    rcases h.next_cases with ⟨passed, line, rest, -, -, hline, hnext⟩ | ⟨hall, -⟩
    · exact absurd (by rw [hnext] at hend; exact hend) hline
    · have hblank := Line.statements_append_blank hall (reader.index + 1) []
      rw [List.append_nil] at hblank
      exact hblank.symm
  | case2 reader hsaid said last hrest ih =>
    obtain ⟨hstatements, hlast⟩ := ih h.next
    rw [hrest] at hstatements hlast
    refine ⟨?_, hlast⟩
    rcases h.next_cases with ⟨passed, line, rest, hleft, hpassed, hline, hnext⟩ | ⟨-, hnext⟩
    · have hafter : lines.drop (reader.index + (passed.length + 1)) = rest := by
        rw [← List.drop_drop, hleft]
        simp
      have hnumber : reader.number = reader.index := h.number_eq
      simp only [hnext, LineReader.advance, hafter] at hstatements ⊢
      rw [hleft, Line.statements_append_blank hpassed, Line.statements, if_neg hline, hstatements,
        hnumber]
      simp only [Nat.add_right_comm, Nat.add_assoc]
    · exact absurd (by rw [hnext]) hsaid

theorem perform (h : InStep lines reader) (request : Request) :
    InStep lines (reader.perform request) := by
  cases request with
  | next => exact h.next
  | peek => simpa only [LineReader.perform, peek_eq] using h
  | hasMore => exact h
  | restart => exact h.restart
  | all => exact h.readAll.2

theorem foldl_perform (h : InStep lines reader) (requests : List Request) :
    InStep lines (requests.foldl LineReader.perform reader) := by
  induction requests generalizing reader with
  | nil => exact h
  | cons request requests ih => exact ih (h.perform request)

theorem mem_zipIdx_iff (h : InStep lines reader) :
    (line, reader.number + count + 1) ∈ lines.zipIdx 1 ↔
      (lines.drop reader.index)[count]? = some line := by
  simp [List.mk_mem_zipIdx_iff_le_and_getElem?_sub, h.number_eq]

theorem exists_of_later (h : InStep lines reader) {pair : Text × Nat} (hpair : pair ∈ lines.zipIdx 1)
    (hlater : reader.number < pair.2) :
    ∃ count, pair.2 = reader.number + count + 1 ∧
      (lines.drop reader.index)[count]? = some pair.1 := by
  obtain ⟨count, hcount⟩ := Nat.exists_eq_add_of_lt hlater
  refine ⟨count, hcount, h.mem_zipIdx_iff.mp ?_⟩
  rwa [← hcount]

theorem next_said (h : InStep lines reader) (hsaid : reader.next.1 ≠ []) :
    reader.number < reader.next.2.number ∧
    (∃ line, (line, reader.next.2.number) ∈ lines.zipIdx 1 ∧ reader.next.1 = Text.statement line) ∧
    ∀ pair ∈ lines.zipIdx 1, reader.number < pair.2 → pair.2 < reader.next.2.number →
      Text.statement pair.1 = [] := by
  rcases h.next_cases with ⟨passed, line, rest, hleft, hpassed, -, hnext⟩ | ⟨-, hnext⟩
  · have hnumber : reader.next.2.number = reader.number + passed.length + 1 := by
      rw [hnext]
      rfl
    refine ⟨by omega, ⟨line, ?_, by rw [hnext]⟩, ?_⟩
    · rw [hnumber, h.mem_zipIdx_iff, hleft]
      simp
    · intro pair hpair hlow hhigh
      obtain ⟨count, hcount, hat⟩ := h.exists_of_later hpair hlow
      rw [hleft, List.getElem?_append_left (by omega)] at hat
      exact hpassed _ (List.mem_of_getElem? hat)
  · exact absurd (by rw [hnext]) hsaid

theorem next_end (h : InStep lines reader) (hend : reader.next.1 = []) :
    (∀ pair ∈ lines.zipIdx 1, reader.number < pair.2 → Text.statement pair.1 = []) ∧
      reader.next.2.index = lines.length := by
  rcases h.next_cases with ⟨passed, line, rest, -, -, hline, hnext⟩ | ⟨hall, hnext⟩
  · rw [hnext] at hend
    exact absurd hend hline
  · refine ⟨?_, ?_⟩
    · intro pair hpair hlater
      obtain ⟨count, -, hat⟩ := h.exists_of_later hpair hlater
      exact hall _ (List.mem_of_getElem? hat)
    · have hindex := h.index_le
      simp only [hnext, LineReader.advance, List.length_drop]
      omega

end InStep

theorem inStep_ofSource (source : Source) : InStep source.physicalLines (ofSource source) :=
  ⟨rfl, rfl, Nat.zero_le _⟩

/-- Whatever has been asked of a reader, its counters agree and stay within the source. The
next statement is that of the physical line whose number is then reached, and all lines
passed over say nothing; where there is none, no line is left that says anything and the
reader comes to the end. Looking ahead gives the same text and moves nothing, and from the
start on all statements are read in order, each with the number of its line. -/
theorem perform_numbers (source : Source) (requests : List Request) :
    let numbered := source.physicalLines.zipIdx 1
    let reader := requests.foldl perform (ofSource source)
    (reader.number = reader.index ∧ reader.index ≤ source.physicalLines.length) ∧
    (reader.next.1 ≠ [] → reader.number < reader.next.2.number ∧
      (∃ line, (line, reader.next.2.number) ∈ numbered ∧ reader.next.1 = Text.statement line) ∧
      ∀ pair ∈ numbered, reader.number < pair.2 → pair.2 < reader.next.2.number →
        Text.statement pair.1 = []) ∧
    (reader.next.1 = [] →
      (∀ pair ∈ numbered, reader.number < pair.2 → Text.statement pair.1 = []) ∧
      reader.next.2.index = source.physicalLines.length) ∧
    reader.peek = (reader.next.1, reader) ∧
    (reader.index = 0 → reader.readAll.1 =
      (numbered.filter fun pair => Text.statement pair.1 ≠ []).map fun pair =>
        ⟨pair.2, Text.statement pair.1⟩) := by
  intro numbered reader
  have h : InStep source.physicalLines reader := (inStep_ofSource source).foldl_perform requests
  refine ⟨⟨h.number_eq, h.index_le⟩, h.next_said, h.next_end, peek_eq reader, ?_⟩
  intro hstart
  rw [h.readAll.1, hstart, List.drop_zero, Line.statements_eq_map]

/-- A source with comments, a blank line and a tail that says nothing, read to its end, asked
once more and then begun again. -/
theorem perform_numbers_restarted :
    let source : Source := .text "// head\n A() // x\n\n\tB()\n //\n  "
    let requests : List Request := [.peek, .next, .hasMore, .next, .next, .next, .restart]
    let reader := requests.foldl perform (ofSource source)
    reader.next = ("A()".toList, reader.advance 2) ∧ reader.peek = ("A()".toList, reader) ∧
      reader.readAll.1 = [⟨2, "A()"⟩, ⟨4, "B()"⟩] := by
  intro source requests reader
  obtain ⟨-, -, -, hpeek, hall⟩ := perform_numbers source requests
  have hnext : reader.next = ("A()".toList, reader.advance 2) := by decide
  refine ⟨hnext, ?_, ?_⟩
  · exact hpeek.trans (by rw [hnext])
  · exact (hall (by decide)).trans (by decide)

end LineReader

end InfinityScript
