import InfinityScript.Proofs.Diagnostics
import InfinityScript.Proofs.Script.Layout

/-!
# Locality of faults

A statement that is put in the place of another of its kind changes its own code and
what is said about its own line, and nothing else (`compile_replace`).
-/

namespace InfinityScript

-- --------------------
-- The place of a statement
-- --------------------

/-- The place of one statement in a block. -/
inductive Place (σ : Type)
  | trigger (before after : List (Nat × σ)) (block : Block σ)
  | action (before after : List (Nat × BodyLine σ)) (block : Block σ)

namespace Place

def isAction : Place σ → Bool
  | .trigger .. => false
  | .action .. => true

def fill (number : Nat) (statement : σ) : Place σ → Block σ
  | .trigger before after block => { block with triggers := before ++ (number, statement) :: after }
  | .action before after block =>
    { block with body := before ++ (number, .action statement) :: after }

end Place

-- --------------------
-- Code around a statement
-- --------------------

/-- The code and the findings before and after those of a statement. -/
structure Surroundings where
  pre : Text
  post : Text
  before : List Finding
  after : List Finding

def Surroundings.around (s : Surroundings) (line : Nat) (encoded : Encoded) : Findings Text :=
  ⟨s.pre ++ encoded.text ++ s.post, s.before ++ (encoded.onLine line).notes ++ s.after⟩

theorem Noted.eq_of_value_notes {x y : Noted ν α} (hvalue : x.value = y.value)
    (hnotes : x.notes = y.notes) : x = y := by
  obtain ⟨value, notes⟩ := x
  obtain ⟨value', notes'⟩ := y
  obtain rfl : value = value' := hvalue
  obtain rfl : notes = notes' := hnotes
  rfl

namespace Block

/-- A trigger that opens no OR group leaves the count of the open group to the others. -/
theorem triggerCode_around (missing : Int) (before after : List (Nat × Encoded)) (line : Nat) :
    ∃ (s : Surroundings) (left : Int), ∀ encoded, encoded.orCount = 0 →
      triggerCode missing (before ++ (line, encoded) :: after) =
        (fun code => (code, left)) <$> s.around line encoded := by
  induction before generalizing missing with
  | nil =>
    have hstep : (OrGroup.step missing 0).2 = false := by
      simp only [OrGroup.step]
      split <;> simp
    let rest := triggerCode (OrGroup.step missing 0).1 after
    refine ⟨⟨[], rest.value.1, [], rest.notes⟩, rest.value.2, fun encoded hcount => ?_⟩
    refine Noted.eq_of_value_notes ?_ ?_ <;>
      simp [triggerCode, Surroundings.around, hcount, hstep, Fault.leaveIf, rest, Encoded.onLine]
  | cons first before ih =>
    let group := OrGroup.step missing first.2.orCount
    let fault := Fault.leaveIf group.2 .nestedOr first.1
    obtain ⟨s, left, hs⟩ := ih group.1
    refine ⟨⟨first.2.text ++ fault.value ++ s.pre, s.post,
      (first.2.onLine first.1).notes ++ fault.notes ++ s.before, s.after⟩, left,
      fun encoded hcount => ?_⟩
    refine Noted.eq_of_value_notes ?_ ?_ <;>
      simp [triggerCode, hs encoded hcount, Surroundings.around, group, fault, Encoded.onLine]

theorem conditionCode_around (length : Nat) (before after : List (Nat × Encoded))
    (block : Block Encoded) (line : Nat) :
    ∃ s : Surroundings, ∀ encoded, encoded.orCount = 0 →
      conditionCode length { block with triggers := before ++ (line, encoded) :: after } =
        s.around line encoded := by
  obtain ⟨s, left, hs⟩ := triggerCode_around 0 before after line
  let last := block.thenLine.getD length
  let opened := Fault.leaveIf (left > 0) (.missingTriggers left) (last - 1)
  let ended := Fault.leaveIf block.thenLine.isNone .missingThen last
  refine ⟨⟨"CO\n" ++ s.pre, s.post ++ opened.value ++ ended.value ++ "CO\n", s.before,
    s.after ++ opened.notes ++ ended.notes⟩, fun encoded hcount => ?_⟩
  refine Noted.eq_of_value_notes ?_ ?_ <;>
    simp [conditionCode, hs encoded hcount, Surroundings.around, opened, ended, last]

theorem bodyCode_around (first : Bool) (before after : List (Nat × BodyLine Encoded)) (line : Nat) :
    ∃ s : Surroundings, ∀ encoded,
      bodyCode first (before ++ (line, .action encoded) :: after) = s.around line encoded := by
  induction before generalizing first with
  | nil =>
    let rest := bodyCode first after
    refine ⟨⟨[], rest.value, [], rest.notes⟩, fun encoded => ?_⟩
    refine Noted.eq_of_value_notes ?_ ?_ <;>
      simp [bodyCode, Surroundings.around, rest, Encoded.onLine]
  | cons head before ih =>
    obtain ⟨number, body⟩ := head
    cases body with
    | response weight =>
      let weight := weightCode number weight
      obtain ⟨s, hs⟩ := ih false
      refine ⟨⟨(if first then "RE\n" else "RE\nRE\n") ++ weight.value ++ s.pre, s.post,
        weight.notes ++ s.before, s.after⟩, fun encoded => ?_⟩
      refine Noted.eq_of_value_notes ?_ ?_ <;>
        simp [bodyCode, hs encoded, Surroundings.around, weight]
    | action other =>
      obtain ⟨s, hs⟩ := ih first
      refine ⟨⟨other.text ++ s.pre, s.post, (other.onLine number).notes ++ s.before, s.after⟩,
        fun encoded => ?_⟩
      refine Noted.eq_of_value_notes ?_ ?_ <;>
        simp [bodyCode, hs encoded, Surroundings.around, Encoded.onLine]

theorem responseCode_around (length : Nat) (before after : List (Nat × BodyLine Encoded))
    (block : Block Encoded) (line : Nat) :
    ∃ s : Surroundings, ∀ encoded,
      responseCode length { block with body := before ++ (line, .action encoded) :: after } =
        s.around line encoded := by
  obtain ⟨s, hs⟩ := bodyCode_around true before after line
  let ended := Fault.leaveIf block.endLine.isNone .missingEnd length
  refine ⟨⟨"RS\n" ++ s.pre, s.post ++ ended.value ++ "RE\nRS\n", s.before,
    s.after ++ ended.notes⟩, fun encoded => ?_⟩
  refine Noted.eq_of_value_notes ?_ ?_ <;>
    simp [responseCode, hs encoded, Surroundings.around, ended]

end Block

theorem Place.code_around (length : Nat) (place : Place Encoded) (line : Nat) :
    ∃ s : Surroundings, ∀ encoded, encoded.orCount = 0 →
      (place.fill line encoded).code length = s.around line encoded := by
  cases place with
  | trigger before after block =>
    obtain ⟨s, hs⟩ := Block.conditionCode_around length before after block line
    let responses := block.responseCode length
    refine ⟨⟨"CR\n" ++ s.pre, s.post ++ responses.value ++ "CR\n", s.before,
      s.after ++ responses.notes⟩, fun encoded hcount => ?_⟩
    have hresponses : responses = (fill line encoded (.trigger before after block)).responseCode
      length := rfl
    refine Noted.eq_of_value_notes ?_ ?_ <;>
      simp [Block.code, fill, hs encoded hcount, Surroundings.around, hresponses]
  | action before after block =>
    obtain ⟨s, hs⟩ := Block.responseCode_around length before after block line
    let condition := block.conditionCode length
    refine ⟨⟨"CR\n" ++ condition.value ++ s.pre, s.post ++ "CR\n",
      condition.notes ++ s.before, s.after⟩, fun encoded _ => ?_⟩
    have hcondition : condition = (fill line encoded (.action before after block)).conditionCode
      length := rfl
    refine Noted.eq_of_value_notes ?_ ?_ <;>
      simp [Block.code, fill, hs encoded, Surroundings.around, hcondition]

/-- Around a statement the findings of a script are fixed, and so is its code unless
nothing of it is left. -/
theorem Outline.code_around (length : Nat) (before after : List (Block Encoded))
    (place : Place Encoded) (stray : Option Nat) (line : Nat) :
    ∃ s : Surroundings, ∀ encoded, encoded.orCount = 0 →
      let code := Outline.code length (before ++ place.fill line encoded :: after) stray
      code.notes = (s.around line encoded).notes ∧
        code.value = if stray = none then (s.around line encoded).value
          else Fault.missingIf.placeholder := by
  obtain ⟨s, hs⟩ := place.code_around length line
  cases stray with
  | none =>
    refine ⟨⟨"SC\n" ++ (before.flatMap fun block => (block.code length).value) ++ s.pre,
      s.post ++ (after.flatMap fun block => (block.code length).value) ++ "SC\n",
      (before.flatMap fun block => (block.code length).notes) ++ s.before,
      s.after ++ after.flatMap fun block => (block.code length).notes⟩, fun encoded hcount => ?_⟩
    simp [Outline.code, Noted.mapM_eq, hs encoded hcount, Surroundings.around, List.flatMap_def]
  | some number =>
    refine ⟨⟨[], [], (before.flatMap fun block => (block.code length).notes) ++ s.before,
      s.after ++ (after.flatMap fun block => (block.code length).notes) ++
        [⟨number, .error .missingIf⟩]⟩, fun encoded hcount => ?_⟩
    simp [Outline.code, Noted.mapM_eq, hs encoded hcount, Surroundings.around]

-- --------------------
-- Encoding a statement in its place
-- --------------------

theorem Block.encodeEach_append_cons {encode : σ → Except Halt τ} {before after : List (Nat × σ)}
    {encoded : List (Nat × τ)} :
    encodeEach encode (before ++ (number, statement) :: after) = .ok encoded ↔
      ∃ before' value after', encodeEach encode before = .ok before' ∧ encode statement = .ok value ∧
        encodeEach encode after = .ok after' ∧ encoded = before' ++ (number, value) :: after' := by
  have happend : ∀ lines : List (Nat × σ), encodeEach encode (before ++ lines) = (do
      let before' ← encodeEach encode before
      let lines' ← encodeEach encode lines
      return before' ++ lines') := fun lines => by
    rw [encodeEach, List.mapM_append]
    rfl
  simp only [happend, encodeEach_cons, Outcome.bind_ok, Outcome.pure_ok]
  constructor
  · rintro ⟨before', hbefore, _, ⟨value, hvalue, after', hafter, rfl⟩, rfl⟩
    exact ⟨before', value, after', hbefore, hvalue, hafter, rfl⟩
  · rintro ⟨before', value, after', hbefore, hvalue, hafter, rfl⟩
    exact ⟨before', hbefore, _, ⟨value, hvalue, after', hafter, rfl⟩, rfl⟩

namespace Place

def encode (symbols : Symbols) (profile : Profile) : Place Text → Except Halt (Place Encoded)
  | .trigger before after block => do
    let before ← Block.encodeEach (Encoded.trigger symbols profile) before
    let after ← Block.encodeEach (Encoded.trigger symbols profile) after
    let body ← Block.encodeEach (BodyLine.encode (Encoded.action symbols profile)) block.body
    return .trigger before after { block with triggers := [], body }
  | .action before after block => do
    let triggers ← Block.encodeEach (Encoded.trigger symbols profile) block.triggers
    let before ← Block.encodeEach (BodyLine.encode (Encoded.action symbols profile)) before
    let after ← Block.encodeEach (BodyLine.encode (Encoded.action symbols profile)) after
    return .action before after { block with triggers, body := [] }

theorem encode_fill {place : Place Text} {block : Block Encoded} :
    (place.fill number statement).encode symbols profile = .ok block ↔
      ∃ place' encoded, place.encode symbols profile = .ok place' ∧
        Encoded.ofRole place.isAction symbols profile statement = .ok encoded ∧
        block = place'.fill number encoded := by
  cases place with
  | trigger before after block =>
    simp only [fill, Block.encode, encode, Outcome.bind_ok, Outcome.pure_ok,
      Block.encodeEach_append_cons]
    constructor
    · rintro ⟨_, ⟨before', encoded, after', hbefore, hencoded, hafter, rfl⟩, body, hbody, rfl⟩
      exact ⟨_, encoded, ⟨before', hbefore, after', hafter, body, hbody, rfl⟩, hencoded, rfl⟩
    · rintro ⟨_, encoded, ⟨before', hbefore, after', hafter, body, hbody, rfl⟩, hencoded, rfl⟩
      exact ⟨_, ⟨before', encoded, after', hbefore, hencoded, hafter, rfl⟩, body, hbody, rfl⟩
  | action before after block =>
    simp only [fill, Block.encode, encode, Outcome.bind_ok, Outcome.pure_ok,
      Block.encodeEach_append_cons]
    constructor
    · rintro ⟨triggers, htriggers, _, ⟨before', _, after', hbefore, haction, hafter, rfl⟩, rfl⟩
      obtain ⟨encoded, hencoded, hpure⟩ := Outcome.bind_ok.mp haction
      obtain rfl := Outcome.pure_ok.mp hpure
      exact ⟨_, encoded, ⟨triggers, htriggers, before', hbefore, after', hafter, rfl⟩, hencoded, rfl⟩
    · rintro ⟨_, encoded, ⟨triggers, htriggers, before', hbefore, after', hafter, rfl⟩, hencoded, rfl⟩
      exact ⟨triggers, htriggers, _, ⟨before', _, after', hbefore,
        Outcome.bind_ok.mpr ⟨encoded, hencoded, rfl⟩, hafter, rfl⟩, rfl⟩

end Place

theorem mapM_encode_place {before after : List (Block Text)} {place : Place Text}
    {blocks : List (Block Encoded)} :
    (before ++ place.fill number statement :: after).mapM (Block.encode symbols profile) =
        .ok blocks ↔
      ∃ before' place' encoded after', before.mapM (Block.encode symbols profile) = .ok before' ∧
        place.encode symbols profile = .ok place' ∧
        Encoded.ofRole place.isAction symbols profile statement = .ok encoded ∧
        after.mapM (Block.encode symbols profile) = .ok after' ∧
        blocks = before' ++ place'.fill number encoded :: after' := by
  simp only [List.mapM_append, List.mapM_cons, Outcome.bind_ok, Outcome.pure_ok, Place.encode_fill]
  constructor
  · rintro ⟨before', hbefore, _, ⟨_, ⟨place', encoded, hplace, hencoded, rfl⟩, after', hafter, rfl⟩,
      rfl⟩
    exact ⟨before', place', encoded, after', hbefore, hplace, hencoded, hafter, rfl⟩
  · rintro ⟨before', place', encoded, after', hbefore, hplace, hencoded, hafter, rfl⟩
    exact ⟨before', hbefore, _, ⟨_, ⟨place', encoded, hplace, hencoded, rfl⟩, after', hafter, rfl⟩,
      rfl⟩

-- --------------------
-- Finding the place
-- --------------------

def BodyLine.isAction : BodyLine σ → Bool
  | .response _ => false
  | .action _ => true

def Block.HasStatement (block : Block σ) (isAction : Bool) (number : Nat) : Prop :=
  if isAction then ∃ line ∈ block.body, line.1 = number ∧ line.2.isAction
  else ∃ line ∈ block.triggers, line.1 = number

instance (block : Block σ) : Decidable (block.HasStatement isAction number) := by
  unfold Block.HasStatement
  infer_instance

def Outline.HasStatement (outline : Outline) (isAction : Bool) (number : Nat) : Prop :=
  ∃ block ∈ outline.blocks, block.HasStatement isAction number

instance (outline : Outline) : Decidable (outline.HasStatement isAction number) :=
  inferInstanceAs (Decidable (∃ block ∈ outline.blocks, _))

theorem Block.not_hasStatement {block : Block σ} (htriggers : ∀ line ∈ block.triggers, line.1 ≠ number)
    (hbody : ∀ line ∈ block.body, line.1 = number → line.2.isAction = false) :
    ¬ block.HasStatement isAction number := by
  cases isAction with
  | false =>
    rintro ⟨line, hmem, hnumber⟩
    exact htriggers line hmem hnumber
  | true =>
    rintro ⟨line, hmem, hnumber, haction⟩
    rw [hbody line hmem hnumber] at haction
    cases haction

theorem Line.mem_of_mem_upTo (word : Text) (lines : List Line) :
    (∀ line ∈ (Line.upTo word lines).1, line ∈ lines) ∧
      ∀ line ∈ (Line.upTo word lines).2.2, line ∈ lines := by
  induction lines with
  | nil => simp [Line.upTo]
  | cons first lines ih =>
    by_cases h : Text.upper first.text = word
    · simp only [Line.upTo, if_pos h]
      exact ⟨by simp, fun line hmem => List.mem_cons_of_mem _ hmem⟩
    · simp only [Line.upTo, if_neg h, List.mem_cons]
      exact ⟨fun line hmem => hmem.imp_right (ih.1 line), fun line hmem => .inr (ih.2 line hmem)⟩

theorem Line.upTo_or (word : Text) (lines : List Line) :
    (∃ before number after, (∀ line ∈ before, line ∈ lines) ∧ (∀ line ∈ after, line ∈ lines) ∧
      after.length ≤ lines.length ∧
      ∀ rest, Line.upTo word (lines ++ rest) = (before, some number, after ++ rest)) ∨
    ∀ rest, Line.upTo word (lines ++ rest) =
      (lines ++ (Line.upTo word rest).1, (Line.upTo word rest).2) := by
  induction lines with
  | nil => exact .inr fun rest => rfl
  | cons first lines ih =>
    by_cases h : Text.upper first.text = word
    · refine .inl ⟨[], first.number, lines, by simp, fun line => List.mem_cons_of_mem _, by simp, ?_⟩
      intro rest
      rw [List.cons_append, Line.upTo, if_pos h]
    · rcases ih with ⟨before, number, after, hbefore, hafter, hlength, hrest⟩ | hrest
      · refine .inl ⟨first :: before, number, after, ?_, ?_, ?_, ?_⟩
        · simpa using fun line hmem => .inr (hbefore line hmem)
        · exact fun line hmem => List.mem_cons_of_mem _ (hafter line hmem)
        · exact Nat.le_succ_of_le hlength
        · intro rest
          rw [List.cons_append, Line.upTo, if_neg h, hrest]
      · refine .inr fun rest => ?_
        rw [List.cons_append, Line.upTo, if_neg h, hrest]
        rfl

namespace Outline

theorem number_of_mem_readBlock (lines : List Line) :
    ((readBlock lines).1.HasStatement isAction number → ∃ line ∈ lines, line.number = number) ∧
      ∀ line ∈ (readBlock lines).2, line ∈ lines := by
  obtain ⟨hfirst, hrest⟩ := Line.mem_of_mem_upTo "THEN" lines
  obtain ⟨hbody, hafter⟩ := Line.mem_of_mem_upTo "END" (Line.upTo "THEN" lines).2.2
  refine ⟨fun h => ?_, fun line hmem => hrest line (hafter line hmem)⟩
  cases isAction with
  | false =>
    obtain ⟨_, hmem, rfl⟩ := h
    obtain ⟨line, hline, rfl⟩ := List.mem_map.mp hmem
    exact ⟨line, hfirst line hline, rfl⟩
  | true =>
    obtain ⟨_, hmem, rfl, -⟩ := h
    obtain ⟨line, hline, rfl⟩ := List.mem_map.mp hmem
    exact ⟨line, hrest line (hbody line hline), rfl⟩

theorem ofLines_cons (h : Text.upper line.text = "IF") (lines : List Line) :
    ofLines (line :: lines) =
      ⟨(readBlock lines).1 :: (ofLines (readBlock lines).2).blocks,
        (ofLines (readBlock lines).2).stray⟩ := by
  rw [ofLines, if_neg (by simpa using h)]

theorem hasStatement_cons :
    (ofLines (line :: lines)).HasStatement isAction number ↔ Text.upper line.text = "IF" ∧
      ((readBlock lines).1.HasStatement isAction number ∨
        (ofLines (readBlock lines).2).HasStatement isAction number) := by
  by_cases h : Text.upper line.text = "IF"
  · rw [ofLines_cons h]
    simp [HasStatement, h]
  · rw [ofLines, if_pos h]
    constructor
    · rintro ⟨block, hmem, -⟩
      exact absurd hmem List.not_mem_nil
    · exact fun hcons => absurd hcons.1 h

theorem number_of_hasStatement (h : (ofLines lines).HasStatement isAction number) :
    ∃ line ∈ lines, line.number = number := by
  fun_induction ofLines lines with
  | case1 =>
    obtain ⟨block, hblock, -⟩ := h
    cases hblock
  | case2 =>
    obtain ⟨block, hblock, -⟩ := h
    cases hblock
  | case3 line lines hif read outline ih =>
    obtain ⟨hfirst, hrest⟩ := @number_of_mem_readBlock isAction number lines
    obtain ⟨block, hblock, hstatement⟩ := h
    rcases List.mem_cons.mp hblock with rfl | hblock
    · obtain ⟨line, hmem, hnumber⟩ := hfirst hstatement
      exact ⟨line, List.mem_cons_of_mem _ hmem, hnumber⟩
    · obtain ⟨line, hmem, hnumber⟩ := ih ⟨block, hblock, hstatement⟩
      exact ⟨line, List.mem_cons_of_mem _ (hrest line hmem), hnumber⟩

def blockOf (triggers : List Line) (thenLine : Option Nat) (body : List Line)
    (endLine : Option Nat) : Block Text where
  triggers := triggers.map fun line => (line.number, line.text)
  thenLine
  body := body.map fun line => (line.number, BodyLine.ofText line.text)
  endLine

theorem readBlock_eq (hthen : Line.upTo "THEN" lines = (triggers, thenLine, rest))
    (hend : Line.upTo "END" rest = (body, endLine, left)) :
    readBlock lines = (blockOf triggers thenLine body endLine, left) := by
  simp only [readBlock, hthen, hend]
  rfl

theorem not_hasStatement_blockOf {triggers body : List Line}
    (htriggers : ∀ line ∈ triggers, line.number ≠ number)
    (hbody : ∀ line ∈ body, line.number = number → (BodyLine.ofText line.text).isAction = false) :
    ¬ (blockOf triggers thenLine body endLine).HasStatement isAction number := by
  refine Block.not_hasStatement ?_ ?_
  · intro _ hmem
    obtain ⟨line, hline, rfl⟩ := List.mem_map.mp hmem
    exact htriggers line hline
  · intro _ hmem
    obtain ⟨line, hline, rfl⟩ := List.mem_map.mp hmem
    exact hbody line hline

variable {number : Nat} {before after : List Line}

/-- Lines leave a block open for a statement of one kind on the line after them. -/
def LeavesPlace (number : Nat) (before after : List Line) : Prop :=
  (∀ text, ∀ line ∈ (readBlock (before ++ ⟨number, text⟩ :: after)).2, line ∈ after) ∧
    ∃ place rest, ∀ text isAction,
      (readBlock (before ++ ⟨number, text⟩ :: after)).1.HasStatement isAction number →
        isAction = Place.isAction place ∧
          readBlock (before ++ ⟨number, text⟩ :: after) = (place.fill number text, rest)

theorem leavesPlace_trigger (hbefore : ∀ line ∈ before, line.number ≠ number)
    (hafter : ∀ line ∈ after, line.number ≠ number)
    (hthen : ∀ rest, Line.upTo "THEN" (before ++ rest) =
      (before ++ (Line.upTo "THEN" rest).1, (Line.upTo "THEN" rest).2)) :
    LeavesPlace number before after := by
  rcases hupTo : Line.upTo "THEN" after with ⟨triggers, thenLine, rest⟩
  rcases hend : Line.upTo "END" rest with ⟨body, endLine, left⟩
  obtain ⟨htriggers, hrest⟩ := Line.mem_of_mem_upTo "THEN" after
  obtain ⟨hbody, hleft⟩ := Line.mem_of_mem_upTo "END" rest
  simp only [hupTo, hend] at hrest hbody hleft
  have hword : ∀ {text}, Text.upper text = "THEN" →
      readBlock (before ++ ⟨number, text⟩ :: after) =
        (blockOf (before ++ []) (some number) (Line.upTo "END" after).1 (Line.upTo "END" after).2.1,
          (Line.upTo "END" after).2.2) := by
    intro text htext
    refine readBlock_eq ?_ rfl
    rw [hthen, Line.upTo, if_pos htext]
  have hother : ∀ {text}, Text.upper text ≠ "THEN" →
      readBlock (before ++ ⟨number, text⟩ :: after) =
        (blockOf (before ++ ⟨number, text⟩ :: triggers) thenLine body endLine, left) := by
    intro text htext
    refine readBlock_eq ?_ hend
    rw [hthen, Line.upTo, if_neg htext, hupTo]
  refine ⟨fun text => ?_, .trigger (before.map fun line => (line.number, line.text))
    (triggers.map fun line => (line.number, line.text)) (blockOf [] thenLine body endLine), left,
    fun text isAction h => ?_⟩
  · by_cases htext : Text.upper text = "THEN"
    · rw [hword htext]
      exact (Line.mem_of_mem_upTo "END" after).2
    · rw [hother htext]
      exact fun line hmem => hrest line (hleft line hmem)
  · by_cases htext : Text.upper text = "THEN"
    · rw [hword htext] at h
      refine absurd h (not_hasStatement_blockOf (by simpa using hbefore) fun line hmem hnumber => ?_)
      exact absurd hnumber (hafter line ((Line.mem_of_mem_upTo "END" after).1 line hmem))
    · rw [hother htext] at h ⊢
      refine ⟨?_, by simp [Place.fill, blockOf]⟩
      cases isAction with
      | false => rfl
      | true =>
        obtain ⟨_, hmem, hnumber, -⟩ := h
        obtain ⟨line, hline, rfl⟩ := List.mem_map.mp hmem
        exact absurd hnumber (hafter line (hrest line (hbody line hline)))

theorem leavesPlace_action {triggers body : List Line}
    (htriggers : ∀ line ∈ triggers, line.number ≠ number)
    (hbody : ∀ line ∈ body, line.number ≠ number) (hafter : ∀ line ∈ after, line.number ≠ number)
    (hthen : ∀ rest, Line.upTo "THEN" (before ++ rest) = (triggers, some thenLine, body ++ rest))
    (hend : ∀ rest, Line.upTo "END" (body ++ rest) =
      (body ++ (Line.upTo "END" rest).1, (Line.upTo "END" rest).2)) :
    LeavesPlace number before after := by
  rcases hupTo : Line.upTo "END" after with ⟨lines, endLine, left⟩
  obtain ⟨hlines, hleft⟩ := Line.mem_of_mem_upTo "END" after
  simp only [hupTo] at hlines hleft
  have hword : ∀ {text}, Text.upper text = "END" →
      readBlock (before ++ ⟨number, text⟩ :: after) =
        (blockOf triggers (some thenLine) (body ++ []) (some number), after) := by
    intro text htext
    refine readBlock_eq (hthen _) ?_
    rw [hend, Line.upTo, if_pos htext]
  have hother : ∀ {text}, Text.upper text ≠ "END" →
      readBlock (before ++ ⟨number, text⟩ :: after) =
        (blockOf triggers (some thenLine) (body ++ ⟨number, text⟩ :: lines) endLine, left) := by
    intro text htext
    refine readBlock_eq (hthen _) ?_
    rw [hend, Line.upTo, if_neg htext, hupTo]
  refine ⟨fun text => ?_, .action
    (body.map fun line => (line.number, BodyLine.ofText line.text))
    (lines.map fun line => (line.number, BodyLine.ofText line.text))
    (blockOf triggers (some thenLine) [] endLine), left, fun text isAction h => ?_⟩
  · by_cases htext : Text.upper text = "END"
    · rw [hword htext]
      exact fun line hmem => hmem
    · rw [hother htext]
      exact hleft
  · by_cases htext : Text.upper text = "END"
    · rw [hword htext] at h
      refine absurd h (not_hasStatement_blockOf htriggers fun line hmem hnumber => ?_)
      exact absurd hnumber (hbody line (by simpa using hmem))
    · rw [hother htext] at h ⊢
      by_cases hresponse : (BodyLine.ofText text).isAction = false
      · refine absurd h (not_hasStatement_blockOf htriggers fun line hmem hnumber => ?_)
        simp only [List.mem_append, List.mem_cons] at hmem
        rcases hmem with hmem | rfl | hmem
        · exact absurd hnumber (hbody line hmem)
        · exact hresponse
        · exact absurd hnumber (hafter line (hlines line hmem))
      · have haction : BodyLine.ofText text = .action text := by
          unfold BodyLine.ofText at hresponse ⊢
          split
          · next hupper => simp [hupper, BodyLine.isAction] at hresponse
          · rfl
        refine ⟨?_, by simp [Place.fill, blockOf, haction]⟩
        cases isAction with
        | true => rfl
        | false =>
          obtain ⟨_, hmem, hnumber⟩ := h
          obtain ⟨line, hline, rfl⟩ := List.mem_map.mp hmem
          exact absurd hnumber (htriggers line hline)

/-- Lines close a block, or leave it open for a statement. -/
theorem readBlock_or (hbefore : ∀ line ∈ before, line.number ≠ number)
    (hafter : ∀ line ∈ after, line.number ≠ number) :
    (∃ block left, (∀ line ∈ left, line ∈ before) ∧ left.length ≤ before.length ∧
      (∀ isAction, ¬ block.HasStatement isAction number) ∧
      ∀ rest, readBlock (before ++ rest) = (block, left ++ rest)) ∨
    LeavesPlace number before after := by
  rcases Line.upTo_or "THEN" before with ⟨triggers, thenLine, body, htriggers, hbody, hlength, hthen⟩ |
    hthen
  · rcases Line.upTo_or "END" body with ⟨lines, endLine, left, hlines, hleft, hlength', hend⟩ | hend
    · refine .inl ⟨blockOf triggers (some thenLine) lines (some endLine), left,
        fun line hmem => hbody line (hleft line hmem), Nat.le_trans hlength' hlength,
        fun isAction => ?_, fun rest => readBlock_eq (hthen rest) (hend rest)⟩
      exact not_hasStatement_blockOf (fun line hmem => hbefore line (htriggers line hmem))
        fun line hmem hnumber => absurd hnumber (hbefore line (hbody line (hlines line hmem)))
    · exact .inr (leavesPlace_action (fun line hmem => hbefore line (htriggers line hmem))
        (fun line hmem => hbefore line (hbody line hmem)) hafter hthen hend)
  · exact .inr (leavesPlace_trigger hbefore hafter hthen)

/-- A statement on the line has one place between the others, whatever it reads. -/
def HasPlace (number : Nat) (before after : List Line) : Prop :=
  ∃ blocks place blocks' stray, ∀ text isAction,
    (ofLines (before ++ ⟨number, text⟩ :: after)).HasStatement isAction number →
      isAction = Place.isAction place ∧
        ofLines (before ++ ⟨number, text⟩ :: after) =
          ⟨blocks ++ place.fill number text :: blocks', stray⟩

theorem HasPlace.of_none (h : ∀ text isAction,
    ¬ (ofLines (before ++ ⟨number, text⟩ :: after)).HasStatement isAction number) :
    HasPlace number before after :=
  ⟨[], .trigger [] [] (blockOf [] none [] none), [], none, fun text isAction hstatement =>
    absurd hstatement (h text isAction)⟩

theorem hasPlace (hbefore : ∀ line ∈ before, line.number ≠ number)
    (hafter : ∀ line ∈ after, line.number ≠ number) : HasPlace number before after := by
  have hnone : ∀ {lines : List Line}, (∀ line ∈ lines, line ∈ after) →
      ∀ isAction, ¬ (ofLines lines).HasStatement isAction number := by
    intro lines hlines isAction h
    obtain ⟨line, hmem, hnumber⟩ := number_of_hasStatement h
    exact hafter line (hlines line hmem) hnumber
  induction hlength : before.length using Nat.strongRecOn generalizing before with
  | ind n ih =>
    cases before with
    | nil =>
      refine .of_none fun text isAction h => ?_
      obtain ⟨-, h | h⟩ := hasStatement_cons.mp h
      · obtain ⟨line, hmem, hnumber⟩ := (number_of_mem_readBlock after).1 h
        exact hafter line hmem hnumber
      · exact hnone (@number_of_mem_readBlock isAction number after).2 isAction h
    | cons first before =>
      by_cases hif : Text.upper first.text = "IF"
      · rcases readBlock_or (fun line hmem => hbefore line (List.mem_cons_of_mem _ hmem)) hafter with
          ⟨block, left, hleft, hle, hblock, hread⟩ | ⟨hrest, place, rest, hplace⟩
        · -- The block is closed, so that the place is in what is left.
          have hlt : left.length < n := by
            rw [List.length_cons] at hlength
            omega
          obtain ⟨blocks, place, blocks', stray, hplace⟩ := ih left.length hlt
            (fun line hmem => hbefore line (List.mem_cons_of_mem _ (hleft line hmem))) rfl
          refine ⟨block :: blocks, place, blocks', stray, fun text isAction h => ?_⟩
          rw [List.cons_append, hasStatement_cons, hread] at h
          obtain ⟨hrole, heq⟩ := hplace text isAction (h.2.resolve_left (hblock isAction))
          refine ⟨hrole, ?_⟩
          rw [List.cons_append, ofLines_cons hif, hread, heq, List.cons_append]
        · refine ⟨[], place, (ofLines rest).blocks, (ofLines rest).stray, fun text isAction h => ?_⟩
          obtain ⟨-, h | h⟩ := hasStatement_cons.mp h
          · obtain ⟨hrole, heq⟩ := hplace text isAction h
            refine ⟨hrole, ?_⟩
            rw [List.cons_append, ofLines_cons hif, heq, List.nil_append]
          · exact absurd h (hnone (hrest text) isAction)
      · exact .of_none fun text isAction h => hif (hasStatement_cons.mp h).1

end Outline

-- --------------------
-- Sources that differ in a line
-- --------------------

theorem Line.statements_append (first : Nat) (before after : List Text) :
    Line.statements first (before ++ after) =
      Line.statements first before ++ Line.statements (first + before.length) after := by
  induction before generalizing first with
  | nil => rfl
  | cons line before ih =>
    have hfirst : first + (before.length + 1) = first + 1 + before.length := by omega
    rw [List.cons_append, Line.statements, Line.statements, ih, List.length_cons, hfirst]
    split <;> rfl

theorem Line.number_of_mem_statements {lines : List Text}
    (h : line ∈ Line.statements first lines) :
    first ≤ line.number ∧ line.number < first + lines.length := by
  induction lines generalizing first with
  | nil => cases h
  | cons text lines ih =>
    rw [Line.statements] at h
    rw [List.length_cons]
    split at h
    · have := ih h
      omega
    · rcases List.mem_cons.mp h with rfl | h
      · exact ⟨Nat.le_refl _, by simp⟩
      · have := ih h
        omega

def Source.HasStatement (source : Source) (isAction : Bool) (number : Nat) : Prop :=
  (Outline.ofLines source.listing.lines).HasStatement isAction number

instance (source : Source) : Decidable (source.HasStatement isAction number) :=
  inferInstanceAs (Decidable (Outline.HasStatement ..))

theorem Source.listing_of_hasStatement {source : Source} {before after : List Text}
    (hsource : source.physicalLines = before ++ line :: after)
    (h : source.HasStatement isAction (before.length + 1)) :
    Text.statement line ≠ [] ∧ source.listing.lines =
      Line.statements 1 before ++ ⟨before.length + 1, Text.statement line⟩ ::
        Line.statements (before.length + 2) after := by
  have hnumber : 1 + before.length = before.length + 1 := by omega
  have hlines : source.listing.lines = Line.statements 1 before ++
      Line.statements (before.length + 1) (line :: after) := by
    rw [Source.listing, hsource, Line.statements_append, hnumber]
  by_cases hline : Text.statement line = []
  · rw [Line.statements, if_pos hline] at hlines
    obtain ⟨other, hmem, hother⟩ := Outline.number_of_hasStatement h
    rw [hlines] at hmem
    rcases List.mem_append.mp hmem with hmem | hmem
    · have := Line.number_of_mem_statements hmem
      omega
    · have := Line.number_of_mem_statements hmem
      omega
  · rw [Line.statements, if_neg hline] at hlines
    exact ⟨hline, hlines⟩

theorem Surroundings.messages_around {line : Nat} {key : Int} (hkey : key ≠ line)
    (message? : Remark → Option Text) (s : Surroundings) (encoded encoded' : Encoded) :
    (Finding.messages message? (s.around line encoded).notes)[key]? =
      (Finding.messages message? (s.around line encoded').notes)[key]? := by
  -- What is said about the line of the statement is said about no other line.
  have hnone : ∀ encoded : Encoded, Diagnostics.about key ((encoded.onLine line).notes.filterMap
      fun finding => (message? finding.remark).map fun message => ((finding.line : Int), message)) =
        [] := by
    intro encoded
    refine Diagnostics.about_eq_nil fun message hmem => ?_
    obtain ⟨finding, hfinding, hmessage⟩ := List.mem_filterMap.mp hmem
    obtain ⟨remark, -, rfl⟩ := List.mem_map.mp hfinding
    obtain ⟨_, -, rfl⟩ := Option.map_eq_some_iff.mp hmessage
    exact Ne.symm hkey
  simp only [Finding.messages, Diagnostics.getElem?_ofList, around, List.filterMap_append,
    Diagnostics.about_append, hnone, List.append_nil]

theorem Encoded.orCount_action (h : Encoded.action symbols profile statement = .ok encoded) :
    encoded.orCount = 0 := by
  unfold Encoded.action Encoded.settle at h
  split at h
  · obtain rfl := Except.ok.inj h
    rfl
  · obtain rfl := Except.ok.inj h
    rfl
  · cases h

theorem Encoded.orCount_ofRole
    (hcount : isAction = false → ∀ encoded,
      Encoded.trigger symbols profile statement = .ok encoded → encoded.orCount = 0)
    (h : Encoded.ofRole isAction symbols profile statement = .ok encoded) :
    encoded.orCount = 0 := by
  cases isAction with
  | false => exact hcount rfl encoded h
  | true => exact Encoded.orCount_action h

theorem compileDialog_alone (h : Text.statement line ≠ []) :
    compileDialog symbols profile (.lines [line]) isAction = .ok x ↔
      profile.checkWidths = .ok () ∧
        ∃ encoded, Encoded.ofRole isAction symbols profile (Text.statement line) = .ok encoded ∧
          x = .ofFindings (encoded.onLine 1) := by
  have hlines : (Source.lines [line]).listing.lines = [⟨1, Text.statement line⟩] := by
    show Line.statements 1 [line] = _
    simp [Line.statements, h]
  rw [compileDialog_singleton hlines]

theorem compile_ok_iff : compile symbols profile source = .ok r ↔
    profile.checkWidths = .ok () ∧ ∃ blocks,
      (Outline.ofLines source.listing.lines).blocks.mapM (Block.encode symbols profile) = .ok blocks ∧
      r = .ofFindings (Outline.code source.listing.length blocks
        (Outline.ofLines source.listing.lines).stray) := by
  simp only [compile, Outcome.bind_ok, Outcome.mapError_ok, Outcome.pure_ok]
  constructor
  · rintro ⟨_, hwidths, blocks, hblocks, rfl⟩
    exact ⟨hwidths, blocks, hblocks, rfl⟩
  · rintro ⟨hwidths, blocks, hblocks, rfl⟩
    exact ⟨_, hwidths, blocks, hblocks, rfl⟩

/-- A source with a statement in a place is compiled to the code of the statement
between what is fixed by the place. -/
theorem compile_place {source : Source} (hlength : source.listing.length = length)
    (houtline : Outline.ofLines source.listing.lines =
      ⟨blocks ++ Place.fill number statement place :: blocks', stray⟩) :
    compile symbols profile source = .ok r ↔
      ∃ before place' after encoded, profile.checkWidths = .ok () ∧
        blocks.mapM (Block.encode symbols profile) = .ok before ∧
        place.encode symbols profile = .ok place' ∧
        blocks'.mapM (Block.encode symbols profile) = .ok after ∧
        Encoded.ofRole place.isAction symbols profile statement = .ok encoded ∧
        r = .ofFindings (Outline.code length (before ++ place'.fill number encoded :: after) stray) := by
  rw [compile_ok_iff, houtline, hlength]
  simp only [mapM_encode_place]
  constructor
  · rintro ⟨hwidths, _, ⟨before, place', encoded, after, hbefore, hplace, hencoded, hafter, rfl⟩, rfl⟩
    exact ⟨before, place', after, encoded, hwidths, hbefore, hplace, hafter, hencoded, rfl⟩
  · rintro ⟨before, place', after, encoded, hwidths, hbefore, hplace, hafter, hencoded, rfl⟩
    exact ⟨hwidths, _, ⟨before, place', encoded, after, hbefore, hplace, hencoded, hafter, rfl⟩, rfl⟩

/-- One statement in the place of another: a source that compiles still does if the new
statement compiles by itself. Both codes are the placeholder of a stray statement, or
they differ in the codes of the two statements only; and what is said about any other
line is the same. -/
theorem compile_replace {source source' : Source} {before after : List Text} {line line' : Text}
    (hsource : source.physicalLines = before ++ line :: after)
    (hsource' : source'.physicalLines = before ++ line' :: after)
    (hline : source.HasStatement isAction (before.length + 1))
    (hline' : source'.HasStatement isAction' (before.length + 1))
    (hcount : isAction = false → ∀ encoded,
      Encoded.trigger symbols profile (Text.statement line) = .ok encoded → encoded.orCount = 0)
    (hcount' : isAction' = false → ∀ encoded,
      Encoded.trigger symbols profile (Text.statement line') = .ok encoded → encoded.orCount = 0)
    (hcompile : compile symbols profile source = .ok r) :
    ∃ x, compileDialog symbols profile (.lines [line]) isAction = .ok x ∧
      ((∃ r', compile symbols profile source' = .ok r') ↔
        ∃ x', compileDialog symbols profile (.lines [line']) isAction' = .ok x') ∧
      ∀ r' x', compile symbols profile source' = .ok r' →
        compileDialog symbols profile (.lines [line']) isAction' = .ok x' →
        (r.code = "Error - Missing IF" ∧ r'.code = "Error - Missing IF" ∨
          ∃ pre post, r.code = pre ++ x.code ++ post ∧ r'.code = pre ++ x'.code ++ post) ∧
        ∀ key : Int, key ≠ (before.length + 1 : Nat) →
          r.errors[key]? = r'.errors[key]? ∧ r.warnings[key]? = r'.warnings[key]? := by
  obtain ⟨hsaid, hlisting⟩ := Source.listing_of_hasStatement hsource hline
  obtain ⟨hsaid', hlisting'⟩ := Source.listing_of_hasStatement hsource' hline'
  -- Both statements have the same place in the outline.
  obtain ⟨blocks, place, blocks', stray, hplace⟩ :
      Outline.HasPlace (before.length + 1) (Line.statements 1 before)
        (Line.statements (before.length + 2) after) := by
    refine Outline.hasPlace (fun other hmem => ?_) (fun other hmem => ?_)
    · have := Line.number_of_mem_statements hmem
      omega
    · have := Line.number_of_mem_statements hmem
      omega
  rw [Source.HasStatement, hlisting] at hline
  rw [Source.HasStatement, hlisting'] at hline'
  obtain ⟨rfl, houtline⟩ := hplace _ _ hline
  obtain ⟨rfl, houtline'⟩ := hplace _ _ hline'
  rw [← hlisting] at houtline
  rw [← hlisting'] at houtline'
  have hlength : source'.listing.length = source.listing.length := by
    simp [Source.listing, hsource, hsource']
  obtain ⟨first, inner, last, encoded, hwidths, hfirst, hinner, hlast, hencoded, rfl⟩ :=
    (compile_place rfl houtline).mp hcompile
  refine ⟨_, (compileDialog_alone hsaid).mpr ⟨hwidths, encoded, hencoded, rfl⟩, ⟨?_, ?_⟩, ?_⟩
  · rintro ⟨r', hcompile'⟩
    obtain ⟨_, _, _, encoded', -, -, -, -, hencoded', -⟩ :=
      (compile_place hlength houtline').mp hcompile'
    exact ⟨_, (compileDialog_alone hsaid').mpr ⟨hwidths, encoded', hencoded', rfl⟩⟩
  · rintro ⟨x', hx'⟩
    obtain ⟨-, encoded', hencoded', -⟩ := (compileDialog_alone hsaid').mp hx'
    exact ⟨_, (compile_place hlength houtline').mpr
      ⟨first, inner, last, encoded', hwidths, hfirst, hinner, hlast, hencoded', rfl⟩⟩
  · intro r' x' hcompile' hx'
    obtain ⟨first', inner', last', encoded', -, hfirst', hinner', hlast', hencoded', rfl⟩ :=
      (compile_place hlength houtline').mp hcompile'
    obtain ⟨-, encoded'', hencoded'', rfl⟩ := (compileDialog_alone hsaid').mp hx'
    obtain rfl := Except.ok.inj (hfirst.symm.trans hfirst')
    obtain rfl := Except.ok.inj (hinner.symm.trans hinner')
    obtain rfl := Except.ok.inj (hlast.symm.trans hlast')
    obtain rfl := Except.ok.inj (hencoded'.symm.trans hencoded'')
    obtain ⟨s, hs⟩ := Outline.code_around source.listing.length first last inner stray
      (before.length + 1)
    obtain ⟨hnotes, hvalue⟩ := hs encoded (Encoded.orCount_ofRole hcount hencoded)
    obtain ⟨hnotes', hvalue'⟩ := hs encoded' (Encoded.orCount_ofRole hcount' hencoded')
    refine ⟨?_, fun key hkey => ⟨?_, ?_⟩⟩
    · cases stray with
      | none => exact .inr ⟨s.pre, s.post, hvalue, hvalue'⟩
      | some number => exact .inl ⟨hvalue, hvalue'⟩
    · simp only [Compiled.ofFindings, hnotes, hnotes']
      exact s.messages_around hkey Remark.error? encoded encoded'
    · simp only [Compiled.ofFindings, hnotes, hnotes']
      exact s.messages_around hkey Remark.warning? encoded encoded'

theorem compile_replace_sample :
    let source : Text → Source := fun line =>
      .lines ["IF", "OR(1)", line, "THEN", "RESPONSE", "Say(\"a\")", "END"]
    ∃ r r' x x', compile sampleSymbols (.ofGame .none) (source "True()") = .ok r ∧
      compile sampleSymbols (.ofGame .none) (source "True") = .ok r' ∧
      compileDialog sampleSymbols (.ofGame .none) (.lines ["True()"]) false = .ok x ∧
      compileDialog sampleSymbols (.ofGame .none) (.lines ["True"]) false = .ok x' ∧
      (r.code = "Error - Missing IF" ∧ r'.code = "Error - Missing IF" ∨
        ∃ pre post, r.code = pre ++ x.code ++ post ∧ r'.code = pre ++ x'.code ++ post) ∧
      ∀ key : Int, key ≠ 3 →
        r.errors[key]? = r'.errors[key]? ∧ r.warnings[key]? = r'.warnings[key]? := by
  intro source
  have hcount : ∀ line ∈ (["True()", "True"] : List Text), ∀ encoded,
      Encoded.trigger sampleSymbols (.ofGame .none) (Text.statement line) = .ok encoded →
        encoded.orCount = 0 := by
    have hall : ∀ line ∈ (["True()", "True"] : List Text),
        (Encoded.trigger sampleSymbols (.ofGame .none) (Text.statement line)).toOption.all
          (·.orCount = 0) := by
      decide +kernel
    intro line hline encoded hencoded
    simpa [hencoded, Except.toOption] using hall line hline
  obtain ⟨r, hr, -⟩ := Outcome.exists_of_any (by decide +kernel :
    (compile sampleSymbols (.ofGame .none) (source "True()")).toOption.any fun _ => true)
  obtain ⟨x', hx', -⟩ := Outcome.exists_of_any (by decide +kernel :
    (compileDialog sampleSymbols (.ofGame .none) (.lines ["True"]) false).toOption.any
      fun _ => true)
  obtain ⟨x, hx, hiff, hrel⟩ := @compile_replace false false sampleSymbols (.ofGame .none) r
    (source "True()") (source "True") ["IF", "OR(1)"]
    ["THEN", "RESPONSE", "Say(\"a\")", "END"] "True()" "True" rfl rfl (by decide +kernel)
    (by decide +kernel) (fun _ => hcount _ (by simp)) (fun _ => hcount _ (by simp)) hr
  obtain ⟨r', hr'⟩ := hiff.mpr ⟨x', hx'⟩
  exact ⟨r, r', x, x', hr, hr', hx, hx', hrel r' x' hr' hx'⟩

end InfinityScript
