import InfinityScript.Proofs.Script.Locality

/-!
# Findings and the lines they are about

The statements of a source are numbered upwards by its physical lines (`Line.Rising`), and a
block keeps the numbers of its statements (`Block.Numbered`). So everything that is found on
the way to the code is about a line that the source has (`compile_within`): also the group
that is left open, which is reported one line before the end of its condition.
-/

namespace InfinityScript

/-- The numbers of the lines go up, from above `low` to at most `high`. -/
structure Line.Rising (low high : Nat) (lines : List Line) : Prop where
  pairwise : lines.Pairwise fun first second => first.number < second.number
  between : ∀ line ∈ lines, low < line.number ∧ line.number ≤ high

namespace Line.Rising

variable {low high : Nat} {lines : List Line}

theorem sublist {part : List Line} (h : Rising low high lines) (hpart : part.Sublist lines) :
    Rising low high part :=
  ⟨h.pairwise.sublist hpart, fun line hline => h.between line (hpart.subset hline)⟩

theorem tail (h : Rising low high (line :: lines)) : Rising line.number high lines where
  pairwise := (List.pairwise_cons.mp h.pairwise).2
  between other hother :=
    ⟨(List.pairwise_cons.mp h.pairwise).1 other hother, (h.between other (by simp [hother])).2⟩

theorem lower {low' : Nat} (h : Rising low high lines) (hlow : low' ≤ low) : Rising low' high lines :=
  ⟨h.pairwise, fun line hline => by have := h.between line hline; omega⟩

end Line.Rising

theorem Line.rising_statements (first : Nat) (lines : List Text) :
    Rising first (first + lines.length) (Line.statements (first + 1) lines) := by
  refine ⟨?_, fun line hline => by have := number_of_mem_statements hline; omega⟩
  induction lines generalizing first with
  | nil => exact .nil
  | cons text lines ih =>
    rw [Line.statements]
    split
    · exact ih (first + 1)
    · refine List.pairwise_cons.mpr ⟨fun line hline => ?_, ih (first + 1)⟩
      exact (number_of_mem_statements hline).1

theorem Line.upTo_eq (word : Text) (lines : List Line) :
    (∃ line, (upTo word lines).2.1 = some line.number ∧
      lines = (upTo word lines).1 ++ line :: (upTo word lines).2.2) ∨
    (upTo word lines).2 = (none, []) ∧ lines = (upTo word lines).1 := by
  induction lines with
  | nil => exact .inr ⟨rfl, rfl⟩
  | cons first lines ih =>
    by_cases h : Text.upper first.text = word
    · simp only [upTo, if_pos h]
      exact .inl ⟨first, rfl, rfl⟩
    · simp only [upTo, if_neg h]
      rcases ih with ⟨line, hnumber, hlines⟩ | ⟨hnone, hlines⟩
      · exact .inl ⟨line, hnumber, congrArg (first :: ·) hlines⟩
      · exact .inr ⟨hnone, congrArg (first :: ·) hlines⟩

theorem Line.upTo_sublist (word : Text) (lines : List Line) :
    (upTo word lines).1.Sublist lines ∧ (upTo word lines).2.2.Sublist lines := by
  rcases upTo_eq word lines with ⟨line, -, hlines⟩ | ⟨hnone, hlines⟩
  · constructor
    · conv => rhs; rw [hlines]
      exact List.sublist_append_left _ _
    · conv => rhs; rw [hlines]
      exact (List.sublist_cons_self _ _).trans (List.sublist_append_right _ _)
  · rw [hnone, ← hlines]
    exact ⟨List.Sublist.refl _, List.nil_sublist _⟩

theorem Line.Rising.upTo (h : Rising low high lines) (word : Text) (hlow : low ≤ high) :
    (∀ line ∈ (Line.upTo word lines).1, line.number ≤ (Line.upTo word lines).2.1.getD high) ∧
      low ≤ (Line.upTo word lines).2.1.getD high ∧ (Line.upTo word lines).2.1.getD high ≤ high := by
  rcases Line.upTo_eq word lines with ⟨line, hnumber, hlines⟩ | ⟨hnone, hlines⟩
  · have hline : line ∈ lines := by
      rw [hlines]
      simp
    have hbefore := h.pairwise
    rw [hlines, List.pairwise_append] at hbefore
    have hbounds := h.between line hline
    rw [hnumber, Option.getD_some]
    refine ⟨fun other hother => ?_, by omega, by omega⟩
    exact Nat.le_of_lt (hbefore.2.2 other hother line (by simp))
  · rw [hnone, ← hlines]
    exact ⟨fun line hline => (h.between line hline).2, hlow, Nat.le_refl _⟩

/-- The numbers of a block in a source of `length` lines: the IF stands before its triggers, and
these before the line that ends the condition. -/
structure Block.Numbered (length : Nat) (block : Block σ) : Prop where
  positive : 0 < length
  triggers : ∀ trigger ∈ block.triggers, 1 < trigger.1 ∧ trigger.1 ≤ block.thenLine.getD length
  last : 0 < block.thenLine.getD length ∧ block.thenLine.getD length ≤ length
  body : ∀ line ∈ block.body, 0 < line.1 ∧ line.1 ≤ length

namespace Outline

theorem numbered_readBlock (h : Line.Rising low length lines) (hlow : 0 < low)
    (hlength : low ≤ length) :
    (readBlock lines).1.Numbered length := by
  obtain ⟨htriggers, hrest⟩ := Line.upTo_sublist "THEN" lines
  obtain ⟨hbody, -⟩ := Line.upTo_sublist "END" (Line.upTo "THEN" lines).2.2
  obtain ⟨hbefore, hlast, hhigh⟩ := h.upTo "THEN" hlength
  refine ⟨by omega, fun trigger htrigger => ?_, ⟨Nat.lt_of_lt_of_le hlow hlast, hhigh⟩,
    fun line hline => ?_⟩
  · obtain ⟨line, hline, rfl⟩ := List.mem_map.mp htrigger
    have := ((h.sublist htriggers).between line hline).1
    exact ⟨by omega, hbefore line hline⟩
  · obtain ⟨statement, hstatement, rfl⟩ := List.mem_map.mp hline
    have := (h.sublist (hbody.trans hrest)).between statement hstatement
    exact ⟨by omega, this.2⟩

theorem readBlock_sublist (lines : List Line) : (readBlock lines).2.Sublist lines :=
  (Line.upTo_sublist "END" _).2.trans (Line.upTo_sublist "THEN" lines).2

theorem numbered_ofLines (h : Line.Rising 0 length lines) :
    (∀ block ∈ (ofLines lines).blocks, block.Numbered length) ∧
      ∀ number ∈ (ofLines lines).stray, 0 < number ∧ number ≤ length := by
  fun_induction ofLines lines with
  | case1 => simp
  | case2 line lines hif => simpa using h.between line (by simp)
  | case3 line lines hif read outline ih =>
    have hline := h.between line (by simp)
    obtain ⟨hblocks, hstray⟩ := ih ((h.tail.lower (Nat.zero_le _)).sublist (readBlock_sublist lines))
    exact ⟨List.forall_mem_cons.mpr ⟨numbered_readBlock h.tail hline.1 hline.2, hblocks⟩, hstray⟩

end Outline

namespace Block

variable {length : Nat}

theorem encodeEach_numbers {encode : σ → Except Halt τ} {lines : List (Nat × σ)}
    {encoded : List (Nat × τ)} {K : Nat → Prop} (h : encodeEach encode lines = .ok encoded)
    (hlines : ∀ line ∈ lines, K line.1) : ∀ line ∈ encoded, K line.1 := by
  intro line hline
  have hnumber : line.1 ∈ encoded.map Prod.fst := List.mem_map_of_mem hline
  rw [(encodeEach_ok.mp h).1] at hnumber
  obtain ⟨other, hother, heq⟩ := List.mem_map.mp hnumber
  exact heq ▸ hlines other hother

theorem Numbered.encode {block : Block Text} {encoded : Block Encoded} (h : block.Numbered length)
    (hencode : block.encode symbols profile = .ok encoded) : encoded.Numbered length := by
  obtain ⟨triggers, htriggers, hencode⟩ := Outcome.bind_ok.mp hencode
  obtain ⟨body, hbody, hencode⟩ := Outcome.bind_ok.mp hencode
  obtain rfl := Outcome.pure_ok.mp hencode
  exact ⟨h.positive, encodeEach_numbers (K := fun n => 1 < n ∧ n ≤ block.thenLine.getD length)
    htriggers h.triggers, h.last, encodeEach_numbers (K := fun n => 0 < n ∧ n ≤ length) hbody h.body⟩

end Block

namespace Noted

variable {length : Nat}

def Within (length : Nat) (x : Findings α) : Prop :=
  ∀ finding ∈ x.notes, 0 < finding.line ∧ finding.line ≤ length

theorem within_pure (value : α) : Within length (pure value : Findings α) := by simp [Within]

theorem Within.bind {x : Findings α} {f : α → Findings β} (h : x.Within length)
    (hf : (f x.value).Within length) : (x >>= f).Within length := by
  intro finding hfinding
  rcases List.mem_append.mp hfinding with hfinding | hfinding
  · exact h finding hfinding
  · exact hf finding hfinding

theorem within_mapM {f : β → Findings α} {xs : List β} (h : ∀ x ∈ xs, (f x).Within length) :
    (xs.mapM f).Within length := by
  induction xs with
  | nil => exact within_pure _
  | cons x xs ih =>
    rw [List.mapM_cons]
    exact (h x (by simp)).bind ((ih fun y hy => h y (by simp [hy])).bind (within_pure _))

theorem within_onLine {line : Nat} (h : 0 < line ∧ line ≤ length) (encoded : Encoded) :
    (encoded.onLine line).Within length := by
  intro finding hfinding
  obtain ⟨remark, -, rfl⟩ := List.mem_map.mp hfinding
  exact h

theorem within_leaveIf {line : Nat} (fault : Fault) (h : present = true → 0 < line ∧ line ≤ length) :
    (Fault.leaveIf present fault line).Within length := by
  cases present with
  | false => exact within_pure _
  | true => simpa [Within, Fault.leaveIf, Fault.leaveAt] using h rfl

end Noted

namespace Block

variable {length : Nat} {block : Block Encoded}

theorem within_triggerCode {triggers : List (Nat × Encoded)}
    (h : ∀ trigger ∈ triggers, 0 < trigger.1 ∧ trigger.1 ≤ length) (missing : Int) :
    (triggerCode missing triggers).Within length := by
  induction triggers generalizing missing with
  | nil => exact Noted.within_pure _
  | cons trigger triggers ih =>
    obtain ⟨htrigger, htriggers⟩ := List.forall_mem_cons.mp h
    exact (Noted.within_onLine htrigger _).bind ((Noted.within_leaveIf _ fun _ => htrigger).bind
      ((ih htriggers _).bind (Noted.within_pure _)))

theorem Numbered.conditionCode (h : block.Numbered length) :
    (block.conditionCode length).Within length := by
  have hlast := h.last
  refine (within_triggerCode (fun trigger htrigger => ?_) 0).bind
    (.bind ?_ (.bind ?_ (Noted.within_pure _)))
  · have := h.triggers trigger htrigger
    omega
  · -- A group is open only after a trigger, and before that stands the IF.
    refine Noted.within_leaveIf _ fun hopen => ?_
    cases htriggers : block.triggers with
    | nil =>
      rw [htriggers] at hopen
      cases hopen
    | cons trigger triggers =>
      have := h.triggers trigger (by simp [htriggers])
      omega
  · exact Noted.within_leaveIf _ fun _ => h.last

theorem within_bodyCode {body : List (Nat × BodyLine Encoded)}
    (h : ∀ line ∈ body, 0 < line.1 ∧ line.1 ≤ length) (first : Bool) :
    (bodyCode first body).Within length := by
  induction body generalizing first with
  | nil => exact Noted.within_pure _
  | cons line body ih =>
    obtain ⟨number, statement⟩ := line
    obtain ⟨hline, hbody⟩ := List.forall_mem_cons.mp h
    cases statement with
    | response weight =>
      refine .bind ?_ ((ih hbody false).bind (Noted.within_pure _))
      cases weight with
      | some weight => exact Noted.within_pure _
      | none => simpa [Noted.Within, weightCode, Fault.leaveAt] using hline
    | action encoded =>
      exact (Noted.within_onLine hline encoded).bind ((ih hbody first).bind (Noted.within_pure _))

theorem Numbered.code (h : block.Numbered length) : (block.code length).Within length := by
  have hresponses : (block.responseCode length).Within length :=
    (within_bodyCode h.body true).bind
      ((Noted.within_leaveIf _ fun _ => ⟨h.positive, Nat.le_refl _⟩).bind (Noted.within_pure _))
  exact h.conditionCode.bind (hresponses.bind (Noted.within_pure _))

end Block

theorem Outline.within_code {blocks : List (Block Encoded)} {stray : Option Nat}
    (hblocks : ∀ block ∈ blocks, block.Numbered length)
    (hstray : ∀ number ∈ stray, 0 < number ∧ number ≤ length) :
    (Outline.code length blocks stray).Within length := by
  refine .bind (Noted.within_mapM fun block hblock => (hblocks block hblock).code) ?_
  cases stray with
  | none => exact Noted.within_pure _
  | some number => simpa [Noted.Within] using hstray number rfl

theorem Diagnostics.exists_of_mem_toList (h : (line, message) ∈ (ofList messages).toList) :
    (line, message) ∈ messages := by
  have hlast := Std.TreeMap.mem_toList_iff_getElem?_eq_some.mp h
  rw [getElem?_ofList] at hlast
  obtain ⟨found, hfound, hmessage⟩ := List.mem_filterMap.mp (List.mem_of_getLast? hlast)
  split at hmessage
  · next hline =>
    obtain rfl := Option.some.inj hmessage
    exact hline ▸ hfound
  · cases hmessage

/-- Every error and every warning of a script is about one of its physical lines. -/
theorem compile_within (h : compile symbols profile source = .ok compiled)
    (hmessage : (number, message) ∈ compiled.errors.toList ∨
      (number, message) ∈ compiled.warnings.toList) :
    ∃ line : Nat, number = line ∧ 0 < line ∧ line ≤ source.physicalLines.length := by
  obtain ⟨-, blocks, hblocks, rfl⟩ := compile_ok_iff.mp h
  have hrising : Line.Rising 0 source.physicalLines.length source.listing.lines := by
    have := Line.rising_statements 0 source.physicalLines
    rwa [Nat.zero_add] at this
  obtain ⟨hnumbered, hstray⟩ := Outline.numbered_ofLines hrising
  have hencoded : ∀ block ∈ blocks, block.Numbered source.physicalLines.length := by
    intro block hblock
    obtain ⟨found, hfound, hencode⟩ := Outcome.exists_of_mem_mapM hblocks hblock
    exact (hnumbered found hfound).encode hencode
  have hwithin := Outline.within_code hencoded hstray
  rcases hmessage with hmessage | hmessage
  all_goals
    obtain ⟨finding, hfinding, hmessage⟩ :=
      List.mem_filterMap.mp (Diagnostics.exists_of_mem_toList hmessage)
    obtain ⟨_, -, hpair⟩ := Option.map_eq_some_iff.mp hmessage
    obtain ⟨rfl, -⟩ := Prod.mk.inj hpair
    exact ⟨finding.line, rfl, hwithin finding hfinding⟩

end InfinityScript
