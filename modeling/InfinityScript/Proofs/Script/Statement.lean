import InfinityScript.Proofs.Script.Encode
import InfinityScript.Proofs.Script.Faultless

/-!
# Statements that round-trip

A statement that compiles without faults to a record from which its own line is read
back gives a chunk of code: the record is divided from what stands around it, and is
read in any place as it is by itself (`exists_chunk`).
-/

namespace InfinityScript

open Reader NotedT

theorem Encoded.settle_faultless {encoding : Encoding α} {ofRecord : α → List Remark → Encoded}
    (hof : ∀ record remarks, (ofRecord record remarks).remarks = remarks)
    (h : Encoded.settle encoding ofRecord = .ok encoded) (hremarks : Faultless encoded.remarks) :
    ∃ record remarks, encoding.Succeeds record ∧ encoded = ofRecord record remarks := by
  unfold Encoded.settle at h
  split at h
  · next record remarks hout =>
    obtain rfl := Except.ok.inj h
    exact ⟨record, remarks, ⟨remarks, hout, hof record remarks ▸ hremarks⟩, rfl⟩
  · next fault remarks hout =>
    obtain rfl := Except.ok.inj h
    exact absurd (by simp) (hremarks fault)
  · cases h

def Framed (m : Marker) (text : Text) : Prop :=
  ∃ body c, Text.isBlank c ∧ text = m.code ++ '\n' :: (body ++ c :: (m.code ++ ['\n']))

theorem framed_append (m : Marker) (hc : Text.isBlank c) (body : Text) :
    Framed m (m.code ++ ['\n'] ++ body ++ c :: (m.code ++ ['\n'])) :=
  ⟨body, c, hc, by simp⟩

theorem Trigger.framed_encode
    (h : (Trigger.encode symbols profile line).Succeeds (text, n)) : Framed .trigger text := by
  obtain ⟨_, _, _, _, _, _, _, -, -, -, -, -, -, -, rfl, -⟩ := Trigger.succeeds_encode.mp h
  exact framed_append .trigger (by decide : Text.isBlank '\n') _

theorem Action.framed_encode (h : (Action.encode symbols profile line).Succeeds text) :
    Framed .action text := by
  obtain ⟨_, _, _, _, _, _, -, -, -, -, hcall⟩ := Action.succeeds_encode h
  obtain ⟨_, _, _, _, -, -, -, -, -, rfl⟩ := Action.succeeds_encodeCall.mp hcall
  exact framed_append .action (by decide : Text.isBlank ' ') _

theorem pieces_framed (m : Marker) (hc : Text.isBlank c) (body : Text) :
    pieces (m.code ++ '\n' :: (body ++ c :: (m.code ++ ['\n']))) =
      m.piece :: (pieces (body ++ [c]) ++ [m.piece]) := by
  have hstart := splits_marker m (body ++ c :: (m.code ++ ['\n']))
  have hcode : '"' ∉ m.code ++ ['\n'] ∧ ']' ∉ m.code ++ ['\n'] := by
    cases m <;> decide
  rw [List.append_assoc, List.singleton_append] at hstart
  rw [hstart, pieces_append hc body _ (.inr hcode), (splits_marker m).pieces_eq]
  rfl

/-- On these lexemes the reader takes fields up to the marker, reads the line from
them, and does not look any further. -/
def ReadsLine (m : Marker) (reader : Reader SourceLine) (ls : List Lexeme) (line : SourceLine)
    (left : List Lexeme) : Prop :=
  ∃ taken, ls = taken ++ .marker m :: left ∧ (∀ l ∈ taken, l.IsField) ∧
    ∀ rest, reader.parse (ls ++ rest) = (.ok line, left ++ rest)

theorem Reader.Closes.readsLine {reader : Reader SourceLine} (h : Closes Lexeme.IsField m reader)
    (hparse : reader.parse ls = (.ok line, left)) : ReadsLine m reader ls line left := by
  rcases h.parse ls with ⟨taken, left', result, hls, htaken, hrest⟩ |
    ⟨taken, left', error, hls, htaken, herror, -⟩
  · have hnil := hrest []
    rw [List.append_nil, List.append_nil, hparse] at hnil
    cases hnil
    exact ⟨taken, hls, htaken, hrest⟩
  · rw [hparse] at herror
    cases herror

theorem Action.readsLine_decode
    (h : (Action.decode symbols profile).parse ls = (.ok line, left)) :
    ReadsLine .action (Action.decode symbols profile) ls line left :=
  (Action.closes_decode symbols profile).readsLine h

theorem Trigger.readsLine_decode
    (h : (Trigger.decode symbols profile).parse ls = (.ok line, left))
    (hline : ¬ ("Error - ".toList <+: line.text)) :
    ReadsLine .trigger (Trigger.decode symbols profile) ls line left := by
  obtain ⟨opcode, rest, hnumber, hrecord⟩ := parse_bind_eq_ok h
  obtain rfl := parse_number_ok hnumber
  have hdecode : ∀ ls, (Trigger.decode symbols profile).parse (.number opcode :: ls) = _ :=
    fun ls => parse_bind_ok parse_number_cons
  cases hdefinition : Trigger.definition? symbols opcode with
  | none =>
    simp only [hdefinition] at hrecord
    rw [parse_bind_ok (parse_skipPast _), parse_pure] at hrecord
    cases hrecord
    exact absurd ⟨"Could not find trigger ".toList ++ Text.ofInt opcode, rfl⟩ hline
  | some definition =>
    obtain ⟨entry, opcode'⟩ := definition
    simp only [hdefinition] at hrecord hdecode
    obtain ⟨taken, rfl, htaken, hrest⟩ :=
      (Trigger.closes_read symbols profile entry opcode').readsLine hrecord
    refine ⟨.number opcode :: taken, rfl, ?_, fun rest => ?_⟩
    · simpa [Lexeme.IsField] using htaken
    · rw [List.cons_append, hdecode, hrest]

theorem parse_recordsStep_other (h : l ≠ .marker m) (lines : List SourceLine) :
    (Decompiler.recordsStep m record lines (.bare l)).parse ls = (.ok lines, ls) := by
  rw [Decompiler.recordsStep, Token.lexeme_bare, if_neg h, parse_pure]

theorem parse_recordsStep_ok (h : (Decompiler.recordOrDamage m record).parse ls = (.ok line, rest))
    (lines : List SourceLine) :
    (Decompiler.recordsStep m record lines (.bare (.marker m))).parse ls =
      (.ok (lines ++ [line]), rest) := by
  rw [Decompiler.recordsStep, Token.lexeme_bare, if_pos rfl, parse_bind_ok h, parse_pure]

theorem parse_recordsStep_error
    (h : (Decompiler.recordOrDamage m record).parse ls = (.error error, rest))
    (lines : List SourceLine) :
    (Decompiler.recordsStep m record lines (.bare (.marker m))).parse ls = (.error error, rest) := by
  rw [Decompiler.recordsStep, Token.lexeme_bare, if_pos rfl, parse_bind_error h]

theorem parse_sweep_records {record : Reader SourceLine} {lines lines' : List SourceLine}
    (h : (sweep none (Decompiler.recordsStep m record) lines).parse ls =
      (.ok (lines', closed), left)) :
    ∃ more, lines' = lines ++ more ∧ (.marker m ∈ ls → more ≠ []) := by
  induction hlen : ls.length using Nat.strongRecOn generalizing ls lines with
  | ind n ih =>
    cases ls with
    | nil =>
      rw [parse_sweep_nil] at h
      cases h
      exact ⟨[], by simp, by simp⟩
    | cons l ls =>
      by_cases hl : l = .marker m
      · subst hl
        rcases hrecord : (Decompiler.recordOrDamage m record).parse ls with ⟨error | line, rest⟩
        · rw [parse_sweep_error (by simp) (parse_recordsStep_error hrecord lines)] at h
          cases h
        · rw [parse_sweep_ok (by simp) (parse_recordsStep_ok hrecord lines)] at h
          have hlt : rest.length < n := by
            have hle := ((Decompiler.recordOrDamage m record).parse_suffix ls).length_le
            simp only [hrecord] at hle
            simp only [List.length_cons] at hlen
            omega
          obtain ⟨more, rfl, -⟩ := ih rest.length hlt h rfl
          exact ⟨line :: more, by simp, by simp⟩
      · rw [parse_sweep_ok (by simp) (parse_recordsStep_other hl lines)] at h
        obtain ⟨more, hmore, hmarker⟩ := ih ls.length (by simp [← hlen]) h rfl
        refine ⟨more, hmore, fun hmem => hmarker ?_⟩
        exact (List.mem_cons.mp hmem).resolve_left (Ne.symm hl)

theorem parse_records_nil {record : Reader SourceLine} (h : .marker m ∉ ls) :
    (Decompiler.records m record).parse ls = (.ok [], []) := by
  have hsweep : (sweep none (Decompiler.recordsStep m record) []).parse ls =
      (.ok ([], false), []) := by
    induction ls with
    | nil => exact parse_sweep_nil _ _ _
    | cons l ls ih =>
      have hl : l ≠ .marker m := fun e => h (by simp [e])
      rw [parse_sweep_ok (by simp) (parse_recordsStep_other hl []),
        ih fun hmem => h (by simp [hmem])]
  exact (parse_bind_ok hsweep).trans (parse_pure _)

theorem parse_recordOrDamage {record : Reader SourceLine}
    (h : (Decompiler.recordOrDamage m record).parse ls = (.ok line, left))
    (hline : ¬ ("Error - ".toList <+: line.text)) : record.parse ls = (.ok line, left) := by
  rw [Decompiler.recordOrDamage, parse_recover] at h
  rcases hrecord : record.parse ls with ⟨(damage | abort) | line', rest⟩
  · simp only [hrecord] at h
    rw [parse_bind_ok (parse_skipPast _), parse_pure] at h
    cases h
    exact absurd ⟨damage.message, rfl⟩ hline
  · simp [hrecord] at h
  · simpa [hrecord] using h

theorem ofLines_eq_line {lines : List Text} (h : Text.ofLines lines = line ++ ['\n'])
    (hline : '\n' ∉ line) : lines = [line] := by
  match lines with
  | [] => simp [Text.ofLines] at h
  | [first] => simpa [Text.ofLines] using h
  | first :: second :: lines =>
    have hcount := congrArg (List.count '\n') h
    simp only [Text.ofLines, List.flatMap_cons, List.count_append, List.count_singleton_self,
      List.count_eq_zero_of_not_mem hline] at hcount
    omega

theorem not_leavesOpen (h : ∀ piece ∈ pieces text, ∀ word, piece.1 ≠ .word word) :
    ¬ LeavesOpen text := by
  rintro ⟨piece, hmem, hpiece | hpiece⟩
  · exact h piece hmem _ hpiece
  · exact h piece hmem _ hpiece

/-- The only line that is read from a record goes through all of it. -/
theorem readsLine_of_records {record : Reader SourceLine}
    (hreads : ∀ {ls line left}, record.parse ls = (.ok line, left) →
      ¬ ("Error - ".toList <+: line.text) → ReadsLine m record ls line left)
    (hlines : ((Decompiler.records m record).parse (.marker m :: (ls ++ [.marker m]))).1 =
      .ok lines)
    (htext : lines.map SourceLine.text = [line]) (herror : ¬ ("Error - ".toList <+: line)) :
    ∃ first, first.text = line ∧ ReadsLine m record (ls ++ [.marker m]) first [] := by
  rcases hsweep : (sweep none (Decompiler.recordsStep m record) []).parse
    (.marker m :: (ls ++ [.marker m])) with ⟨error | ⟨lines', closed⟩, left⟩
  · rw [Decompiler.records, parse_bind_error hsweep] at hlines
    cases hlines
  · rw [Decompiler.records, parse_bind_ok hsweep, parse_pure] at hlines
    obtain rfl := Except.ok.inj hlines
    rcases hrecord : (Decompiler.recordOrDamage m record).parse (ls ++ [.marker m]) with
      ⟨error | first, rest⟩
    · rw [parse_sweep_error (by simp) (parse_recordsStep_error hrecord [])] at hsweep
      cases hsweep
    · rw [parse_sweep_ok (by simp) (parse_recordsStep_ok hrecord [])] at hsweep
      obtain ⟨more, rfl, hmarker⟩ := parse_sweep_records hsweep
      have hmore : more = [] := by simpa using congrArg List.length htext
      have hfirst : first.text = line := by simpa [hmore] using htext
      -- A rest would end in a marker, and with it would come another line.
      have hrest : rest = [] := by
        have hsuffix := (Decompiler.recordOrDamage m record).parse_suffix (ls ++ [.marker m])
        simp only [hrecord] at hsuffix
        obtain ⟨taken, htaken⟩ := hsuffix
        rcases List.eq_nil_or_concat rest with rfl | ⟨others, last, rfl⟩
        · rfl
        · rw [List.concat_eq_append, ← List.append_assoc] at htaken
          obtain rfl : last = .marker m := by simpa using (List.append_inj' htaken rfl).2
          exact absurd hmore (hmarker (by simp))
      rw [hrest] at hrecord
      rw [← hfirst] at herror
      exact ⟨first, hfirst, hreads (parse_recordOrDamage hrecord herror) herror⟩

theorem exists_chunk {record : Reader SourceLine} (hrecord : Positionless record)
    (hreads : ∀ {ls line left}, record.parse ls = (.ok line, left) →
      ¬ ("Error - ".toList <+: line.text) → ReadsLine m record ls line left)
    (hframed : Framed m text)
    (hdecompile : (Decompiler.records m record).readCode text collect = .ok d)
    (hsource : d.source = line ++ ['\n']) (hnewline : '\n' ∉ line)
    (herror : ¬ ("Error - ".toList <+: line)) :
    ∃ chunk : Chunk m record, chunk.text = text ∧ chunk.line.text = line := by
  obtain ⟨body, c, hc, rfl⟩ := hframed
  obtain ⟨hlegible, lines, hlines, rfl⟩ :=
    (readCode_eq_ok_iff (Decompiler.positionless_records m hrecord)).mp hdecompile
  have hpieces := pieces_framed m hc body
  rw [lexemes, hpieces, List.map_cons, List.map_append] at hlines
  obtain ⟨first, hfirst, taken, htaken, hfields, hrest⟩ :=
    readsLine_of_records hreads hlines (ofLines_eq_line hsource hnewline) herror
  obtain rfl := List.append_cancel_right htaken
  have hopen : ¬ LeavesOpen ((m.code ++ '\n' :: (body ++ c :: m.code)) ++ ['\n']) := by
    refine not_leavesOpen fun piece hmem word hword => ?_
    have hmem : piece ∈ m.piece :: (pieces (body ++ [c]) ++ [m.piece]) := by
      rw [← hpieces]
      simpa using hmem
    simp only [List.mem_cons, List.mem_append, List.not_mem_nil, or_false] at hmem
    rcases hmem with rfl | hmem | rfl
    · cases hword
    · have hfield := hfields piece.1 (List.mem_map_of_mem hmem)
      rw [hword] at hfield
      exact hfield
    · cases hword
  have hsplits := splits_of_not_leavesOpen hopen
  rw [List.append_assoc, List.cons_append, List.append_assoc, List.cons_append, hpieces] at hsplits
  refine ⟨⟨_, pieces (body ++ [c]) ++ [m.piece], first, ⟨_, rfl⟩, hsplits, ?_, ?_⟩, rfl, hfirst⟩
  · intro piece hmem
    refine hlegible piece ?_
    rw [hpieces]
    exact List.mem_cons_of_mem _ hmem
  · intro ls
    rw [List.map_append]
    simpa [Marker.piece] using hrest ls

end InfinityScript
