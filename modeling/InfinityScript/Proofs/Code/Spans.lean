import InfinityScript.Proofs.Code.Pieces

/-!
# Where tokens stand

Every text is cut to its end: at each place blanks or a lexeme can be read, and neither is
empty (`Lexeme.read_splits`). So tokens stand one after the other with nothing but blanks
around them (`Laid`), and each says what stands in its span (`Lexeme.Shows`). Both together
are what it means that tokens cover a text (`covering_tokenize`).
-/

namespace InfinityScript

/-- A lexeme says what stands in its span: a number the value of the numeral there, any other
lexeme the very text. No blank begins or ends the span, and only strings and coordinates
have blanks in it. -/
structure Lexeme.Shows (lexeme : Lexeme) (span : Text) : Prop where
  text : lexeme.kind ≠ .number → lexeme.text = span
  value : ∀ n, lexeme = .number n → Text.readSigned? span = some n
  first : ∀ c ∈ span.head?, Text.isBlank c = false
  last : ∀ c ∈ span.getLast?, Text.isBlank c = false
  solid : lexeme.kind ≠ .string → lexeme.kind ≠ .coordinate → ∀ c ∈ span, Text.isBlank c = false

namespace Lexeme

theorem Shows.of_visible {lexeme : Lexeme} (htext : lexeme.kind ≠ .number → lexeme.text = span)
    (hvalue : ∀ n, lexeme = .number n → Text.readSigned? span = some n)
    (hvisible : ∀ c ∈ span, Text.isBlank c = false) : lexeme.Shows span where
  text := htext
  value := hvalue
  first c hc := hvisible c (List.mem_of_mem_head? hc)
  last c hc := hvisible c (List.mem_of_mem_getLast? hc)
  solid _ _ := hvisible

theorem Shows.of_enclosed {lexeme : Lexeme} (htext : lexeme.text = opening :: (body ++ [closing]))
    (hkind : lexeme.kind = .string ∨ lexeme.kind = .coordinate)
    (hopening : Text.isBlank opening = false) (hclosing : Text.isBlank closing = false) :
    lexeme.Shows (opening :: (body ++ [closing])) where
  text _ := htext
  value n hn := by simp [hn, kind] at hkind
  first := by simpa using hopening
  last := by
    rw [← List.cons_append, List.getLast?_concat]
    simpa using hclosing
  solid hstring hcoordinate := absurd hkind (by simp [hstring, hcoordinate])

theorem Spells.shows {lexeme : Lexeme} (h : lexeme.Spells span) : lexeme.Shows span := by
  cases h with
  | marker m =>
    obtain ⟨a, b, hcode, ha, hb, -⟩ := m.code_letters
    refine .of_visible (fun _ => rfl) (by simp) ?_
    simp [hcode, (isWordChar_iff.mp ha).1, (isWordChar_iff.mp hb).1]
  | number hnumeral hvalue =>
    refine .of_visible (fun hkind => absurd rfl hkind) ?_ (fun c hc => hnumeral.isBlank_eq_false hc)
    rintro m ⟨⟩
    exact hvalue
  | string hbody => exact .of_enclosed rfl (.inl rfl) (by decide) (by decide)
  | coordinate hbody => exact .of_enclosed rfl (.inr rfl) (by decide) (by decide)
  | word hvisible => exact .of_visible (fun _ => rfl) (by simp) hvisible

end Lexeme

def Token.span (code : Text) (token : Token) : Text :=
  (code.drop token.start).take (token.stop - token.start)

/-- Tokens of a text that begins at `position`: between them and around them are blanks. -/
inductive Laid : Nat → Text → List Token → Prop
  | nil {position : Nat} : Laid position [] []
  | blank {position : Nat} {c : Char} {rest : Text} {tokens : List Token} (h : Text.isBlank c)
      (hrest : Laid (position + 1) rest tokens) : Laid position (c :: rest) tokens
  | token {position : Nat} (lexeme : Lexeme) (c : Char) (shown : Text) {rest : Text}
      {tokens : List Token} (hrest : Laid (position + shown.length + 1) rest tokens) :
      Laid position (c :: (shown ++ rest))
        (⟨lexeme, position, position + shown.length + 1⟩ :: tokens)

namespace Laid

variable {text : Text} {tokens : List Token} {position : Nat}

theorem blanks {run : Text} (hrun : ∀ c ∈ run, Text.isBlank c)
    (h : Laid (position + run.length) text tokens) : Laid position (run ++ text) tokens := by
  induction run generalizing position with
  | nil => exact h
  | cons c run ih =>
    obtain ⟨hc, hrun⟩ := List.forall_mem_cons.mp hrun
    refine .blank hc (ih hrun ?_)
    rwa [List.length_cons, Nat.add_comm run.length, ← Nat.add_assoc] at h

theorem bounds (h : Laid position text tokens) : ∀ token ∈ tokens,
    position ≤ token.start ∧ token.start < token.stop ∧ token.stop ≤ position + text.length := by
  induction h with
  | nil => simp
  | blank hc hrest ih =>
    intro token htoken
    have hbounds := ih token htoken
    simp only [List.length_cons]
    omega
  | token lexeme c shown hrest ih =>
    simp only [List.length_cons, List.length_append]
    refine List.forall_mem_cons.mpr ⟨by dsimp only; omega, fun token htoken => ?_⟩
    have hbounds := ih token htoken
    omega

theorem apart (h : Laid position text tokens) :
    tokens.Pairwise fun first second => first.stop ≤ second.start := by
  induction h with
  | nil => exact .nil
  | blank hc hrest ih => exact ih
  | token lexeme c shown hrest ih => exact .cons (fun token htoken => (hrest.bounds token htoken).1) ih

theorem isBlank_outside (h : Laid position text tokens) (hc : text[i]? = some c)
    (houtside : ∀ token ∈ tokens, ¬ (token.start ≤ position + i ∧ position + i < token.stop)) :
    Text.isBlank c := by
  induction h generalizing i with
  | nil => simp at hc
  | blank hblank hrest ih =>
    cases i with
    | zero =>
      obtain rfl := Option.some.inj hc
      exact hblank
    | succ i =>
      refine ih hc ?_
      simpa only [Nat.add_assoc, Nat.add_comm 1] using houtside
  | @token position lexeme first shown rest tokens hrest ih =>
    obtain ⟨hfirst, hothers⟩ := List.forall_mem_cons.mp houtside
    obtain ⟨count, rfl⟩ : ∃ count, i = shown.length + count + 1 := by
      refine ⟨i - shown.length - 1, ?_⟩
      dsimp only at hfirst
      omega
    refine @ih count ?_ ?_
    · simpa [List.getElem?_append_right] using hc
    · simpa only [Nat.add_assoc, Nat.add_comm 1] using hothers

end Laid

theorem laid_scan (position : Nat) (text : Text) : Laid position text (Token.scan position text) := by
  fun_induction pieces text generalizing position with
  | case1 =>
    rw [Token.scan]
    exact .nil
  | case2 c rest read after lexeme h ih =>
    rcases Lexeme.read_splits c rest with
      ⟨blanks, left, -, hread, -⟩ | ⟨found, shown, left, rfl, hread, -⟩
    · rw [show read.1 = none from congrArg Prod.fst hread] at h
      cases h
    · rw [Token.scan_some hread, List.drop_left]
      rw [show read.2 = shown.length from congrArg Prod.snd hread, List.drop_left] at ih
      exact .token found c shown (ih _)
  | case3 c rest read after h ih =>
    rcases Lexeme.read_splits c rest with
      ⟨blanks, left, rfl, hread, hblanks⟩ | ⟨found, shown, left, -, hread, -⟩
    · rw [Token.scan_none hread, List.drop_left]
      rw [show read.2 = blanks.length from congrArg Prod.snd hread, List.drop_left] at ih
      exact Laid.blanks hblanks (ih _)
    · rw [show read.1 = some found from congrArg Prod.fst hread] at h
      cases h

/-- Tokens cover a text: their spans are not empty, lie in the text and follow one another, only
blanks stand outside them, and each token says what stands in its span. -/
structure Covering (code : Text) (tokens : List Token) : Prop where
  inside : ∀ token ∈ tokens, token.start < token.stop ∧ token.stop ≤ code.length
  apart : tokens.Pairwise fun first second => first.stop ≤ second.start
  outside : ∀ (i : Nat) (c : Char), code[i]? = some c →
    (∀ token ∈ tokens, ¬ (token.start ≤ i ∧ i < token.stop)) → Text.isBlank c
  shows : ∀ token ∈ tokens, token.lexeme.Shows (token.span code)

/-- The pieces of a text are its tokens with their spans. -/
theorem map_span_scan {code : Text} (position : Nat) (text : Text) (h : code.drop position = text) :
    (Token.scan position text).map (fun token => (token.lexeme, token.span code)) =
      pieces text := by
  fun_induction pieces text generalizing position with
  | case1 => simp [Token.scan]
  | case2 c rest read after lexeme hread ih =>
    have hnext : code.drop (position + read.2 + 1) = rest.drop read.2 := by
      rw [Nat.add_assoc, ← List.drop_drop, h, List.drop_succ_cons]
    have hsize : position + read.2 + 1 - position = read.2 + 1 := by omega
    have hread : Lexeme.read c rest = (some lexeme, read.2) := Prod.ext hread rfl
    rw [Token.scan_some hread, List.map_cons, ih _ hnext, Token.span]
    simp only [h, hsize, List.take_succ_cons, after]
  | case3 c rest read after hread ih =>
    have hnext : code.drop (position + read.2 + 1) = rest.drop read.2 := by
      rw [Nat.add_assoc, ← List.drop_drop, h, List.drop_succ_cons]
    rw [Token.scan_none (Prod.ext hread rfl), ih _ hnext]

theorem pieces_eq_map_span (code : Text) :
    pieces code = (tokenize code).map fun token => (token.lexeme, token.span code) :=
  (map_span_scan 0 code rfl).symm

theorem covering_tokenize (code : Text) : Covering code (tokenize code) where
  inside token htoken := by
    obtain ⟨-, hspan, hend⟩ := (laid_scan 0 code).bounds token htoken
    exact ⟨hspan, by simpa using hend⟩
  apart := (laid_scan 0 code).apart
  outside i c hc houtside := by
    refine (laid_scan 0 code).isBlank_outside hc fun token htoken => ?_
    rw [Nat.zero_add]
    exact houtside token htoken
  shows token htoken := by
    have hpiece : (token.lexeme, token.span code) ∈ pieces code := by
      rw [pieces_eq_map_span]
      exact List.mem_map_of_mem htoken
    exact (spells_of_mem_pieces hpiece).1.shows

end InfinityScript
