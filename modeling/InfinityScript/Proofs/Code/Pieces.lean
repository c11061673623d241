import InfinityScript.Code.Token
import InfinityScript.Proofs.Text.Cut

/-!
# Pieces of compiled code

A text is cut into pieces: lexemes with the characters they cover. The pieces are
the tokens without their positions, so they can be told of a part of the code and
put together. `pieces_append` says when: a blank divides two texts as long as no
bracket that the first leaves open is closed by the second.
-/

namespace InfinityScript

def pieces : Text → List (Lexeme × Text)
  | [] => []
  | c :: rest =>
    let read := Lexeme.read c rest
    let after := pieces (rest.drop read.2)
    match read.1 with
    | some lexeme => (lexeme, c :: rest.take read.2) :: after
    | none => after
termination_by text => text.length
decreasing_by simp only [List.length_drop, List.length_cons]; omega

def lexemes (text : Text) : List Lexeme := (pieces text).map Prod.fst

def Legible (piece : Lexeme × Text) : Prop := piece.1.kind = .number → Text.FewDigits piece.2

-- --------------------
-- Pieces and tokens
-- --------------------

@[simp] theorem pieces_nil : pieces [] = [] := by rw [pieces]

theorem pieces_some {lexeme : Lexeme} (h : Lexeme.read c rest = (some lexeme, extra)) :
    pieces (c :: rest) = (lexeme, c :: rest.take extra) :: pieces (rest.drop extra) := by
  simp only [pieces, h]

theorem pieces_none (h : Lexeme.read c rest = (none, extra)) :
    pieces (c :: rest) = pieces (rest.drop extra) := by
  simp only [pieces, h]

theorem Token.scan_some {lexeme : Lexeme} (h : Lexeme.read c rest = (some lexeme, extra)) :
    Token.scan position (c :: rest) =
      ⟨lexeme, position, position + extra + 1⟩ ::
        Token.scan (position + extra + 1) (rest.drop extra) := by
  simp only [Token.scan, h]

theorem Token.scan_none (h : Lexeme.read c rest = (none, extra)) :
    Token.scan position (c :: rest) = Token.scan (position + extra + 1) (rest.drop extra) := by
  simp only [Token.scan, h]

theorem map_lexeme_scan (position : Nat) (text : Text) :
    (Token.scan position text).map Token.lexeme = lexemes text := by
  unfold lexemes
  fun_induction pieces text generalizing position with
  | case1 => simp [Token.scan]
  | case2 c rest read after lexeme h ih =>
    have hread : Lexeme.read c rest = (some lexeme, read.2) := Prod.ext h rfl
    rw [Token.scan_some hread, List.map_cons, List.map_cons, ih]
  | case3 c rest read after h ih =>
    have hread : Lexeme.read c rest = (none, read.2) := Prod.ext h rfl
    rw [Token.scan_none hread, ih]

theorem map_lexeme_tokenize (code : Text) : (tokenize code).map Token.lexeme = lexemes code :=
  map_lexeme_scan 0 code

/-- The numbers of a text are looked up in the text that `start` characters of it
have been dropped from. -/
theorem checkNumbers_scan (text : Text) : ∀ (start position : Nat) (whole : Text),
    start ≤ position → text = whole.drop (position - start) →
    (Token.checkNumbers start whole (Token.scan position text) = .ok () ↔
      ∀ piece ∈ pieces text, Legible piece) := by
  fun_induction pieces text with
  | case1 =>
    intro start position whole _ _
    simp [Token.scan, Token.checkNumbers]
  | case2 c rest read after lexeme h ih =>
    intro start position whole hle htext
    have hread : Lexeme.read c rest = (some lexeme, read.2) := Prod.ext h rfl
    have hsize : position + read.2 + 1 - position = read.2 + 1 := by omega
    have hnext := ih position (position + read.2 + 1) (c :: rest) (by omega)
      (by rw [hsize, List.drop_succ_cons])
    rw [Token.scan_some hread]
    simp only [Token.checkNumbers, Token.kind, ← htext, hsize, List.take_succ_cons,
      List.forall_mem_cons, after, ← hnext]
    by_cases hk : lexeme.kind = .number
    · simp only [hk, if_true, Legible, forall_const]
      rw [← Text.checkDigits_eq_ok_iff]
      cases Text.checkDigits (c :: rest.take read.2) with
      | ok u => simp [bind, Except.bind]
      | error fault => simp [bind, Except.bind]
    · simp [hk, Legible]
  | case3 c rest read after h ih =>
    intro start position whole hle htext
    have hread : Lexeme.read c rest = (none, read.2) := Prod.ext h rfl
    rw [Token.scan_none hread]
    refine ih _ _ _ (by omega) ?_
    rw [show position + read.2 + 1 - start = (position - start) + (read.2 + 1) by omega,
      ← List.drop_drop, ← htext, List.drop_succ_cons]

theorem readTokens_eq_ok_iff {code : Text} {tokens : List Token} :
    readTokens code = .ok tokens ↔
      tokens = tokenize code ∧ ∀ piece ∈ pieces code, Legible piece := by
  have hcheck := checkNumbers_scan code 0 0 code (by omega) (by simp)
  simp only [readTokens]
  rw [← hcheck]
  show (Token.checkNumbers 0 code (tokenize code) >>= fun _ => pure (tokenize code)) = _ ↔ _
  unfold tokenize
  cases Token.checkNumbers 0 code (Token.scan 0 code) with
  | ok u => simp [bind, Except.bind, pure, Except.pure, eq_comm]
  | error fault => simp [bind, Except.bind]

-- --------------------
-- What a character begins
-- --------------------

namespace Lexeme

theorem read_blank (h : Text.isBlank c) :
    read c rest = (none, (rest.takeWhile Text.isBlank).length) := by
  unfold read
  simp [h]

theorem read_string (h : bracketed? '"' rest = some body) :
    read '"' rest = (some (.string ('"' :: body)), body.length) := by
  have hblank : Text.isBlank '"' = false := by decide
  unfold read
  simp [hblank, h]

theorem read_quote (h : bracketed? '"' rest = none) :
    read '"' rest = (some (.word ['"']), 0) := by
  have hblank : Text.isBlank '"' = false := by decide
  unfold read
  simp [hblank, h]

theorem read_coordinate (h : bracketed? ']' rest = some body) :
    read '[' rest = (some (.coordinate ('[' :: body)), body.length) := by
  have hblank : Text.isBlank '[' = false := by decide
  unfold read
  simp [hblank, h]

theorem read_opening (h : bracketed? ']' rest = none) :
    read '[' rest = (some (.word ['[']), 0) := by
  have hblank : Text.isBlank '[' = false := by decide
  unfold read
  simp [hblank, h]

theorem read_closing : read ']' rest = (some (.word [']']), 0) := by
  have hblank : Text.isBlank ']' = false := by decide
  unfold read
  simp [hblank]

theorem isWordChar_iff : isWordChar c ↔ Text.isBlank c = false ∧ c ≠ '"' ∧ c ≠ '[' ∧ c ≠ ']' := by
  simp [isWordChar, and_assoc]

theorem read_number (h : isWordChar c) (hn : numeral? c rest = some numeral) :
    read c rest = (some (.number ((Text.readSigned? numeral).getD 0)), numeral.length - 1) := by
  obtain ⟨hblank, hquote, hopen, hclose⟩ := isWordChar_iff.mp h
  unfold read
  simp [hblank, hquote, hopen, hclose, hn]

theorem read_marker {m : Marker} (h : isWordChar c) (hn : numeral? c rest = none)
    (hm : marker? c rest = some m) : read c rest = (some (.marker m), 1) := by
  obtain ⟨hblank, hquote, hopen, hclose⟩ := isWordChar_iff.mp h
  unfold read
  simp [hblank, hquote, hopen, hclose, hn, hm]

theorem read_word (h : isWordChar c) (hn : numeral? c rest = none) (hm : marker? c rest = none) :
    read c rest =
      (some (.word (c :: rest.takeWhile isWordChar)), (rest.takeWhile isWordChar).length) := by
  obtain ⟨hblank, hquote, hopen, hclose⟩ := isWordChar_iff.mp h
  unfold read
  simp [hblank, hquote, hopen, hclose, hn, hm]

theorem isWordChar_of_isDecimalDigit (h : Text.isDecimalDigit c) : isWordChar c := by
  have hquote : c ≠ '"' := by rintro rfl; exact absurd h (by decide)
  have hopen : c ≠ '[' := by rintro rfl; exact absurd h (by decide)
  have hclose : c ≠ ']' := by rintro rfl; exact absurd h (by decide)
  simp [isWordChar, Text.isBlank_eq_false_of_isDecimalDigit h, hquote, hopen, hclose]

end Lexeme

theorem takeWhile_append_stop {p : α → Bool} (h : p c = false) (a b : List α) :
    (a ++ c :: b).takeWhile p = a.takeWhile p := by
  induction a with
  | nil => simp [h]
  | cons x a ih =>
    rw [List.cons_append, List.takeWhile_cons, List.takeWhile_cons, ih]

theorem takeWhile_append_rest {p : α → Bool} {a b : List α} (ha : ∀ x ∈ a, p x)
    (hb : ∀ x ∈ b.head?, p x = false) : (a ++ b).takeWhile p = a := by
  rw [List.takeWhile_append_of_pos ha]
  cases b with
  | nil => simp
  | cons x b => simp [hb x (by simp)]

theorem drop_length_takeWhile {p : α → Bool} (l : List α) :
    l.drop (l.takeWhile p).length = l.dropWhile p := by
  conv => lhs; rhs; rw [← List.takeWhile_append_dropWhile (p := p) (l := l)]
  exact List.drop_left

-- --------------------
-- What a lexeme is made of
-- --------------------

/-- The lexemes and the characters that they are made of. -/
inductive Lexeme.Spells : Lexeme → Text → Prop
  | marker (m : Marker) : Spells (.marker m) m.code
  | number {numeral : Text} {n : Int} (h : Text.IsNumeral numeral)
      (hvalue : Text.readSigned? numeral = some n) : Spells (.number n) numeral
  | string {body : Text} (h : '"' ∉ body) :
      Spells (.string ('"' :: (body ++ ['"']))) ('"' :: (body ++ ['"']))
  | coordinate {body : Text} (h : ']' ∉ body) :
      Spells (.coordinate ('[' :: (body ++ [']']))) ('[' :: (body ++ [']']))
  | word {shown : Text} (h : ∀ c ∈ shown, Text.isBlank c = false) : Spells (.word shown) shown

namespace Lexeme

theorem bracketed?_splits (h : bracketed? closing rest = some body) :
    ∃ inside after, closing ∉ inside ∧ body = inside ++ [closing] ∧ rest = body ++ after := by
  obtain ⟨⟨inside, after⟩, hcut, rfl⟩ := Option.map_eq_some_iff.mp h
  obtain ⟨hinside, rfl⟩ := Text.cut?_eq_some hcut
  exact ⟨inside, after, hinside, rfl, by simp⟩

theorem numeral?_splits (h : numeral? c rest = some numeral) :
    ∃ digits after, numeral = c :: digits ∧ rest = digits ++ after ∧ Text.IsNumeral numeral := by
  have hdigits : ∀ d ∈ rest.takeWhile Text.isDecimalDigit, Text.isDecimalDigit d :=
    List.all_eq_true.mp List.all_takeWhile
  simp only [numeral?] at h
  split at h
  · next hfirst =>
    obtain rfl := Option.some.inj h
    refine ⟨_, _, rfl, List.takeWhile_append_dropWhile.symm, ?_⟩
    simp only [Bool.or_eq_true, Bool.and_eq_true, beq_iff_eq, Bool.not_eq_true',
      List.isEmpty_eq_false_iff] at hfirst
    rcases hfirst with hdigit | ⟨rfl, hne⟩
    · exact .plain (by simp) (List.forall_mem_cons.mpr ⟨hdigit, hdigits⟩)
    · exact .minus hne hdigits
  · cases h

theorem marker?_splits {m : Marker} (h : marker? c rest = some m) :
    ∃ d after, rest = d :: after ∧ m.code = [c, d] := by
  cases rest with
  | nil => cases h
  | cons d after =>
    simp only [marker?] at h
    split at h
    · cases h
    · exact ⟨d, after, rfl, by simpa using List.find?_some h⟩

theorem read_splits (c : Char) (rest : Text) :
    (∃ blanks after, rest = blanks ++ after ∧ read c rest = (none, blanks.length) ∧
      ∀ d ∈ c :: blanks, Text.isBlank d) ∨
    ∃ lexeme shown after, rest = shown ++ after ∧ read c rest = (some lexeme, shown.length) ∧
      lexeme.Spells (c :: shown) := by
  cases hblank : Text.isBlank c with
  | true =>
    refine .inl ⟨_, _, List.takeWhile_append_dropWhile.symm, read_blank hblank, ?_⟩
    exact List.forall_mem_cons.mpr ⟨hblank, List.all_eq_true.mp List.all_takeWhile⟩
  | false =>
    refine .inr ?_
    have halone : ∀ d ∈ [c], Text.isBlank d = false := by simpa using hblank
    by_cases hquote : c = '"'
    · subst hquote
      cases hbody : bracketed? '"' rest with
      | some body =>
        obtain ⟨inside, after, hinside, rfl, hrest⟩ := bracketed?_splits hbody
        exact ⟨_, _, after, hrest, read_string hbody, .string hinside⟩
      | none => exact ⟨_, [], rest, rfl, read_quote hbody, .word halone⟩
    by_cases hopen : c = '['
    · subst hopen
      cases hbody : bracketed? ']' rest with
      | some body =>
        obtain ⟨inside, after, hinside, rfl, hrest⟩ := bracketed?_splits hbody
        exact ⟨_, _, after, hrest, read_coordinate hbody, .coordinate hinside⟩
      | none => exact ⟨_, [], rest, rfl, read_opening hbody, .word halone⟩
    by_cases hclose : c = ']'
    · subst hclose
      exact ⟨_, [], rest, rfl, read_closing, .word halone⟩
    have hword : isWordChar c := isWordChar_iff.mpr ⟨hblank, hquote, hopen, hclose⟩
    cases hnumeral : numeral? c rest with
    | some numeral =>
      obtain ⟨digits, after, rfl, hrest, hspelt⟩ := numeral?_splits hnumeral
      obtain ⟨n, hn⟩ := hspelt.exists_value
      have hread := read_number hword hnumeral
      rw [hn] at hread
      exact ⟨_, digits, after, hrest, hread, .number hspelt hn⟩
    | none =>
      cases hmarker : marker? c rest with
      | some m =>
        obtain ⟨d, after, hrest, hcode⟩ := marker?_splits hmarker
        exact ⟨_, [d], after, hrest, read_marker hword hnumeral hmarker, hcode ▸ .marker m⟩
      | none =>
        refine ⟨_, _, _, List.takeWhile_append_dropWhile.symm, read_word hword hnumeral hmarker,
          .word (List.forall_mem_cons.mpr ⟨hblank, fun d hd => ?_⟩)⟩
        exact (isWordChar_iff.mp (List.all_eq_true.mp List.all_takeWhile d hd)).1

theorem spells_read {lexeme : Lexeme} (h : read c rest = (some lexeme, extra)) :
    lexeme.Spells (c :: rest.take extra) := by
  rcases read_splits c rest with
    ⟨blanks, after, -, hread, -⟩ | ⟨found, shown, after, rfl, hread, hspells⟩
  · cases hread.symm.trans h
  · cases hread.symm.trans h
    rwa [List.take_left]

theorem isBlank_of_read (h : read c rest = (none, extra)) : Text.isBlank c := by
  rcases read_splits c rest with
    ⟨blanks, after, -, -, hblanks⟩ | ⟨found, shown, after, -, hread, -⟩
  · exact hblanks c List.mem_cons_self
  · cases hread.symm.trans h

end Lexeme

-- --------------------
-- Pieces one by one
-- --------------------

theorem pieces_dropWhile_isBlank (text : Text) : pieces (text.dropWhile Text.isBlank) = pieces text := by
  cases text with
  | nil => rfl
  | cons c rest =>
    cases h : Text.isBlank c with
    | false => rw [List.dropWhile_cons_of_neg (by simp [h])]
    | true =>
      rw [List.dropWhile_cons_of_pos h, pieces_none (Lexeme.read_blank h), drop_length_takeWhile]

@[simp] theorem pieces_blank (h : Text.isBlank c) : pieces (c :: rest) = pieces rest := by
  rw [← pieces_dropWhile_isBlank, List.dropWhile_cons_of_pos h, pieces_dropWhile_isBlank]

theorem bracketed?_append {closing : Char} {body : Text} (h : closing ∉ body) (rest : Text) :
    Lexeme.bracketed? closing (body ++ closing :: rest) = some (body ++ [closing]) := by
  simp [Lexeme.bracketed?, Text.cut?_append h]

theorem pieces_string {body : Text} (h : '"' ∉ body) (rest : Text) :
    pieces ('"' :: (body ++ '"' :: rest)) =
      (.string ('"' :: (body ++ ['"'])), '"' :: (body ++ ['"'])) :: pieces rest := by
  have hsplit : body ++ '"' :: rest = (body ++ ['"']) ++ rest := by simp
  rw [pieces_some (Lexeme.read_string (bracketed?_append h rest)), hsplit, List.take_left,
    List.drop_left]

theorem pieces_coordinate {body : Text} (h : ']' ∉ body) (rest : Text) :
    pieces ('[' :: (body ++ ']' :: rest)) =
      (.coordinate ('[' :: (body ++ [']'])), '[' :: (body ++ [']'])) :: pieces rest := by
  have hsplit : body ++ ']' :: rest = (body ++ [']']) ++ rest := by simp
  rw [pieces_some (Lexeme.read_coordinate (bracketed?_append h rest)), hsplit, List.take_left,
    List.drop_left]

def EndsNumber (rest : Text) : Prop := ∀ c ∈ rest.head?, Text.isDecimalDigit c = false

theorem pieces_numeral {numeral : Text} (h : Text.IsNumeral numeral) (hrest : EndsNumber rest) :
    pieces (numeral ++ rest) =
      (.number ((Text.readSigned? numeral).getD 0), numeral) :: pieces rest := by
  cases h with
  | @plain digits hne h =>
    obtain ⟨c, digits, rfl⟩ := List.exists_cons_of_ne_nil hne
    have htail : (digits ++ rest).takeWhile Text.isDecimalDigit = digits :=
      takeWhile_append_rest (fun d hd => h d (by simp [hd])) hrest
    have hn : Lexeme.numeral? c (digits ++ rest) = some (c :: digits) := by
      simp [Lexeme.numeral?, htail, h c (by simp)]
    rw [List.cons_append, pieces_some (Lexeme.read_number
      (Lexeme.isWordChar_of_isDecimalDigit (h c (by simp))) hn)]
    simp
  | @minus digits hne h =>
    have htail : (digits ++ rest).takeWhile Text.isDecimalDigit = digits :=
      takeWhile_append_rest h hrest
    have hn : Lexeme.numeral? '-' (digits ++ rest) = some ('-' :: digits) := by
      simp [Lexeme.numeral?, htail, hne]
    rw [List.cons_append, pieces_some (Lexeme.read_number (by decide) hn)]
    simp

theorem pieces_ofInt (n : Int) (hrest : EndsNumber rest) :
    pieces (Text.ofInt n ++ rest) = (.number n, Text.ofInt n) :: pieces rest := by
  rw [pieces_numeral (Text.isNumeral_ofInt n) hrest, Text.readSigned?_ofInt]
  rfl

def EndsMarker (rest : Text) : Prop := ∀ c ∈ rest.head?, Lexeme.joinsMarker c = false

theorem Marker.code_letters (m : Marker) :
    ∃ a b, m.code = [a, b] ∧ Lexeme.isWordChar a ∧ Lexeme.isWordChar b ∧
      Text.isDecimalDigit a = false ∧ a ≠ '-' ∧ Marker.ofCode? [a, b] = some m := by
  cases m
  case script => exact ⟨'S', 'C', by decide⟩
  case block => exact ⟨'C', 'R', by decide⟩
  case condition => exact ⟨'C', 'O', by decide⟩
  case trigger => exact ⟨'T', 'R', by decide⟩
  case responseSet => exact ⟨'R', 'S', by decide⟩
  case response => exact ⟨'R', 'E', by decide⟩
  case action => exact ⟨'A', 'C', by decide⟩
  case object => exact ⟨'O', 'B', by decide⟩

theorem endsNumber_code (m : Marker) (rest : Text) : EndsNumber (m.code ++ rest) := by
  obtain ⟨a, b, hcode, -, -, hdigit, -⟩ := m.code_letters
  intro c hc
  rw [hcode] at hc
  obtain rfl : a = c := by simpa using hc
  exact hdigit

theorem pieces_marker (m : Marker) (hrest : EndsMarker rest) :
    pieces (m.code ++ rest) = (.marker m, m.code) :: pieces rest := by
  obtain ⟨a, b, hcode, hword, -, hdigit, hminus, hm⟩ := m.code_letters
  have hjoin : rest.head?.any Lexeme.joinsMarker = false := by
    cases rest with
    | nil => rfl
    | cons c rest => simpa using hrest c (by simp)
  have hn : Lexeme.numeral? a (b :: rest) = none := by simp [Lexeme.numeral?, hdigit, hminus]
  have hmarker : Lexeme.marker? a (b :: rest) = some m := by
    simp only [Lexeme.marker?, hjoin, Bool.false_eq_true, if_false, hm]
  rw [hcode]
  exact pieces_some (Lexeme.read_marker hword hn hmarker)

-- --------------------
-- Pieces of two texts
-- --------------------

theorem bracketed?_of_mem {closing : Char} {a : Text} (h : closing ∈ a) :
    ∃ body, body.length ≤ a.length ∧
      ∀ b, Lexeme.bracketed? closing (a ++ b) = some body := by
  obtain ⟨body, rest, rfl, hbody⟩ := List.eq_append_cons_of_mem h
  refine ⟨body ++ [closing], by simp, fun b => ?_⟩
  rw [List.append_assoc, List.cons_append, bracketed?_append hbody]

theorem bracketed?_eq_none {closing : Char} {text : Text} (h : closing ∉ text) :
    Lexeme.bracketed? closing text = none := by
  simp [Lexeme.bracketed?, Text.cut?_eq_none h]

theorem Lexeme.isWordChar_eq_false_of_isBlank (h : Text.isBlank c) : isWordChar c = false := by
  simp [isWordChar, h]

theorem Lexeme.joinsMarker_eq_false_of_isBlank (h : Text.isBlank c) : joinsMarker c = false := by
  simp only [Text.isBlank, Bool.or_eq_true, Bool.and_eq_true, decide_eq_true_eq, beq_iff_eq] at h
  have hunder : c ≠ '_' := by rintro rfl; revert h; decide
  have halpha : c.isAlpha = (decide (65 ≤ c.toNat ∧ c.toNat ≤ 90) ||
      (decide (97 ≤ c.toNat) && decide (c.toNat ≤ 122))) := rfl
  simp only [joinsMarker, halpha, Bool.or_eq_false_iff, Bool.and_eq_false_iff,
    decide_eq_false_iff_not, beq_eq_false_iff_ne, ne_eq, hunder, not_false_eq_true, and_true]
  omega

theorem Marker.ofCode?_blank (h : Text.isBlank c) (a : Char) : Marker.ofCode? [a, c] = none := by
  rw [Marker.ofCode?, List.find?_eq_none]
  intro m _
  obtain ⟨x, y, hcode, -, hy, -⟩ := m.code_letters
  have hne : y ≠ c := by
    rintro rfl
    rw [Lexeme.isWordChar_eq_false_of_isBlank h] at hy
    exact absurd hy (by decide)
  simp [hcode, hne]

theorem Lexeme.marker?_append (hc : Text.isBlank c) (x : Char) (a b : Text) :
    marker? x (a ++ c :: b) = marker? x (a ++ [c]) := by
  match a with
  | [] => simp [marker?, Marker.ofCode?_blank hc]
  | [d] => simp [marker?, joinsMarker_eq_false_of_isBlank hc]
  | d :: e :: a => rfl

theorem Lexeme.numeral?_append (hc : Text.isBlank c) (x : Char) (a b : Text) :
    numeral? x (a ++ c :: b) = numeral? x (a ++ [c]) := by
  have hdigit := Text.isDecimalDigit_eq_false_of_isBlank hc
  simp only [numeral?, takeWhile_append_stop hdigit]

/-- What a character begins does not reach over a blank, unless it is a bracket that
is closed there. -/
theorem Lexeme.read_append (hc : Text.isBlank c) (hx : Text.isBlank x = false)
    (hquote : x = '"' → '"' ∈ a ∨ '"' ∉ b) (hopen : x = '[' → ']' ∈ a ∨ ']' ∉ b) :
    read x (a ++ c :: b) = read x (a ++ [c]) ∧ (read x (a ++ [c])).2 ≤ a.length := by
  have hneq : c ≠ '"' := by rintro rfl; exact absurd hc (by decide)
  have hneb : c ≠ ']' := by rintro rfl; exact absurd hc (by decide)
  by_cases hq : x = '"'
  · subst hq
    by_cases hmem : '"' ∈ a
    · obtain ⟨body, hlen, hbody⟩ := bracketed?_of_mem hmem
      rw [read_string (hbody _), read_string (hbody _)]
      exact ⟨rfl, hlen⟩
    · have hb : '"' ∉ b := (hquote rfl).resolve_left hmem
      rw [read_quote (bracketed?_eq_none (by simp [hmem, hb, hneq.symm])),
        read_quote (bracketed?_eq_none (by simp [hmem, hneq.symm]))]
      exact ⟨rfl, Nat.zero_le _⟩
  by_cases ho : x = '['
  · subst ho
    by_cases hmem : ']' ∈ a
    · obtain ⟨body, hlen, hbody⟩ := bracketed?_of_mem hmem
      rw [read_coordinate (hbody _), read_coordinate (hbody _)]
      exact ⟨rfl, hlen⟩
    · have hb : ']' ∉ b := (hopen rfl).resolve_left hmem
      rw [read_opening (bracketed?_eq_none (by simp [hmem, hb, hneb.symm])),
        read_opening (bracketed?_eq_none (by simp [hmem, hneb.symm]))]
      exact ⟨rfl, Nat.zero_le _⟩
  by_cases hcl : x = ']'
  · subst hcl
    rw [read_closing, read_closing]
    exact ⟨rfl, Nat.zero_le _⟩
  have hword : isWordChar x := isWordChar_iff.mpr ⟨hx, hq, ho, hcl⟩
  cases hn : numeral? x (a ++ [c]) with
  | some numeral =>
    rw [read_number hword ((numeral?_append hc x a b).trans hn), read_number hword hn]
    refine ⟨rfl, ?_⟩
    have hdigit := Text.isDecimalDigit_eq_false_of_isBlank hc
    simp only [numeral?, takeWhile_append_stop hdigit] at hn
    split at hn
    · cases hn
      simpa using (List.takeWhile_sublist _).length_le
    · cases hn
  | none =>
    have hn' := (numeral?_append hc x a b).trans hn
    cases hm : marker? x (a ++ [c]) with
    | some m =>
      rw [read_marker hword hn' ((marker?_append hc x a b).trans hm), read_marker hword hn hm]
      refine ⟨rfl, ?_⟩
      match a with
      | [] => simp [marker?, Marker.ofCode?_blank hc] at hm
      | d :: a => simp
    | none =>
      have hstop := isWordChar_eq_false_of_isBlank hc
      rw [read_word hword hn' ((marker?_append hc x a b).trans hm), read_word hword hn hm,
        takeWhile_append_stop hstop, takeWhile_append_stop hstop]
      exact ⟨rfl, (List.takeWhile_sublist _).length_le⟩

/-- A bracket is opened and not closed. -/
def LeavesOpen (text : Text) : Prop :=
  ∃ piece ∈ pieces text, piece.1 = .word ['"'] ∨ piece.1 = .word ['[']

theorem closed_of_not_leavesOpen_quote (h : ¬ LeavesOpen ('"' :: text)) : '"' ∈ text := by
  refine Classical.byContradiction fun hmem => h ⟨(.word ['"'], ['"']), ?_, .inl rfl⟩
  rw [pieces_some (Lexeme.read_quote (bracketed?_eq_none hmem))]
  exact List.mem_cons_self

theorem closed_of_not_leavesOpen_bracket (h : ¬ LeavesOpen ('[' :: text)) : ']' ∈ text := by
  refine Classical.byContradiction fun hmem => h ⟨(.word ['['], ['[']), ?_, .inr rfl⟩
  rw [pieces_some (Lexeme.read_opening (bracketed?_eq_none hmem))]
  exact List.mem_cons_self

/-- A blank divides two texts, unless the second could close a bracket that the first
leaves open. -/
theorem pieces_append (hc : Text.isBlank c) (a b : Text)
    (h : ¬ LeavesOpen (a ++ [c]) ∨ ('"' ∉ b ∧ ']' ∉ b)) :
    pieces (a ++ c :: b) = pieces (a ++ [c]) ++ pieces b := by
  induction hlen : a.length using Nat.strongRecOn generalizing a with
  | ind n ih =>
    subst hlen
    match a with
    | [] => simp [pieces_blank hc]
    | x :: a =>
      cases hx : Text.isBlank x with
      | true =>
        rw [List.cons_append, List.cons_append, pieces_blank hx, pieces_blank hx]
        refine ih a.length (by simp) a ?_ rfl
        rwa [LeavesOpen, List.cons_append, pieces_blank hx] at h
      | false =>
        have hquote : x = '"' → '"' ∈ a ∨ '"' ∉ b := by
          rintro rfl
          refine h.imp (fun hopen => ?_) And.left
          have hne : '"' ≠ c := by rintro rfl; exact absurd hc (by decide)
          simpa [hne] using closed_of_not_leavesOpen_quote hopen
        have hopen : x = '[' → ']' ∈ a ∨ ']' ∉ b := by
          rintro rfl
          refine h.imp (fun hopen => ?_) And.right
          have hne : ']' ≠ c := by rintro rfl; exact absurd hc (by decide)
          simpa [hne] using closed_of_not_leavesOpen_bracket hopen
        obtain ⟨hread, hextra⟩ := Lexeme.read_append hc hx hquote hopen
        rcases hr : Lexeme.read x (a ++ [c]) with ⟨_ | lexeme, extra⟩
        all_goals rw [hr] at hread hextra
        · have hnext : ¬ LeavesOpen (a.drop extra ++ [c]) ∨ ('"' ∉ b ∧ ']' ∉ b) := by
            rwa [LeavesOpen, List.cons_append, pieces_none hr,
              List.drop_append_of_le_length hextra] at h
          rw [List.cons_append, List.cons_append, pieces_none hread, pieces_none hr,
            List.drop_append_of_le_length hextra, List.drop_append_of_le_length hextra]
          exact ih _ (by simp only [List.length_drop, List.length_cons]; omega) _ hnext rfl
        · have hnext : ¬ LeavesOpen (a.drop extra ++ [c]) ∨ ('"' ∉ b ∧ ']' ∉ b) := by
            refine h.imp_left fun hopen => ?_
            rintro ⟨piece, hmem, hpiece⟩
            refine hopen ⟨piece, ?_, hpiece⟩
            rw [List.cons_append, pieces_some hr, List.drop_append_of_le_length hextra]
            exact List.mem_cons_of_mem _ hmem
          rw [List.cons_append, List.cons_append, pieces_some hread, pieces_some hr,
            List.drop_append_of_le_length hextra, List.drop_append_of_le_length hextra,
            List.take_append_of_le_length hextra, List.take_append_of_le_length hextra,
            ih _ (by simp only [List.length_drop, List.length_cons]; omega) _ hnext rfl,
            List.cons_append]

-- --------------------
-- Texts that are pieces by themselves
-- --------------------

/-- The text has these pieces whatever comes after it. -/
def Splits (text : Text) (ps : List (Lexeme × Text)) : Prop :=
  ∀ rest, pieces (text ++ rest) = ps ++ pieces rest

theorem Splits.pieces_eq (h : Splits text ps) : pieces text = ps := by
  simpa using h []

theorem Splits.append (ha : Splits a ps) (hb : Splits b qs) : Splits (a ++ b) (ps ++ qs) := by
  intro rest
  rw [List.append_assoc, ha, hb, List.append_assoc]

theorem Splits.flatMap {f : α → Text} {g : α → List (Lexeme × Text)} {xs : List α}
    (h : ∀ x ∈ xs, Splits (f x) (g x)) : Splits (xs.flatMap f) (xs.flatMap g) := by
  induction xs with
  | nil => exact fun _ => rfl
  | cons x xs ih =>
    exact (h x (by simp)).append (ih fun y hy => h y (by simp [hy]))

theorem splits_marker (m : Marker) : Splits (m.code ++ ['\n']) [(.marker m, m.code)] := by
  intro rest
  have hends : EndsMarker ('\n' :: rest) := by
    intro c hc
    obtain rfl : '\n' = c := by simpa using hc
    decide
  rw [List.append_assoc, List.singleton_append, pieces_marker m hends, pieces_blank (by decide)]
  rfl

theorem Splits.numeral (hw : Text.IsNumeral w) (h : Splits text ps) (hne : text ≠ [])
    (hends : EndsNumber text) :
    Splits (w ++ text) ((.number ((Text.readSigned? w).getD 0), w) :: ps) := by
  intro rest
  have hrest : EndsNumber (text ++ rest) := by
    cases text with
    | nil => exact absurd rfl hne
    | cons c text => exact hends
  rw [List.append_assoc, pieces_numeral hw hrest, h rest, List.cons_append]

/-- A line that leaves no bracket open is divided from what comes after it. -/
theorem splits_of_not_leavesOpen (h : ¬ LeavesOpen (text ++ ['\n'])) :
    Splits (text ++ ['\n']) (pieces (text ++ ['\n'])) := by
  intro rest
  rw [List.append_assoc, List.singleton_append]
  exact pieces_append (by decide) text rest (.inl h)

-- --------------------
-- What pieces cover
-- --------------------

def Lexeme.Covers (text : Text) : Lexeme → Prop
  | .marker _ => True
  | .number n => n = (Text.readSigned? text).getD 0
  | .string shown | .coordinate shown | .word shown => shown = text

theorem Lexeme.Spells.covers {lexeme : Lexeme} (h : lexeme.Spells shown) : lexeme.Covers shown := by
  cases h with
  | marker m => trivial
  | number h hvalue => rw [Covers, hvalue, Option.getD_some]
  | string h => rfl
  | coordinate h => rfl
  | word h => rfl

theorem spells_of_mem_pieces (h : piece ∈ pieces code) :
    piece.1.Spells piece.2 ∧ piece.2 ⊆ code := by
  fun_induction pieces code with
  | case1 => cases h
  | case2 c rest read after lexeme hread ih =>
    rcases List.mem_cons.mp h with rfl | h
    · refine ⟨Lexeme.spells_read (Prod.ext hread rfl), ?_⟩
      exact List.cons_subset_cons c (List.take_subset _ _)
    · obtain ⟨hspells, hsubset⟩ := ih h
      exact ⟨hspells, fun d hd => List.mem_cons_of_mem c (List.mem_of_mem_drop (hsubset hd))⟩
  | case3 c rest read after hread ih =>
    obtain ⟨hspells, hsubset⟩ := ih h
    exact ⟨hspells, fun d hd => List.mem_cons_of_mem c (List.mem_of_mem_drop (hsubset hd))⟩

theorem covers_of_mem_pieces (h : piece ∈ pieces code) :
    piece.1.Covers piece.2 ∧ piece.2 ⊆ code := by
  obtain ⟨hspells, hsubset⟩ := spells_of_mem_pieces h
  exact ⟨hspells.covers, hsubset⟩

end InfinityScript
