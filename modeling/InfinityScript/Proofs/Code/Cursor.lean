import InfinityScript.Proofs.Code.Parse
import InfinityScript.Proofs.Code.Spans
import InfinityScript.Proofs.Outcome

/-!
# Going through tokens

A cursor stands before the first token that has not been read. Whatever it is asked for, it
reads some tokens that come next, or it refuses and stays (`perform_cases`). So it never goes
back and never leaves the tokens, which cover the code (`perform_covering`). Code with a number
that has too many digits gets no cursor at all (`ofCode_eq_ok_iff`).
-/

namespace InfinityScript

namespace Reader

variable {α : Type} {reader : Reader α} {tokens : List Token}

/-- Before tokens, a reader succeeds if a condition holds and then reads `count` of them;
otherwise it fails and reads none. -/
def ReadsIf (reader : Reader α) (condition : Prop) (count : Nat) (tokens : List Token) : Prop :=
  (condition ∧ ∃ value, reader.run tokens = (.ok value, tokens.drop count)) ∨
    ¬ condition ∧ ∃ error, reader.run tokens = (.error error, tokens)

theorem readsIf_true {value : α} (h : reader.run tokens = (.ok value, tokens.drop count)) :
    reader.ReadsIf True count tokens :=
  .inl ⟨trivial, value, h⟩

theorem readsIf_accept {take : Option Lexeme → Option α} (expected : TokenKind)
    (htake : (take (tokens.head?.map Token.lexeme)).isSome ↔ condition) :
    (accept expected take).ReadsIf condition 1 tokens := by
  cases h : take (tokens.head?.map Token.lexeme) with
  | some value =>
    refine .inl ⟨htake.mp (by rw [h]; rfl), value, ?_⟩
    simp only [accept, h, List.drop_one]
  | none =>
    refine .inr ⟨fun hcondition => ?_, ?_⟩
    · simpa [h] using htake.mpr hcondition
    · exact ⟨.damage (.mismatch expected (tokens.head?.map Token.lexeme)), by simp only [accept, h]⟩

theorem readsIf_expect (kind : TokenKind) (tokens : List Token) :
    (expect kind).ReadsIf (Token.kindOf tokens.head? = kind) 1 tokens := by
  have hpeek : peek.run tokens = (.ok tokens.head?, tokens) := rfl
  rw [expect, ReadsIf, run_bind_ok hpeek]
  exact readsIf_accept kind (by simp)

theorem readsIf_number (tokens : List Token) :
    number.ReadsIf (Token.kindOf tokens.head? = .number) 1 tokens := by
  refine readsIf_accept .number ?_
  cases tokens with
  | nil => simp [Token.kindOf]
  | cons token tokens =>
    obtain ⟨lexeme, start, stop⟩ := token
    cases lexeme <;> simp [Token.kindOf, Token.kind, Lexeme.kind]

theorem readsIf_skipPast (kind : TokenKind) (tokens : List Token) :
    (skipPast kind).ReadsIf True (tokens.findIdx (·.kind = kind) + 1) tokens := by
  have hskip : tokens.dropWhile (·.kind ≠ kind) = tokens.drop (tokens.findIdx (·.kind = kind)) := by
    rw [List.dropWhile_eq_drop_findIdx_not]
    simp
  refine @readsIf_true _ _ _ _ () ?_
  simp only [skipPast, hskip, List.tail_drop]

end Reader

namespace Cursor

variable {α : Type} {cursor : Cursor} {code : Text}

def left (cursor : Cursor) : List Token := cursor.tokens.drop cursor.position

def advance (cursor : Cursor) (count : Nat) : Cursor :=
  { cursor with position := min (cursor.position + count) cursor.tokens.length }

inductive Request
  | peek
  | next
  | hasMore
  | expect (kind : TokenKind)
  | expectNumber
  | skipPast (kind : TokenKind)
  deriving DecidableEq, Repr

def ask (cursor : Cursor) (reader : Reader α) : Except DecodeError Unit × Cursor :=
  ((cursor.read reader).1.map fun _ => (), (cursor.read reader).2)

def perform (cursor : Cursor) : Request → Except DecodeError Unit × Cursor
  | .peek => cursor.ask Reader.peek
  | .next => cursor.ask Reader.next
  | .hasMore => (.ok (), cursor.hasMore.2)
  | .expect kind => cursor.ask (Reader.expect kind)
  | .expectNumber => cursor.ask Reader.number
  | .skipPast kind => cursor.ask (Reader.skipPast kind)

def Request.Admits (left : List Token) : Request → Prop
  | .peek | .next | .hasMore | .skipPast _ => True
  | .expect kind => Token.kindOf left.head? = kind
  | .expectNumber => Token.kindOf left.head? = .number

/-- How many of the tokens that are left a request reads when it is granted. -/
def Request.reach (left : List Token) : Request → Nat
  | .peek | .hasMore => 0
  | .next | .expect _ | .expectNumber => 1
  | .skipPast kind => left.findIdx (·.kind = kind) + 1

def Within (cursor : Cursor) : Prop := cursor.position ≤ cursor.tokens.length

theorem Within.advance_zero (h : cursor.Within) : cursor.advance 0 = cursor := by
  simp [advance, Nat.min_eq_left h]

theorem Within.le_advance (h : cursor.Within) (count : Nat) :
    cursor.position ≤ (cursor.advance count).position :=
  Nat.le_min.mpr ⟨Nat.le_add_right _ _, h⟩

theorem within_advance (cursor : Cursor) (count : Nat) : (cursor.advance count).Within :=
  Nat.min_le_right _ _

theorem Within.position_of_drop (h : cursor.Within) (count : Nat) :
    cursor.tokens.length - (cursor.left.drop count).length = (cursor.advance count).position := by
  unfold Within at h
  simp only [left, advance, List.length_drop]
  omega

theorem Within.ask_cases (h : cursor.Within) {reader : Reader α}
    (hreads : reader.ReadsIf condition count cursor.left) :
    (condition ∧ cursor.ask reader = (.ok (), cursor.advance count)) ∨
      ¬ condition ∧ ∃ error, cursor.ask reader = (.error error, cursor) := by
  rcases hreads with ⟨hcondition, value, hrun⟩ | ⟨hcondition, error, hrun⟩
  · refine .inl ⟨hcondition, ?_⟩
    have hplace := h.position_of_drop count
    unfold left at hrun hplace
    simp only [ask, read, hrun, hplace]
    rfl
  · refine .inr ⟨hcondition, error, ?_⟩
    have hplace := h.position_of_drop 0
    rw [List.drop_zero, h.advance_zero] at hplace
    unfold left at hrun hplace
    simp only [ask, read, hrun, hplace]
    rfl

/-- A request that is granted reads as many tokens as it reaches over, and one that is refused
reads none. -/
theorem Within.perform_cases (h : cursor.Within) (request : Request) :
    (request.Admits cursor.left ∧
      cursor.perform request = (.ok (), cursor.advance (request.reach cursor.left))) ∨
    ¬ request.Admits cursor.left ∧ ∃ error, cursor.perform request = (.error error, cursor) := by
  cases request with
  | peek => exact h.ask_cases (Reader.readsIf_true rfl)
  | next => exact h.ask_cases (Reader.readsIf_true (by rw [Request.reach, List.drop_one]; rfl))
  | hasMore =>
    refine .inl ⟨trivial, ?_⟩
    rw [Request.reach, h.advance_zero]
    rfl
  | expect kind => exact h.ask_cases (Reader.readsIf_expect kind cursor.left)
  | expectNumber => exact h.ask_cases (Reader.readsIf_number cursor.left)
  | skipPast kind => exact h.ask_cases (Reader.readsIf_skipPast kind cursor.left)

def run (cursor : Cursor) (requests : List Request) : Cursor :=
  requests.foldl (fun cursor request => (cursor.perform request).2) cursor

theorem Within.perform (h : cursor.Within) (request : Request) :
    (cursor.perform request).2.Within ∧ (cursor.perform request).2.tokens = cursor.tokens := by
  rcases h.perform_cases request with ⟨-, hgranted⟩ | ⟨-, error, hrefused⟩
  · rw [hgranted]
    exact ⟨within_advance cursor _, rfl⟩
  · rw [hrefused]
    exact ⟨h, rfl⟩

theorem Within.run (h : cursor.Within) (requests : List Request) :
    (cursor.run requests).Within ∧ (cursor.run requests).tokens = cursor.tokens := by
  induction requests generalizing cursor with
  | nil => exact ⟨h, rfl⟩
  | cons request requests ih =>
    obtain ⟨hnext, htokens⟩ := h.perform request
    obtain ⟨hend, hkept⟩ := ih hnext
    exact ⟨hend, hkept.trans htokens⟩

theorem forall_legible_iff : (∀ piece ∈ pieces code, Legible piece) ↔
    ∀ token ∈ tokenize code, token.kind = .number → Text.FewDigits (token.span code) := by
  rw [pieces_eq_map_span, List.forall_mem_map]
  rfl

/-- A cursor is made of code whose numbers have few digits, and stands before all tokens. -/
theorem ofCode_eq_ok_iff : ofCode code = .ok cursor ↔ cursor = ⟨tokenize code, 0⟩ ∧
    ∀ token ∈ tokenize code, token.kind = .number → Text.FewDigits (token.span code) := by
  rw [ofCode, Outcome.bind_ok, ← forall_legible_iff]
  constructor
  · rintro ⟨tokens, hread, hcursor⟩
    obtain ⟨rfl, hpieces⟩ := readTokens_eq_ok_iff.mp hread
    exact ⟨(Outcome.pure_ok.mp hcursor).symm, hpieces⟩
  · rintro ⟨rfl, hpieces⟩
    exact ⟨_, readTokens_eq_ok_iff.mpr ⟨rfl, hpieces⟩, rfl⟩

/-- The tokens of any code cover it. Unless a number has too many digits there is a cursor on
them, which stays within them and never goes back, whatever it is asked for. It refuses only
to read a token of another kind than the next has. It reads what a granted request reaches
over, and does not move when it only looks or when it refuses. -/
theorem perform_covering (code : Text) :
    let tokens := tokenize code
    Covering code tokens ∧
    ((∀ token ∈ tokens, token.kind = .number → Text.FewDigits (token.span code)) →
      ∃ start, ofCode code = .ok start ∧ start.tokens = tokens ∧ start.position = 0 ∧
      ∀ requests request,
        let cursor := start.run requests
        cursor.tokens = tokens ∧ cursor.position ≤ tokens.length ∧
        cursor.position ≤ (cursor.perform request).2.position ∧
        ((cursor.perform request).1 = .ok () ↔ request.Admits cursor.left) ∧
        (request.Admits cursor.left →
          (cursor.perform request).2 = cursor.advance (request.reach cursor.left)) ∧
        (request = .peek ∨ request = .hasMore ∨
            (∃ error, (cursor.perform request).1 = .error error) →
          (cursor.perform request).2 = cursor)) ∧
    ((∃ token ∈ tokens, token.kind = .number ∧ ¬ Text.FewDigits (token.span code)) →
      ∃ fault, ofCode code = .error fault) := by
  intro tokens
  refine ⟨covering_tokenize code, fun hfew => ?_, ?_⟩
  · refine ⟨⟨tokens, 0⟩, ofCode_eq_ok_iff.mpr ⟨rfl, hfew⟩, rfl, rfl, fun requests request => ?_⟩
    intro cursor
    obtain ⟨hwithin, htokens⟩ : cursor.Within ∧ cursor.tokens = tokens :=
      Within.run (Nat.zero_le _) requests
    refine ⟨htokens, htokens ▸ hwithin, ?_⟩
    rcases hwithin.perform_cases request with ⟨hadmits, hgranted⟩ | ⟨hadmits, error, hrefused⟩
    · rw [hgranted]
      refine ⟨hwithin.le_advance _, by simp [hadmits], fun _ => rfl, ?_⟩
      rintro (rfl | rfl | ⟨error, herror⟩)
      · exact hwithin.advance_zero
      · exact hwithin.advance_zero
      · cases herror
    · rw [hrefused]
      exact ⟨Nat.le_refl _, by simp [hadmits], fun h => absurd h hadmits, fun _ => rfl⟩
  · rintro ⟨token, htoken, hkind, hlong⟩
    cases hcode : ofCode code with
    | error fault => exact ⟨fault, rfl⟩
    | ok cursor => exact absurd ((ofCode_eq_ok_iff.mp hcode).2 token htoken hkind) hlong

/-- Markers that are glued to a number and to a string with a blank in it, then an open
bracket. The cursor refuses to read a string where a number stands. -/
theorem perform_covering_glued :
    let code : Text := "CR\n-12AC \"a b\"OB [x"
    Covering code (tokenize code) ∧ ∃ start, ofCode code = .ok start ∧
      let cursor := start.run [.next, .expect .string, .peek]
      cursor.position = 1 ∧ (cursor.perform (.expect .string)).2 = cursor ∧
        (cursor.perform (.skipPast (.marker .object))).2.position = 5 := by
  intro code
  obtain ⟨hcovering, hfew, -⟩ := perform_covering code
  obtain ⟨start, hstart, htokens, hposition, hrun⟩ := hfew (by decide +kernel)
  refine ⟨hcovering, start, hstart, ?_⟩
  obtain rfl : start = ⟨tokenize code, 0⟩ := (ofCode_eq_ok_iff.mp hstart).1
  intro cursor
  obtain ⟨-, -, -, hgranted, -, hstays⟩ := hrun [.next, .expect .string, .peek] (.expect .string)
  have hkind : Token.kindOf cursor.left.head? = .number := by decide +kernel
  refine ⟨by decide +kernel, ?_, by decide +kernel⟩
  cases houtcome : (cursor.perform (.expect .string)).1 with
  | ok _ =>
    have hstring : Token.kindOf cursor.left.head? = .string := hgranted.mp houtcome
    cases hkind.symm.trans hstring
  | error error => exact hstays (.inr (.inr ⟨error, houtcome⟩))

theorem ofCode_longDigits {digits : Text} (hdigits : ∀ c ∈ digits, Text.isDecimalDigit c)
    (hlong : digitLimit < digits.length) (cursor : Cursor) : ofCode digits ≠ .ok cursor := by
  intro hcode
  have hlegible := forall_legible_iff.mpr (ofCode_eq_ok_iff.mp hcode).2
  have hnumeral : Text.IsNumeral digits := .plain (List.ne_nil_of_length_pos (by omega)) hdigits
  have hpieces := @pieces_numeral [] _ hnumeral (by simp [EndsNumber])
  rw [List.append_nil] at hpieces
  rw [hpieces] at hlegible
  have hfew : Text.FewDigits digits := (List.forall_mem_cons.mp hlegible).1 rfl
  rw [Text.FewDigits, List.countP_eq_length.mpr hdigits] at hfew
  omega

/-- A text of 4301 digits has no cursor, although no character of it is a blank. -/
theorem ofCode_longNumber : (∀ c ∈ List.replicate 4301 '1', Text.isBlank c = false) ∧
    ∀ cursor, ofCode (List.replicate 4301 '1') ≠ .ok cursor := by
  have hone : ∀ c ∈ List.replicate 4301 '1', c = '1' := fun c hc => List.eq_of_mem_replicate hc
  refine ⟨fun c hc => by rw [hone c hc]; decide, ofCode_longDigits (fun c hc => ?_) ?_⟩
  · rw [hone c hc]
    decide
  · rw [List.length_replicate]
    decide

end Cursor

end InfinityScript
