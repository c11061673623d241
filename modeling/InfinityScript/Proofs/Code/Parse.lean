import InfinityScript.Proofs.Code.SourceLine

/-!
# Reading lexemes

No reader looks at where a token stands. So what a reader makes of tokens is what
it makes of their lexemes, and everything about reading is said of lexemes:
`Reader.parse` runs a reader on them, with one equation for each reader, and
`Positionless` says that a run on tokens is such a run.
-/

namespace InfinityScript

def Token.bare (lexeme : Lexeme) : Token := ⟨lexeme, 0, 0⟩

@[simp] theorem Token.lexeme_bare (lexeme : Lexeme) : (Token.bare lexeme).lexeme = lexeme := rfl

@[simp] theorem Token.lexeme_comp_bare : Token.lexeme ∘ Token.bare = id := rfl

namespace Reader

variable {α β σ : Type}

theorem run_bind_ok {reader : Reader α} {next : α → Reader σ}
    (h : reader.run tokens = (.ok value, rest)) :
    (reader >>= next).run tokens = (next value).run rest := by
  show (reader.bind next).run tokens = _
  simp only [Reader.bind, h]

theorem run_bind_error {reader : Reader α} {next : α → Reader σ}
    (h : reader.run tokens = (.error error, rest)) :
    (reader >>= next).run tokens = (.error error, rest) := by
  show (reader.bind next).run tokens = _
  simp only [Reader.bind, h]

/-- What a reader makes of lexemes, and the lexemes it leaves. -/
def parse (reader : Reader α) (ls : List Lexeme) : Except DecodeError α × List Lexeme :=
  let outcome := reader.run (ls.map Token.bare)
  (outcome.1, outcome.2.map Token.lexeme)

theorem map_lexeme_map_bare (ls : List Lexeme) :
    (ls.map Token.bare).map Token.lexeme = ls := by
  simp

theorem run_bare (reader : Reader α) (ls : List Lexeme) :
    reader.run (ls.map Token.bare) = ((reader.parse ls).1, (reader.parse ls).2.map Token.bare) := by
  -- What is left is a tail of bare tokens, so it is bare.
  have hsuffix := reader.suffix (ls.map Token.bare)
  have hbare : ∀ tokens, tokens <:+ ls.map Token.bare →
      (tokens.map Token.lexeme).map Token.bare = tokens := by
    intro tokens htokens
    rw [List.map_map]
    refine (List.map_congr_left fun token htoken => ?_).trans (List.map_id _)
    obtain ⟨l, -, rfl⟩ := List.mem_map.mp (htokens.mem htoken)
    rfl
  simp only [parse, hbare _ hsuffix]

theorem parse_suffix (reader : Reader α) (ls : List Lexeme) : (reader.parse ls).2 <:+ ls := by
  have := (reader.suffix (ls.map Token.bare)).map Token.lexeme
  rwa [map_lexeme_map_bare] at this

-- --------------------
-- One equation for each reader
-- --------------------

@[simp] theorem parse_pure (value : α) : (Pure.pure value : Reader α).parse ls = (.ok value, ls) := by
  show (_, List.map Token.lexeme (List.map Token.bare ls)) = _
  rw [map_lexeme_map_bare]
  rfl

@[simp] theorem parse_fail (error : DecodeError) :
    (fail error : Reader α).parse ls = (.error error, ls) := by
  show (_, List.map Token.lexeme (List.map Token.bare ls)) = _
  rw [map_lexeme_map_bare]
  rfl

theorem parse_bind (reader : Reader α) (next : α → Reader β) :
    (reader >>= next).parse ls = match reader.parse ls with
      | (.ok value, rest) => (next value).parse rest
      | (.error error, rest) => (.error error, rest) := by
  have hrun := reader.run_bare ls
  show (((reader.bind next).run _).1, ((reader.bind next).run _).2.map Token.lexeme) = _
  simp only [Reader.bind, hrun]
  rcases reader.parse ls with ⟨_ | value, rest⟩
  · simp
  · rfl

theorem parse_bind_ok {reader : Reader α} {next : α → Reader β}
    (h : reader.parse ls = (.ok value, rest)) :
    (reader >>= next).parse ls = (next value).parse rest := by
  simp [parse_bind, h]

theorem parse_bind_error {reader : Reader α} {next : α → Reader β}
    (h : reader.parse ls = (.error error, rest)) :
    (reader >>= next).parse ls = (.error error, rest) := by
  simp [parse_bind, h]

theorem parse_bind_eq_ok {reader : Reader α} {next : α → Reader β}
    (h : (reader >>= next).parse ls = (.ok result, left)) :
    ∃ value rest, reader.parse ls = (.ok value, rest) ∧ (next value).parse rest = (.ok result, left) := by
  rcases hreader : reader.parse ls with ⟨error | value, rest⟩
  · rw [parse_bind_error hreader] at h
    cases h
  · exact ⟨value, rest, rfl, (parse_bind_ok hreader).symm.trans h⟩

@[simp] theorem parse_peek :
    peek.parse ls = (.ok (ls.head?.map Token.bare), ls) := by
  show (Except.ok (List.map Token.bare ls).head?, List.map Token.lexeme (List.map Token.bare ls)) = _
  rw [map_lexeme_map_bare, List.head?_map]

@[simp] theorem parse_next :
    next.parse ls = (.ok (ls.head?.map Token.bare), ls.tail) := by
  show (Except.ok (List.map Token.bare ls).head?,
    List.map Token.lexeme (List.map Token.bare ls).tail) = _
  rw [← List.map_tail, map_lexeme_map_bare, List.head?_map]

theorem parse_look (f : Option Lexeme → Reader α) (ls : List Lexeme) :
    (peek >>= fun token => f (token.map Token.lexeme)).parse ls = (f ls.head?).parse ls := by
  rw [parse_bind_ok parse_peek]
  cases ls <;> rfl

theorem parse_accept (expected : TokenKind) (take : Option Lexeme → Option α) :
    (accept expected take).parse ls = match take ls.head? with
      | some value => (.ok value, ls.tail)
      | none => (.error (.damage (.mismatch expected ls.head?)), ls) := by
  have hhead : (ls.map Token.bare).head?.map Token.lexeme = ls.head? := by
    rw [← List.head?_map, map_lexeme_map_bare]
  simp only [parse, accept, hhead]
  cases take ls.head? with
  | none => simp
  | some value => simp [← List.map_tail]

@[simp] theorem parse_number_cons : number.parse (.number n :: ls) = (.ok n, ls) := by
  simp [number, parse_accept]

@[simp] theorem parse_string_cons : string.parse (.string text :: ls) = (.ok text, ls) := by
  simp [string, parse_accept]

@[simp] theorem parse_marker_cons : (marker m).parse (.marker m :: ls) = (.ok (), ls) := by
  simp [marker, parse_accept]

theorem parse_number_ok (h : number.parse ls = (.ok n, left)) : ls = .number n :: left := by
  cases ls with
  | nil => simp [number, parse_accept] at h
  | cons l ls =>
    cases l with
    | number m =>
      rw [parse_number_cons] at h
      cases h
      rfl
    | _ => simp [number, parse_accept] at h

theorem parse_string_ok (h : string.parse ls = (.ok text, left)) : ls = .string text :: left := by
  cases ls with
  | nil => simp [string, parse_accept] at h
  | cons l ls =>
    cases l with
    | string found =>
      rw [parse_string_cons] at h
      cases h
      rfl
    | _ => simp [string, parse_accept] at h

theorem parse_marker_error (h : ls.head? ≠ some (.marker m)) :
    (marker m).parse ls = (.error (.damage (.mismatch (.marker m) ls.head?)), ls) := by
  cases ls with
  | nil => simp [marker, parse_accept]
  | cons l ls =>
    cases l with
    | marker found =>
      have hfound : found ≠ m := by simpa using h
      simp [marker, parse_accept, hfound]
    | _ => simp [marker, parse_accept]

theorem parse_marker_ok (h : (marker m).parse ls = (.ok (), left)) : ls = .marker m :: left := by
  have hhead : ls.head? = some (.marker m) :=
    Decidable.byContradiction fun hne => by simp [parse_marker_error hne] at h
  obtain ⟨rest, rfl⟩ := List.head?_eq_some_iff.mp hhead
  rw [parse_marker_cons] at h
  cases h
  rfl

def splitNumbers : List Lexeme → List Int × List Lexeme
  | .number n :: rest => (n :: (splitNumbers rest).1, (splitNumbers rest).2)
  | ls => ([], ls)

theorem parse_numbers (ls : List Lexeme) :
    numbers.parse ls = (.ok (splitNumbers ls).1, (splitNumbers ls).2) := by
  have h : leadingNumbers (ls.map Token.bare) =
      ((splitNumbers ls).1, (splitNumbers ls).2.map Token.bare) := by
    induction ls with
    | nil => rfl
    | cons l ls ih =>
      cases l with
      | number n =>
        simp only [List.map_cons, Token.bare, leadingNumbers, splitNumbers, ih]
      | _ => rfl
  simp only [parse, numbers, h, map_lexeme_map_bare]

theorem parse_numbers_append (ns : List Int) (h : ∀ n, ls.head? ≠ some (.number n)) :
    numbers.parse (ns.map .number ++ ls) = (.ok ns, ls) := by
  have hsplit : splitNumbers (ns.map .number ++ ls) = (ns, ls) := by
    induction ns with
    | nil =>
      cases ls with
      | nil => rfl
      | cons l ls =>
        cases l with
        | number n => exact absurd rfl (h n)
        | _ => rfl
    | cons n ns ih => simp [splitNumbers, ih]
  rw [parse_numbers, hsplit]

theorem parse_numbers_ok (h : numbers.parse ls = (.ok ns, left)) : ls = ns.map .number ++ left := by
  rw [parse_numbers] at h
  cases h
  fun_induction splitNumbers ls with
  | case1 n ls ih => rw [List.map_cons, List.cons_append, ← ih]
  | case2 ls hnumber => rfl

theorem parse_coordinate?_cons : coordinate?.parse (.coordinate text :: ls) = (.ok (some text), ls) := by
  simp [coordinate?, parse_bind]

theorem parse_coordinate?_none (h : ∀ text, ls.head? ≠ some (.coordinate text)) :
    coordinate?.parse ls = (.ok none, ls) := by
  rw [coordinate?, parse_bind_ok parse_peek]
  cases ls with
  | nil => simp
  | cons l ls =>
    cases l with
    | coordinate text => exact absurd rfl (h text)
    | _ => simp

theorem parse_coordinate?_ok (h : coordinate?.parse ls = (.ok area, left)) :
    ls = area.toList.map .coordinate ++ left := by
  by_cases hhead : ∃ text, ls.head? = some (.coordinate text)
  · obtain ⟨text, hhead⟩ := hhead
    obtain ⟨rest, rfl⟩ := List.head?_eq_some_iff.mp hhead
    rw [parse_coordinate?_cons] at h
    cases h
    rfl
  · rw [parse_coordinate?_none fun text htext => hhead ⟨text, htext⟩] at h
    cases h
    rfl

theorem dropWhile_map_bare (p : Lexeme → Bool) (ls : List Lexeme) :
    (ls.map Token.bare).dropWhile (fun token => p token.lexeme) = (ls.dropWhile p).map Token.bare := by
  induction ls with
  | nil => rfl
  | cons l ls ih =>
    rw [List.map_cons, List.dropWhile_cons, List.dropWhile_cons, ih, Token.lexeme_bare]
    split <;> rfl

theorem parse_skipPast (kind : TokenKind) :
    (skipPast kind).parse ls = (.ok (), (ls.dropWhile (·.kind ≠ kind)).tail) := by
  show (Except.ok (), ((ls.map Token.bare).dropWhile
    fun token => decide (token.lexeme.kind ≠ kind)).tail.map Token.lexeme) = _
  rw [dropWhile_map_bare fun l => decide (l.kind ≠ kind), ← List.map_tail, map_lexeme_map_bare]

theorem parse_recover (reader : Reader α) (handle : Damage → Reader α) :
    (reader.recover handle).parse ls = match reader.parse ls with
      | (.error (.damage damage), rest) => (handle damage).parse rest
      | outcome => outcome := by
  have hrun := reader.run_bare ls
  show (((reader.recover handle).run _).1, ((reader.recover handle).run _).2.map Token.lexeme) = _
  simp only [recover, hrun]
  rcases reader.parse ls with ⟨(damage | abort) | value, rest⟩
  · rfl
  · simp
  · simp

-- --------------------
-- Sweeps and repetitions
-- --------------------

theorem any_closing_eq_true_iff {closing : Option Marker} {l : Lexeme} :
    (closing.any fun m => decide (l = .marker m)) = true ↔
      ∃ m, closing = some m ∧ l = .marker m := by
  cases closing <;> simp

theorem any_closing_eq_false_iff {closing : Option Marker} {l : Lexeme} :
    (closing.any fun m => decide (l = .marker m)) = false ↔ ∀ m ∈ closing, l ≠ .marker m := by
  cases closing <;> simp

@[simp] theorem parse_sweep_nil (closing : Option Marker) (step : σ → Token → Reader σ) (state : σ) :
    (sweep closing step state).parse [] = (.ok (state, false), []) := by
  simp [parse, sweep, sweepRun]

theorem parse_sweep_closing (m : Marker) (step : σ → Token → Reader σ) (state : σ) :
    (sweep (some m) step state).parse (.marker m :: ls) = (.ok (state, true), ls) := by
  simp [parse, sweep, sweepRun]

theorem parse_sweep_cons (closing : Option Marker) (step : σ → Token → Reader σ) (state : σ)
    (h : ∀ m ∈ closing, l ≠ .marker m) :
    (sweep closing step state).parse (l :: ls) =
      match (step state (.bare l)).parse ls with
      | (.ok state', rest) => (sweep closing step state').parse rest
      | (.error error, rest) => (.error error, rest) := by
  have hclosing := any_closing_eq_false_iff.mpr h
  have hrun := (step state (.bare l)).run_bare ls
  show ((sweepRun closing step state (.bare l :: ls.map Token.bare)).1,
    (sweepRun closing step state (.bare l :: ls.map Token.bare)).2.map Token.lexeme) = _
  rw [sweepRun, Token.lexeme_bare, hclosing]
  simp only [Bool.false_eq_true, if_false]
  rcases hp : (step state (.bare l)).parse ls with ⟨_ | state', rest⟩
  · simp only [hp] at hrun ⊢
    split
    · next h =>
      rw [hrun] at h
      cases h
    · next h =>
      rw [hrun] at h
      cases h
      simp
  · simp only [hp] at hrun ⊢
    split
    · next h =>
      rw [hrun] at h
      cases h
      rfl
    · next h =>
      rw [hrun] at h
      cases h

theorem parse_sweep_ok {closing : Option Marker} {step : σ → Token → Reader σ} {state state' : σ}
    (hl : ∀ m ∈ closing, l ≠ .marker m)
    (h : (step state (.bare l)).parse ls = (.ok state', rest)) :
    (sweep closing step state).parse (l :: ls) = (sweep closing step state').parse rest := by
  rw [parse_sweep_cons closing step state hl, h]

theorem parse_sweep_error {closing : Option Marker} {step : σ → Token → Reader σ} {state : σ}
    (hl : ∀ m ∈ closing, l ≠ .marker m)
    (h : (step state (.bare l)).parse ls = (.error error, rest)) :
    (sweep closing step state).parse (l :: ls) = (.error error, rest) := by
  rw [parse_sweep_cons closing step state hl, h]

theorem parse_many_nil (m : Marker) (item : Reader α) (h : ls.head? ≠ some (.marker m)) :
    (many m item).parse ls = (.ok [], ls) := by
  cases ls with
  | nil => simp [parse, many, manyRun]
  | cons l ls =>
    have hl : l ≠ .marker m := by simpa using h
    simp [parse, many, manyRun, hl]

theorem parse_many_cons (m : Marker) (item : Reader α) :
    (many m item).parse (.marker m :: ls) = match item.parse ls with
      | (.ok value, rest) =>
        (((many m item).parse rest).1.map (value :: ·), ((many m item).parse rest).2)
      | (.error error, rest) => (.error error, rest) := by
  have hrun := item.run_bare ls
  show ((manyRun m item (.bare (.marker m) :: ls.map Token.bare)).1,
    (manyRun m item (.bare (.marker m) :: ls.map Token.bare)).2.map Token.lexeme) = _
  rw [manyRun, Token.lexeme_bare, if_pos rfl]
  rcases hp : item.parse ls with ⟨_ | value, rest⟩
  · simp only [hp] at hrun ⊢
    split
    · next h =>
      rw [hrun] at h
      cases h
    · next h =>
      rw [hrun] at h
      cases h
      simp
  · simp only [hp] at hrun ⊢
    split
    · next h =>
      rw [hrun] at h
      cases h
      rfl
    · next h =>
      rw [hrun] at h
      cases h

theorem parse_many_ok {m : Marker} {item : Reader α} (hitem : item.parse ls = (.ok value, rest))
    (h : (many m item).parse rest = (.ok values, left)) :
    (many m item).parse (.marker m :: ls) = (.ok (value :: values), left) := by
  rw [parse_many_cons, hitem]
  simp only [h, Except.map]

-- --------------------
-- Runs on tokens
-- --------------------

/-- What the reader makes of tokens depends on their lexemes only. -/
def Positionless (reader : Reader α) : Prop :=
  ∀ tokens, (reader.run tokens).1 = (reader.parse (tokens.map Token.lexeme)).1 ∧
    (reader.run tokens).2.map Token.lexeme = (reader.parse (tokens.map Token.lexeme)).2

theorem Positionless.parse_eq {reader : Reader α} (h : Positionless reader)
    (hrun : reader.run tokens = (result, left)) :
    reader.parse (tokens.map Token.lexeme) = (result, left.map Token.lexeme) := by
  obtain ⟨hresult, hleft⟩ := h tokens
  rw [hrun] at hresult hleft
  exact Prod.ext hresult.symm hleft.symm

theorem Positionless.exists_run {reader : Reader α} (h : Positionless reader)
    (hparse : reader.parse (tokens.map Token.lexeme) = (result, ls)) :
    ∃ left, reader.run tokens = (result, left) ∧ left.map Token.lexeme = ls := by
  obtain ⟨hresult, hleft⟩ := h tokens
  rw [hparse] at hresult hleft
  exact ⟨_, Prod.ext hresult rfl, hleft⟩

theorem positionless_pure (value : α) : Positionless (Pure.pure value : Reader α) := by
  intro tokens
  rw [parse_pure]
  exact ⟨rfl, rfl⟩

theorem positionless_fail (error : DecodeError) : Positionless (fail error : Reader α) := by
  intro tokens
  rw [parse_fail]
  exact ⟨rfl, rfl⟩

theorem Positionless.bind {reader : Reader α} {next : α → Reader β} (h : Positionless reader)
    (hnext : ∀ value, Positionless (next value)) : Positionless (reader >>= next) := by
  intro tokens
  show ((reader.bind next).run tokens).1 = _ ∧ ((reader.bind next).run tokens).2.map _ = _
  simp only [Reader.bind]
  split
  · next value left hrun =>
    rw [parse_bind_ok (h.parse_eq hrun)]
    exact hnext value left
  · next error left hrun =>
    rw [parse_bind_error (h.parse_eq hrun)]
    exact ⟨rfl, rfl⟩

theorem positionless_accept (expected : TokenKind) (take : Option Lexeme → Option α) :
    Positionless (accept expected take) := by
  intro tokens
  rw [parse_accept]
  simp only [accept, List.head?_map]
  cases take (tokens.head?.map Token.lexeme) with
  | none => exact ⟨rfl, rfl⟩
  | some value => exact ⟨rfl, List.map_tail⟩

theorem Positionless.peek {next : Option Token → Reader α} (f : Option Lexeme → Reader α)
    (hf : ∀ token, next token = f (token.map Token.lexeme)) (h : ∀ l, Positionless (f l)) :
    Positionless (Reader.peek >>= next) := by
  intro tokens
  have hhead : ((tokens.map Token.lexeme).head?.map Token.bare).map Token.lexeme =
      tokens.head?.map Token.lexeme := by
    cases tokens <;> rfl
  rw [parse_bind_ok parse_peek, hf, hhead]
  show ((next tokens.head?).run tokens).1 = _ ∧ ((next tokens.head?).run tokens).2.map _ = _
  rw [hf]
  exact h _ tokens

theorem positionless_number : Positionless number := positionless_accept _ _

theorem positionless_numbers : Positionless numbers := by
  intro tokens
  rw [parse_numbers]
  show Except.ok (leadingNumbers tokens).1 = _ ∧ (leadingNumbers tokens).2.map Token.lexeme = _
  fun_induction leadingNumbers tokens with
  | case1 n _ _ rest _ _ h ih =>
    rw [h] at ih
    simp only [Except.ok.injEq] at ih
    simp [splitNumbers, ih]
  | case2 tokens h =>
    have hsplit : splitNumbers (tokens.map Token.lexeme) = ([], tokens.map Token.lexeme) := by
      cases tokens with
      | nil => rfl
      | cons token rest =>
        obtain ⟨l, start, stop⟩ := token
        cases l with
        | number n => exact absurd rfl (h n start stop rest)
        | marker _ | string _ | coordinate _ | word _ => rfl
    rw [hsplit]
    exact ⟨rfl, rfl⟩

theorem positionless_coordinate? : Positionless coordinate? := by
  intro tokens
  cases tokens with
  | nil =>
    rw [List.map_nil, parse_coordinate?_none (by simp)]
    exact ⟨rfl, rfl⟩
  | cons token tokens =>
    obtain ⟨l, start, stop⟩ := token
    cases l with
    | coordinate text =>
      rw [List.map_cons, parse_coordinate?_cons]
      exact ⟨rfl, rfl⟩
    | marker _ | number _ | string _ | word _ =>
      rw [parse_coordinate?_none (by simp)]
      exact ⟨rfl, rfl⟩

theorem positionless_skipPast (kind : TokenKind) : Positionless (skipPast kind) := by
  intro tokens
  rw [parse_skipPast]
  refine ⟨rfl, ?_⟩
  show ((tokens.dropWhile fun token => decide (token.lexeme.kind ≠ kind)).tail).map _ = _
  rw [List.map_tail, List.dropWhile_map]
  rfl

theorem Positionless.recover {reader : Reader α} {handle : Damage → Reader α}
    (h : Positionless reader) (hhandle : ∀ damage, Positionless (handle damage)) :
    Positionless (reader.recover handle) := by
  intro tokens
  rw [parse_recover]
  rcases hrun : reader.run tokens with ⟨(damage | abort) | value, left⟩
  · simp only [Reader.recover, hrun, h.parse_eq hrun]
    exact hhandle damage left
  · simp [Reader.recover, hrun, h.parse_eq hrun]
  · simp [Reader.recover, hrun, h.parse_eq hrun]

theorem Positionless.sweep {closing : Option Marker} {step : σ → Token → Reader σ}
    (hbare : ∀ state token, step state token = step state (.bare token.lexeme))
    (h : ∀ state token, Positionless (step state token)) (state : σ) :
    Positionless (Reader.sweep closing step state) := by
  intro tokens
  show (sweepRun closing step state tokens).1 = _ ∧ (sweepRun closing step state tokens).2.map _ = _
  fun_induction sweepRun closing step state tokens with
  | case1 state =>
    rw [List.map_nil, parse_sweep_nil]
    exact ⟨rfl, rfl⟩
  | case2 state token rest hclosing =>
    obtain ⟨m, rfl, hm⟩ := any_closing_eq_true_iff.mp hclosing
    rw [List.map_cons, hm, parse_sweep_closing]
    exact ⟨rfl, rfl⟩
  | case3 state token rest hclosing state' left hstep ih =>
    have hne := any_closing_eq_false_iff.mp (Bool.eq_false_iff.mpr hclosing)
    have hparse := (h state token).parse_eq hstep
    rw [hbare] at hparse
    rw [List.map_cons, parse_sweep_ok hne hparse]
    exact ih
  | case4 state token rest hclosing error left hstep =>
    have hne := any_closing_eq_false_iff.mp (Bool.eq_false_iff.mpr hclosing)
    have hparse := (h state token).parse_eq hstep
    rw [hbare] at hparse
    rw [List.map_cons, parse_sweep_error hne hparse]
    exact ⟨rfl, rfl⟩

theorem Positionless.many {m : Marker} {item : Reader α} (h : Positionless item) :
    Positionless (Reader.many m item) := by
  intro tokens
  show (manyRun m item tokens).1 = _ ∧ (manyRun m item tokens).2.map _ = _
  fun_induction manyRun m item tokens with
  | case1 =>
    rw [List.map_nil, parse_many_nil _ _ (by simp)]
    exact ⟨rfl, rfl⟩
  | case2 token rest hm value left hitem values left' hmany ih =>
    rw [hmany] at ih
    rw [List.map_cons, hm, parse_many_cons, h.parse_eq hitem]
    simp only [← ih.1, ← ih.2, and_self]
  | case3 token rest hm error left hitem =>
    rw [List.map_cons, hm, parse_many_cons, h.parse_eq hitem]
    exact ⟨rfl, rfl⟩
  | case4 token rest hm =>
    rw [List.map_cons, parse_many_nil _ _ (by simpa using hm)]
    exact ⟨rfl, rfl⟩

end Reader

end InfinityScript
