import InfinityScript.Proofs.Code.Parse

/-!
# Readers that go step by step

The readers of fields and records look at one lexeme at a time and stop at the first
that does not fit. Such a reader does not depend on where tokens stand
(`Stepwise.positionless`), and what it does with the lexemes up to the one it stops
at does not depend on what follows (`Stepwise.frame`).
-/

namespace InfinityScript.Reader

/-- The reader goes by the next lexeme at each step, and takes only lexemes of `K`. -/
inductive Stepwise (K : Lexeme → Prop) : {α : Type} → Reader α → Prop
  | pure {α : Type} (value : α) : Stepwise K (Pure.pure value : Reader α)
  | fail {α : Type} (error : DecodeError) : Stepwise K (fail error : Reader α)
  | accept {α : Type} (expected : TokenKind) (take : Option Lexeme → Option α)
      (hnone : take none = none) (hsome : ∀ l value, take (some l) = some value → K l) :
    Stepwise K (accept expected take)
  | numbers (h : ∀ n, K (.number n)) : Stepwise K numbers
  | coordinate? (h : ∀ text, K (.coordinate text)) : Stepwise K coordinate?
  | look {α : Type} (f : Option Lexeme → Reader α) (h : ∀ l, Stepwise K (f l)) :
    Stepwise K (peek >>= fun token => f (token.map Token.lexeme))
  | bind {α β : Type} {reader : Reader α} {next : α → Reader β} (h : Stepwise K reader)
      (hnext : ∀ value, Stepwise K (next value)) : Stepwise K (reader >>= next)
  | many {α : Type} {item : Reader α} (m : Marker) (hm : K (.marker m)) (h : Stepwise K item) :
    Stepwise K (many m item)

variable {α β : Type}

namespace Stepwise

variable {K : Lexeme → Prop}

theorem number (h : ∀ n, K (.number n)) : Stepwise K number := by
  refine .accept _ _ rfl fun l value hl => ?_
  cases l with
  | number n => exact h n
  | _ => simp at hl

theorem string (h : ∀ text, K (.string text)) : Stepwise K string := by
  refine .accept _ _ rfl fun l value hl => ?_
  cases l with
  | string text => exact h text
  | _ => simp at hl

theorem marker (m : Marker) (h : K (.marker m)) : Stepwise K (marker m) := by
  refine .accept _ _ rfl fun l value hl => ?_
  cases l with
  | marker found =>
    by_cases hfound : found = m
    · rw [hfound]
      exact h
    · simp [hfound] at hl
  | _ => simp at hl

theorem positionless {reader : Reader α} (h : Stepwise K reader) : Positionless reader := by
  induction h with
  | pure value => exact positionless_pure value
  | fail error => exact positionless_fail error
  | accept expected take _ _ => exact positionless_accept expected take
  | numbers _ => exact positionless_numbers
  | coordinate? _ => exact positionless_coordinate?
  | look f _ ih => exact .peek f (fun _ => rfl) ih
  | bind _ _ ih ihnext => exact ih.bind ihnext
  | many m _ _ ih => exact ih.many

end Stepwise

/-- On these lexemes the reader takes some of `K` and leaves others, and unless it
leaves none, nothing that is put after them changes what it does. -/
def FramedOn (K : Lexeme → Prop) (reader : Reader α) (ls : List Lexeme) : Prop :=
  ∃ taken left result, ls = taken ++ left ∧ (∀ l ∈ taken, K l) ∧
    reader.parse ls = (result, left) ∧
    (left ≠ [] → ∀ rest, reader.parse (ls ++ rest) = (result, left ++ rest))

section
variable {K : Lexeme → Prop}

theorem head?_append_left {ls rest : List Lexeme} (h : ls ≠ []) :
    (ls ++ rest).head? = ls.head? := by
  cases ls with
  | nil => exact absurd rfl h
  | cons => rfl

theorem framedOn_idle {reader : Reader α} (h : ∀ ls, reader.parse ls = (result, ls))
    (ls : List Lexeme) : FramedOn K reader ls :=
  ⟨[], ls, result, rfl, by simp, h ls, fun _ rest => h (ls ++ rest)⟩

theorem framedOn_accept (expected : TokenKind) (take : Option Lexeme → Option α)
    (hnone : take none = none) (hsome : ∀ l value, take (some l) = some value → K l)
    (ls : List Lexeme) : FramedOn K (accept expected take) ls := by
  cases ls with
  | nil =>
    refine ⟨[], [], .error (.damage (.mismatch expected none)), rfl, by simp, ?_, by simp⟩
    simp [parse_accept, hnone]
  | cons l ls =>
    cases htake : take (some l) with
    | none =>
      refine ⟨[], l :: ls, .error (.damage (.mismatch expected (some l))), rfl, by simp, ?_, ?_⟩
      · simp [parse_accept, htake]
      · intro _ rest
        simp [parse_accept, htake]
    | some value =>
      refine ⟨[l], ls, .ok value, rfl, by simpa using hsome l value htake, ?_, ?_⟩
      · simp [parse_accept, htake]
      · intro _ rest
        simp [parse_accept, htake]

theorem framedOn_numbers (h : ∀ n, K (.number n)) (ls : List Lexeme) :
    FramedOn K numbers ls := by
  refine ⟨(splitNumbers ls).1.map .number, (splitNumbers ls).2, .ok (splitNumbers ls).1, ?_,
    ?_, parse_numbers ls, ?_⟩
  · fun_induction splitNumbers ls with
    | case1 n rest ih => simpa using ih
    | case2 ls _ => rfl
  · simp [h]
  · intro hleft rest
    have hsplit : splitNumbers (ls ++ rest) = ((splitNumbers ls).1, (splitNumbers ls).2 ++ rest) := by
      fun_induction splitNumbers ls with
      | case1 n ls ih => simp [splitNumbers, ih hleft]
      | case2 ls hls =>
        cases ls with
        | nil => exact absurd rfl hleft
        | cons l ls =>
          cases l with
          | number n => exact absurd rfl (hls n ls)
          | marker _ | string _ | coordinate _ | word _ => rfl
    rw [parse_numbers, hsplit]

theorem framedOn_coordinate? (h : ∀ text, K (.coordinate text)) (ls : List Lexeme) :
    FramedOn K coordinate? ls := by
  by_cases hhead : ∃ text, ls.head? = some (.coordinate text)
  · obtain ⟨text, hhead⟩ := hhead
    obtain ⟨rest, rfl⟩ := List.head?_eq_some_iff.mp hhead
    exact ⟨[.coordinate text], rest, .ok (some text), rfl, by simpa using h text,
      parse_coordinate?_cons, fun _ _ => parse_coordinate?_cons⟩
  · have hhead : ∀ text, ls.head? ≠ some (.coordinate text) := fun text e => hhead ⟨text, e⟩
    refine ⟨[], ls, .ok none, rfl, by simp, parse_coordinate?_none hhead, fun hne rest => ?_⟩
    refine parse_coordinate?_none fun text => ?_
    rw [head?_append_left hne]
    exact hhead text

theorem FramedOn.bind {reader : Reader α} {next : α → Reader β} (h : FramedOn K reader ls)
    (hnext : ∀ value ls, FramedOn K (next value) ls) : FramedOn K (reader >>= next) ls := by
  obtain ⟨taken, left, result, hls, htaken, hparse, hrest⟩ := h
  cases result with
  | error error =>
    exact ⟨taken, left, .error error, hls, htaken, parse_bind_error hparse,
      fun hne rest => parse_bind_error (hrest hne rest)⟩
  | ok value =>
    obtain ⟨taken', left', result', hls', htaken', hparse', hrest'⟩ := hnext value left
    refine ⟨taken ++ taken', left', result', by simp [hls, hls'], ?_, ?_, fun hne rest => ?_⟩
    · intro l hl
      exact (List.mem_append.mp hl).elim (htaken l) (htaken' l)
    · rw [parse_bind_ok hparse, hparse']
    · have hleft : left ≠ [] := by
        rw [hls']
        simp [hne]
      rw [parse_bind_ok (hrest hleft rest), hrest' hne rest]

theorem framedOn_look (f : Option Lexeme → Reader α) (h : ∀ l ls, FramedOn K (f l) ls)
    (ls : List Lexeme) : FramedOn K (peek >>= fun token => f (token.map Token.lexeme)) ls := by
  obtain ⟨taken, left, result, hls, htaken, hparse, hrest⟩ := h ls.head? ls
  refine ⟨taken, left, result, hls, htaken, (parse_look f ls).trans hparse, fun hne rest => ?_⟩
  have hls : ls ≠ [] := by
    rw [hls]
    simp [hne]
  rw [parse_look, head?_append_left hls]
  exact hrest hne rest

theorem framedOn_many {item : Reader α} (m : Marker) (hm : K (.marker m))
    (h : ∀ ls, FramedOn K item ls) (ls : List Lexeme) : FramedOn K (many m item) ls := by
  induction hlen : ls.length using Nat.strongRecOn generalizing ls with
  | ind n ih =>
    by_cases hhead : ls.head? = some (.marker m)
    · obtain ⟨ls, rfl⟩ := List.head?_eq_some_iff.mp hhead
      obtain ⟨taken, left, result, rfl, htaken, hparse, hrest⟩ := h ls
      have htaken : ∀ l ∈ .marker m :: taken, K l := by simpa [hm] using htaken
      cases result with
      | error error =>
        refine ⟨.marker m :: taken, left, .error error, rfl, htaken, ?_, fun hne rest => ?_⟩
        · rw [parse_many_cons, hparse]
        · rw [List.cons_append, parse_many_cons, hrest hne rest]
      | ok value =>
        have hlt : left.length < n := by
          simp only [List.length_cons, List.length_append] at hlen
          omega
        obtain ⟨taken', left', result', rfl, htaken', hparse', hrest'⟩ := ih _ hlt left rfl
        refine ⟨.marker m :: taken ++ taken', left', result'.map (value :: ·), by simp, ?_, ?_,
          fun hne rest => ?_⟩
        · intro l hl
          exact (List.mem_append.mp hl).elim (htaken l) (htaken' l)
        · rw [parse_many_cons, hparse]
          simp only [hparse']
        · rw [List.cons_append, parse_many_cons, hrest (by simp [hne]) rest]
          simp only [hrest' hne rest]
    · refine ⟨[], ls, .ok [], rfl, by simp, parse_many_nil m item hhead, fun hne rest => ?_⟩
      exact parse_many_nil m item (by rwa [head?_append_left hne])

theorem Stepwise.frame {reader : Reader α} (h : Stepwise K reader) (ls : List Lexeme) :
    FramedOn K reader ls := by
  induction h generalizing ls with
  | pure value => exact framedOn_idle (fun _ => parse_pure value) ls
  | fail error => exact framedOn_idle (fun _ => parse_fail error) ls
  | accept expected take hnone hsome => exact framedOn_accept expected take hnone hsome ls
  | numbers h => exact framedOn_numbers h ls
  | coordinate? h => exact framedOn_coordinate? h ls
  | look f _ ih => exact framedOn_look f ih ls
  | bind _ _ ih ihnext => exact (ih ls).bind ihnext
  | many m hm _ ih => exact framedOn_many m hm ih ls

/-- A stepwise reader does not get past a lexeme that it does not take. -/
theorem Stepwise.stops {reader : Reader α} (h : Stepwise K reader) (hstop : ¬ K stop)
    (ls : List Lexeme) :
    ∃ taken left result, ls = taken ++ left ∧ (∀ l ∈ taken, K l) ∧
      ∀ rest, reader.parse (ls ++ stop :: rest) = (result, left ++ stop :: rest) := by
  obtain ⟨taken, left, result, hls, htaken, -, hrest⟩ := h.frame (ls ++ [stop])
  rcases List.append_eq_append_iff.mp hls with ⟨more, rfl, hleft⟩ | ⟨more, hmore, rfl⟩
  · cases more with
    | nil =>
      refine ⟨ls, [], result, by simp, by simpa using htaken, fun rest => ?_⟩
      obtain rfl : left = [stop] := by simpa using hleft.symm
      simpa using hrest (by simp) rest
    | cons l more =>
      obtain rfl : l = stop := (List.cons.inj hleft).1.symm
      exact absurd (htaken l (by simp)) hstop
  · refine ⟨taken, more, result, hmore, htaken, fun rest => ?_⟩
    simpa using hrest (by simp) rest

end

inductive Idle {α : Type} : Reader α → Prop
  | pure (value : α) : Idle (Pure.pure value)
  | fail (error : DecodeError) : Idle (fail error)

theorem Idle.stepwise {reader : Reader α} (h : Idle reader) : Stepwise K reader := by
  cases h with
  | pure value => exact .pure value
  | fail error => exact .fail error

theorem Idle.parse {reader : Reader α} (h : Idle reader) :
    ∃ result, ∀ ls, reader.parse ls = (result, ls) := by
  cases h with
  | pure value => exact ⟨.ok value, fun _ => parse_pure value⟩
  | fail error => exact ⟨.error error, fun _ => parse_fail error⟩

/-- The reader takes lexemes of `K` and then, unless it fails before, the marker. -/
inductive Closes (K : Lexeme → Prop) (m : Marker) : {α : Type} → Reader α → Prop
  | close {α : Type} {next : Unit → Reader α} (h : Idle (next ())) :
    Closes K m (marker m >>= next)
  | bind {α β : Type} {reader : Reader α} {next : α → Reader β} (h : Stepwise K reader)
      (hnext : ∀ value, Closes K m (next value)) : Closes K m (reader >>= next)
  | look {α : Type} (f : Option Lexeme → Reader α) (h : ∀ l, Closes K m (f l)) :
    Closes K m (peek >>= fun token => f (token.map Token.lexeme))
  | finish {α β : Type} {reader : Reader α} {next : α → Reader β} (h : Closes K m reader)
      (hnext : ∀ value, Idle (next value)) : Closes K m (reader >>= next)

theorem Stepwise.mono {K L : Lexeme → Prop} {reader : Reader α} (h : Stepwise K reader)
    (hKL : ∀ l, K l → L l) : Stepwise L reader := by
  induction h with
  | pure value => exact .pure value
  | fail error => exact .fail error
  | accept expected take hnone hsome =>
    exact .accept expected take hnone fun l value hl => hKL l (hsome l value hl)
  | numbers h => exact .numbers fun n => hKL _ (h n)
  | coordinate? h => exact .coordinate? fun text => hKL _ (h text)
  | look f _ ih => exact .look f ih
  | bind _ _ ih ihnext => exact ih.bind ihnext
  | many m hm _ ih => exact .many m (hKL _ hm) ih

theorem Closes.stepwise {K : Lexeme → Prop} {m : Marker} {reader : Reader α}
    (h : Closes K m reader) : Stepwise (fun l => K l ∨ l = .marker m) reader := by
  induction h with
  | close h => exact (Stepwise.marker m (.inr rfl)).bind fun _ => h.stepwise
  | bind h _ ih => exact (h.mono fun _ => .inl).bind ih
  | look f _ ih => exact .look f ih
  | finish _ hnext ih => exact ih.bind fun value => (hnext value).stepwise

/-- What a reader that ends at a marker does: it gets there, and then nothing that
follows matters; or it fails before. -/
theorem Closes.parse {K : Lexeme → Prop} {m : Marker} {reader : Reader α}
    (h : Closes K m reader) (ls : List Lexeme) :
    (∃ taken left result, ls = taken ++ .marker m :: left ∧ (∀ l ∈ taken, K l) ∧
      ∀ rest, reader.parse (ls ++ rest) = (result, left ++ rest)) ∨
    (∃ taken left error, ls = taken ++ left ∧ (∀ l ∈ taken, K l) ∧
      reader.parse ls = (.error error, left) ∧
      (left ≠ [] → ∀ rest, reader.parse (ls ++ rest) = (.error error, left ++ rest))) := by
  induction h generalizing ls with
  | @close _ next h =>
    obtain ⟨result, hresult⟩ := h.parse
    by_cases hhead : ls.head? = some (.marker m)
    · obtain ⟨left, rfl⟩ := List.head?_eq_some_iff.mp hhead
      refine .inl ⟨[], left, result, rfl, by simp, fun rest => ?_⟩
      rw [List.cons_append, parse_bind_ok parse_marker_cons]
      exact hresult _
    · have hfail : ∀ ls, ls.head? ≠ some (.marker m) → (marker m >>= next).parse ls =
          (.error (.damage (.mismatch (.marker m) ls.head?)), ls) := by
        intro ls hls
        exact parse_bind_error (parse_marker_error hls)
      refine .inr ⟨[], ls, _, rfl, by simp, hfail ls hhead, fun hne rest => ?_⟩
      have hrest := hfail (ls ++ rest)
      rw [head?_append_left hne] at hrest
      exact hrest hhead
  | @bind _ _ reader next h _ ih =>
    obtain ⟨taken, left, result, hls, htaken, hparse, hrest⟩ := h.frame ls
    cases result with
    | error error =>
      exact .inr ⟨taken, left, error, hls, htaken, parse_bind_error hparse,
        fun hne rest => parse_bind_error (hrest hne rest)⟩
    | ok value =>
      subst hls
      rcases ih value left with ⟨taken', left', result', rfl, htaken', hrest'⟩ |
        ⟨taken', left', error', rfl, htaken', hparse', hrest'⟩
      · refine .inl ⟨taken ++ taken', left', result', by simp, ?_, fun rest => ?_⟩
        · intro l hl
          exact (List.mem_append.mp hl).elim (htaken l) (htaken' l)
        · rw [parse_bind_ok (hrest (by simp) rest)]
          exact hrest' rest
      · refine .inr ⟨taken ++ taken', left', error', by simp, ?_, ?_, fun hne rest => ?_⟩
        · intro l hl
          exact (List.mem_append.mp hl).elim (htaken l) (htaken' l)
        · rw [parse_bind_ok hparse, hparse']
        · rw [parse_bind_ok (hrest (by simp [hne]) rest), hrest' hne rest]
  | look f _ ih =>
    rcases ih ls.head? ls with ⟨taken, left, result, hls, htaken, hrest⟩ |
      ⟨taken, left, error, hls, htaken, hparse, hrest⟩
    · refine .inl ⟨taken, left, result, hls, htaken, fun rest => ?_⟩
      rw [parse_look, head?_append_left (by simp [hls])]
      exact hrest rest
    · refine .inr ⟨taken, left, error, hls, htaken, (parse_look f ls).trans hparse, fun hne rest => ?_⟩
      rw [parse_look, head?_append_left (by simp [hls, hne])]
      exact hrest hne rest
  | finish _ hnext ih =>
    rcases ih ls with ⟨taken, left, result, hls, htaken, hrest⟩ |
      ⟨taken, left, error, hls, htaken, hparse, hrest⟩
    · cases result with
      | ok value =>
        obtain ⟨result, hresult⟩ := (hnext value).parse
        refine .inl ⟨taken, left, result, hls, htaken, fun rest => ?_⟩
        rw [parse_bind_ok (hrest rest), hresult]
      | error error =>
        exact .inl ⟨taken, left, .error error, hls, htaken, fun rest => parse_bind_error (hrest rest)⟩
    · exact .inr ⟨taken, left, error, hls, htaken, parse_bind_error hparse,
        fun hne rest => parse_bind_error (hrest hne rest)⟩

end InfinityScript.Reader
