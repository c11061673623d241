import InfinityScript.Proofs.Code.SourceLine
import InfinityScript.Proofs.Code.Parse
import InfinityScript.Proofs.Outcome

/-!
# What readers end in

A reader of lexemes of one kind ends in a value of one kind or in an error of one
kind (`Reader.Ends`). The conditions on values are carried from step to step.
-/

namespace InfinityScript

variable {α β σ : Type}

namespace Expressing

variable {P : α → Prop} {Q : β → Prop} {E : DecodeError → Prop}

def Ends (P : α → Prop) (E : DecodeError → Prop) (x : Expressing α) : Prop :=
  Outcome.Ends P E x.outcome.value

theorem ends_pure (h : P value) : Ends P E (pure value) := h

theorem Ends.mono {P' : α → Prop} {x : Expressing α} (h : Ends P E x)
    (hP : ∀ value, P value → P' value) : Ends P' E x :=
  Outcome.Ends.mono h hP fun _ => id

theorem ends_throw (h : E error) : Ends P E (throw error) := h

theorem Ends.bind {x : Expressing α} {f : α → Expressing β} (h : Ends P E x)
    (hf : ∀ value, P value → Ends Q E (f value)) : Ends Q E (x >>= f) := by
  obtain ⟨outcome, notes⟩ := x
  cases outcome with
  | ok value => exact hf value h
  | error error => exact h

theorem ends_ofNoted {x : Noted Note α} (h : P x.value) : Ends P E (ofNoted x) := h

theorem ends_note (n : Note) : Ends (fun _ => True) E (NotedT.note n : Expressing Unit) := trivial

theorem ends_ofSignature {x : Except ParameterFault α} (hvalue : ∀ value, x = .ok value → P value)
    (hfault : ∀ fault, x = .error fault → E (.damage (.signature fault))) :
    Ends P E (DecodeError.ofSignature x) := by
  cases x with
  | ok value => exact hvalue value rfl
  | error fault => exact hfault fault rfl

theorem ends_foldlM {I : σ → Prop} {f : σ → α → Expressing σ} {xs : List α} {init : σ}
    (h : I init) (hstep : ∀ state, ∀ x ∈ xs, I state → Ends I E (f state x)) :
    Ends I E (xs.foldlM f init) :=
  Outcome.holds_foldlM (fun _ => ends_pure) (fun _ _ => Ends.bind) h hstep

end Expressing

namespace Reader

def Ends (L : Lexeme → Prop) (P : α → Prop) (E : DecodeError → Prop) (reader : Reader α) : Prop :=
  ∀ ls, (∀ l ∈ ls, L l) → Outcome.Ends P E (reader.parse ls).1

variable {L : Lexeme → Prop} {P : α → Prop} {Q : β → Prop} {E : DecodeError → Prop}

theorem ends_pure (h : P value) : Ends L P E (Pure.pure value : Reader α) := by
  intro ls _
  rw [parse_pure]
  exact h

theorem ends_fail (h : E error) : Ends L P E (fail error : Reader α) := by
  intro ls _
  rw [parse_fail]
  exact h

theorem Ends.mono {P' : α → Prop} {reader : Reader α} (h : Ends L P E reader)
    (hP : ∀ value, P value → P' value) : Ends L P' E reader :=
  fun ls hls => (h ls hls).mono hP fun _ => id

/-- A reader of a part of the lexemes goes on with a part of them. -/
theorem mem_of_parse {reader : Reader α} (h : reader.parse ls = (result, rest))
    (hls : ∀ l ∈ ls, L l) : ∀ l ∈ rest, L l := by
  have hsuffix := reader.parse_suffix ls
  rw [h] at hsuffix
  exact fun l hl => hls l (hsuffix.subset hl)

theorem length_le_of_parse {reader : Reader α} (h : reader.parse ls = (result, rest)) :
    rest.length ≤ ls.length := by
  have hsuffix := reader.parse_suffix ls
  rw [h] at hsuffix
  exact hsuffix.length_le

theorem Ends.bind {reader : Reader α} {next : α → Reader β} (h : Ends L P E reader)
    (hnext : ∀ value, P value → Ends L Q E (next value)) : Ends L Q E (reader >>= next) := by
  intro ls hls
  have hreader := h ls hls
  rcases hparse : reader.parse ls with ⟨error | value, rest⟩
  · rw [hparse] at hreader
    rw [parse_bind_error hparse]
    exact hreader
  · rw [hparse] at hreader
    rw [parse_bind_ok hparse]
    exact hnext value hreader rest (mem_of_parse hparse hls)

theorem ends_accept {expected : TokenKind} {take : Option Lexeme → Option α}
    (htake : ∀ l value, (∀ found ∈ l, L found) → take l = some value → P value)
    (hmismatch : ∀ found, (∀ l ∈ found, L l) → E (.damage (.mismatch expected found))) :
    Ends L P E (accept expected take) := by
  intro ls hls
  have hhead : ∀ found ∈ ls.head?, L found := fun l hl => hls l (List.mem_of_mem_head? hl)
  rw [parse_accept]
  cases h : take ls.head? with
  | some value => exact htake _ value hhead h
  | none => exact hmismatch _ hhead

theorem ends_coordinate? :
    Ends L (fun area => ∀ text ∈ area, L (.coordinate text)) E coordinate? := by
  intro ls hls
  cases ls with
  | nil =>
    rw [parse_coordinate?_none (by simp)]
    simp [Outcome.Ends]
  | cons l ls =>
    cases l with
    | coordinate text =>
      rw [parse_coordinate?_cons]
      simpa [Outcome.Ends] using hls _ (by simp)
    | _ =>
      rw [parse_coordinate?_none (by simp)]
      simp [Outcome.Ends]

theorem ends_look (f : Option Lexeme → Reader α) (h : ∀ l, Ends L P E (f l)) :
    Ends L P E (peek >>= fun token => f (token.map Token.lexeme)) := by
  intro ls hls
  rw [parse_look]
  exact h _ ls hls

theorem ends_skipPast (kind : TokenKind) : Ends L (fun _ => True) E (skipPast kind) := by
  intro ls _
  rw [parse_skipPast]
  trivial

theorem Ends.many {m : Marker} {item : Reader α} (h : Ends L P E item) :
    Ends L (fun values => ∀ value ∈ values, P value) E (many m item) := by
  intro ls hls
  induction hlen : ls.length using Nat.strongRecOn generalizing ls with
  | ind n ih =>
    by_cases hhead : ls.head? = some (.marker m)
    · obtain ⟨ls, rfl⟩ := List.head?_eq_some_iff.mp hhead
      have hls' : ∀ l ∈ ls, L l := fun l hl => hls l (by simp [hl])
      have hitem := h ls hls'
      rw [parse_many_cons]
      rcases hparse : item.parse ls with ⟨error | value, rest⟩
      · rw [hparse] at hitem
        exact hitem
      · rw [hparse] at hitem
        have hlength := length_le_of_parse hparse
        have hrest := ih rest.length (by simp only [List.length_cons] at hlen; omega) rest
          (mem_of_parse hparse hls') rfl
        simp only
        cases hmany : ((Reader.many m item).parse rest).1 with
        | error error =>
          rw [hmany] at hrest
          exact hrest
        | ok values =>
          rw [hmany] at hrest
          exact List.forall_mem_cons.mpr ⟨hitem, hrest⟩
    · rw [parse_many_nil m item hhead]
      simp [Outcome.Ends]

/-- What each step of a sweep preserves, the sweep preserves. -/
theorem ends_sweep {closing : Option Marker} {step : σ → Token → Reader σ} {I : σ → Prop}
    (hstep : ∀ state l, L l → I state → Ends L I E (step state (.bare l))) {state : σ}
    (h : I state) : Ends L (fun result => I result.1) E (sweep closing step state) := by
  intro ls hls
  induction hlen : ls.length using Nat.strongRecOn generalizing ls state with
  | ind n ih =>
    cases ls with
    | nil =>
      rw [parse_sweep_nil]
      exact h
    | cons l ls =>
      by_cases hclosing : ∃ m, closing = some m ∧ l = .marker m
      · obtain ⟨m, rfl, rfl⟩ := hclosing
        rw [parse_sweep_closing]
        exact h
      · have hl : ∀ m ∈ closing, l ≠ .marker m := fun m hm e => hclosing ⟨m, hm, e⟩
        have hls' : ∀ l ∈ ls, L l := fun l hl => hls l (by simp [hl])
        have hone := hstep state l (hls l (by simp)) h ls hls'
        rw [parse_sweep_cons closing step state hl]
        rcases hparse : (step state (.bare l)).parse ls with ⟨error | state', rest⟩
        · rw [hparse] at hone
          exact hone
        · rw [hparse] at hone
          have hlength := length_le_of_parse hparse
          exact ih rest.length (by simp only [List.length_cons] at hlen; omega) hone rest
            (mem_of_parse hparse hls') rfl

end Reader

theorem Expressing.Ends.line {L : Lexeme → Prop} {P : Text → Prop} {E : DecodeError → Prop}
    {x : Expressing Text} (h : Ends P E x) :
    Reader.Ends L (fun line => P line.text) E (line x) := by
  unfold Expressing.Ends at h
  unfold Expressing.line
  split
  · next text notes hout =>
    rw [hout] at h
    exact Reader.ends_pure h
  · next error notes hout =>
    rw [hout] at h
    exact Reader.ends_fail h

theorem Expressing.Ends.exists_line {P : Text → Prop} {x : Expressing Text}
    (h : Ends P (fun _ => False) x) :
    ∃ found : SourceLine, P found.text ∧ ∀ ls, (Expressing.line x).parse ls = (.ok found, ls) := by
  unfold Expressing.Ends at h
  unfold Expressing.line
  split
  · next text notes hout =>
    rw [hout] at h
    exact ⟨{ text, notes }, h, fun ls => Reader.parse_pure _⟩
  · next error notes hout =>
    rw [hout] at h
    exact absurd h id

end InfinityScript
