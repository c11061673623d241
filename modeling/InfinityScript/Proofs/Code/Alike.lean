import Mathlib.Data.List.Forall2
import InfinityScript.Proofs.Code.SourceLine
import InfinityScript.Proofs.Code.Parse

/-!
# Readers that go the same way

Two readers are alike (`Reader.Alike`) when on the same tokens they leave the same
tokens, fail for the same reason, and otherwise end in values that are related. Readers
that are put together from readers that are alike are alike.
-/

namespace InfinityScript

variable {ε ν α β σ τ : Type}

/-- Both fail for the same reason, or both have values, and these are related. -/
inductive Outcome.Alike (R : α → β → Prop) : Except ε α → Except ε β → Prop
  | ok {a : α} {b : β} (related : R a b) : Alike R (.ok a) (.ok b)
  | error (reason : ε) : Alike R (.error reason) (.error reason)

theorem Outcome.Alike.mono {R R' : α → β → Prop} {x : Except ε α} {y : Except ε β}
    (h : Alike R x y) (hR : ∀ a b, R a b → R' a b) : Alike R' x y := by
  cases h with
  | ok h => exact .ok (hR _ _ h)
  | error reason => exact .error reason

namespace Noted

structure Alike (R : α → β → Prop) (x : Noted ν α) (y : Noted ν β) : Prop where
  value : R x.value y.value
  notes : x.notes = y.notes

variable {R : α → β → Prop} {S : σ → τ → Prop}

theorem alike_pure {a : α} {b : β} (h : R a b) : Alike R (pure a : Noted ν α) (pure b) := ⟨h, rfl⟩

theorem alike_refl (x : Noted ν α) : Alike Eq x x := ⟨rfl, rfl⟩

theorem Alike.bind {x : Noted ν α} {y : Noted ν β} {f : α → Noted ν σ} {g : β → Noted ν τ}
    (h : Alike R x y) (hnext : ∀ a b, R a b → Alike S (f a) (g b)) :
    Alike S (x >>= f) (y >>= g) := by
  obtain ⟨hvalue, hnotes⟩ := hnext _ _ h.value
  refine ⟨hvalue, ?_⟩
  rw [notes_bind, notes_bind, h.notes, hnotes]

theorem alike_foldlM {f : σ → α → Noted ν σ} {g : τ → α → Noted ν τ}
    (hstep : ∀ s t x, S s t → Alike S (f s x) (g t x)) (xs : List α) {s : σ} {t : τ} (h : S s t) :
    Alike S (xs.foldlM f s) (xs.foldlM g t) := by
  induction xs generalizing s t with
  | nil => exact alike_pure h
  | cons x xs ih =>
    rw [List.foldlM_cons, List.foldlM_cons]
    exact (hstep s t x h).bind fun _ _ h => ih h

end Noted

namespace Expressing

def Alike (R : α → β → Prop) (x : Expressing α) (y : Expressing β) : Prop :=
  Noted.Alike (Outcome.Alike R) x.outcome y.outcome

variable {R : α → β → Prop} {S : σ → τ → Prop}

theorem alike_pure {a : α} {b : β} (h : R a b) : Alike R (pure a) (pure b) := ⟨.ok h, rfl⟩

theorem alike_throw (error : DecodeError) : Alike R (throw error) (throw error) :=
  ⟨.error error, rfl⟩

theorem alike_refl (x : Expressing α) : Alike Eq x x := by
  refine ⟨?_, rfl⟩
  cases x.outcome.value with
  | ok value => exact .ok rfl
  | error error => exact .error error

theorem Alike.bind {x : Expressing α} {y : Expressing β} {f : α → Expressing σ}
    {g : β → Expressing τ} (h : Alike R x y) (hnext : ∀ a b, R a b → Alike S (f a) (g b)) :
    Alike S (x >>= f) (y >>= g) := by
  obtain ⟨outcome, notes⟩ := x
  obtain ⟨outcome', notes'⟩ := y
  obtain ⟨hvalue, rfl : notes = notes'⟩ := h
  cases (hvalue : Outcome.Alike R outcome outcome') with
  | ok hvalue =>
    obtain ⟨hvalue, hnotes⟩ := hnext _ _ hvalue
    exact ⟨hvalue, congrArg (notes ++ ·) hnotes⟩
  | error error => exact ⟨.error error, rfl⟩

theorem alike_bind (x : Expressing α) {f : α → Expressing σ} {g : α → Expressing τ}
    (hnext : ∀ a, Alike S (f a) (g a)) : Alike S (x >>= f) (x >>= g) :=
  (alike_refl x).bind fun a _ h => h ▸ hnext a

theorem alike_ofNoted {x : Noted Note α} {y : Noted Note β} (h : Noted.Alike R x y) :
    Alike R (ofNoted x) (ofNoted y) :=
  ⟨.ok h.value, congrArg (· ++ []) h.notes⟩

theorem alike_foldlM {f : σ → α → Expressing σ} {g : τ → α → Expressing τ}
    (hstep : ∀ s t x, S s t → Alike S (f s x) (g t x)) (xs : List α) {s : σ} {t : τ} (h : S s t) :
    Alike S (xs.foldlM f s) (xs.foldlM g t) := by
  induction xs generalizing s t with
  | nil => exact alike_pure h
  | cons x xs ih =>
    rw [List.foldlM_cons, List.foldlM_cons]
    exact (hstep s t x h).bind fun _ _ h => ih h

end Expressing

namespace Reader

def RunsAlike (R : α → β → Prop) (x : Except DecodeError α × List Token)
    (y : Except DecodeError β × List Token) : Prop :=
  Outcome.Alike R x.1 y.1 ∧ x.2 = y.2

def Alike (R : α → β → Prop) (first : Reader α) (second : Reader β) : Prop :=
  ∀ tokens, RunsAlike R (first.run tokens) (second.run tokens)

variable {R : α → β → Prop} {S : σ → τ → Prop}

theorem alike_pure {a : α} {b : β} (h : R a b) :
    Alike R (Pure.pure a : Reader α) (Pure.pure b) :=
  fun _ => ⟨.ok h, rfl⟩

theorem alike_fail (error : DecodeError) : Alike R (fail error : Reader α) (fail error) :=
  fun _ => ⟨.error error, rfl⟩

theorem alike_refl (reader : Reader α) : Alike Eq reader reader := by
  intro tokens
  refine ⟨?_, rfl⟩
  cases (reader.run tokens).1 with
  | ok value => exact .ok rfl
  | error error => exact .error error

theorem Alike.mono {R' : α → β → Prop} {first : Reader α} {second : Reader β}
    (h : Alike R first second) (hR : ∀ a b, R a b → R' a b) : Alike R' first second :=
  fun tokens => ⟨(h tokens).1.mono hR, (h tokens).2⟩

theorem RunsAlike.cases {x : Except DecodeError α × List Token}
    {y : Except DecodeError β × List Token} (h : RunsAlike R x y) :
    (∃ a b rest, x = (.ok a, rest) ∧ y = (.ok b, rest) ∧ R a b) ∨
      ∃ error rest, x = (.error error, rest) ∧ y = (.error error, rest) := by
  obtain ⟨outcome, rest⟩ := x
  obtain ⟨outcome', rest'⟩ := y
  obtain ⟨hvalue, rfl : rest = rest'⟩ := h
  cases (hvalue : Outcome.Alike R outcome outcome') with
  | ok hvalue => exact .inl ⟨_, _, rest, rfl, rfl, hvalue⟩
  | error error => exact .inr ⟨error, rest, rfl, rfl⟩

theorem Alike.bind {first : Reader α} {second : Reader β} {f : α → Reader σ} {g : β → Reader τ}
    (h : Alike R first second) (hnext : ∀ a b, R a b → Alike S (f a) (g b)) :
    Alike S (first >>= f) (second >>= g) := by
  intro tokens
  rcases (h tokens).cases with ⟨a, b, rest, hfirst, hsecond, hvalue⟩ | ⟨error, rest, hfirst, hsecond⟩
  · rw [run_bind_ok hfirst, run_bind_ok hsecond]
    exact hnext a b hvalue rest
  · rw [run_bind_error hfirst, run_bind_error hsecond]
    exact ⟨.error error, rfl⟩

theorem alike_bind (reader : Reader α) {f : α → Reader σ} {g : α → Reader τ}
    (hnext : ∀ a, Alike S (f a) (g a)) : Alike S (reader >>= f) (reader >>= g) :=
  (alike_refl reader).bind fun a _ h => h ▸ hnext a

theorem Alike.recover {first : Reader α} {second : Reader β} {handle : Damage → Reader α}
    {handle' : Damage → Reader β} (h : Alike R first second)
    (hhandle : ∀ damage, Alike R (handle damage) (handle' damage)) :
    Alike R (first.recover handle) (second.recover handle') := by
  intro tokens
  simp only [Reader.recover]
  rcases (h tokens).cases with ⟨a, b, rest, hfirst, hsecond, hvalue⟩ | ⟨error, rest, hfirst, hsecond⟩
  · rw [hfirst, hsecond]
    exact ⟨.ok hvalue, rfl⟩
  · rw [hfirst, hsecond]
    cases error with
    | damage damage => exact hhandle damage rest
    | abort abort => exact ⟨.error _, rfl⟩

theorem sweepRun_ok {closing : Option Marker} {step : σ → Token → Reader σ}
    (hclosing : ¬ closing.any fun marker => token.lexeme = .marker marker)
    (hstep : (step s token).run rest = (.ok s', left)) :
    sweepRun closing step s (token :: rest) = sweepRun closing step s' left := by
  rw [sweepRun, if_neg hclosing]
  split
  · next h =>
    rw [hstep] at h
    cases h
    rfl
  · next h =>
    rw [hstep] at h
    cases h

theorem sweepRun_error {closing : Option Marker} {step : σ → Token → Reader σ}
    (hclosing : ¬ closing.any fun marker => token.lexeme = .marker marker)
    (hstep : (step s token).run rest = (.error error, left)) :
    sweepRun closing step s (token :: rest) = (.error error, left) := by
  rw [sweepRun, if_neg hclosing]
  split
  · next h =>
    rw [hstep] at h
    cases h
  · next h =>
    rw [hstep] at h
    cases h
    rfl

/-- States that are related at each step of a sweep are related at its end. -/
theorem alike_sweep {step : σ → Token → Reader σ} {step' : τ → Token → Reader τ}
    (hstep : ∀ s t token, S s t → Alike S (step s token) (step' t token))
    (closing : Option Marker) {s : σ} {t : τ} (h : S s t) :
    Alike (fun a b => S a.1 b.1 ∧ a.2 = b.2) (sweep closing step s) (sweep closing step' t) := by
  intro tokens
  show RunsAlike _ (sweepRun closing step s tokens) (sweepRun closing step' t tokens)
  fun_induction sweepRun closing step s tokens generalizing t with
  | case1 s =>
    rw [sweepRun]
    exact ⟨.ok ⟨h, rfl⟩, rfl⟩
  | case2 s token rest hclosing =>
    rw [sweepRun, if_pos hclosing]
    exact ⟨.ok ⟨h, rfl⟩, rfl⟩
  | case3 s token rest hclosing s' left hrun ih =>
    rcases (hstep s t token h rest).cases with ⟨a, t', _, hfirst, hsecond, hvalue⟩ | ⟨_, _, hfirst, _⟩
    · cases hrun.symm.trans hfirst
      rw [sweepRun_ok hclosing hsecond]
      exact ih hvalue
    · cases hrun.symm.trans hfirst
  | case4 s token rest hclosing error left hrun =>
    rcases (hstep s t token h rest).cases with ⟨_, _, _, hfirst, _, _⟩ | ⟨_, _, hfirst, hsecond⟩
    · cases hrun.symm.trans hfirst
    · cases hrun.symm.trans hfirst
      rw [sweepRun_error hclosing hsecond]
      exact ⟨.error error, rfl⟩

theorem manyRun_ok {m : Marker} {item : Reader α} (hm : token.lexeme = .marker m)
    (hitem : item.run rest = (.ok value, left)) :
    manyRun m item (token :: rest) =
      ((manyRun m item left).1.map (value :: ·), (manyRun m item left).2) := by
  rw [manyRun, if_pos hm]
  split
  · next h =>
    rw [hitem] at h
    cases h
    rfl
  · next h =>
    rw [hitem] at h
    cases h

theorem manyRun_error {m : Marker} {item : Reader α} (hm : token.lexeme = .marker m)
    (hitem : item.run rest = (.error error, left)) :
    manyRun m item (token :: rest) = (.error error, left) := by
  rw [manyRun, if_pos hm]
  split
  · next h =>
    rw [hitem] at h
    cases h
  · next h =>
    rw [hitem] at h
    cases h
    rfl

theorem Alike.many {first : Reader α} {second : Reader β} (h : Alike R first second)
    (m : Marker) : Alike (List.Forall₂ R) (many m first) (many m second) := by
  intro tokens
  show RunsAlike _ (manyRun m first tokens) (manyRun m second tokens)
  fun_induction manyRun m first tokens with
  | case1 =>
    rw [manyRun]
    exact ⟨.ok .nil, rfl⟩
  | case2 token rest hm value left hrun values left' hmany ih =>
    rcases (h rest).cases with ⟨_, b, _, hfirst, hsecond, hvalue⟩ | ⟨_, _, hfirst, _⟩
    · cases hrun.symm.trans hfirst
      rw [hmany] at ih
      rw [manyRun_ok hm hsecond]
      rcases ih.cases with ⟨_, _, _, hvalues, hothers, hrelated⟩ | ⟨error, _, hvalues, hothers⟩
      · cases hvalues
        rw [hothers]
        exact ⟨.ok (.cons hvalue hrelated), rfl⟩
      · cases hvalues
        rw [hothers]
        exact ⟨.error error, rfl⟩
    · cases hrun.symm.trans hfirst
  | case3 token rest hm error left hrun =>
    rcases (h rest).cases with ⟨_, _, _, hfirst, _, _⟩ | ⟨_, _, hfirst, hsecond⟩
    · cases hrun.symm.trans hfirst
    · cases hrun.symm.trans hfirst
      rw [manyRun_error hm hsecond]
      exact ⟨.error error, rfl⟩
  | case4 token rest hm =>
    rw [manyRun, if_neg hm]
    exact ⟨.ok .nil, rfl⟩

end Reader

theorem Expressing.Alike.line {R : Text → Text → Prop} {x y : Expressing Text} (h : Alike R x y) :
    Reader.Alike (fun a b => R a.text b.text ∧ a.notes = b.notes) (line x) (line y) := by
  obtain ⟨outcome, notes⟩ := x
  obtain ⟨outcome', notes'⟩ := y
  obtain ⟨hvalue, rfl : notes = notes'⟩ := h
  cases (hvalue : Outcome.Alike R outcome outcome') with
  | ok hvalue => exact Reader.alike_pure ⟨hvalue, rfl⟩
  | error error => exact Reader.alike_fail error

end InfinityScript
