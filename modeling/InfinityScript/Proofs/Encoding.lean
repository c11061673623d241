import InfinityScript.Encoding
import InfinityScript.Proofs.Outcome

/-!
# Encodings that succeed

When an encoding has a result and finds no fault on the way to it, read off its last
step. What an encoding ends in, be it at fault or not, is carried from step to step
(`Encoding.Ends`).
-/

namespace InfinityScript

def Faultless (remarks : List Remark) : Prop := ∀ fault, .error fault ∉ remarks

theorem faultless_append {a b : List Remark} : Faultless (a ++ b) ↔ Faultless a ∧ Faultless b := by
  simp [Faultless, not_or, forall_and]

namespace Encoding

variable {α β σ : Type}

/-- The encoding has the result, without a fault. -/
def Succeeds (x : Encoding α) (value : α) : Prop :=
  ∃ remarks, x.outcome = ⟨.ok value, remarks⟩ ∧ Faultless remarks

theorem Succeeds.unique {x : Encoding α} (h : Succeeds x a) (h' : Succeeds x b) : a = b := by
  obtain ⟨_, hvalue, -⟩ := h
  obtain ⟨_, hvalue', -⟩ := h'
  exact Except.ok.inj (Noted.mk.inj (hvalue.symm.trans hvalue')).1

theorem succeeds_pure {a b : α} : Succeeds (pure a) b ↔ a = b := by
  constructor
  · rintro ⟨remarks, h, -⟩
    exact Except.ok.inj (Noted.mk.inj h).1
  · rintro rfl
    exact ⟨[], rfl, by simp [Faultless]⟩

theorem not_succeeds_throw : ¬ Succeeds (throw e : Encoding α) value := by
  rintro ⟨remarks, h, -⟩
  cases (Noted.mk.inj h).1

theorem succeeds_bind {x : Encoding α} {f : α → Encoding β} :
    Succeeds (x >>= f) b ↔ ∃ a, Succeeds x a ∧ Succeeds (f a) b := by
  obtain ⟨value, remarks⟩ := x
  cases value with
  | error e =>
    constructor
    · rintro ⟨_, h, -⟩
      cases (Noted.mk.inj h).1
    · rintro ⟨a, ⟨_, h, -⟩, -⟩
      cases (Noted.mk.inj h).1
  | ok a =>
    constructor
    · rintro ⟨_, h, hfaultless⟩
      obtain ⟨hvalue, rfl⟩ := Noted.mk.inj h
      obtain ⟨hfirst, hrest⟩ := faultless_append.mp hfaultless
      exact ⟨a, ⟨remarks, rfl, hfirst⟩, (f a).outcome.notes, by rw [← hvalue]; rfl, hrest⟩
    · rintro ⟨_, ⟨_, hx, hfirst⟩, more, hf, hrest⟩
      obtain ⟨ha, rfl⟩ := Noted.mk.inj hx
      obtain rfl := Except.ok.inj ha
      refine ⟨remarks ++ more, ?_, faultless_append.mpr ⟨hfirst, hrest⟩⟩
      show (⟨(f a).outcome.value, remarks ++ (f a).outcome.notes⟩ : Noted Remark _) = _
      rw [show (f a).outcome = _ from hf]

theorem succeeds_ofExcept {x : Except Fault α} : Succeeds (ofExcept x) a ↔ x = .ok a := by
  cases x with
  | ok b => simp [ofExcept, succeeds_pure]
  | error fault => simp [ofExcept, not_succeeds_throw]

theorem succeeds_ofNumeral {x : Except NumeralFault α} : Succeeds (ofNumeral x) a ↔ x = .ok a := by
  cases x with
  | ok b => simp [ofNumeral, succeeds_pure]
  | error fault => simp [ofNumeral, not_succeeds_throw]

theorem succeeds_ofNoted {x : Noted Remark α} :
    Succeeds (ofNoted x) a ↔ x.value = a ∧ Faultless x.notes := by
  have houtcome : (ofNoted x).outcome = ⟨.ok x.value, x.notes⟩ := by
    show (⟨.ok x.value, x.notes ++ []⟩ : Noted Remark (Except Refusal α)) = _
    rw [List.append_nil]
  unfold Succeeds
  rw [houtcome]
  constructor
  · rintro ⟨_, h, hfaultless⟩
    obtain ⟨hvalue, rfl⟩ := Noted.mk.inj h
    exact ⟨Except.ok.inj hvalue, hfaultless⟩
  · rintro ⟨rfl, hfaultless⟩
    exact ⟨_, rfl, hfaultless⟩

theorem succeeds_fill : Succeeds (fill slots value) filled ↔ slots.fill value = .ok filled := by
  unfold fill
  cases slots.fill value with
  | error refusal => simp [not_succeeds_throw]
  | ok slots => simp [succeeds_pure]

/-- A part of a record that is at fault does not succeed, although it has a placeholder. -/
theorem succeeds_ofPart : Succeeds (ofPart x) text ↔
    ∃ part, x = .ok part ∧ part.value = text ∧ Faultless part.notes := by
  unfold ofPart
  split
  · simp [succeeds_ofNoted]
  · next fault =>
    rw [succeeds_ofNoted]
    constructor
    · rintro ⟨-, h⟩
      exact absurd List.mem_cons_self (h fault)
    · rintro ⟨part, h, -⟩
      cases h
  · simp [not_succeeds_throw]

theorem succeeds_packStrings : Succeeds (packStrings symbols opcode strings) packed ↔
    Scope.pack symbols opcode strings = .ok (packed, []) := by
  unfold packStrings
  split
  · next packed' faults hpack =>
    rw [succeeds_ofNoted, hpack]
    constructor
    · rintro ⟨rfl, hfaultless⟩
      cases faults with
      | nil => rfl
      | cons fault faults => exact absurd List.mem_cons_self (hfaultless fault)
    · intro h
      cases h
      exact ⟨rfl, by simp [Faultless]⟩
  · next hpack => simp [hpack, not_succeeds_throw]

/-- What each argument preserves, all of them preserve. -/
theorem invariant_foldlM {I : σ → Prop} {f : σ → α → Encoding σ} {xs : List α}
    (h : Succeeds (xs.foldlM f init) final) (hinit : I init)
    (hstep : ∀ state next, ∀ x ∈ xs, I state → Succeeds (f state x) next → I next) : I final := by
  induction xs generalizing init with
  | nil =>
    obtain rfl := succeeds_pure.mp h
    exact hinit
  | cons x xs ih =>
    rw [List.foldlM_cons] at h
    obtain ⟨next, hfirst, hrest⟩ := succeeds_bind.mp h
    exact ih hrest (hstep init next x (by simp) hinit hfirst)
      fun s t y hy => hstep s t y (by simp [hy])

/-- What holds of the arguments so far, when each of them adds to it, holds of all. -/
theorem accumulate_foldlM {I : List α → σ → Prop} {f : σ → α → Encoding σ} {xs : List α}
    (h : Succeeds (xs.foldlM f init) final) (hinit : I [] init)
    (hstep : ∀ before state next x, I before state → Succeeds (f state x) next →
      I (before ++ [x]) next) : I xs final := by
  suffices hall : ∀ before, I before init → I (before ++ xs) final from hall [] hinit
  clear hinit
  induction xs generalizing init with
  | nil =>
    obtain rfl := succeeds_pure.mp h
    simp
  | cons x xs ih =>
    rw [List.foldlM_cons] at h
    obtain ⟨next, hfirst, hrest⟩ := succeeds_bind.mp h
    intro before hbefore
    rw [List.append_cons]
    exact ih hrest (before ++ [x]) (hstep before init next x hbefore hfirst)

end Encoding

def Refusal.Only (H : Halt → Prop) : Refusal → Prop
  | .fault _ => True
  | .halt reason => H reason

namespace Outcome

variable {α : Type} {P : α → Prop} {E : Refusal → Prop}

theorem ends_ofFault {x : Except Fault α} (h : ∀ value, x = .ok value → P value)
    (hfault : ∀ fault, x = .error fault → E (.fault fault)) : Ends P E (Refusal.ofFault x) := by
  cases x with
  | ok value => exact h value rfl
  | error fault => exact hfault fault rfl

theorem ends_ofNumeral {x : Except NumeralFault α} (h : ∀ value, x = .ok value → P value)
    (hfault : ∀ fault, x = .error fault → E (.halt (.numeral fault))) :
    Ends P E (Refusal.ofNumeral x) := by
  cases x with
  | ok value => exact h value rfl
  | error fault => exact hfault fault rfl

theorem ends_ofRepeat {x : Except RepeatFault α} (h : ∀ value, x = .ok value → P value)
    (hfault : ∀ fault, x = .error fault → E (.halt (.repetition fault))) :
    Ends P E (Refusal.ofRepeat x) := by
  cases x with
  | ok value => exact h value rfl
  | error fault => exact hfault fault rfl

end Outcome

namespace Encoding

variable {α β σ : Type} {P : α → Prop} {Q : β → Prop} {H : Halt → Prop}

/-- The result, at fault or not, is one of `P`, and the encoding halts only for a reason of `H`. -/
def Ends (P : α → Prop) (H : Halt → Prop) (x : Encoding α) : Prop :=
  Outcome.Ends P (Refusal.Only H) x.outcome.value

theorem ends_pure (h : P value) : Ends P H (pure value) := h

theorem ends_fault (fault : Fault) : Ends P H (throw (.fault fault) : Encoding α) := trivial

theorem Ends.bind {x : Encoding α} {f : α → Encoding β} (h : Ends P H x)
    (hf : ∀ value, P value → Ends Q H (f value)) : Ends Q H (x >>= f) := by
  obtain ⟨value, remarks⟩ := x
  cases value with
  | ok value => exact hf value h
  | error refusal => exact h

theorem ends_ofExcept {x : Except Fault α} (h : ∀ value, x = .ok value → P value) :
    Ends P H (ofExcept x) := by
  cases x with
  | ok value => exact h value rfl
  | error fault => trivial

theorem ends_ofNumeral {x : Except NumeralFault α} (h : ∀ value, x = .ok value → P value)
    (hfault : ∀ fault, x = .error fault → H (.numeral fault)) : Ends P H (ofNumeral x) := by
  cases x with
  | ok value => exact h value rfl
  | error fault => exact hfault fault rfl

theorem ends_ofNoted {x : Noted Remark α} (h : P x.value) : Ends P H (ofNoted x) := h

theorem ends_ofPart {P : Text → Prop} {x : Except Refusal (Noted Remark Text)}
    (h : Outcome.Ends (fun part => P part.value) (Refusal.Only H) x)
    (hfault : ∀ fault : Fault, P fault.placeholder) : Ends P H (ofPart x) := by
  cases x with
  | ok part => exact h
  | error refusal =>
    cases refusal with
    | fault fault => exact hfault fault
    | halt reason => exact h

theorem ends_foldlM {I : σ → Prop} {f : σ → α → Encoding σ} {xs : List α} (hinit : I init)
    (hstep : ∀ state, ∀ x ∈ xs, I state → Ends I H (f state x)) : Ends I H (xs.foldlM f init) :=
  Outcome.holds_foldlM (fun _ => ends_pure) (fun _ _ => Ends.bind) hinit hstep

theorem Ends.bind_congr {x : Encoding α} {f g : α → Encoding β} (h : Ends P H x)
    (hfg : ∀ value, P value → f value = g value) : x >>= f = x >>= g := by
  obtain ⟨value, remarks⟩ := x
  cases value with
  | ok value =>
    show (⟨(f value).outcome.value, remarks ++ (f value).outcome.notes⟩ : Noted Remark _) =
      ⟨(g value).outcome.value, remarks ++ (g value).outcome.notes⟩
    rw [hfg value h]
  | error refusal => rfl

end Encoding

end InfinityScript
