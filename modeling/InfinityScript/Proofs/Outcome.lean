/-!
# Outcomes

When a computation that may fail has a result, read off its last step; and what it ends
in, be it a result or an error (`Outcome.Ends`).
-/

namespace InfinityScript.Outcome

theorem bind_ok {x : Except ε α} {f : α → Except ε β} {b : β} :
    (x >>= f) = .ok b ↔ ∃ a, x = .ok a ∧ f a = .ok b := by
  cases x <;> simp [Bind.bind, Except.bind]

theorem pure_ok {a b : α} : (pure a : Except ε α) = .ok b ↔ a = b := by
  simp [pure, Except.pure]

theorem mapError_ok {f : ε → ε'} {x : Except ε α} {a : α} :
    x.mapError f = .ok a ↔ x = .ok a := by
  cases x with
  | error e => constructor <;> intro h <;> cases h
  | ok b =>
    change Except.ok b = Except.ok a ↔ _
    simp

theorem map_ok {f : α → β} {x : Except ε α} {b : β} :
    f <$> x = .ok b ↔ ∃ a, x = .ok a ∧ f a = b := by
  cases x <;> simp [Functor.map, Except.map]

theorem discard_ok {x : Except ε α} {u : Unit} : discard x = .ok u ↔ ∃ a, x = .ok a := by
  cases x <;> simp [discard, Functor.discard, Functor.mapConst, Except.map]

theorem mapM_ok {f : α → Except ε β} {xs : List α} {ys : List β} :
    xs.mapM f = .ok ys ↔ xs.map f = ys.map .ok := by
  induction xs generalizing ys with
  | nil =>
    rw [List.mapM_nil, pure_ok]
    cases ys <;> simp
  | cons x xs ih =>
    simp only [List.mapM_cons, bind_ok, pure_ok, List.map_cons, ih]
    cases ys with
    | nil => simp
    | cons y ys =>
      constructor
      · rintro ⟨_, hx, _, hxs, hys⟩
        cases hys
        rw [hx, hxs, List.map_cons]
      · intro h
        exact ⟨y, (List.cons.inj h).1, ys, (List.cons.inj h).2, rfl⟩

theorem mem_mapM_ok {f : α → Except ε β} {xs : List α} (h : xs.mapM f = .ok ys) (hx : x ∈ xs) :
    ∃ y ∈ ys, f x = .ok y := by
  have hmem : f x ∈ xs.map f := List.mem_map_of_mem hx
  rw [mapM_ok.mp h] at hmem
  obtain ⟨y, hy, heq⟩ := List.mem_map.mp hmem
  exact ⟨y, hy, heq.symm⟩

theorem exists_of_mem_mapM {f : α → Except ε β} {xs : List α} (h : xs.mapM f = .ok ys)
    (hy : y ∈ ys) :
    ∃ x ∈ xs, f x = .ok y := by
  have hmem : .ok y ∈ ys.map (.ok : β → Except ε β) := List.mem_map_of_mem hy
  rw [← mapM_ok.mp h] at hmem
  exact List.mem_map.mp hmem

theorem exists_pairs_of_mapM {f : α → Except ε β} {key : α → γ} {shown : δ → β}
    {P : γ × δ → Prop} {xs : List α} (h : xs.mapM f = .ok ys)
    (hf : ∀ x ∈ xs, ∀ y, f x = .ok y → ∃ found, P (key x, found) ∧ y = shown found) :
    ∃ pairs : List (γ × δ), (∀ pair ∈ pairs, P pair) ∧ pairs.map Prod.fst = xs.map key ∧
      ys = (pairs.map Prod.snd).map shown := by
  induction xs generalizing ys with
  | nil => exact ⟨[], by simp, rfl, (pure_ok.mp h).symm⟩
  | cons x xs ih =>
    rw [List.mapM_cons] at h
    obtain ⟨y, hy, h⟩ := bind_ok.mp h
    obtain ⟨others, hothers, h⟩ := bind_ok.mp h
    obtain rfl := pure_ok.mp h
    obtain ⟨pairs, hpairs, hkeys, rfl⟩ := ih hothers fun x hx => hf x (by simp [hx])
    obtain ⟨found, hfound, rfl⟩ := hf x (by simp) y hy
    exact ⟨(key x, found) :: pairs, List.forall_mem_cons.mpr ⟨hfound, hpairs⟩, by simp [hkeys], rfl⟩

theorem mapM_error {f : α → Except ε β} {xs : List α} (h : xs.mapM f = .error e) :
    ∃ x ∈ xs, f x = .error e := by
  induction xs with
  | nil => cases h
  | cons x xs ih =>
    rw [List.mapM_cons] at h
    cases hx : f x with
    | error e' =>
      rw [hx] at h
      cases h
      exact ⟨x, by simp, hx⟩
    | ok y =>
      rw [hx] at h
      cases hxs : xs.mapM f with
      | error e' =>
        rw [hxs] at h
        cases h
        obtain ⟨x', hmem, hx'⟩ := ih hxs
        exact ⟨x', by simp [hmem], hx'⟩
      | ok ys =>
        rw [hxs] at h
        cases h

theorem isOk_iff {x : Except ε α} : x.isOk ↔ ∃ a, x = .ok a := by
  cases x <;> simp [Except.isOk, Except.toBool]

theorem exists_of_any {x : Except ε α} {p : α → Bool} (h : x.toOption.any p) :
    ∃ a, x = .ok a ∧ p a := by
  cases x with
  | error e => cases h
  | ok a => exact ⟨a, rfl, h⟩

theorem eq_error_of_map {x : Except ε α} (h : x.map (fun _ => ()) = .error e) : x = .error e := by
  cases x with
  | error e' => exact congrArg Except.error (Except.error.inj h)
  | ok a => cases h

def Ends (P : α → Prop) (E : ε → Prop) : Except ε α → Prop
  | .ok value => P value
  | .error error => E error

namespace Ends

variable {P P' : α → Prop} {Q : β → Prop} {E E' : ε → Prop} {x : Except ε α}

theorem mono (h : Ends P E x) (hP : ∀ value, P value → P' value)
    (hE : ∀ error, E error → E' error) : Ends P' E' x := by
  cases x with
  | ok value => exact hP value h
  | error error => exact hE error h

theorem bind {f : α → Except ε β} (h : Ends P E x) (hf : ∀ value, P value → Ends Q E (f value)) :
    Ends Q E (x >>= f) := by
  cases x with
  | ok value => exact hf value h
  | error error => exact h

theorem of_ok (h : Ends P E x) (hx : x = .ok value) : P value := by
  subst hx
  exact h

theorem of_error (h : Ends P E x) (hx : x = .error error) : E error := by
  subst hx
  exact h

theorem isOk (h : Ends P E x) (hE : ∀ error, ¬ E error) : x.isOk := by
  cases x with
  | ok value => rfl
  | error error => exact absurd h (hE error)

end Ends

theorem ends_mapM {P : β → Prop} {E : ε → Prop} {f : α → Except ε β} {xs : List α}
    (h : ∀ x ∈ xs, Ends P E (f x)) : Ends (fun ys => ∀ y ∈ ys, P y) E (xs.mapM f) := by
  cases hxs : xs.mapM f with
  | ok ys =>
    intro y hy
    obtain ⟨x, hx, hfx⟩ := exists_of_mem_mapM hxs hy
    have hends := h x hx
    rwa [hfx] at hends
  | error e =>
    obtain ⟨x, hx, hfx⟩ := mapM_error hxs
    have hends := h x hx
    rwa [hfx] at hends

/-- What each step of a fold preserves, the fold preserves: `W` says of a computation that it
ends in a state of `I`, if it ends in one. -/
theorem holds_foldlM {m : Type → Type} [Monad m] {σ α : Type} {W : m σ → Prop} {I : σ → Prop}
    {f : σ → α → m σ} {xs : List α} {init : σ} (hpure : ∀ state, I state → W (pure state))
    (hbind : ∀ x f, W x → (∀ state, I state → W (f state)) → W (x >>= f)) (hinit : I init)
    (hstep : ∀ state, ∀ x ∈ xs, I state → W (f state x)) : W (xs.foldlM f init) := by
  induction xs generalizing init with
  | nil => exact hpure init hinit
  | cons x xs ih =>
    rw [List.foldlM_cons]
    exact hbind _ _ (hstep init x (by simp) hinit) fun next hnext =>
      ih hnext fun state y hy => hstep state y (by simp [hy])

theorem ends_foldlM {σ α ε : Type} {I : σ → Prop} {E : ε → Prop} {f : σ → α → Except ε σ}
    {xs : List α} {init : σ} (hinit : I init)
    (hstep : ∀ state, ∀ x ∈ xs, I state → Ends I E (f state x)) :
    Ends I E (xs.foldlM f init) :=
  holds_foldlM (fun _ h => h) (fun _ _ => Ends.bind) hinit hstep

end InfinityScript.Outcome
