import Std.Data.TreeMap
import InfinityScript.Text.Basic

/-!
# Results with notes

A computation that carries on and leaves notes on its way: remarks about a
statement, resources a record uses, lines that were skipped. Notes that are
messages about lines become diagnostics, of which the last about a line stays.
-/

namespace InfinityScript

/-- A value together with the notes made on the way to it, in order. -/
structure Noted (ν α : Type) where
  value : α
  notes : List ν := []
  deriving Repr

namespace Noted

variable {ν α β : Type}

def bind (x : Noted ν α) (f : α → Noted ν β) : Noted ν β :=
  ⟨(f x.value).value, x.notes ++ (f x.value).notes⟩

instance : Monad (Noted ν) where
  pure value := ⟨value, []⟩
  bind := bind

instance : LawfulMonad (Noted ν) := LawfulMonad.mk' _
  (fun x => by simp [Functor.map, bind])
  (fun _ _ => by simp [Bind.bind, Pure.pure, bind])
  (fun _ _ _ => by simp [Bind.bind, bind])

@[simp] theorem value_pure (a : α) : (pure a : Noted ν α).value = a := rfl
@[simp] theorem notes_pure (a : α) : (pure a : Noted ν α).notes = [] := rfl

@[simp] theorem value_bind (x : Noted ν α) (f : α → Noted ν β) :
    (x >>= f).value = (f x.value).value := rfl

@[simp] theorem notes_bind (x : Noted ν α) (f : α → Noted ν β) :
    (x >>= f).notes = x.notes ++ (f x.value).notes := rfl

@[simp] theorem value_map (f : α → β) (x : Noted ν α) : (f <$> x).value = f x.value := rfl

@[simp] theorem notes_map (f : α → β) (x : Noted ν α) : (f <$> x).notes = x.notes :=
  List.append_nil _

theorem value_foldlM (f : α → β → Noted ν α) (xs : List β) (a : α) :
    (xs.foldlM f a).value = xs.foldl (fun a x => (f a x).value) a := by
  induction xs generalizing a with
  | nil => rfl
  | cons x xs ih => rw [List.foldlM_cons, value_bind, ih, List.foldl_cons]

theorem value_mapM (f : α → Noted ν β) (xs : List α) :
    (xs.mapM f).value = xs.map fun x => (f x).value := by
  induction xs with
  | nil => rfl
  | cons x xs ih => rw [List.mapM_cons, value_bind, value_bind, ih, value_pure, List.map_cons]

def note (n : ν) : Noted ν Unit := ⟨(), [n]⟩

@[simp] theorem notes_note (n : ν) : (note n).notes = [n] := rfl

end Noted

/-- A computation that may fail for a reason in `ε`; notes made before a failure
stay. -/
abbrev NotedT (ε ν : Type) := ExceptT ε (Noted ν)

namespace NotedT

variable {ε ν α : Type}

def outcome (x : NotedT ε ν α) : Noted ν (Except ε α) := x.run

def note (n : ν) : NotedT ε ν Unit := ExceptT.lift (Noted.note n)

end NotedT

abbrev Diagnostics := Std.TreeMap Int Text

namespace Diagnostics

def ofList (messages : List (Int × Text)) : Diagnostics :=
  messages.foldl (fun diagnostics (line, message) => diagnostics.insert line message) ∅

end Diagnostics

end InfinityScript
