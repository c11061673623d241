import InfinityScript.Noted

/-!
# Messages by line

What a list of messages says about a line is the last of its messages about that line.
-/

namespace InfinityScript.Diagnostics

def about (line : Int) (messages : List (Int × Text)) : List Text :=
  messages.filterMap fun message => if message.1 = line then some message.2 else none

theorem about_append (line : Int) (a b : List (Int × Text)) :
    about line (a ++ b) = about line a ++ about line b := List.filterMap_append

theorem about_eq_nil (h : ∀ message ∈ messages, message.1 ≠ line) : about line messages = [] := by
  rw [about, List.filterMap_eq_nil_iff]
  intro message hm
  rw [if_neg (h message hm)]

theorem getElem?_foldl_insert (line : Int) (messages : List (Int × Text)) (d : Diagnostics) :
    (messages.foldl (fun diagnostics (n, text) => diagnostics.insert n text) d)[line]? =
      (about line messages).getLast?.or d[line]? := by
  induction messages generalizing d with
  | nil => rfl
  | cons message messages ih =>
    obtain ⟨n, text⟩ := message
    rw [List.foldl_cons, ih, Std.TreeMap.getElem?_insert]
    by_cases h : n = line
    · simp [about, h, List.getLast?_cons]
    · simp [about, h]

theorem getElem?_ofList (messages : List (Int × Text)) (line : Int) :
    (ofList messages)[line]? = (about line messages).getLast? := by
  rw [ofList, getElem?_foldl_insert]
  simp

theorem eq_nil_of_isEmpty_ofList {messages : List (Int × Text)}
    (h : (ofList messages).isEmpty) : messages = [] := by
  cases messages with
  | nil => rfl
  | cons message messages =>
    have hnone := Std.TreeMap.getElem?_of_isEmpty (a := message.1) h
    simp [getElem?_ofList, about] at hnone

end InfinityScript.Diagnostics
