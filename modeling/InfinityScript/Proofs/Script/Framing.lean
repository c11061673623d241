import InfinityScript.Proofs.Script.Containment
import InfinityScript.Proofs.Script.Faultless

/-!
# Blocks in the code

A complete block stands in the code between its own markers, whatever is at fault in it:
every statement has a record or a placeholder there. The markers hold as long as what
stands for a statement is tidy (`Tidy`), that is, opens no bracket that it does not close and
has no marker of the section around it. Then a script is compiled to the codes of its
blocks, and each of them is decompiled as by itself (`decompile_compile_blocks`).
-/

namespace InfinityScript

open Reader

-- --------------------
-- Words glued to a text
-- --------------------

/-- A word of letters, too long for the character before it to make a marker of it. The weight
of a response has no blank after it, and such a word follows it. -/
structure IsFollower (g : Text) : Prop where
  long : 2 ≤ g.length
  joins : ∀ x ∈ g, Lexeme.joinsMarker x
  isWordChar : ∀ x ∈ g, Lexeme.isWordChar x
  isDecimalDigit : ∀ x ∈ g, Text.isDecimalDigit x = false

instance : Decidable (IsFollower g) :=
  decidable_of_iff (_ ∧ _ ∧ _ ∧ _) ⟨fun ⟨long, joins, word, digit⟩ => ⟨long, joins, word, digit⟩,
    fun ⟨long, joins, word, digit⟩ => ⟨long, joins, word, digit⟩⟩

theorem takeWhile_append_follower {p : α → Bool} {g : List α} (hg : g ≠ [])
    (h : ∀ x ∈ g, p x = false) (a b : List α) :
    (a ++ (g ++ b)).takeWhile p = a.takeWhile p := by
  cases g with
  | nil => exact absurd rfl hg
  | cons x g => exact takeWhile_append_stop (h x (by simp)) a (g ++ b)

theorem takeWhile_append_of_mem {p : α → Bool} {a : List α} (h : ∃ x ∈ a, p x = false)
    (b : List α) : (a ++ b).takeWhile p = a.takeWhile p := by
  obtain ⟨x, hx, hstop⟩ := h
  obtain ⟨before, after, rfl⟩ := List.append_of_mem hx
  rw [List.append_assoc, List.cons_append, takeWhile_append_stop hstop, takeWhile_append_stop hstop]

theorem Lexeme.isWordChar_of_ofCode? (h : Marker.ofCode? [x, d] = some m) : isWordChar d := by
  obtain ⟨a, b, hcode, -, hb, -⟩ := m.code_letters
  have hsame : m.code = [x, d] := by simpa [Marker.ofCode?] using List.find?_some h
  rw [hcode] at hsame
  cases hsame
  exact hb

theorem IsFollower.exists_cons (hg : IsFollower g) : ∃ y z g', g = y :: z :: g' := by
  match g, hg.long with
  | y :: z :: g', _ => exact ⟨y, z, g', rfl⟩

theorem Lexeme.numeral?_follower (hg : IsFollower g) (x : Char) (a b : Text) :
    numeral? x (a ++ (g ++ b)) = numeral? x (a ++ ['\n']) := by
  obtain ⟨y, z, g', rfl⟩ := hg.exists_cons
  have hblank : Text.isDecimalDigit '\n' = false := by decide
  simp only [numeral?, takeWhile_append_follower (List.cons_ne_nil _ _) hg.isDecimalDigit,
    takeWhile_append_stop hblank]

/-- A marker that ends right before a follower is lost to it, and no other is. -/
theorem Lexeme.marker?_follower (hg : IsFollower g) (x : Char) (a b : Text) :
    marker? x (a ++ (g ++ b)) = marker? x (a ++ ['\n']) ∨
      marker? x (a ++ (g ++ b)) = none ∧ ∀ d ∈ a, isWordChar d := by
  obtain ⟨y, z, g', rfl⟩ := hg.exists_cons
  match a with
  | [] => exact .inr ⟨by simp [marker?, hg.joins z (by simp)], by simp⟩
  | [d] =>
    have hlost : marker? x ([d] ++ (y :: z :: g' ++ b)) = none := by
      simp [marker?, hg.joins y (by simp)]
    cases hcode : Marker.ofCode? [x, d] with
    | none => exact .inl (by simp [marker?, hcode])
    | some m => exact .inr ⟨hlost, by simpa using isWordChar_of_ofCode? hcode⟩
  | d :: e :: a => exact .inl rfl

theorem Lexeme.read_follower_of_isWordChar (hc : Text.isBlank c) (hg : IsFollower g)
    (hx : isWordChar x) :
    read x (a ++ (g ++ [c])) = read x (a ++ ['\n']) ∨
      read x (a ++ (g ++ [c])) = (some (.word (x :: (a ++ g))), (a ++ g).length) := by
  have hnumeral := numeral?_follower hg x a [c]
  cases hn : numeral? x (a ++ ['\n']) with
  | some numeral =>
    rw [read_number hx (hnumeral.trans hn), read_number hx hn]
    exact .inl rfl
  | none =>
    have hn' := hnumeral.trans hn
    have hglued (hm : marker? x (a ++ (g ++ [c])) = none) (hall : ∀ d ∈ a, isWordChar d) :
        read x (a ++ (g ++ [c])) = (some (.word (x :: (a ++ g))), (a ++ g).length) := by
      have hall' : ∀ d ∈ a ++ g, isWordChar d := fun d hd =>
        (List.mem_append.mp hd).elim (hall d) (hg.isWordChar d)
      rw [read_word hx hn' hm, ← List.append_assoc,
        takeWhile_append_rest hall' (by simpa using isWordChar_eq_false_of_isBlank hc)]
    rcases marker?_follower hg x a [c] with hsame | ⟨hm, hall⟩
    · cases hm : marker? x (a ++ ['\n']) with
      | some m =>
        rw [read_marker hx hn' (hsame.trans hm), read_marker hx hn hm]
        exact .inl rfl
      | none =>
        by_cases hall : ∀ d ∈ a, isWordChar d
        · exact .inr (hglued (hsame.trans hm) hall)
        · have htake := takeWhile_append_of_mem (p := isWordChar) (a := a) (by simpa using hall)
          rw [read_word hx hn' (hsame.trans hm), read_word hx hn hm, htake, htake]
          exact .inl rfl
    · exact .inr (hglued hm hall)

/-- What a character begins before a follower is what it begins before a blank, or the
follower is glued to it. -/
theorem Lexeme.read_follower (hc : Text.isBlank c) (hg : IsFollower g) (hx : Text.isBlank x = false)
    (hquote : x = '"' → '"' ∈ a) (hopen : x = '[' → ']' ∈ a) :
    (read x (a ++ (g ++ [c])) = read x (a ++ ['\n']) ∧ (read x (a ++ ['\n'])).2 ≤ a.length) ∨
      read x (a ++ (g ++ [c])) = (some (.word (x :: (a ++ g))), (a ++ g).length) := by
  have hwithin : (read x (a ++ ['\n'])).2 ≤ a.length :=
    (read_append (b := []) (by decide) hx (.inl ∘ hquote) (.inl ∘ hopen)).2
  by_cases hq : x = '"'
  · subst hq
    obtain ⟨body, -, hbody⟩ := bracketed?_of_mem (hquote rfl)
    exact .inl ⟨by rw [read_string (hbody _), read_string (hbody _)], hwithin⟩
  by_cases ho : x = '['
  · subst ho
    obtain ⟨body, -, hbody⟩ := bracketed?_of_mem (hopen rfl)
    exact .inl ⟨by rw [read_coordinate (hbody _), read_coordinate (hbody _)], hwithin⟩
  by_cases hcl : x = ']'
  · subst hcl
    exact .inl ⟨by rw [read_closing, read_closing], hwithin⟩
  exact (read_follower_of_isWordChar hc hg (isWordChar_iff.mpr ⟨hx, hq, ho, hcl⟩)).imp_left
    fun hread => ⟨hread, hwithin⟩

theorem mem_pieces_follower (hc : Text.isBlank c) (hg : IsFollower g) (a : Text)
    (h : ¬ LeavesOpen (a ++ ['\n'])) (hp : p ∈ pieces (a ++ (g ++ [c]))) :
    p ∈ pieces (a ++ ['\n']) ∨ p ∈ pieces (g ++ [c]) ∨
      ∃ x y shown, p.1 = .word (x :: y :: shown) := by
  induction hlen : a.length using Nat.strongRecOn generalizing a with
  | ind n ih =>
    subst hlen
    cases a with
    | nil => exact .inr (.inl hp)
    | cons x a =>
      cases hx : Text.isBlank x with
      | true =>
        rw [List.cons_append, pieces_blank hx] at hp
        rw [LeavesOpen, List.cons_append, pieces_blank hx] at h
        rw [List.cons_append, pieces_blank hx]
        exact ih a.length (by simp) a h hp rfl
      | false =>
        have hquote : x = '"' → '"' ∈ a := by
          rintro rfl
          simpa using closed_of_not_leavesOpen_quote h
        have hopen : x = '[' → ']' ∈ a := by
          rintro rfl
          simpa using closed_of_not_leavesOpen_bracket h
        rcases Lexeme.read_follower hc hg hx hquote hopen with ⟨hread, hextra⟩ | hread
        · rcases hr : Lexeme.read x (a ++ ['\n']) with ⟨_ | lexeme, extra⟩
          all_goals rw [hr] at hread hextra
          · rw [List.cons_append, pieces_none hread, List.drop_append_of_le_length hextra] at hp
            rw [LeavesOpen, List.cons_append, pieces_none hr,
              List.drop_append_of_le_length hextra] at h
            rw [List.cons_append, pieces_none hr, List.drop_append_of_le_length hextra]
            exact ih _ (by simp only [List.length_drop, List.length_cons]; omega) _ h hp rfl
          · rw [List.cons_append, pieces_some hread, List.drop_append_of_le_length hextra,
              List.take_append_of_le_length hextra] at hp
            rw [LeavesOpen, List.cons_append, pieces_some hr,
              List.drop_append_of_le_length hextra] at h
            rw [List.cons_append, pieces_some hr, List.drop_append_of_le_length hextra,
              List.take_append_of_le_length hextra]
            have hafter : ¬ LeavesOpen (a.drop extra ++ ['\n']) := by
              rintro ⟨piece, hmem, hpiece⟩
              exact h ⟨piece, List.mem_cons_of_mem _ hmem, hpiece⟩
            rcases List.mem_cons.mp hp with rfl | hp
            · exact .inl List.mem_cons_self
            · exact (ih _ (by simp only [List.length_drop, List.length_cons]; omega) _ hafter hp
                rfl).imp_left (List.mem_cons_of_mem _)
        · rw [List.cons_append, pieces_some hread, ← List.append_assoc, List.drop_left,
            pieces_blank hc, pieces_nil, List.mem_singleton] at hp
          obtain ⟨y, z, g', rfl⟩ := hg.exists_cons
          cases a with
          | nil => exact .inr (.inr ⟨x, y, _, congrArg Prod.fst hp⟩)
          | cons d a => exact .inr (.inr ⟨x, d, _, congrArg Prod.fst hp⟩)

theorem not_leavesOpen_follower (hc : Text.isBlank c) (hg : IsFollower g)
    (hopen : ¬ LeavesOpen (g ++ [c])) (h : ¬ LeavesOpen (a ++ ['\n'])) :
    ¬ LeavesOpen (a ++ (g ++ [c])) := by
  rintro ⟨p, hp, hword⟩
  rcases mem_pieces_follower hc hg a h hp with hp | hp | ⟨x, y, shown, hp⟩
  · exact h ⟨p, hp, hword⟩
  · exact hopen ⟨p, hp, hword⟩
  · rw [hp] at hword
    simp at hword

-- --------------------
-- Texts that keep to themselves
-- --------------------

/-- The text leaves no bracket open, and its lexemes are as they should be. -/
def Tidy (P : List Lexeme → Prop) (text : Text) : Prop :=
  .word ['"'] ∉ (tokenize text).map Token.lexeme ∧ .word ['['] ∉ (tokenize text).map Token.lexeme ∧
    P ((tokenize text).map Token.lexeme)

instance [DecidablePred P] : Decidable (Tidy P text) :=
  inferInstanceAs (Decidable (_ ∧ _ ∧ _))

def IsConditionBody (ls : List Lexeme) : Prop :=
  .marker .condition ∉ ls ∧ .marker .block ∉ ls ∧ ls.count (.marker .trigger) % 2 = 0

def IsResponseBody (ls : List Lexeme) : Prop :=
  .marker .responseSet ∉ ls ∧ .marker .block ∉ ls

instance : DecidablePred IsConditionBody := fun _ => inferInstanceAs (Decidable (_ ∧ _ ∧ _))

instance : DecidablePred IsResponseBody := fun _ => inferInstanceAs (Decidable (_ ∧ _))

theorem IsConditionBody.append (ha : IsConditionBody a) (hb : IsConditionBody b) :
    IsConditionBody (a ++ b) := by
  refine ⟨by simp [ha.1, hb.1], by simp [ha.2.1, hb.2.1], ?_⟩
  rw [List.count_append, Nat.add_mod, ha.2.2, hb.2.2]

theorem IsResponseBody.append (ha : IsResponseBody a) (hb : IsResponseBody b) :
    IsResponseBody (a ++ b) := by
  refine ⟨by simp [ha.1, hb.1], by simp [ha.2, hb.2]⟩

/-- The lexemes of the text are as they should be whatever comes after it. -/
def Divides (P : List Lexeme → Prop) (text : Text) : Prop :=
  Splits text (pieces text) ∧ P (lexemes text)

theorem Splits.divides (h : Splits text ps) (hp : P (ps.map Prod.fst)) : Divides P text := by
  refine ⟨h.pieces_eq.symm ▸ h, ?_⟩
  rwa [lexemes, h.pieces_eq]

theorem divides_nil (h : P []) : Divides P [] :=
  ⟨fun _ => by simp, by simpa [lexemes] using h⟩

theorem Divides.append {P : List Lexeme → Prop} (hP : ∀ {a b}, P a → P b → P (a ++ b))
    (ha : Divides P a) (hb : Divides P b) : Divides P (a ++ b) :=
  (ha.1.append hb.1).divides (by rw [List.map_append]; exact hP ha.2 hb.2)

theorem not_leavesOpen_iff :
    ¬ LeavesOpen text ↔ .word ['"'] ∉ lexemes text ∧ .word ['['] ∉ lexemes text := by
  simp only [LeavesOpen, lexemes, List.mem_map, not_exists, not_and, not_or]
  exact ⟨fun h => ⟨fun p hp => (h p hp).1, fun p hp => (h p hp).2⟩,
    fun h p hp => ⟨h.1 p hp, h.2 p hp⟩⟩

theorem tidy_iff :
    Tidy P text ↔ ¬ LeavesOpen text ∧ P (lexemes text) := by
  rw [Tidy, map_lexeme_tokenize, not_leavesOpen_iff, and_assoc]

theorem Tidy.divides (h : Tidy P (text ++ [c])) (hc : Text.isBlank c) :
    Divides P (text ++ [c]) := by
  obtain ⟨hopen, hp⟩ := tidy_iff.mp h
  refine ⟨fun rest => ?_, hp⟩
  rw [List.append_assoc, List.singleton_append]
  exact pieces_append hc text rest (.inl hopen)

def Follows (P : List Lexeme → Prop) (text : Text) : Prop :=
  ∃ g c rest, text = g ++ [c] ++ rest ∧ IsFollower g ∧ Text.isBlank c ∧ Tidy P (g ++ [c]) ∧
    Divides P rest

theorem Follows.divides {P : List Lexeme → Prop} (hP : ∀ {a b}, P a → P b → P (a ++ b))
    (h : Follows P text) : Divides P text := by
  obtain ⟨g, c, rest, rfl, -, hc, hg, hrest⟩ := h
  exact (hg.divides hc).append hP hrest

/-- What is glued to the word after it is divided from what comes then. -/
theorem Follows.glue (hw : Tidy IsResponseBody (w ++ ['\n'])) (h : Follows IsResponseBody text) :
    Divides IsResponseBody (w ++ text) := by
  obtain ⟨g, c, rest, rfl, hg, hc, htidy, hrest⟩ := h
  obtain ⟨hopen, hbody⟩ := tidy_iff.mp hw
  obtain ⟨hopen', hbody'⟩ := tidy_iff.mp htidy
  have hmarker : ∀ m, .marker m ∉ lexemes (w ++ ['\n']) → .marker m ∉ lexemes (g ++ [c]) →
      .marker m ∉ lexemes (w ++ (g ++ [c])) := by
    intro m h₁ h₂ hmem
    obtain ⟨p, hp, hm⟩ := List.mem_map.mp hmem
    rcases mem_pieces_follower hc hg w hopen hp with hp | hp | ⟨x, y, shown, hword⟩
    · exact h₁ (List.mem_map.mpr ⟨p, hp, hm⟩)
    · exact h₂ (List.mem_map.mpr ⟨p, hp, hm⟩)
    · rw [hword] at hm
      cases hm
  have hglued : Tidy IsResponseBody (w ++ (g ++ [c])) :=
    tidy_iff.mpr ⟨not_leavesOpen_follower hc hg hopen' hopen,
      hmarker _ hbody.1 hbody'.1, hmarker _ hbody.2 hbody'.2⟩
  rw [← List.append_assoc] at hglued
  rw [← List.append_assoc, ← List.append_assoc]
  exact (hglued.divides hc).append .append hrest

-- --------------------
-- Texts of statements
-- --------------------

def Encoding.Yields (P : α → Prop) (x : Encoding α) : Prop := ∀ a, x.outcome.value = .ok a → P a

namespace Encoding

theorem yields_pure (h : P a) : Yields P (pure a) := by
  rintro _ ⟨⟩
  exact h

theorem yields_throw : Yields P (throw refusal) := by
  rintro _ ⟨⟩

theorem yields_bind {x : Encoding α} {f : α → Encoding β} (h : ∀ a, Yields P (f a)) :
    Yields P (x >>= f) := by
  obtain ⟨value, remarks⟩ := x
  cases value with
  | error e => rintro _ ⟨⟩
  | ok a => exact h a

end Encoding

theorem Encoded.text_settle {P : Text → Prop} {ofRecord : α → List Remark → Encoded}
    (h : Encoded.settle encoding ofRecord = .ok encoded)
    (hrecord : encoding.Yields fun record => ∀ remarks, P (ofRecord record remarks).text)
    (hfault : ∀ fault : Fault, P (fault.placeholder ++ "\n")) : P encoded.text := by
  unfold settle at h
  split at h
  · next record remarks houtcome =>
    cases h
    exact hrecord record (by rw [houtcome]) remarks
  · cases h
    exact hfault _
  · cases h

theorem Encoded.text_trigger (h : Encoded.trigger symbols profile line = .ok encoded) :
    ∃ text, encoded.text = text ++ ['\n'] := by
  refine text_settle (P := fun t => ∃ text, t = text ++ ['\n']) h ?_ fun fault => ⟨_, rfl⟩
  refine Encoding.yields_bind fun _ => Encoding.yields_bind fun _ => Encoding.yields_bind fun _ =>
    Encoding.yields_bind fun _ => Encoding.yields_bind fun _ => Encoding.yields_bind fun _ =>
    Encoding.yields_bind fun _ => Encoding.yields_pure fun _ => ?_
  exact ⟨_ ++ "\nTR".toList, (List.append_assoc _ "\nTR".toList ['\n']).symm⟩

/-- The text of an action begins with a word, and is a line or several. -/
def IsActionText (text : Text) : Prop :=
  ∃ g c rest, text = g ++ [c] ++ (rest ++ ['\n']) ∧ IsFollower g ∧ Text.isBlank c ∧
    Tidy IsResponseBody (g ++ [c])

theorem isActionText_placeholder (fault : Fault) : IsActionText (fault.placeholder ++ "\n") :=
  ⟨"Error", ' ', "- " ++ fault.message, rfl, by decide, by decide, by decide +kernel⟩

theorem isActionText_actionLayout (opcode : Int) (objects integers : List Text) (point : Text)
    (strings : List Text) : IsActionText (actionLayout opcode objects integers point strings) := by
  have hlast : ∀ fields : Text, "AC\n".toList ++ fields ++ " AC\n".toList =
      "AC".toList ++ ['\n'] ++ (fields ++ " AC".toList ++ ['\n']) := by
    intro fields
    rw [List.append_assoc, List.append_assoc fields]
    rfl
  exact ⟨"AC", '\n', _, hlast _, by decide, by decide, by decide +kernel⟩

theorem Encoded.text_action (h : Encoded.action symbols profile line = .ok encoded) :
    IsActionText encoded.text := by
  have hcall : ∀ actor entry arguments, (Action.encodeCall symbols profile actor entry
      arguments).Yields IsActionText := by
    intro actor entry arguments
    refine Encoding.yields_bind fun _ => Encoding.yields_bind fun _ => Encoding.yields_bind fun _ =>
      Encoding.yields_bind fun _ => Encoding.yields_bind fun _ => Encoding.yields_pure ?_
    exact isActionText_actionLayout ..
  have hrecord : (Action.encode symbols profile line).Yields IsActionText := by
    refine Encoding.yields_bind fun (name, arguments) => Encoding.yields_bind fun entry => ?_
    dsimp only
    split
    · split
      · exact Encoding.yields_throw
      · exact Encoding.yields_bind fun _ => Encoding.yields_bind fun _ =>
          Encoding.yields_bind fun _ => hcall _ _ _
    · exact hcall _ _ _
  exact text_settle h (fun text htext _ => hrecord text htext) isActionText_placeholder

theorem IsActionText.follows (h : IsActionText text) (htidy : Tidy IsResponseBody text) :
    Follows IsResponseBody text := by
  obtain ⟨g, c, rest, rfl, hg, hc, hword⟩ := h
  refine ⟨g, c, _, rfl, hg, hc, hword, Tidy.divides ?_ (by decide)⟩
  obtain ⟨hopen, hbody⟩ := tidy_iff.mp htidy
  have hpieces := (hword.divides hc).1 (rest ++ ['\n'])
  rw [tidy_iff]
  rw [LeavesOpen, hpieces] at hopen
  rw [lexemes, hpieces, List.map_append] at hbody
  refine ⟨?_, ?_, ?_⟩
  · rintro ⟨p, hp, hword⟩
    exact hopen ⟨p, List.mem_append_right _ hp, hword⟩
  · exact fun hmem => hbody.1 (List.mem_append_right _ hmem)
  · exact fun hmem => hbody.2 (List.mem_append_right _ hmem)

-- --------------------
-- Code of blocks
-- --------------------

def BodyLine.TidyCode : BodyLine Encoded → Prop
  | .response weight => ∀ text ∈ weight, Tidy IsResponseBody (text ++ ['\n'])
  | .action encoded => IsActionText encoded.text ∧ Tidy IsResponseBody encoded.text

namespace Block

structure TidyCode (block : Block Encoded) : Prop where
  trigger : ∀ trigger ∈ block.triggers, (∃ text, trigger.2.text = text ++ ['\n']) ∧
    Tidy IsConditionBody trigger.2.text
  body : ∀ line ∈ block.body, line.2.TidyCode

theorem divides_missingTriggers (n : Int) :
    Divides IsConditionBody ((Fault.missingTriggers n).placeholder ++ "\n") := by
  let last : Text := ' ' :: "trigger(s) in order to match OR()"
  have hlast : Tidy IsConditionBody (last ++ ['\n']) := by decide +kernel
  have hfirst : Tidy IsConditionBody ("Error - Missing".toList ++ [' ']) := by
    decide +kernel
  have hends : EndsNumber (last ++ ['\n']) := by
    intro c hc
    cases hc
    decide
  have hnumber : Divides IsConditionBody (Text.ofInt n ++ (last ++ ['\n'])) := by
    have hlast := hlast.divides (by decide)
    refine (hlast.1.numeral (Text.isNumeral_ofInt n) (by simp) hends).divides ?_
    exact IsConditionBody.append (a := [_]) (by simp [IsConditionBody]) hlast.2
  have htext : ∀ number : Text, "Error - ".toList ++
      ("Missing ".toList ++ number ++ " trigger(s) in order to match OR()".toList) ++ "\n".toList =
      "Error - Missing".toList ++ [' '] ++ (number ++ (last ++ ['\n'])) := by
    intro number
    simp only [List.append_assoc]
    rfl
  exact htext (Text.ofInt n) ▸ (hfirst.divides (by decide)).append .append hnumber

theorem divides_leaveIf (h : Divides IsConditionBody (fault.placeholder ++ "\n")) (present : Bool)
    (line : Nat) : Divides IsConditionBody (Fault.leaveIf present fault line).value := by
  cases present with
  | true => exact h
  | false => exact divides_nil (by decide)

theorem divides_triggerCode {triggers : List (Nat × Encoded)}
    (h : ∀ trigger ∈ triggers, (∃ text, trigger.2.text = text ++ ['\n']) ∧
      Tidy IsConditionBody trigger.2.text) (missing : Int) :
    Divides IsConditionBody (triggerCode missing triggers).value.1 := by
  induction triggers generalizing missing with
  | nil => exact divides_nil (by decide)
  | cons trigger triggers ih =>
    obtain ⟨⟨text, htext⟩, htidy⟩ := h trigger (by simp)
    have hfirst : Divides IsConditionBody trigger.2.text := by
      rw [htext] at htidy ⊢
      exact htidy.divides (by decide)
    have hnested : Tidy IsConditionBody (Fault.nestedOr.placeholder ++ ['\n']) := by
      decide +kernel
    exact (hfirst.append .append (divides_leaveIf (hnested.divides (by decide)) _ _)).append .append
      (ih (fun t ht => h t (by simp [ht])) _)

theorem follows_bodyCode {body : List (Nat × BodyLine Encoded)}
    (h : ∀ line ∈ body, line.2.TidyCode) (first : Bool) :
    Follows IsResponseBody ((bodyCode first body).value ++ "RE\n") := by
  have hresponse : Tidy IsResponseBody ("RE".toList ++ ['\n']) := by decide +kernel
  induction body generalizing first with
  | nil => exact ⟨"RE", '\n', [], rfl, by decide, by decide, hresponse, divides_nil (by decide)⟩
  | cons line body ih =>
    obtain ⟨hline, hbody⟩ := List.forall_mem_cons.mp h
    obtain ⟨number, line⟩ := line
    cases line with
    | response weight =>
      have hglued : Divides IsResponseBody
          ((weightCode number weight).value ++ ((bodyCode false body).value ++ "RE\n".toList)) := by
        cases weight with
        | some weight =>
          have hline : ∀ text ∈ some weight, Tidy IsResponseBody (text ++ ['\n']) := hline
          exact (ih hbody false).glue (hline weight rfl)
        | none =>
          have hmissing : Tidy IsResponseBody (Fault.missingWeight.placeholder ++ ['\n']) := by
            decide +kernel
          exact (hmissing.divides (by decide)).append .append ((ih hbody false).divides .append)
      cases first with
      | true =>
        refine ⟨"RE", '\n', _, ?_, by decide, by decide, hresponse, hglued⟩
        simp [bodyCode]
      | false =>
        refine ⟨"RE", '\n', _, ?_, by decide, by decide, hresponse,
          (hresponse.divides (by decide)).append .append hglued⟩
        simp [bodyCode]
    | action action =>
      have hline : IsActionText action.text ∧ Tidy IsResponseBody action.text := hline
      obtain ⟨g, c, rest, heq, hg, hc, hword, hdivides⟩ := hline.1.follows hline.2
      refine ⟨g, c, _, ?_, hg, hc, hword, hdivides.append .append ((ih hbody first).divides .append)⟩
      simp [bodyCode, Encoded.onLine, heq]

/-- A complete block is closed in the code, whatever stands for its statements. -/
theorem divides_code {block : Block Encoded} (hthen : block.thenLine.isSome)
    (hend : block.endLine.isSome) (h : block.TidyCode) (length : Nat) :
    Divides IsBlock (block.code length).value := by
  obtain ⟨htriggers, hbody⟩ := h
  have hcondition : ∃ text, (block.conditionCode length).value = "CO\n" ++ text ++ "CO\n".toList ∧
      Divides IsConditionBody text := by
    have hopened := divides_leaveIf (divides_missingTriggers (triggerCode 0 block.triggers).value.2)
      (decide ((triggerCode 0 block.triggers).value.2 > 0)) (block.thenLine.getD length - 1)
    refine ⟨_, ?_, (divides_triggerCode htriggers 0).append .append hopened⟩
    have hended : block.thenLine.isNone = false := by simpa using hthen
    simp [conditionCode, hended]
  have hresponse : (block.responseCode length).value =
      "RS\n" ++ ((bodyCode true block.body).value ++ "RE\n".toList) ++ "RS\n".toList := by
    have hended : block.endLine.isNone = false := by simpa using hend
    simp [responseCode, hended]
  obtain ⟨condition, hcode, hcondition⟩ := hcondition
  have hbody := (follows_bodyCode hbody true).divides .append
  generalize (bodyCode true block.body).value ++ "RE\n".toList = body at hresponse hbody
  have hvalue : (block.code length).value =
      (Marker.block.code ++ ['\n']) ++ ((Marker.condition.code ++ ['\n']) ++ condition ++
        (Marker.condition.code ++ ['\n'])) ++ ((Marker.responseSet.code ++ ['\n']) ++ body ++
        (Marker.responseSet.code ++ ['\n'])) ++ (Marker.block.code ++ ['\n']) := by
    show "CR\n".toList ++ (block.conditionCode length).value ++ (block.responseCode length).value ++
      "CR\n".toList = _
    rw [hcode, hresponse]
    rfl
  rw [hvalue]
  refine ((((splits_marker .block).append (((splits_marker .condition).append hcondition.1).append
    (splits_marker .condition))).append (((splits_marker .responseSet).append hbody.1).append
    (splits_marker .responseSet))).append (splits_marker .block)).divides ?_
  refine ⟨.marker .condition :: (lexemes condition ++ .marker .condition ::
    .marker .responseSet :: (lexemes body ++ [.marker .responseSet])), ?_, ?_, ?_⟩
  · simp [lexemes]
  · simp [hcondition.2.2.1, hbody.2.2]
  · exact .condition hcondition.2.1 hcondition.2.2.2 (.responseSet hbody.2.1 .nil)

end Block

-- --------------------
-- Sources of several blocks
-- --------------------

theorem Line.upTo_append_of_isSome {word : Text} {lines : List Line}
    (h : (Line.upTo word lines).2.1.isSome) (rest : List Line) :
    Line.upTo word (lines ++ rest) =
      ((Line.upTo word lines).1, (Line.upTo word lines).2.1, (Line.upTo word lines).2.2 ++ rest) := by
  induction lines with
  | nil => cases h
  | cons line lines ih =>
    rw [List.cons_append, Line.upTo, Line.upTo]
    split
    · rfl
    · next hline =>
      rw [Line.upTo, if_neg hline] at h
      rw [ih h]

def Block.IsComplete (block : Block σ) : Prop := block.thenLine.isSome ∧ block.endLine.isSome

instance {block : Block σ} : Decidable block.IsComplete := inferInstanceAs (Decidable (_ ∧ _))

namespace Outline

theorem readBlock_append {lines : List Line} (h : (readBlock lines).1.IsComplete) (rest : List Line) :
    readBlock (lines ++ rest) = ((readBlock lines).1, (readBlock lines).2 ++ rest) := by
  obtain ⟨hthen, hend⟩ := h
  simp only [readBlock] at hthen hend ⊢
  rw [Line.upTo_append_of_isSome hthen, Line.upTo_append_of_isSome hend]

theorem eq_nil_of_ofLines (h : ofLines lines = ⟨[], none⟩) : lines = [] := by
  cases lines with
  | nil => rfl
  | cons line lines =>
    rw [ofLines] at h
    split at h
    · cases h
    · cases (Outline.mk.inj h).1

theorem ofLines_append {lines : List Line} (h : ofLines lines = ⟨[block], none⟩)
    (hcomplete : block.IsComplete) (rest : List Line) :
    ofLines (lines ++ rest) = ⟨block :: (ofLines rest).blocks, (ofLines rest).stray⟩ := by
  cases lines with
  | nil => rw [ofLines] at h; cases h
  | cons line lines =>
    rw [ofLines] at h
    split at h
    · cases h
    · next hline =>
      obtain ⟨hblocks, hstray⟩ := Outline.mk.inj h
      obtain ⟨hblock, hnone⟩ := List.cons.inj hblocks
      subst hblock
      have hleft : (readBlock lines).2 = [] :=
        eq_nil_of_ofLines (Outline.mk.injEq .. ▸ ⟨hnone, hstray⟩)
      rw [List.cons_append, ofLines, if_neg hline, readBlock_append hcomplete, hleft]
      rfl

end Outline

def BodyLine.Tidy (symbols : Symbols) (profile : Profile) : BodyLine Text → Prop
  | .response weight => ∀ text ∈ weight, InfinityScript.Tidy IsResponseBody (text ++ ['\n'])
  | .action statement => ∀ encoded ∈ (Encoded.action symbols profile statement).toOption,
    InfinityScript.Tidy IsResponseBody encoded.text

structure Block.Tidy (symbols : Symbols) (profile : Profile) (block : Block Text) : Prop where
  trigger : ∀ trigger ∈ block.triggers,
    ∀ encoded ∈ (Encoded.trigger symbols profile trigger.2).toOption,
      InfinityScript.Tidy IsConditionBody encoded.text
  body : ∀ line ∈ block.body, line.2.Tidy symbols profile

instance {line : BodyLine Text} : Decidable (line.Tidy symbols profile) :=
  match line with
  | .response weight => inferInstanceAs (Decidable (∀ text ∈ weight, _))
  | .action statement =>
    inferInstanceAs (Decidable (∀ encoded ∈ (Encoded.action symbols profile statement).toOption, _))

instance {block : Block Text} : Decidable (block.Tidy symbols profile) :=
  decidable_of_iff (_ ∧ _) ⟨fun ⟨trigger, body⟩ => ⟨trigger, body⟩,
    fun ⟨trigger, body⟩ => ⟨trigger, body⟩⟩

theorem BodyLine.Tidy.encode {line : BodyLine Text} (h : line.Tidy symbols profile)
    (hencode : line.encode (Encoded.action symbols profile) = .ok encoded) : encoded.TidyCode := by
  cases line with
  | response weight =>
    obtain rfl := Outcome.pure_ok.mp hencode
    exact h
  | action statement =>
    obtain ⟨action, haction, hencode⟩ := Outcome.bind_ok.mp hencode
    obtain rfl := Outcome.pure_ok.mp hencode
    exact ⟨Encoded.text_action haction, h action (by rw [haction]; rfl)⟩

theorem Block.Tidy.encode {block : Block Text} (h : block.Tidy symbols profile)
    (hencode : block.encode symbols profile = .ok encoded) :
    encoded.TidyCode ∧ (block.IsComplete → encoded.IsComplete) := by
  obtain ⟨triggers, htriggers, hencode⟩ := Outcome.bind_ok.mp hencode
  obtain ⟨body, hbody, hencode⟩ := Outcome.bind_ok.mp hencode
  obtain rfl := Outcome.pure_ok.mp hencode
  refine ⟨⟨fun trigger hmem => ?_, fun line hmem => ?_⟩, id⟩
  · obtain ⟨statement, hstatement, hencoded⟩ := mem_encodeEach htriggers hmem
    exact ⟨Encoded.text_trigger hencoded, h.trigger statement hstatement _ (by rw [hencoded]; rfl)⟩
  · obtain ⟨statement, hstatement, hencoded⟩ := mem_encodeEach hbody hmem
    exact (h.body statement hstatement).encode hencoded

-- --------------------
-- Blocks with their code
-- --------------------

/-- A complete block and its code, which is closed. -/
structure CodedBlock (symbols : Symbols) (profile : Profile) where
  block : Block Text
  encoded : Block Encoded
  isComplete : block.IsComplete
  encode_eq : block.encode symbols profile = .ok encoded
  divides : Divides IsBlock (encoded.code 0).value

/-- A source that is one block, from IF to END, of tidy statements. -/
def Source.IsTidyBlock (symbols : Symbols) (profile : Profile) (source : Source) : Prop :=
  ∃ block, Outline.ofLines source.listing.lines = ⟨[block], none⟩ ∧ block.IsComplete ∧
    block.Tidy symbols profile

instance {source : Source} : Decidable (source.IsTidyBlock symbols profile) :=
  match h : Outline.ofLines source.listing.lines with
  | ⟨[block], none⟩ =>
    decidable_of_iff (block.IsComplete ∧ block.Tidy symbols profile) (by simp [Source.IsTidyBlock, h])
  | ⟨[], _⟩ | ⟨_ :: _ :: _, _⟩ | ⟨_, some _⟩ => isFalse (by simp [Source.IsTidyBlock, h])

theorem Block.IsComplete.plain {block : Block σ} (h : block.IsComplete) : block.plain.IsComplete := by
  simpa [IsComplete, Block.plain] using h

theorem Block.Tidy.plain {block : Block Text} (h : block.Tidy symbols profile) :
    block.plain.Tidy symbols profile := by
  constructor
  · intro _ hmem
    obtain ⟨trigger, htrigger, rfl⟩ := List.mem_map.mp hmem
    exact h.trigger trigger htrigger
  · intro _ hmem
    obtain ⟨line, hline, rfl⟩ := List.mem_map.mp hmem
    exact h.body line hline

namespace CodedBlock

variable {symbols : Symbols} {profile : Profile}

def code (coded : CodedBlock symbols profile) : Text := (coded.encoded.code 0).value

def script (blocks : List (CodedBlock symbols profile)) : Text :=
  (Marker.script.code ++ ['\n']) ++ blocks.flatMap code ++ (Marker.script.code ++ ['\n'])

theorem value_outlineCode (blocks : List (CodedBlock symbols profile)) :
    (Outline.code 0 (blocks.map encoded) none).value = script blocks := by
  show "SC\n".toList ++ ((blocks.map encoded).mapM (Block.code 0)).value.flatten ++
    "SC\n".toList = _
  rw [Noted.value_mapM, List.map_map, ← List.flatMap_def]
  rfl

theorem exists_of_compile (hsource : source.IsTidyBlock symbols profile)
    (h : compile symbols profile source = .ok compiled) :
    ∃ coded : CodedBlock symbols profile, script [coded] = compiled.code ∧
      ⟨[coded.block], none⟩ = Outline.ofLines (source.statements.map Line.bare) := by
  obtain ⟨block, hblock, hcomplete, htidy⟩ := hsource
  have houtline : Outline.ofLines (source.statements.map Line.bare) = ⟨[block.plain], none⟩ := by
    rw [map_bare_statements, Outline.ofLines_plain, hblock]
    rfl
  obtain ⟨findings, rfl, hstatements⟩ := compileStatements_of_compile h
  obtain ⟨_, -, hstatements⟩ := Outcome.bind_ok.mp hstatements
  rw [houtline] at hstatements
  obtain ⟨encoded, hencoded, hcode⟩ := Outcome.bind_ok.mp hstatements
  rw [List.mapM_cons, List.mapM_nil] at hencoded
  obtain ⟨first, hfirst, hencoded⟩ := Outcome.bind_ok.mp hencoded
  obtain rfl := Outcome.pure_ok.mp hencoded
  obtain ⟨hkeeps, hwhole⟩ := htidy.plain.encode hfirst
  obtain ⟨hthen, hend⟩ := hwhole hcomplete.plain
  refine ⟨⟨block.plain, first, hcomplete.plain, hfirst, Block.divides_code hthen hend hkeeps 0⟩, ?_,
    houtline.symm⟩
  rw [← value_outlineCode]
  exact congrArg Prod.fst (Outcome.pure_ok.mp hcode)

theorem ofLines_flatMap {blocks : List (CodedBlock symbols profile)} {sources : List Source}
    (h : blocks.map (fun coded => ⟨[coded.block], none⟩) =
      sources.map fun source => Outline.ofLines (source.statements.map Line.bare)) :
    Outline.ofLines ((sources.flatMap Source.statements).map Line.bare) =
      ⟨blocks.map block, none⟩ := by
  induction blocks generalizing sources with
  | nil =>
    obtain rfl : sources = [] := by simpa using h.symm
    rw [List.flatMap_nil, List.map_nil, Outline.ofLines]
    rfl
  | cons coded blocks ih =>
    obtain ⟨source, sources, rfl, hsource, hsources⟩ := List.map_eq_cons_iff.mp h.symm
    rw [List.flatMap_cons, List.map_append, Outline.ofLines_append hsource coded.isComplete,
      ih hsources.symm, List.map_cons]

theorem exists_compile {blocks : List (CodedBlock symbols profile)} {sources : List Source}
    (hwidths : profile.checkWidths = .ok ())
    (h : blocks.map (fun coded => ⟨[coded.block], none⟩) =
      sources.map fun source => Outline.ofLines (source.statements.map Line.bare))
    (hsource : source.statements = sources.flatMap Source.statements) :
    ∃ compiled, compile symbols profile source = .ok compiled ∧ compiled.code = script blocks := by
  have hencoded : (blocks.map block).mapM (Block.encode symbols profile) =
      .ok (blocks.map encoded) := by
    rw [Outcome.mapM_ok, List.map_map, List.map_map]
    exact List.map_congr_left fun coded _ => coded.encode_eq
  have hstatements : compileStatements symbols profile source.statements =
      .ok (Outline.code 0 (blocks.map encoded) none).remarked := by
    rw [hsource]
    refine Outcome.bind_ok.mpr ⟨(), by rw [hwidths]; rfl, ?_⟩
    rw [ofLines_flatMap h]
    exact Outcome.bind_ok.mpr ⟨_, hencoded, rfl⟩
  obtain ⟨findings, hcompile, hfindings⟩ := compile_of_compileStatements hstatements
  refine ⟨_, hcompile, ?_⟩
  rw [← value_outlineCode]
  exact congrArg Prod.fst hfindings

theorem splits_script (blocks : List (CodedBlock symbols profile)) :
    Splits (script blocks) ((.marker .script, Marker.script.code) ::
      (blocks.flatMap (fun coded => pieces coded.code) ++
        [(.marker .script, Marker.script.code)])) :=
  ((splits_marker .script).append (Splits.flatMap fun coded _ => coded.divides.1)).append
    (splits_marker .script)

theorem lexemes_script (blocks : List (CodedBlock symbols profile)) :
    lexemes (script blocks) = .marker .script ::
      (blocks.flatMap (fun coded => lexemes coded.code) ++ [.marker .script]) := by
  rw [lexemes, (splits_script blocks).pieces_eq]
  simp [lexemes, List.map_flatMap]

theorem legible_script {blocks : List (CodedBlock symbols profile)}
    (h : ∀ coded ∈ blocks, ∀ piece ∈ pieces (script [coded]), Legible piece) :
    ∀ piece ∈ pieces (script blocks), Legible piece := by
  have hmarker : Legible (.marker .script, Marker.script.code) := by rintro ⟨⟩
  rw [(splits_script blocks).pieces_eq]
  simp only [List.mem_cons, List.mem_append, List.mem_flatMap, List.not_mem_nil, or_false]
  rintro piece (rfl | ⟨coded, hcoded, hmem⟩ | rfl)
  · exact hmarker
  · refine h coded hcoded piece ?_
    rw [(splits_script [coded]).pieces_eq]
    simp [hmem]
  · exact hmarker

end CodedBlock

-- --------------------
-- Blocks that are decompiled by themselves
-- --------------------

namespace Decompiler

variable {decompiler : Decompiler}

theorem parse_sweep_abort (hblock : IsBlock ls)
    (h : (decompiler.script.parse ls).1 = .error error) (before : List SourceLine)
    (rest : List Lexeme) :
    ∃ error left, (sweep none decompiler.scriptStep before).parse (ls ++ rest) =
      (.error error, left) := by
  rcases decompiler.parse_sweep_isBlock hblock with ⟨block, -, hsweep⟩ | ⟨abort, hsweep⟩
  · have hok := (hsweep [] []).trans (parse_sweep_nil ..)
    rw [List.append_nil] at hok
    rw [script, parse_bind_ok hok, parse_pure] at h
    cases h
  · exact ⟨_, hsweep before rest⟩

theorem parse_script_block (hblock : IsBlock ls)
    (h : (decompiler.script.parse (.marker .script :: (ls ++ [.marker .script]))).1 = .ok lines) :
    (decompiler.script.parse ls).1 = .ok lines := by
  cases halone : (decompiler.script.parse ls).1 with
  | ok lines' =>
    have hscript := @parse_script_blocks decompiler [(ls, lines')] (by simp [hblock, halone])
    rw [List.flatMap_singleton, h] at hscript
    rw [hscript]
    simp
  | error error =>
    obtain ⟨_, _, hsweep⟩ := parse_sweep_abort hblock halone [] [.marker .script]
    have hscript := (parse_sweep_ok (by simp) (decompiler.scriptStep_script [])).trans hsweep
    rw [script, parse_bind_error hscript] at h
    cases h

end Decompiler

namespace CodedBlock

variable {decompiler : Decompiler}

theorem exists_lines {blocks : List (CodedBlock symbols profile)} {alone : List Decompiled}
    (h : blocks.map (fun coded => decompiler.decompile (script [coded]) collect) =
      alone.map .ok) :
    ∃ read : List (List Lexeme × List SourceLine),
      (∀ block ∈ read, IsBlock block.1 ∧ (decompiler.script.parse block.1).1 = .ok block.2) ∧
      read.map Prod.fst = blocks.map (fun coded => lexemes coded.code) ∧
      alone = (read.map Prod.snd).map (.ofLines collect) := by
  refine Outcome.exists_pairs_of_mapM (Outcome.mapM_ok.mpr h) fun coded _ first hfirst => ?_
  obtain ⟨-, lines, hlines, rfl⟩ := Decompiler.decompile_eq_ok_iff.mp hfirst
  rw [lexemes_script, List.flatMap_singleton] at hlines
  exact ⟨lines, ⟨coded.divides.2, Decompiler.parse_script_block coded.divides.2 hlines⟩, rfl⟩

theorem exists_decompile {blocks : List (CodedBlock symbols profile)} {alone : List Decompiled}
    (h : blocks.map (fun coded => decompiler.decompile (script [coded]) collect) =
      alone.map .ok) :
    ∃ whole, decompiler.decompile (script blocks) collect = .ok whole ∧
      whole.source = alone.flatMap Decompiled.source := by
  obtain ⟨read, hread, hlexemes, rfl⟩ := exists_lines h
  have hlegible : ∀ coded ∈ blocks, ∀ piece ∈ pieces (script [coded]), Legible piece := by
    intro coded hcoded
    obtain ⟨d, -, hd⟩ := Outcome.mem_mapM_ok (Outcome.mapM_ok.mpr h) hcoded
    exact (Decompiler.decompile_eq_ok_iff.mp hd).1
  have hparse : (decompiler.script.parse (lexemes (script blocks))).1 =
      .ok (read.map Prod.snd).flatten := by
    rw [lexemes_script, List.flatMap_def, ← hlexemes, ← List.flatMap_def,
      decompiler.parse_script_blocks hread, List.flatMap_def]
  exact ⟨_, Decompiler.decompile_eq_ok_iff.mpr
    ⟨legible_script hlegible, _, hparse, rfl⟩, Decompiled.source_flatten _ _⟩

end CodedBlock

theorem Profile.checkWidths_ofGame (game : Game) : (Profile.ofGame game).checkWidths = .ok () := by
  unfold Profile.ofGame
  split <;> simp [checkWidths, checkLeading, checkTrailing, Text.checkRepeat, isSigned64,
    addressSpace, custom, trailingWidth, vectorWidth, ofGame.standardTables,
    Bind.bind, Except.bind, Pure.pure, Except.pure]

/-- A script of complete blocks is decompiled block by block, whatever is at fault in them, as
long as what stands for a statement in the code is tidy: a placeholder has text of the
source in it, which can open a bracket or hold a marker. -/
theorem decompile_compile_blocks {decompiler : Decompiler} {game : Game} {collect : Bool}
    {source : Source} {sources : List Source} {codes : List Compiled} {alone : List Decompiled}
    (hprofile : decompiler.profile = .ofGame game)
    (hsource : source.statements = sources.flatMap Source.statements)
    (hsources : ∀ source ∈ sources, source.IsTidyBlock decompiler.symbols decompiler.profile)
    (hcodes : sources.mapM (compile decompiler.symbols decompiler.profile) = .ok codes)
    (halone : codes.mapM (fun compiled => decompiler.decompile compiled.code collect) = .ok alone) :
    ∃ compiled, compile decompiler.symbols decompiler.profile source = .ok compiled ∧
      ∃ whole, decompiler.decompile compiled.code collect = .ok whole ∧
        whole.source = alone.flatMap Decompiled.source := by
  have hwidths := hprofile ▸ Profile.checkWidths_ofGame game
  obtain ⟨blocks, hscripts, houtlines⟩ := exists_map_eq (Outcome.mapM_ok.mp hcodes)
    fun source hmem compiled _ h => CodedBlock.exists_of_compile (hsources source hmem) h
  obtain ⟨compiled, hcompile, hcode⟩ := CodedBlock.exists_compile hwidths houtlines hsource
  refine ⟨compiled, hcompile, ?_⟩
  rw [hcode]
  refine CodedBlock.exists_decompile ?_
  have hdecompiled : (codes.map Compiled.code).map (decompiler.decompile · collect) =
      alone.map .ok := by
    rw [List.map_map]
    exact Outcome.mapM_ok.mp halone
  rw [← hscripts, List.map_map] at hdecompiled
  exact hdecompiled

theorem decompile_compile_blocks_sample :
    let decompiler : Decompiler := ⟨sampleSymbols, .ofGame .none, " "⟩
    let first : Text := "IF\nTrue()\nTHEN\nRESPONSE #100\nSay(\"a\")\nEND\n"
    let faulty : Text := "IF\nOR(3)\nFoo(1)\nTHEN\nRESPONSE\nBar()\nRESPONSE #x\nSay(\"b\")\nEND\n"
    let last : Text := "if\nthen // always\nend\n"
    ∃ compiled, compile decompiler.symbols decompiler.profile (.text (first ++ faulty ++ last)) =
        .ok compiled ∧
      ∃ whole, decompiler.decompile compiled.code true = .ok whole ∧
        whole.source = ("IF\n True()\nTHEN\n RESPONSE #100\n  Say(\"a\")\nEND\n\n" ++
          "Error - Expected NUMBER but found `Error`\n\n" ++ "IF\nTHEN\nEND\n\n").toList := by
  intro decompiler first faulty last
  have hprofile : decompiler.profile = .ofGame .none := rfl
  let sources : List Source := [.text first, .text faulty, .text last]
  have hsources : ∀ source ∈ sources,
      source.IsTidyBlock decompiler.symbols decompiler.profile := by decide +kernel
  have hsource : (Source.text (first ++ faulty ++ last)).statements =
      sources.flatMap Source.statements := by decide +kernel
  obtain ⟨codes, hcodes, halone⟩ := Outcome.exists_of_any (by decide +kernel :
    (sources.mapM (compile decompiler.symbols decompiler.profile)).toOption.any fun codes =>
      (codes.mapM fun compiled => decompiler.decompile compiled.code true).toOption.any fun alone =>
        alone.flatMap Decompiled.source =
          ("IF\n True()\nTHEN\n RESPONSE #100\n  Say(\"a\")\nEND\n\n" ++
            "Error - Expected NUMBER but found `Error`\n\n" ++ "IF\nTHEN\nEND\n\n").toList)
  obtain ⟨alone, halone, hjoined⟩ := Outcome.exists_of_any halone
  obtain ⟨compiled, hcompile, whole, hwhole, hsame⟩ :=
    decompile_compile_blocks hprofile hsource hsources hcodes halone
  exact ⟨compiled, hcompile, whole, hwhole, hsame.trans (of_decide_eq_true hjoined)⟩

/-- The placeholder of a string without its end quote opens a quote, which the code of the
next block closes: that block is lost, although it is sound. -/
theorem decompile_compile_openQuote :
    let decompiler : Decompiler := ⟨sampleSymbols, .ofGame .none, "\t"⟩
    let faulty : Text := "IF\nTHEN\nSay(\"a)\nEND\n"
    let sound : Text := "IF\nTrue()\nTHEN\nEND\n"
    ∃ alone, compile decompiler.symbols decompiler.profile (.text sound) = .ok alone ∧
      alone.errors.isEmpty ∧
      ∃ source, decompiler.decompile alone.code true = .ok source ∧
        source.source = "IF\n\tTrue()\nTHEN\nEND\n\n".toList ∧
        ∃ both, compile decompiler.symbols decompiler.profile (.text (faulty ++ sound)) =
            .ok both ∧
          ∃ whole, decompiler.decompile both.code true = .ok whole ∧
            whole.source = "Error - Expected RS but found end of file\n\n".toList ∧
            ¬ (source.source <:+ whole.source) := by
  intro decompiler faulty sound
  obtain ⟨alone, halone, htest⟩ := Outcome.exists_of_any (by decide +kernel :
    (compile decompiler.symbols decompiler.profile (.text sound)).toOption.any fun alone =>
      alone.errors.isEmpty && (decompiler.decompile alone.code true).toOption.any fun source =>
        source.source = "IF\n\tTrue()\nTHEN\nEND\n\n".toList)
  obtain ⟨both, hboth, htest'⟩ := Outcome.exists_of_any (by decide +kernel :
    (compile decompiler.symbols decompiler.profile (.text (faulty ++ sound))).toOption.any fun both =>
      (decompiler.decompile both.code true).toOption.any fun whole =>
        whole.source = "Error - Expected RS but found end of file\n\n".toList)
  obtain ⟨herrors, htest⟩ := Bool.and_eq_true_iff.mp htest
  obtain ⟨source, hsource, htext⟩ := Outcome.exists_of_any htest
  obtain ⟨whole, hwhole, htext'⟩ := Outcome.exists_of_any htest'
  have htext := of_decide_eq_true htext
  have htext' := of_decide_eq_true htext'
  refine ⟨alone, halone, herrors, source, hsource, htext, both, hboth, whole, hwhole, htext', ?_⟩
  rw [htext, htext']
  decide

end InfinityScript
