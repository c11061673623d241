import Mathlib.Data.List.TakeWhile
import InfinityScript.Proofs.Text.Cut
import InfinityScript.Proofs.Text.Lines

/-!
# Line breaks

A text whose lines hold no break of their own is displayed line by line as it was written
(`displayLines_ofLines`, `displayLines_join`). In general a physical line may be displayed as
several. Displayed and physical lines of the same number show the same, for all numbers of
physical lines, exactly when nothing visible stands after a break that is no line feed
(`isPrefix_displayLines_iff`).
-/

namespace InfinityScript.Text

/-- The text stays on one displayed line. -/
def Unbroken (text : Text) : Prop := ∀ c ∈ text, isLineBreak c = false

instance : Decidable (Unbroken text) := decidableForallMem text

theorem isLineBreak_of_visible (h : isBlank c = false) : isLineBreak c = false := by
  simp only [isBlank, isLineBreak, Bool.or_eq_false_iff, Bool.and_eq_false_iff,
    decide_eq_false_iff_not, beq_eq_false_iff_ne] at h ⊢
  omega

-- --------------------
-- Displayed lines
-- --------------------

/-- A text put before the first of some lines; where there are none it is a line itself. -/
def glue (piece : Text) : List Text → List Text
  | [] => if piece = [] then [] else [piece]
  | line :: lines => (piece ++ line) :: lines

@[simp] theorem glue_nil (lines : List Text) : glue [] lines = lines := by
  cases lines <;> simp [glue]

theorem glue_cons (c : Char) (piece : Text) (lines : List Text) :
    glue (c :: piece) lines = glue [c] (glue piece lines) := by
  cases lines with
  | nil => by_cases h : piece = [] <;> simp [glue, h]
  | cons line lines => simp [glue]

theorem glue_append {lines : List Text} (h : lines ≠ []) (piece : Text) (more : List Text) :
    glue piece (lines ++ more) = glue piece lines ++ more := by
  cases lines with
  | nil => exact absurd rfl h
  | cons line lines => rfl

theorem length_glue {lines : List Text} (h : lines ≠ []) (piece : Text) :
    (glue piece lines).length = lines.length := by
  cases lines with
  | nil => exact absurd rfl h
  | cons line lines => rfl

theorem displayLines_cons (h : isLineBreak c = false) (rest : Text) :
    displayLines (c :: rest) = glue [c] (displayLines rest) := by
  rw [displayLines, if_neg (by simp [h])]
  · cases displayLines rest <;> simp [glue]
  · rintro more rfl
    exact absurd h (by decide)

theorem displayLines_cons_break (h : isLineBreak c) (hc : c = '\r' → rest.head? ≠ some '\n') :
    displayLines (c :: rest) = [] :: displayLines rest := by
  rw [displayLines, if_pos h]
  rintro more rfl rfl
  exact hc rfl rfl

theorem displayLines_feed (rest : Text) : displayLines ('\n' :: rest) = [] :: displayLines rest :=
  displayLines_cons_break (by decide) fun h => absurd h (by decide)

theorem displayLines_append_left (h : Unbroken piece) (text : Text) :
    displayLines (piece ++ text) = glue piece (displayLines text) := by
  induction piece with
  | nil => simp
  | cons c piece ih =>
    rw [List.cons_append, displayLines_cons (h c (by simp)), ih fun d hd => h d (by simp [hd]),
      ← glue_cons]

theorem displayLines_unbroken (h : Unbroken text) (hne : text ≠ []) : displayLines text = [text] := by
  have hlines := displayLines_append_left h []
  rwa [List.append_nil, displayLines, glue, if_neg hne] at hlines

theorem displayLines_append (h : Unbroken line) (rest : Text) :
    displayLines (line ++ '\n' :: rest) = line :: displayLines rest := by
  rw [displayLines_append_left h, displayLines_feed, glue, List.append_nil]

theorem ofLines_cons (line : Text) (lines : List Text) :
    ofLines (line :: lines) = line ++ '\n' :: ofLines lines := by
  simp [ofLines]

theorem displayLines_ofLines (h : ∀ line ∈ lines, Unbroken line) :
    displayLines (ofLines lines) = lines := by
  induction lines with
  | nil => rfl
  | cons line lines ih =>
    rw [ofLines_cons, displayLines_append (h line (by simp)), ih fun l hl => h l (by simp [hl])]

theorem displayLines_join {lines : List Text} (h : ∀ line ∈ lines, Unbroken line)
    (hne : ∀ line ∈ lines, line ≠ []) : displayLines (join ['\n'] lines) = lines := by
  induction lines with
  | nil => rfl
  | cons line lines ih =>
    have hline := h line (by simp)
    cases lines with
    | nil => rw [join_singleton, displayLines_unbroken hline (hne line (by simp))]
    | cons second lines =>
      rw [join_cons_cons, List.singleton_append, displayLines_append hline,
        ih (fun l hl => h l (by simp [hl])) fun l hl => hne l (by simp [hl])]

theorem unbroken_of_mem_displayLines (h : line ∈ displayLines text) : Unbroken line := by
  fun_induction displayLines text generalizing line with
  | case1 => cases h
  | case2 rest ih =>
    rcases List.mem_cons.mp h with rfl | h
    · simp [Unbroken]
    · exact ih h
  | case3 c rest _ hbreak ih =>
    rcases List.mem_cons.mp h with rfl | h
    · simp [Unbroken]
    · exact ih h
  | case4 c rest _ hbreak hlines ih =>
    obtain rfl := List.mem_singleton.mp h
    simpa [Unbroken] using hbreak
  | case5 c rest _ hbreak first others hlines ih =>
    rcases List.mem_cons.mp h with rfl | h
    · have hfirst := ih (hlines ▸ List.mem_cons_self)
      simpa [Unbroken, hbreak] using hfirst
    · exact ih (hlines ▸ List.mem_cons_of_mem _ h)

theorem displayLines_ne_nil (h : text ≠ []) : displayLines text ≠ [] := by
  fun_cases displayLines text <;> simp_all

/-- A carriage return that has no line feed behind it has none behind it in a longer text,
unless it was the end. -/
theorem head?_append_ne (hpair : ∀ more, c = '\r' → text = '\n' :: more → False)
    (hreturn : ¬ (c = '\r' ∧ text = [])) (rest : Text) (hc : c = '\r') :
    (text ++ rest).head? ≠ some '\n' := by
  cases text with
  | nil => exact absurd ⟨hc, rfl⟩ hreturn
  | cons d text =>
    intro hd
    obtain rfl : d = '\n' := by simpa using hd
    exact hpair text hc rfl

theorem displayLines_append_feed (text rest : Text) :
    displayLines (text ++ '\n' :: rest) = displayLines (text ++ ['\n']) ++ displayLines rest := by
  fun_induction displayLines text with
  | case1 => simp [displayLines_feed, displayLines]
  | case2 more ih => simp only [List.cons_append, displayLines, ih]
  | case3 c more hpair hbreak ih =>
    by_cases hreturn : c = '\r' ∧ more = []
    · obtain ⟨rfl, rfl⟩ := hreturn
      simp [displayLines]
    · have hhead := head?_append_ne hpair hreturn
      rw [List.cons_append, List.cons_append, displayLines_cons_break hbreak (hhead _),
        displayLines_cons_break hbreak (hhead _), ih, List.cons_append]
  | case4 c more hpair hbreak hlines ih =>
    have hends : displayLines (more ++ ['\n']) ≠ [] := displayLines_ne_nil (by simp)
    rw [Bool.not_eq_true] at hbreak
    rw [List.cons_append, List.cons_append, displayLines_cons hbreak, displayLines_cons hbreak, ih,
      glue_append hends]
  | case5 c more hpair hbreak first others hlines ih =>
    have hends : displayLines (more ++ ['\n']) ≠ [] := displayLines_ne_nil (by simp)
    rw [Bool.not_eq_true] at hbreak
    rw [List.cons_append, List.cons_append, displayLines_cons hbreak, displayLines_cons hbreak, ih,
      glue_append hends]

-- --------------------
-- Physical lines
-- --------------------

theorem physicalLines_append (h : '\n' ∉ line) (rest : Text) :
    physicalLines (line ++ '\n' :: rest) = line :: physicalLines rest := by
  obtain ⟨piece, pieces, hpieces⟩ := List.exists_cons_of_ne_nil (splitOn_ne_nil '\n' rest)
  simp only [physicalLines, splitOn_append h, hpieces, List.getLast?_cons_cons,
    List.dropLast_cons_cons]
  split <;> rfl

/-- A text is one line without a line feed, or a line that is ended by one before more lines. -/
theorem linewise {motive : Text → Prop} (last : ∀ line, '\n' ∉ line → motive line)
    (cons : ∀ line rest, '\n' ∉ line → motive rest → motive (line ++ '\n' :: rest)) (text : Text) :
    motive text := by
  by_cases h : '\n' ∈ text
  · obtain ⟨line, rest, htext, hline⟩ := List.eq_append_cons_of_mem h
    rw [htext]
    exact cons line rest hline (linewise last cons rest)
  · exact last text h
termination_by text.length
decreasing_by
  rw [htext, List.length_append, List.length_cons]
  omega

-- --------------------
-- Blanks on the right
-- --------------------

theorem trimRight_eq_nil_iff : trimRight text = [] ↔ ∀ c ∈ text, isBlank c := by
  rw [trimRight, List.reverse_eq_nil_iff, List.dropWhile_eq_nil_iff]
  simp

theorem trimRight_append_blanks (h : ∀ c ∈ blanks, isBlank c) (text : Text) :
    trimRight (text ++ blanks) = trimRight text := by
  rw [trimRight, List.reverse_append, List.dropWhile_append_of_pos (by simpa using h), trimRight]

theorem exists_trimRight (text : Text) :
    ∃ blanks, text = trimRight text ++ blanks ∧ ∀ c ∈ blanks, isBlank c := by
  refine ⟨(text.reverse.takeWhile isBlank).reverse, ?_, fun c hc => ?_⟩
  · rw [trimRight, ← List.reverse_append, List.takeWhile_append_dropWhile, List.reverse_reverse]
  · exact List.all_eq_true.mp List.all_takeWhile c (List.mem_reverse.mp hc)

@[simp] theorem trimRight_trimRight (text : Text) : trimRight (trimRight text) = trimRight text := by
  obtain ⟨blanks, htext, hblanks⟩ := exists_trimRight text
  have htrim := trimRight_append_blanks hblanks (trimRight text)
  rw [← htext] at htrim
  exact htrim.symm

theorem map_trimRight_displayLines (h : ∀ c ∈ text, isBlank c) :
    (displayLines text).map trimRight = List.replicate (displayLines text).length [] := by
  rw [List.eq_replicate_iff]
  refine ⟨List.length_map _, fun shown hshown => ?_⟩
  obtain ⟨line, hline, rfl⟩ := List.mem_map.mp hshown
  exact trimRight_eq_nil_iff.mpr fun c hc => h c (subset_of_mem_displayLines hline hc)

/-- A line whose visible part is not broken shows this part first, and then nothing. -/
theorem map_trimRight_displayLines_of_unbroken (h : Unbroken (trimRight text)) (hne : text ≠ []) :
    ∃ k, (displayLines text).map trimRight = trimRight text :: List.replicate k [] := by
  obtain ⟨blanks, htext, hblanks⟩ := exists_trimRight text
  have hlines : displayLines text = glue (trimRight text) (displayLines blanks) := by
    rw [← displayLines_append_left h, ← htext]
  have hshown := map_trimRight_displayLines hblanks
  rw [hlines]
  cases hsplit : displayLines blanks with
  | nil =>
    have hnil : blanks = [] := Decidable.byContradiction fun hblank => displayLines_ne_nil hblank hsplit
    rw [hnil, List.append_nil] at htext
    refine ⟨0, ?_⟩
    rw [glue, if_neg (htext ▸ hne)]
    simp
  | cons line lines =>
    rw [hsplit, List.map_cons, List.length_cons, List.replicate_succ] at hshown
    obtain ⟨hline, hlines⟩ := List.cons.inj hshown
    refine ⟨lines.length, ?_⟩
    rw [glue, List.map_cons, hlines, trimRight_append_blanks (trimRight_eq_nil_iff.mp hline),
      trimRight_trimRight]

-- --------------------
-- Line feeds and other breaks
-- --------------------

/-- Every break of the text is a line feed, or a carriage return right before one. -/
def OnlyFeeds : Text → Prop
  | [] => True
  | '\r' :: '\n' :: rest => OnlyFeeds rest
  | c :: rest => (isLineBreak c → c = '\n') ∧ OnlyFeeds rest

theorem onlyFeeds_cons (h : c = '\r' → rest.head? ≠ some '\n') :
    OnlyFeeds (c :: rest) ↔ (isLineBreak c → c = '\n') ∧ OnlyFeeds rest := by
  rw [OnlyFeeds]
  rintro more rfl rfl
  exact h rfl rfl

theorem Unbroken.onlyFeeds (h : Unbroken text) : OnlyFeeds text := by
  fun_induction OnlyFeeds text with
  | case1 => trivial
  | case2 rest ih => exact absurd (h '\r' (by simp)) (by decide)
  | case3 c rest _ ih =>
    refine ⟨fun hbreak => ?_, ih fun d hd => h d (by simp [hd])⟩
    rw [h c (by simp)] at hbreak
    cases hbreak

theorem OnlyFeeds.unbroken (h : OnlyFeeds text) (hfeed : '\n' ∉ text) : Unbroken text := by
  fun_induction OnlyFeeds text with
  | case1 => simp [Unbroken]
  | case2 rest ih => exact absurd (by simp) hfeed
  | case3 c rest _ ih =>
    have hc : isLineBreak c = false := Bool.eq_false_iff.mpr fun hbreak =>
      hfeed (by simp [h.1 hbreak])
    have hrest := ih h.2 fun hmem => hfeed (by simp [hmem])
    simpa [Unbroken, hc] using hrest

theorem onlyFeeds_append_feed (text rest : Text) :
    OnlyFeeds (text ++ '\n' :: rest) ↔ OnlyFeeds (text ++ ['\n']) ∧ OnlyFeeds rest := by
  fun_induction OnlyFeeds text with
  | case1 => simp [OnlyFeeds]
  | case2 more ih => simp only [List.cons_append, OnlyFeeds, ih]
  | case3 c more hpair ih =>
    by_cases hreturn : c = '\r' ∧ more = []
    · obtain ⟨rfl, rfl⟩ := hreturn
      simp [OnlyFeeds]
    · have hhead := head?_append_ne hpair hreturn
      rw [List.cons_append, List.cons_append, onlyFeeds_cons (hhead _), onlyFeeds_cons (hhead _), ih,
        and_assoc]

theorem OnlyFeeds.of_append (h : OnlyFeeds (text ++ rest)) (hlast : text.getLast? ≠ some '\r') :
    OnlyFeeds text := by
  fun_induction OnlyFeeds text with
  | case1 => trivial
  | case2 more ih =>
    refine ih h fun hmore => hlast ?_
    rw [List.getLast?_cons_cons, List.getLast?_cons, hmore]
    rfl
  | case3 c more hpair ih =>
    have hreturn : ¬ (c = '\r' ∧ more = []) := by
      rintro ⟨rfl, rfl⟩
      exact hlast rfl
    rw [List.cons_append, onlyFeeds_cons (head?_append_ne hpair hreturn rest)] at h
    refine ⟨h.1, ih h.2 fun hmore => hlast ?_⟩
    rw [List.getLast?_cons, hmore]
    rfl

theorem length_displayLines_eq_one_iff (h : '\n' ∉ line) :
    (displayLines (line ++ ['\n'])).length = 1 ↔ OnlyFeeds (line ++ ['\n']) := by
  fun_induction OnlyFeeds line with
  | case1 => simp [displayLines, OnlyFeeds, isLineBreak]
  | case2 rest ih => exact absurd (by simp) h
  | case3 c rest hpair ih =>
    by_cases hreturn : c = '\r' ∧ rest = []
    · obtain ⟨rfl, rfl⟩ := hreturn
      simp [displayLines, OnlyFeeds]
    · have hhead := head?_append_ne hpair hreturn ['\n']
      have hends : displayLines (rest ++ ['\n']) ≠ [] := displayLines_ne_nil (by simp)
      rw [List.cons_append, onlyFeeds_cons hhead]
      cases hbreak : isLineBreak c with
      | true =>
        have hfeed : c ≠ '\n' := fun heq => h (by simp [heq])
        rw [displayLines_cons_break hbreak hhead]
        simp [hends, hfeed]
      | false =>
        rw [displayLines_cons hbreak, length_glue hends, ih fun hmem => h (by simp [hmem])]
        simp

theorem OnlyFeeds.unbroken_trimRight (h : OnlyFeeds (line ++ ['\n'])) (hline : '\n' ∉ line) :
    Unbroken (trimRight line) := by
  obtain ⟨blanks, htext, -⟩ := exists_trimRight line
  rw [htext, List.append_assoc] at h
  have hlast : (trimRight line).getLast? ≠ some '\r' := by
    intro hreturn
    have hvisible := endsVisibly_trimRight (List.ne_nil_of_mem (List.mem_of_getLast? hreturn))
    obtain ⟨c, hc, hblank⟩ := hvisible
    obtain rfl : '\r' = c := Option.some.inj (hreturn.symm.trans hc)
    exact absurd hblank (by decide)
  exact (h.of_append hlast).unbroken fun hmem => hline ((trimRight_sublist line).subset hmem)

-- --------------------
-- Displayed and physical lines
-- --------------------

theorem trimRight_append_feed (line rest : Text) :
    trimRight (line ++ '\n' :: rest) =
      if trimRight rest = [] then trimRight line else line ++ '\n' :: trimRight rest := by
  obtain ⟨blanks, hrest, hblanks⟩ := exists_trimRight rest
  split
  · next hnil =>
    rw [hnil, List.nil_append] at hrest
    refine trimRight_append_blanks (fun c hc => ?_) line
    rcases List.mem_cons.mp hc with rfl | hc
    · decide
    · exact hblanks c (hrest ▸ hc)
  · next hvisible =>
    have hends : EndsVisibly (line ++ '\n' :: trimRight rest) := by
      rw [List.append_cons]
      exact endsVisibly_append (endsVisibly_trimRight hvisible) _
    have hsplit : line ++ '\n' :: rest = line ++ '\n' :: trimRight rest ++ blanks := by
      rw [List.append_assoc, List.cons_append, ← hrest]
    rw [hsplit, trimRight_append_blanks hblanks, trimRight_eq_self hends]

theorem onlyFeeds_trimRight_append_feed (hline : '\n' ∉ line) (rest : Text) :
    OnlyFeeds (trimRight (line ++ '\n' :: rest)) ↔ Unbroken (trimRight line) ∧
      (trimRight rest = [] ∨ OnlyFeeds (line ++ ['\n']) ∧ OnlyFeeds (trimRight rest)) := by
  have hvisible : '\n' ∉ trimRight line := fun hmem => hline ((trimRight_sublist line).subset hmem)
  rw [trimRight_append_feed]
  split
  · next hblank =>
    rw [and_iff_left (.inl hblank)]
    exact ⟨fun h => h.unbroken hvisible, Unbroken.onlyFeeds⟩
  · next hrest =>
    rw [onlyFeeds_append_feed, or_iff_right hrest]
    exact ⟨fun h => ⟨h.1.unbroken_trimRight hline, h⟩, And.right⟩

theorem isBlank_of_isPrefix_replicate (hk : 0 < k)
    (h : (physicalLines text).map trimRight <+:
      List.replicate k [] ++ (displayLines text).map trimRight) : ∀ c ∈ text, isBlank c := by
  induction text using linewise generalizing k with
  | last line hline =>
    cases line with
    | nil => simp
    | cons d line =>
      obtain ⟨k, rfl⟩ := Nat.exists_eq_succ_of_ne_zero (by omega : k ≠ 0)
      rw [physicalLines_singleton (by simp) hline, List.map_singleton, List.replicate_succ,
        List.cons_append] at h
      exact trimRight_eq_nil_iff.mp (List.cons_prefix_cons.mp h).1
  | cons line rest hline ih =>
    obtain ⟨k, rfl⟩ := Nat.exists_eq_succ_of_ne_zero (by omega : k ≠ 0)
    rw [physicalLines_append hline, List.map_cons, List.replicate_succ, List.cons_append] at h
    obtain ⟨hfirst, hrest⟩ := List.cons_prefix_cons.mp h
    have hblank : ∀ c ∈ line ++ ['\n'], isBlank c := by
      intro c hc
      rcases List.mem_append.mp hc with hc | hc
      · exact trimRight_eq_nil_iff.mp hfirst c hc
      · rw [List.mem_singleton.mp hc]
        decide
    have hends : displayLines (line ++ ['\n']) ≠ [] := displayLines_ne_nil (by simp)
    rw [displayLines_append_feed, List.map_append, map_trimRight_displayLines hblank,
      ← List.append_assoc, List.replicate_append_replicate] at hrest
    have hrest := ih (Nat.add_pos_right k (List.length_pos_iff.mpr hends)) hrest
    intro c hc
    rw [List.append_cons] at hc
    rcases List.mem_append.mp hc with hc | hc
    · exact hblank c hc
    · exact hrest c hc

/-- The displayed lines show what the physical lines of the same numbers show exactly when
nothing visible stands after a break that is no line feed. -/
theorem isPrefix_displayLines_iff (text : Text) :
    (physicalLines text).map trimRight <+: (displayLines text).map trimRight ↔
      OnlyFeeds (trimRight text) := by
  induction text using linewise with
  | last line hline =>
    cases line with
    | nil => simp [physicalLines, splitOn, trimRight, OnlyFeeds]
    | cons d line =>
      rw [physicalLines_singleton (by simp) hline, List.map_singleton]
      constructor
      · intro h
        obtain ⟨first, lines, hlines⟩ := List.exists_cons_of_ne_nil
          (displayLines_ne_nil (List.cons_ne_nil d line))
        rw [hlines, List.map_cons] at h
        have hfirst := unbroken_of_mem_displayLines (hlines ▸ List.mem_cons_self)
        rw [(List.cons_prefix_cons.mp h).1]
        exact Unbroken.onlyFeeds fun c hc => hfirst c ((trimRight_sublist first).subset hc)
      · intro h
        have hunbroken := h.unbroken fun hmem => hline ((trimRight_sublist _).subset hmem)
        obtain ⟨k, hk⟩ := map_trimRight_displayLines_of_unbroken hunbroken (List.cons_ne_nil d line)
        rw [hk]
        exact List.cons_prefix_cons.mpr ⟨rfl, List.nil_prefix⟩
  | cons line rest hline ih =>
    have hends : displayLines (line ++ ['\n']) ≠ [] := displayLines_ne_nil (by simp)
    have htrim : trimRight (line ++ ['\n']) = trimRight line := trimRight_append_blanks (by decide) line
    rw [physicalLines_append hline, displayLines_append_feed, List.map_cons, List.map_append,
      onlyFeeds_trimRight_append_feed hline]
    by_cases hunbroken : Unbroken (trimRight line)
    · obtain ⟨k, hk⟩ := map_trimRight_displayLines_of_unbroken (htrim ▸ hunbroken)
        (List.append_ne_nil_of_right_ne_nil line (List.cons_ne_nil '\n' []))
      -- The line shows its visible part once; `k` counts the breaks after it.
      have hlength : OnlyFeeds (line ++ ['\n']) ↔ k = 0 := by
        have hcount := congrArg List.length hk
        rw [List.length_map, List.length_cons, List.length_replicate] at hcount
        rw [← length_displayLines_eq_one_iff hline, hcount]
        omega
      rw [hk, htrim, List.cons_append, List.cons_prefix_cons, and_iff_right rfl,
        and_iff_right hunbroken, hlength]
      by_cases hblank : trimRight rest = []
      · rw [hblank] at ih
        rw [or_iff_left_of_imp fun _ => hblank, iff_true_right hblank,
          map_trimRight_displayLines (trimRight_eq_nil_iff.mp hblank), List.replicate_append_replicate,
          Nat.add_comm, ← List.replicate_append_replicate,
          ← map_trimRight_displayLines (trimRight_eq_nil_iff.mp hblank)]
        exact (ih.mpr trivial).trans (List.prefix_append _ _)
      · rw [or_iff_right hblank, ← ih]
        constructor
        · intro h
          have hk : k = 0 := Decidable.byContradiction fun hpos => hblank
            (trimRight_eq_nil_iff.mpr (isBlank_of_isPrefix_replicate (by omega) h))
          rw [hk] at h
          exact ⟨hk, h⟩
        · rintro ⟨rfl, h⟩
          exact h
    · obtain ⟨first, lines, hlines⟩ := List.exists_cons_of_ne_nil hends
      refine iff_of_false (fun h => hunbroken ?_) fun h => hunbroken h.1
      rw [hlines, List.map_cons, List.cons_append] at h
      have hfirst := unbroken_of_mem_displayLines (hlines ▸ List.mem_cons_self)
      rw [(List.cons_prefix_cons.mp h).1]
      exact fun c hc => hfirst c ((trimRight_sublist first).subset hc)

-- --------------------
-- The lines up to a number
-- --------------------

theorem newline_not_mem_of_mem_physicalLines (text : Text) :
    ∀ line ∈ physicalLines text, '\n' ∉ line := by
  induction text using linewise with
  | last line hline =>
    cases line with
    | nil => simp [physicalLines, splitOn]
    | cons d line => simpa [physicalLines_singleton (List.cons_ne_nil d line) hline] using hline
  | cons line rest hline ih =>
    rw [physicalLines_append hline]
    exact List.forall_mem_cons.mpr ⟨hline, ih⟩

theorem displayLines_ofLines_append (lines : List Text) (rest : Text) :
    displayLines (ofLines lines ++ rest) = displayLines (ofLines lines) ++ displayLines rest := by
  induction lines with
  | nil => rfl
  | cons line lines ih =>
    rw [ofLines_cons, List.append_assoc, List.cons_append, displayLines_append_feed line (_ ++ rest),
      ih, displayLines_append_feed line (ofLines lines), List.append_assoc]

theorem exists_ofLines_take (text : Text) (count : Nat) :
    (∃ rest, text = ofLines ((physicalLines text).take count) ++ rest) ∨
      trimRight (ofLines ((physicalLines text).take count)) = trimRight text ∧
        (physicalLines text).take count = physicalLines text := by
  induction text using linewise generalizing count with
  | last line hline =>
    cases line with
    | nil => exact .inl ⟨[], by simp [physicalLines, splitOn, ofLines]⟩
    | cons d line =>
      rw [physicalLines_singleton (List.cons_ne_nil d line) hline]
      cases count with
      | zero => exact .inl ⟨d :: line, rfl⟩
      | succ count =>
        refine .inr ⟨?_, by simp⟩
        rw [List.take_succ_cons, ofLines_cons]
        exact trimRight_append_blanks (by simp [ofLines, isBlank]) (d :: line)
  | cons line rest hline ih =>
    rw [physicalLines_append hline]
    cases count with
    | zero => exact .inl ⟨_, rfl⟩
    | succ count =>
      rw [List.take_succ_cons, ofLines_cons]
      rcases ih count with ⟨more, hmore⟩ | ⟨htrim, htake⟩
      · refine .inl ⟨more, ?_⟩
        rw [List.append_assoc, List.cons_append, ← hmore]
      · exact .inr ⟨by rw [trimRight_append_feed, htrim, trimRight_append_feed], by rw [htake]⟩

/-- The first lines are displayed under their numbers when nothing visible in them stands after
a break that is no line feed. -/
theorem isPrefix_take_displayLines
    (h : OnlyFeeds (trimRight (ofLines ((physicalLines text).take count)))) :
    ((physicalLines text).take count).map trimRight <+: (displayLines text).map trimRight := by
  rcases exists_ofLines_take text count with ⟨rest, hrest⟩ | ⟨htrim, htake⟩
  · have hlines : ∀ line ∈ (physicalLines text).take count, '\n' ∉ line := fun line hline =>
      newline_not_mem_of_mem_physicalLines text line (List.mem_of_mem_take hline)
    have hfirst := (isPrefix_displayLines_iff _).mpr h
    rw [physicalLines_ofLines hlines] at hfirst
    have hshown : displayLines text =
        displayLines (ofLines ((physicalLines text).take count)) ++ displayLines rest := by
      rw [← displayLines_ofLines_append, ← hrest]
    rw [hshown, List.map_append]
    exact hfirst.trans (List.prefix_append _ _)
  · rw [htrim] at h
    rw [htake]
    exact (isPrefix_displayLines_iff text).mpr h

end InfinityScript.Text
