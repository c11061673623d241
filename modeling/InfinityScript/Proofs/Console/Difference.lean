import InfinityScript.Console.Difference

/-!
# Reported differences

Two texts are compared line by line, and a missing line is an empty one. Two lines are compared
character by character, and a missing character is a blank. The two comparisons part at blanks
on the end of a line: there a line is reported in which no character is coloured. `find_report`
says what is found, what is shown of it, and when some of it is coloured.
-/

namespace InfinityScript.Difference

variable {a b : Text} {as bs : List Text} {number found : Nat}

def padLines (count : Nat) (lines : List Text) : List Text :=
  lines ++ List.replicate (count - lines.length) []

theorem getElem?_padLines (h : as.length ≤ count) (index : Nat) :
    (padLines count as)[index]? = if index < count then some (as.getD index []) else none := by
  rw [padLines, List.getElem?_append, List.getElem?_replicate, List.getD_eq_getElem?_getD]
  by_cases hlines : index < as.length
  · rw [if_pos hlines, if_pos (by omega), List.getElem?_eq_getElem hlines, Option.getD_some]
  · rw [if_neg hlines, List.getElem?_eq_none (by omega), Option.getD_none]
    by_cases hcount : index < count
    · rw [if_pos hcount, if_pos (by omega)]
    · rw [if_neg hcount, if_neg (by omega)]

/-- Beyond the last line of both there is no difference, so the count hides none. -/
theorem getElem?_padLines_eq_iff (index : Nat) :
    (padLines (max as.length bs.length) as)[index]? = (padLines (max as.length bs.length) bs)[index]? ↔
      as.getD index [] = bs.getD index [] := by
  rw [getElem?_padLines (by omega), getElem?_padLines (by omega)]
  split
  · exact Option.some_inj
  · rw [List.getD_eq_getElem?_getD, List.getD_eq_getElem?_getD, List.getElem?_eq_none (by omega),
      List.getElem?_eq_none (by omega)]
    exact iff_of_true rfl rfl

def FirstAt (news refs : List Text) (index : Nat) : Prop :=
  news[index]? ≠ refs[index]? ∧ ∀ earlier < index, news[earlier]? = refs[earlier]?

theorem FirstAt.unique (h : FirstAt as bs index) (h' : FirstAt as bs other) : index = other := by
  rcases Nat.lt_trichotomy index other with hlt | heq | hlt
  · exact absurd (h'.2 index hlt) h.1
  · exact heq
  · exact absurd (h.2 other hlt) h'.1

theorem firstFrom_none (h : firstFrom number as bs = none) (index : Nat) :
    as.getD index [] = bs.getD index [] := by
  fun_induction firstFrom number as bs generalizing index with
  | case1 => rfl
  | case2 number as ih | case4 number bs ih | case6 number as b bs ih =>
    cases index with
    | zero => rfl
    | succ index => simpa using ih h index
  | case3 | case5 | case7 => cases h

theorem firstFrom_some (h : firstFrom number as bs = some (found, a, b)) :
    ∃ index, found = number + index ∧ as.getD index [] = a ∧ bs.getD index [] = b ∧ a ≠ b ∧
      ∀ earlier < index, as.getD earlier [] = bs.getD earlier [] := by
  -- The lines passed over are equal, and what is found after them lies one further on.
  fun_induction firstFrom number as bs with
  | case1 => cases h
  | case2 number as ih | case4 number bs ih | case6 number as b bs ih =>
    obtain ⟨index, rfl, ha, hb, hne, hearlier⟩ := ih h
    refine ⟨index + 1, by omega, by simpa using ha, by simpa using hb, hne, fun earlier hlt => ?_⟩
    cases earlier with
    | zero => rfl
    | succ earlier => simpa using hearlier earlier (by omega)
  | case3 number a as hne =>
    cases h
    exact ⟨0, rfl, rfl, rfl, hne, fun _ hlt => absurd hlt (Nat.not_lt_zero _)⟩
  | case5 number b bs hne =>
    cases h
    exact ⟨0, rfl, rfl, rfl, Ne.symm hne, fun _ hlt => absurd hlt (Nat.not_lt_zero _)⟩
  | case7 number a as b bs hne =>
    cases h
    exact ⟨0, rfl, rfl, rfl, hne, fun _ hlt => absurd hlt (Nat.not_lt_zero _)⟩

def width (a b : Text) : Nat := max a.length b.length

/-- The places at which two lines differ, a missing character being a blank. -/
def marks (a b : Text) : List Bool :=
  ((Text.padRight (width a b) a).zip (Text.padRight (width a b) b)).map fun pair =>
    decide (pair.1 ≠ pair.2)

def colourAt (colour : Text) : List Bool → Text → Text
  | marked :: marks, c :: line =>
    (if marked then Colour.paint colour [c] else [c]) ++ colourAt colour marks line
  | _, _ => []

/-- A text without the codes around its marked characters. -/
def bleachAt (colour : Text) : List Bool → Text → Text
  | [], text => text
  | false :: marks, text => text.take 1 ++ bleachAt colour marks (text.drop 1)
  | true :: marks, text =>
    (text.drop colour.length).take 1 ++
      bleachAt colour marks (text.drop (colour.length + 1 + Colour.reset.length))

theorem bleachAt_colourAt (colour : Text) (marks : List Bool) (line : Text)
    (h : line.length = marks.length) : bleachAt colour marks (colourAt colour marks line) = line := by
  induction marks generalizing line with
  | nil => rw [List.length_eq_zero_iff.mp h, colourAt, bleachAt]; simp
  | cons marked marks ih =>
    obtain ⟨c, line, rfl⟩ := List.exists_cons_of_length_eq_add_one h
    have hrest := ih line (Nat.succ.inj h)
    cases marked with
    | false => simp [colourAt, bleachAt, hrest]
    | true =>
      have hdrop : (colour ++ [c] ++ Colour.reset ++ colourAt colour marks line).drop
          (colour.length + 1 + Colour.reset.length) = colourAt colour marks line :=
        List.drop_left' (by simp; omega)
      simp only [colourAt, bleachAt, if_true, Colour.paint]
      rw [hdrop, hrest]
      simp

theorem length_padRight (h : a.length ≤ count) : (Text.padRight count a).length = count := by
  simp [Text.padRight, Nat.add_sub_cancel' h]

theorem length_padRight_left (a b : Text) : (Text.padRight (width a b) a).length = width a b :=
  length_padRight (Nat.le_max_left _ _)

theorem length_padRight_right (a b : Text) : (Text.padRight (width a b) b).length = width a b :=
  length_padRight (Nat.le_max_right _ _)

theorem length_marks (a b : Text) : (marks a b).length = width a b := by
  rw [marks, List.length_map, List.length_zip, length_padRight_left, length_padRight_right,
    Nat.min_self]

theorem flatMap_paintPair (xs ys : Text) :
    (xs.zip ys).flatMap (fun pair => (paintPair pair).1) =
        colourAt Colour.red ((xs.zip ys).map fun pair => decide (pair.1 ≠ pair.2)) xs ∧
      (xs.zip ys).flatMap (fun pair => (paintPair pair).2) =
        colourAt Colour.green ((xs.zip ys).map fun pair => decide (pair.1 ≠ pair.2)) ys := by
  induction xs generalizing ys with
  | nil => exact ⟨rfl, by cases ys <;> rfl⟩
  | cons x xs ih =>
    cases ys with
    | nil => exact ⟨rfl, rfl⟩
    | cons y ys =>
      obtain ⟨hleft, hright⟩ := ih ys
      rw [List.zip_cons_cons, List.flatMap_cons, List.flatMap_cons, List.map_cons, hleft, hright]
      by_cases h : x = y <;> simp [colourAt, paintPair, h]

/-- The marked characters are coloured, and no others. -/
theorem paintLines_eq (a b : Text) :
    paintLines a b = (decide (true ∈ marks a b),
      colourAt Colour.red (marks a b) (Text.padRight (width a b) a),
      colourAt Colour.green (marks a b) (Text.padRight (width a b) b)) := by
  obtain ⟨hleft, hright⟩ :=
    flatMap_paintPair (Text.padRight (width a b) a) (Text.padRight (width a b) b)
  have hany : (paintLines a b).1 = decide (true ∈ marks a b) := by
    rw [Bool.eq_iff_iff, decide_eq_true_eq, paintLines, marks]
    simp [width]
  exact Prod.ext hany (Prod.ext hleft hright)

/-- Without the codes the lines are as they were, filled up with blanks. -/
theorem bleachAt_paintLines (a b : Text) :
    bleachAt Colour.red (marks a b) (paintLines a b).2.1 = Text.padRight (width a b) a ∧
      bleachAt Colour.green (marks a b) (paintLines a b).2.2 = Text.padRight (width a b) b := by
  rw [paintLines_eq]
  exact ⟨bleachAt_colourAt _ _ _ ((length_padRight_left a b).trans (length_marks a b).symm),
    bleachAt_colourAt _ _ _ ((length_padRight_right a b).trans (length_marks a b).symm)⟩

theorem exists_ne_iff {xs ys : Text} (h : xs.length = ys.length) :
    true ∈ ((xs.zip ys).map fun pair => decide (pair.1 ≠ pair.2)) ↔ xs ≠ ys := by
  induction xs generalizing ys with
  | nil => rw [List.length_eq_zero_iff.mp h.symm]; simp
  | cons x xs ih =>
    obtain ⟨y, ys, rfl⟩ := List.exists_cons_of_length_eq_add_one h.symm
    rw [List.zip_cons_cons, List.map_cons, List.mem_cons, ih (Nat.succ.inj h)]
    by_cases hxy : x = y <;> simp [hxy]

def SameButBlanks (a b : Text) : Prop :=
  ∃ count, a = b ++ List.replicate count ' ' ∨ b = a ++ List.replicate count ' '

theorem padRight_eq_iff : Text.padRight (width a b) a = Text.padRight (width a b) b ↔
    SameButBlanks a b := by
  constructor
  · intro h
    rcases Nat.le_total a.length b.length with hle | hle
    · refine ⟨b.length - a.length, .inr ?_⟩
      simpa [Text.padRight, width, Nat.max_eq_right hle] using h.symm
    · refine ⟨a.length - b.length, .inl ?_⟩
      simpa [Text.padRight, width, Nat.max_eq_left hle] using h
  · rintro ⟨count, rfl | rfl⟩
    · simp [Text.padRight, width]
    · simp [Text.padRight, width]

theorem true_mem_marks_iff : true ∈ marks a b ↔ ¬ SameButBlanks a b := by
  rw [marks, exists_ne_iff ((length_padRight_left a b).trans (length_padRight_right a b).symm), ne_eq,
    padRight_eq_iff]

theorem find_none (h : firstFrom 1 (Text.displayLines new) (Text.displayLines ref) = none) :
    find new ref nameNew nameRef = (0, []) := by
  rw [find, h]

theorem find_some (h : firstFrom 1 (Text.displayLines new) (Text.displayLines ref) = some (found, a, b)) :
    find new ref nameNew nameRef = (found, [numbered found (paintLines a b).2.1 nameNew,
      numbered found (paintLines a b).2.2 nameRef]) := by
  rw [find, h]

theorem find_cases (new ref nameNew nameRef : Text) :
    let count := max (Text.displayLines new).length (Text.displayLines ref).length
    let news := padLines count (Text.displayLines new)
    let refs := padLines count (Text.displayLines ref)
    (news = refs ∧ find new ref nameNew nameRef = (0, [])) ∨
    ∃ index a b, FirstAt news refs index ∧ news[index]? = some a ∧ refs[index]? = some b ∧
      find new ref nameNew nameRef = (index + 1, [numbered (index + 1) (paintLines a b).2.1 nameNew,
        numbered (index + 1) (paintLines a b).2.2 nameRef]) := by
  intro count news refs
  cases hfirst : firstFrom 1 (Text.displayLines new) (Text.displayLines ref) with
  | none =>
    refine .inl ⟨List.ext_getElem? fun index => ?_, find_none hfirst⟩
    exact (getElem?_padLines_eq_iff index).mpr (firstFrom_none hfirst index)
  | some first =>
    obtain ⟨found, a, b⟩ := first
    obtain ⟨index, rfl, rfl, rfl, hne, hearlier⟩ := firstFrom_some hfirst
    have hdiffer : news[index]? ≠ refs[index]? := mt (getElem?_padLines_eq_iff index).mp hne
    -- Past the count both lists have ended, so the lines that differ lie before it.
    have hcount : index < count := by
      refine Decidable.byContradiction fun hcount => hdiffer ?_
      rw [getElem?_padLines (Nat.le_max_left _ _), getElem?_padLines (Nat.le_max_right _ _),
        if_neg hcount, if_neg hcount]
    refine .inr ⟨index, (Text.displayLines new).getD index [], (Text.displayLines ref).getD index [],
      ⟨hdiffer, fun earlier hlt => ?_⟩, ?_, ?_, ?_⟩
    · exact (getElem?_padLines_eq_iff earlier).mpr (hearlier earlier hlt)
    · rw [getElem?_padLines (Nat.le_max_left _ _), if_pos hcount]
    · rw [getElem?_padLines (Nat.le_max_right _ _), if_pos hcount]
    · rw [find_some hfirst, Nat.add_comm 1 index]

theorem find_number (new ref nameNew nameRef : Text) :
    let count := max (Text.displayLines new).length (Text.displayLines ref).length
    let news := padLines count (Text.displayLines new)
    let refs := padLines count (Text.displayLines ref)
    let found := find new ref nameNew nameRef
    (found.1 = 0 ↔ news = refs) ∧ (found.1 = 0 → found.2 = []) ∧
    (∀ index, found.1 = index + 1 ↔ FirstAt news refs index) ∧
    ∀ index a b, found.1 = index + 1 → news[index]? = some a → refs[index]? = some b →
      a ≠ b ∧ found.2 = [numbered (index + 1) (paintLines a b).2.1 nameNew,
        numbered (index + 1) (paintLines a b).2.2 nameRef] := by
  intro count news refs found
  obtain ⟨heq, hfound⟩ | ⟨first, a, b, hfirst, ha, hb, hfound⟩ := find_cases new ref nameNew nameRef
  · have hzero : found = (0, []) := hfound
    rw [hzero]
    refine ⟨iff_of_true rfl heq, fun _ => rfl, fun index => ?_, fun index a b hindex => ?_⟩
    · exact iff_of_false (Nat.succ_ne_zero index).symm fun h => h.1 (congrArg (·[index]?) heq)
    · exact absurd hindex (Nat.succ_ne_zero index).symm
  · have hsome : found = _ := hfound
    rw [hsome]
    refine ⟨iff_of_false (Nat.succ_ne_zero first) fun h => hfirst.1 (congrArg (·[first]?) h),
      fun h => absurd h (Nat.succ_ne_zero first), fun index => ⟨fun h => ?_, fun h => ?_⟩,
      fun index a' b' hindex ha' hb' => ?_⟩
    · exact Nat.succ.inj h ▸ hfirst
    · exact congrArg (· + 1) (hfirst.unique h)
    · obtain rfl : first = index := Nat.succ.inj hindex
      obtain rfl : a = a' := Option.some_inj.mp (ha.symm.trans ha')
      obtain rfl : b = b' := Option.some_inj.mp (hb.symm.trans hb')
      exact ⟨fun h => hfirst.1 (ha.trans ((congrArg some h).trans hb.symm)), rfl⟩

/-- The number found is that of the first line that differs when the shorter text is filled up
with empty lines, or zero. Both lines are shown, filled up with blanks to the same length, and
coloured just where they differ then; without the codes they are as before. So a character of
each is coloured unless the lines are the same but for blanks at the end. -/
theorem find_report (new ref nameNew nameRef : Text) :
    let count := max (Text.displayLines new).length (Text.displayLines ref).length
    let news := padLines count (Text.displayLines new)
    let refs := padLines count (Text.displayLines ref)
    let found := find new ref nameNew nameRef
    (found.1 = 0 ↔ news = refs) ∧ (found.1 = 0 → found.2 = []) ∧
    (∀ index, found.1 = index + 1 ↔ FirstAt news refs index) ∧
    (∀ index a b, found.1 = index + 1 → news[index]? = some a → refs[index]? = some b →
      a ≠ b ∧ found.2 = [numbered (index + 1) (paintLines a b).2.1 nameNew,
        numbered (index + 1) (paintLines a b).2.2 nameRef]) ∧
    ∀ a b,
      paintLines a b = (decide (true ∈ marks a b),
        colourAt Colour.red (marks a b) (Text.padRight (width a b) a),
        colourAt Colour.green (marks a b) (Text.padRight (width a b) b)) ∧
      bleachAt Colour.red (marks a b) (paintLines a b).2.1 = Text.padRight (width a b) a ∧
      bleachAt Colour.green (marks a b) (paintLines a b).2.2 = Text.padRight (width a b) b ∧
      (Text.padRight (width a b) a).length = width a b ∧
      (Text.padRight (width a b) b).length = width a b ∧
      (true ∈ marks a b ↔ ¬ SameButBlanks a b) := by
  intro count news refs found
  obtain ⟨hzero, hnothing, hnumber, hshown⟩ := find_number new ref nameNew nameRef
  refine ⟨hzero, hnothing, hnumber, hshown, fun a b => ?_⟩
  obtain ⟨hred, hgreen⟩ := bleachAt_paintLines a b
  exact ⟨paintLines_eq a b, hred, hgreen, length_padRight_left a b, length_padRight_right a b,
    true_mem_marks_iff⟩

theorem find_report_sample :
    let found := find "a\nbcd" "a\nbx\n" "new" "ref"
    found.1 = 2 ∧ found.2 = [numbered 2 (paintLines "bcd" "bx").2.1 "new",
      numbered 2 (paintLines "bcd" "bx").2.2 "ref"] ∧
    (paintLines "bcd" "bx").2.1 = "b\x1b[31mc\x1b[0m\x1b[31md\x1b[0m".toList ∧
    (paintLines "bcd" "bx").2.2 = "b\x1b[32mx\x1b[0m\x1b[32m \x1b[0m".toList ∧
    true ∈ marks "bcd" "bx" := by
  obtain ⟨-, -, -, hshown, -⟩ := find_report "a\nbcd" "a\nbx\n" "new" "ref"
  have hnew : Text.displayLines "a\nbcd" = ["a".toList, "bcd".toList] := by decide +kernel
  have href : Text.displayLines "a\nbx\n" = ["a".toList, "bx".toList] := by decide +kernel
  have hfirst : firstFrom 1 (Text.displayLines "a\nbcd") (Text.displayLines "a\nbx\n") =
      some (2, "bcd".toList, "bx".toList) := by
    rw [hnew, href, firstFrom, if_pos rfl, firstFrom, if_neg (by decide)]
  have hnumber : (find "a\nbcd" "a\nbx\n" "new" "ref").1 = 1 + 1 := by rw [find_some hfirst]
  refine ⟨hnumber, ?_, by decide +kernel, by decide +kernel, by decide +kernel⟩
  exact (hshown 1 "bcd" "bx" hnumber (by decide +kernel) (by decide +kernel)).2

/-- A line with a blank more at its end is found to differ, and nothing of it is coloured. -/
theorem find_blank_at_end :
    find "x " "x" "new" "ref" =
      (1, ["     1 | x  # new".toList, "     1 | x  # ref".toList]) ∧
    ¬ true ∈ marks "x " "x" := by
  have hnew : Text.displayLines "x " = ["x ".toList] := by decide +kernel
  have href : Text.displayLines "x" = ["x".toList] := by decide +kernel
  have hfirst : firstFrom 1 (Text.displayLines "x ") (Text.displayLines "x") =
      some (1, "x ".toList, "x".toList) := by
    rw [hnew, href, firstFrom, if_neg (by decide)]
  rw [find_some hfirst]
  decide +kernel

end InfinityScript.Difference
