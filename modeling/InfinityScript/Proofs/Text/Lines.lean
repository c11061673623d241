import InfinityScript.Text.Basic

/-!
# Lines and their statements

Blanks around a line change nothing of what it says (`statement_trim`), and lines
that are written one below the other are read back as they were
(`physicalLines_ofLines`).
-/

namespace InfinityScript.Text

-- --------------------
-- Blanks at the ends
-- --------------------

theorem trim_cons (h : isBlank c) (text : Text) : trim (c :: text) = trim text := by
  simp [trim, trimLeft, h]

theorem trim_append_left (h : ∀ c ∈ blanks, isBlank c) (text : Text) :
    trim (blanks ++ text) = trim text := by
  induction blanks with
  | nil => rfl
  | cons c blanks ih =>
    rw [List.cons_append, trim_cons (h c (by simp)), ih fun d hd => h d (by simp [hd])]

theorem trimRight_concat (h : isBlank c) (text : Text) : trimRight (text ++ [c]) = trimRight text := by
  simp [trimRight, h]

theorem trim_concat (h : isBlank c) (text : Text) : trim (text ++ [c]) = trim text := by
  induction text with
  | nil => simp [trim, trimLeft, h]
  | cons d text ih =>
    cases hd : isBlank d with
    | true => rw [List.cons_append, trim_cons hd, trim_cons hd, ih]
    | false =>
      have hleft : ∀ rest, trimLeft (d :: rest) = d :: rest := fun rest => by
        simp [trimLeft, hd]
      rw [List.cons_append, trim, trim, hleft, hleft, ← List.cons_append, trimRight_concat h]

/-- A text is its trimmed middle between blanks. -/
theorem exists_trim (text : Text) :
    ∃ before after, text = before ++ trim text ++ after ∧
      (∀ c ∈ before, isBlank c) ∧ ∀ c ∈ after, isBlank c := by
  refine ⟨text.takeWhile isBlank, ((trimLeft text).reverse.takeWhile isBlank).reverse, ?_, ?_, ?_⟩
  · have hright : trim text ++ ((trimLeft text).reverse.takeWhile isBlank).reverse =
        trimLeft text := by
      rw [trim, trimRight, ← List.reverse_append, List.takeWhile_append_dropWhile,
        List.reverse_reverse]
    rw [List.append_assoc, hright, trimLeft, List.takeWhile_append_dropWhile]
  · exact List.all_eq_true.mp List.all_takeWhile
  · intro c hc
    exact List.all_eq_true.mp List.all_takeWhile c (List.mem_reverse.mp hc)

theorem trim_append (hbefore : ∀ c ∈ before, isBlank c) (hafter : ∀ c ∈ after, isBlank c)
    (text : Text) : trim (before ++ text ++ after) = trim text := by
  rw [List.append_assoc, trim_append_left hbefore]
  induction after generalizing text with
  | nil => rw [List.append_nil]
  | cons c after ih =>
    rw [← List.singleton_append, ← List.append_assoc, ih fun d hd => hafter d (by simp [hd]),
      trim_concat (hafter c (by simp))]

@[simp] theorem trim_trim (text : Text) : trim (trim text) = trim text := by
  obtain ⟨before, after, htext, hbefore, hafter⟩ := exists_trim text
  have htrim := trim_append hbefore hafter (trim text)
  rw [← htext] at htrim
  exact htrim.symm

theorem trim_eq_nil_iff : trim text = [] ↔ ∀ c ∈ text, isBlank c := by
  constructor
  · intro h
    obtain ⟨before, after, htext, hbefore, hafter⟩ := exists_trim text
    intro c hc
    rw [htext, h, List.append_nil] at hc
    exact (List.mem_append.mp hc).elim (hbefore c) (hafter c)
  · intro h
    have hnil := trim_append_left h []
    rw [List.append_nil] at hnil
    exact hnil

theorem length_trim_le (text : Text) : (trim text).length ≤ text.length := by
  obtain ⟨before, after, htext, -, -⟩ := exists_trim text
  have hlength := congrArg List.length htext
  simp only [List.length_append] at hlength
  omega

theorem isBlank_head_trimLeft (text : Text) :
    ∀ c ∈ (trimLeft text).head?, isBlank c = false := by
  intro c hc
  have hhead := List.head?_dropWhile_not isBlank text
  rw [← trimLeft, hc] at hhead
  simpa using hhead

theorem trimLeft_eq_self (h : ∀ c ∈ text.head?, isBlank c = false) : trimLeft text = text := by
  cases text with
  | nil => rfl
  | cons c text => simp [trimLeft, h c (by simp)]

theorem trim_eq_self (hfirst : ∀ c ∈ text.head?, isBlank c = false)
    (hlast : ∀ c ∈ text.getLast?, isBlank c = false) : trim text = text := by
  rw [trim, trimLeft_eq_self hfirst, trimRight]
  have hreverse : trimLeft text.reverse = text.reverse := trimLeft_eq_self (by simpa using hlast)
  rw [trimLeft] at hreverse
  rw [hreverse, List.reverse_reverse]

theorem isBlank_head_of_trim_eq_self (h : trim text = text) :
    ∀ c ∈ text.head?, isBlank c = false := by
  intro c hc
  cases text with
  | nil => cases hc
  | cons d text =>
    obtain rfl : d = c := by simpa using hc
    refine Bool.eq_false_iff.mpr fun hblank => ?_
    have hlength := length_trim_le text
    rw [← trim_cons hblank, h, List.length_cons] at hlength
    omega

theorem trimRight_isPrefix (text : Text) : trimRight text <+: text := by
  rw [trimRight, ← List.reverse_suffix, List.reverse_reverse]
  exact List.dropWhile_suffix _

/-- The text ends, and not with a blank. -/
def EndsVisibly (text : Text) : Prop := ∃ c, text.getLast? = some c ∧ isBlank c = false

theorem endsVisibly_append (h : EndsVisibly after) (before : Text) : EndsVisibly (before ++ after) := by
  obtain ⟨c, hc, hblank⟩ := h
  exact ⟨c, by simp [hc], hblank⟩

theorem trimRight_append (h : EndsVisibly before) (text : Text) :
    trimRight (before ++ text) = before ++ trimRight text := by
  obtain ⟨c, hc, hblank⟩ := h
  obtain ⟨rest, rfl⟩ := List.getLast?_eq_some_iff.mp hc
  simp only [trimRight, List.reverse_append, List.dropWhile_append]
  split
  · next hempty => simp [List.isEmpty_iff.mp hempty, hblank]
  · simp

theorem trimRight_eq_self (h : EndsVisibly text) : trimRight text = text := by
  have happend := trimRight_append h []
  rwa [List.append_nil, show trimRight [] = [] from rfl, List.append_nil] at happend

theorem trimRight_quote (text : Text) : trimRight ('"' :: text) = '"' :: trimRight text := by
  have hvisible : EndsVisibly ['"'] := ⟨'"', rfl, by decide⟩
  exact trimRight_append hvisible text

theorem endsVisibly_trimRight (h : trimRight text ≠ []) : EndsVisibly (trimRight text) := by
  obtain ⟨c, hc⟩ := Option.isSome_iff_exists.mp (List.getLast?_isSome.mpr h)
  refine ⟨c, hc, ?_⟩
  rw [trimRight, List.getLast?_reverse] at hc
  have hhead := List.head?_dropWhile_not isBlank text.reverse
  rw [hc] at hhead
  simpa using hhead

theorem trim_eq_trimLeft (h : EndsVisibly text) : trim text = trimLeft text := by
  obtain ⟨c, hc, hblank⟩ := h
  obtain ⟨rest, rfl⟩ := List.getLast?_eq_some_iff.mp hc
  refine trimRight_eq_self ⟨c, ?_, hblank⟩
  simp only [trimLeft, List.dropWhile_append]
  split
  · simp [hblank]
  · simp

theorem trim_trimRight (text : Text) : trim (trimRight text) = trim text := by
  have hsplit : text = [] ++ trimRight text ++ (text.reverse.takeWhile isBlank).reverse := by
    rw [List.nil_append, trimRight, ← List.reverse_append, List.takeWhile_append_dropWhile,
      List.reverse_reverse]
  have hblanks : ∀ c ∈ (text.reverse.takeWhile isBlank).reverse, isBlank c := fun c hc =>
    List.all_eq_true.mp List.all_takeWhile c (List.mem_reverse.mp hc)
  conv => rhs; rw [hsplit, trim_append (by simp) hblanks]

-- --------------------
-- Comments
-- --------------------

theorem isBlank_ne_slash (h : isBlank c) : c ≠ '/' := by
  rintro rfl
  exact absurd h (by decide)

theorem beforeComment_cons (h : c ≠ '/') (text : Text) :
    beforeComment (c :: text) = c :: beforeComment text := by
  rw [beforeComment]
  rintro rest rfl
  exact absurd rfl h

theorem beforeComment_concat (h : c ≠ '/') (text : Text) :
    beforeComment (text ++ [c]) = beforeComment text ∨
      beforeComment (text ++ [c]) = beforeComment text ++ [c] := by
  fun_induction beforeComment text with
  | case1 => exact .inr (beforeComment_cons h [])
  | case2 rest => exact .inl (by simp [beforeComment])
  | case3 d rest hrest ih =>
    have hcons : beforeComment (d :: (rest ++ [c])) = d :: beforeComment (rest ++ [c]) := by
      rw [beforeComment]
      rintro more rfl hmore
      cases rest with
      | nil => exact h (List.cons.inj hmore).1
      | cons e rest =>
        obtain rfl := (List.cons.inj hmore).1
        exact hrest rest rfl rfl
    rw [List.cons_append, hcons]
    rcases ih with ih | ih
    · exact .inl (by rw [ih])
    · exact .inr (by rw [ih, List.cons_append])

theorem beforeComment_isPrefix (line : Text) : beforeComment line <+: line := by
  fun_induction beforeComment line with
  | case1 => exact List.prefix_rfl
  | case2 rest => exact List.nil_prefix
  | case3 c rest _ ih => exact (List.cons_prefix_cons).mpr ⟨rfl, ih⟩

theorem beforeComment_eq_self (h : '/' ∉ line) : beforeComment line = line := by
  induction line with
  | nil => rfl
  | cons c line ih =>
    rw [beforeComment_cons (fun e => h (by simp [e])), ih fun hmem => h (by simp [hmem])]

theorem not_infix_beforeComment (line : Text) : ¬ (['/', '/'] <:+: beforeComment line) := by
  fun_induction beforeComment line with
  | case1 => simp
  | case2 rest => simp
  | case3 c rest hcomment ih =>
    rw [List.infix_cons_iff, not_or]
    refine ⟨fun hbegins => ?_, ih⟩
    obtain ⟨hc, hrest⟩ := List.cons_prefix_cons.mp hbegins
    obtain ⟨more, hmore⟩ := hrest.trans (beforeComment_isPrefix rest)
    exact hcomment more hc.symm (by simpa using hmore.symm)

theorem beforeComment_eq_self_of_not_infix (h : ¬ (['/', '/'] <:+: line)) :
    beforeComment line = line := by
  fun_induction beforeComment line with
  | case1 => rfl
  | case2 rest => exact absurd (List.infix_append [] _ rest) h
  | case3 c rest _ ih => rw [ih fun hrest => h (hrest.trans (List.suffix_cons c rest).isInfix)]

/-- A comment does not begin before a character that is no slash. -/
theorem beforeComment_append (hbefore : beforeComment before = before) (hc : c ≠ '/')
    (text : Text) : beforeComment (before ++ c :: text) = before ++ c :: beforeComment text := by
  fun_induction beforeComment before with
  | case1 => exact beforeComment_cons hc text
  | case2 rest => cases hbefore
  | case3 d rest hcomment ih =>
    have hcons : beforeComment (d :: (rest ++ c :: text)) = d :: beforeComment (rest ++ c :: text) := by
      rw [beforeComment]
      intro more hd hmore
      cases rest with
      | nil => exact hc (List.cons.inj hmore).1
      | cons e rest => exact hcomment rest hd (congrArg (· :: rest) (List.cons.inj hmore).1)
    rw [List.cons_append, hcons, ih (List.cons.inj hbefore).2, List.cons_append]

theorem statement_cons (h : isBlank c) (line : Text) : statement (c :: line) = statement line := by
  rw [statement, beforeComment_cons (isBlank_ne_slash h), trim_cons h, statement]

theorem statement_concat (h : isBlank c) (line : Text) : statement (line ++ [c]) = statement line := by
  rcases beforeComment_concat (isBlank_ne_slash h) line with hline | hline
  · rw [statement, hline, statement]
  · rw [statement, hline, trim_concat h, statement]

theorem statement_append (hbefore : ∀ c ∈ before, isBlank c) (hafter : ∀ c ∈ after, isBlank c)
    (line : Text) : statement (before ++ line ++ after) = statement line := by
  have hright : statement (line ++ after) = statement line := by
    induction after generalizing line with
    | nil => rw [List.append_nil]
    | cons c after ih =>
      rw [← List.singleton_append, ← List.append_assoc, ih fun d hd => hafter d (by simp [hd]),
        statement_concat (hafter c (by simp))]
  rw [List.append_assoc, ← hright]
  induction before with
  | nil => rfl
  | cons c before ih =>
    rw [List.cons_append, statement_cons (hbefore c (by simp)), ih fun d hd => hbefore d (by simp [hd])]

@[simp] theorem statement_trim (line : Text) : statement (trim line) = statement line := by
  obtain ⟨before, after, hline, hbefore, hafter⟩ := exists_trim line
  have hstatement := statement_append hbefore hafter (trim line)
  rw [← hline] at hstatement
  exact hstatement.symm

theorem statement_isPrefix (h : trim line = line) : statement line <+: line := by
  have hfirst : ∀ c ∈ (beforeComment line).head?, isBlank c = false := by
    obtain ⟨rest, hrest⟩ := beforeComment_isPrefix line
    intro c hc
    refine isBlank_head_of_trim_eq_self h c ?_
    rw [← hrest]
    cases hcomment : beforeComment line with
    | nil => simp [hcomment] at hc
    | cons d text => simpa [hcomment] using hc
  rw [statement, trim, trimLeft_eq_self hfirst]
  exact (trimRight_isPrefix _).trans (beforeComment_isPrefix line)

-- --------------------
-- Physical lines
-- --------------------

theorem splitOn_eq_singleton (h : mark ∉ text) : splitOn mark text = [text] := by
  induction text with
  | nil => rfl
  | cons c text ih =>
    have hc : c ≠ mark := fun e => h (by simp [e])
    rw [splitOn, if_neg hc, ih fun hm => h (by simp [hm])]

theorem splitOn_append (h : mark ∉ piece) (rest : Text) :
    splitOn mark (piece ++ mark :: rest) = piece :: splitOn mark rest := by
  induction piece with
  | nil => rw [List.nil_append, splitOn, if_pos rfl]
  | cons c piece ih =>
    have hc : c ≠ mark := fun e => h (by simp [e])
    rw [List.cons_append, splitOn, if_neg hc, ih fun hm => h (by simp [hm])]

theorem splitOn_ofLines (h : ∀ line ∈ lines, '\n' ∉ line) :
    splitOn '\n' (ofLines lines) = lines ++ [[]] := by
  induction lines with
  | nil => rfl
  | cons line lines ih =>
    have hcons : ofLines (line :: lines) = line ++ '\n' :: ofLines lines := by simp [ofLines]
    rw [hcons, splitOn_append (h line (by simp)), ih fun l hl => h l (by simp [hl])]
    rfl

theorem physicalLines_ofLines (h : ∀ line ∈ lines, '\n' ∉ line) :
    physicalLines (ofLines lines) = lines := by
  simp [physicalLines, splitOn_ofLines h]

theorem physicalLines_singleton (hne : text ≠ []) (h : '\n' ∉ text) :
    physicalLines text = [text] := by
  simp [physicalLines, splitOn_eq_singleton h, hne]

theorem splitOn_ne_nil (mark : Char) (text : Text) : splitOn mark text ≠ [] := by
  fun_induction splitOn mark text <;> simp

theorem splitOn_append_mark (mark : Char) (text rest : Text) :
    splitOn mark (text ++ mark :: rest) = splitOn mark text ++ splitOn mark rest := by
  induction text with
  | nil => simp [splitOn]
  | cons c text ih =>
    by_cases hc : c = mark
    · simp [splitOn, hc, ih]
    · rw [List.cons_append, splitOn, if_neg hc, ih, splitOn, if_neg hc]
      cases hpieces : splitOn mark text with
      | nil => exact absurd hpieces (splitOn_ne_nil mark text)
      | cons piece pieces => rfl

theorem exists_physicalLines_append (h : '\n' ∉ line) (rest : Text) :
    ∃ lines, physicalLines (line ++ '\n' :: rest) = line :: lines := by
  obtain ⟨piece, pieces, hpieces⟩ := List.exists_cons_of_ne_nil (splitOn_ne_nil '\n' rest)
  simp only [physicalLines, splitOn_append h, hpieces]
  split
  · exact ⟨_, rfl⟩
  · exact ⟨_, rfl⟩

theorem beforeComment_trim_eq_self (h : statement text = text) :
    beforeComment text = text ∧ trim text = text := by
  have hlength := length_trim_le (beforeComment text)
  rw [← statement, h] at hlength
  have hcomment := (beforeComment_isPrefix text).eq_of_length_le hlength
  refine ⟨hcomment, ?_⟩
  rwa [statement, hcomment] at h

theorem statement_append_cons (hbefore : statement before = before) (hvisible : isBlank c = false)
    (hslash : c ≠ '/') (hafter : beforeComment after = after) :
    statement (before ++ c :: after) = before ++ c :: trimRight after := by
  obtain ⟨hcomment, htrim⟩ := beforeComment_trim_eq_self hbefore
  have hfirst : ∀ d ∈ (before ++ c :: after).head?, isBlank d = false := by
    cases before with
    | nil => simpa using hvisible
    | cons d before => exact fun e he => isBlank_head_of_trim_eq_self htrim e he
  have hmark : EndsVisibly (before ++ [c]) := ⟨c, by simp, hvisible⟩
  rw [statement, beforeComment_append hcomment hslash, hafter, trim, trimLeft_eq_self hfirst,
    List.append_cons, trimRight_append hmark, ← List.append_cons]

end InfinityScript.Text
