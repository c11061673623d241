import InfinityScript.Proofs.Text.Lines
import InfinityScript.Proofs.Text.Numeral

/-!
# Cutting and joining texts

Where a text is cut at a mark, and which characters the pieces have.
-/

namespace InfinityScript.Text

theorem cut?_append {mark : Char} {body : Text} (h : mark ∉ body) (rest : Text) :
    cut? mark (body ++ mark :: rest) = some (body, rest) := by
  induction body with
  | nil => simp [cut?]
  | cons c body ih =>
    have hc : c ≠ mark := fun e => h (by simp [e])
    rw [List.cons_append, cut?, if_neg hc, ih (fun hm => h (by simp [hm]))]
    rfl

theorem cut?_eq_none {mark : Char} {text : Text} (h : mark ∉ text) : cut? mark text = none := by
  induction text with
  | nil => rfl
  | cons c text ih =>
    have hc : c ≠ mark := fun e => h (by simp [e])
    rw [cut?, if_neg hc, ih (fun hm => h (by simp [hm]))]
    rfl

theorem cut?_eq_none_iff {mark : Char} {text : Text} : cut? mark text = none ↔ mark ∉ text := by
  refine ⟨fun h hmem => ?_, cut?_eq_none⟩
  obtain ⟨before, after, rfl, hbefore⟩ := List.eq_append_cons_of_mem hmem
  rw [cut?_append hbefore] at h
  cases h

theorem cut?_eq_some {mark : Char} {text : Text} (h : cut? mark text = some (before, after)) :
    mark ∉ before ∧ text = before ++ mark :: after := by
  by_cases hmem : mark ∈ text
  · obtain ⟨body, rest, rfl, hbody⟩ := List.eq_append_cons_of_mem hmem
    rw [cut?_append hbody] at h
    cases h
    exact ⟨hbody, rfl⟩
  · rw [cut?_eq_none hmem] at h
    cases h

theorem cutLast?_append (h : mark ∉ after) (before : Text) :
    cutLast? mark (before ++ mark :: after) = some (before, after) := by
  have hcut := @cut?_append mark after.reverse (by simpa using h) before.reverse
  simp [cutLast?, hcut]

theorem cutLast?_eq_none (h : mark ∉ text) : cutLast? mark text = none := by
  simp [cutLast?, @cut?_eq_none mark text.reverse (by simpa using h)]

theorem cutLast?_eq_some (h : cutLast? mark text = some (before, after)) :
    text = before ++ mark :: after := by
  obtain ⟨⟨last, first⟩, hcut, hparts⟩ := Option.map_eq_some_iff.mp h
  obtain ⟨rfl, rfl⟩ := Prod.mk.inj hparts
  have hreverse := congrArg List.reverse (cut?_eq_some hcut).2
  simpa using hreverse

theorem splitOn_isInfix (mark : Char) (text : Text) :
    (∀ first ∈ (splitOn mark text).head?, first <+: text) ∧
      ∀ piece ∈ splitOn mark text, piece <:+: text := by
  induction text with
  | nil => simp [splitOn]
  | cons c text ih =>
    obtain ⟨hfirst, hpieces⟩ := ih
    have hlater : ∀ piece ∈ splitOn mark text, piece <:+: c :: text := fun piece hpiece =>
      (hpieces piece hpiece).trans (List.suffix_cons c text).isInfix
    rw [splitOn]
    split
    · exact ⟨by simp, List.forall_mem_cons.mpr ⟨List.nil_infix, hlater⟩⟩
    · split
      · next hnone => exact absurd hnone (splitOn_ne_nil mark text)
      · next first pieces hsplit =>
        rw [hsplit] at hfirst hlater
        have hbegins : c :: first <+: c :: text :=
          List.cons_prefix_cons.mpr ⟨rfl, hfirst first rfl⟩
        refine ⟨by simpa using hbegins, List.forall_mem_cons.mpr ⟨hbegins.isInfix, ?_⟩⟩
        exact fun piece hpiece => hlater piece (by simp [hpiece])

theorem sublist_of_mem_splitOn (h : piece ∈ splitOn mark text) : piece.Sublist text :=
  ((splitOn_isInfix mark text).2 piece h).sublist

theorem subset_of_mem_splitOn (h : piece ∈ splitOn mark text) : piece ⊆ text :=
  (sublist_of_mem_splitOn h).subset

theorem trimRight_sublist (text : Text) : (trimRight text).Sublist text :=
  (trimRight_isPrefix text).sublist

theorem trim_isInfix (text : Text) : trim text <:+: text :=
  (trimRight_isPrefix _).isInfix.trans (List.dropWhile_suffix isBlank).isInfix

theorem trim_sublist (text : Text) : (trim text).Sublist text := (trim_isInfix text).sublist

theorem trim_subset (text : Text) : trim text ⊆ text := (trim_sublist text).subset

theorem mem_trim (hc : c ∈ text) (hblank : isBlank c = false) : c ∈ trim text := by
  obtain ⟨before, after, htext, hbefore, hafter⟩ := exists_trim text
  rw [htext] at hc
  simp only [List.mem_append] at hc
  rcases hc with (hc | hc) | hc
  · simp [hbefore c hc] at hblank
  · exact hc
  · simp [hafter c hc] at hblank

theorem inner_sublist (text : Text) : (inner text).Sublist text :=
  (List.dropLast_sublist _).trans (List.drop_sublist 1 text)

theorem inner_subset (text : Text) : inner text ⊆ text := (inner_sublist text).subset

theorem mem_replaceFirst (h : c ∈ replaceFirst old new text) : c = new ∨ c ∈ text := by
  induction text with
  | nil => cases h
  | cons d text ih =>
    rw [replaceFirst] at h
    split at h
    · exact (List.mem_cons.mp h).imp_right fun hmem => by simp [hmem]
    · rcases List.mem_cons.mp h with rfl | hmem
      · exact .inr (by simp)
      · exact (ih hmem).imp_right fun hmem => by simp [hmem]

@[simp] theorem join_singleton (separator piece : Text) : join separator [piece] = piece :=
  List.append_nil piece

theorem join_cons_cons (separator first second : Text) (pieces : List Text) :
    join separator (first :: second :: pieces) =
      first ++ (separator ++ join separator (second :: pieces)) := by
  simp [join, List.intercalate]

/-- Texts with no mark in them are divided again where they are joined. -/
theorem splitOn_join {pieces : List Text} (hne : pieces ≠ []) (h : ∀ piece ∈ pieces, mark ∉ piece) :
    splitOn mark (join [mark] pieces) = pieces := by
  induction pieces with
  | nil => exact absurd rfl hne
  | cons piece pieces ih =>
    cases pieces with
    | nil => rw [join_singleton, splitOn_eq_singleton (h piece (by simp))]
    | cons second pieces =>
      rw [join_cons_cons, List.singleton_append, splitOn_append (h piece (by simp)),
        ih (by simp) fun piece hpiece => h piece (by simp [hpiece])]

theorem join_ne_nil {pieces : List Text} (hne : pieces ≠ []) (h : ∀ piece ∈ pieces, piece ≠ [])
    (separator : Text) : join separator pieces ≠ [] := by
  obtain ⟨piece, pieces, rfl⟩ := List.exists_cons_of_ne_nil hne
  cases pieces with
  | nil => simpa using h piece (by simp)
  | cons second pieces => simp [join_cons_cons, h piece (by simp)]

theorem mem_join (h : c ∈ join separator pieces) : c ∈ separator ∨ ∃ piece ∈ pieces, c ∈ piece := by
  induction pieces with
  | nil => simp [join] at h
  | cons piece pieces ih =>
    cases pieces with
    | nil => exact .inr ⟨piece, by simp, by simpa [join] using h⟩
    | cons next pieces =>
      rw [join_cons_cons, List.mem_append, List.mem_append] at h
      rcases h with h | h | h
      · exact .inr ⟨piece, by simp, h⟩
      · exact .inl h
      · refine (ih h).imp_right fun hpiece => ?_
        obtain ⟨found, hmem, hc⟩ := hpiece
        exact ⟨found, by simp [hmem], hc⟩

theorem newline_notMem_ofInt (n : Int) : '\n' ∉ ofInt n := fun hmem =>
  absurd ((isNumeral_ofInt n).isBlank_eq_false hmem) (by decide)

theorem newline_notMem_displayLines (text : Text) : ∀ line ∈ displayLines text, '\n' ∉ line := by
  fun_induction displayLines text with
  | case1 => simp
  | case2 rest ih => simpa using ih
  | case3 c rest _ _ ih => simpa using ih
  | case4 c rest _ hbreak hlines ih =>
    have hc : '\n' ≠ c := fun h => hbreak (h ▸ rfl)
    simpa using hc
  | case5 c rest _ hbreak line lines hlines ih =>
    have hc : '\n' ≠ c := fun h => hbreak (h ▸ rfl)
    rw [hlines] at ih
    simpa [hc] using ih

theorem subset_of_mem_displayLines (h : line ∈ displayLines text) : line ⊆ text := by
  fun_induction displayLines text generalizing line with
  | case1 => cases h
  | case2 rest ih =>
    rcases List.mem_cons.mp h with rfl | h
    · exact List.nil_subset _
    · exact fun c hc => by simp [ih h hc]
  | case3 c rest _ _ ih =>
    rcases List.mem_cons.mp h with rfl | h
    · exact List.nil_subset _
    · exact List.subset_cons_of_subset c (ih h)
  | case4 c rest _ _ hlines ih =>
    rw [List.mem_singleton.mp h]
    simp
  | case5 c rest _ _ first lines hlines ih =>
    rw [hlines] at ih
    rcases List.mem_cons.mp h with rfl | h
    · exact List.cons_subset_cons c (ih (by simp))
    · exact List.subset_cons_of_subset c (ih (by simp [h]))

theorem statement_subset (line : Text) : statement line ⊆ line := fun _ hc =>
  (beforeComment_isPrefix line).subset (trim_subset _ hc)

end InfinityScript.Text
