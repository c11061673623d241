import InfinityScript.Proofs.Argument.Object
import InfinityScript.Proofs.Record.Codec

/-!
# The width of an object record

The numbers of an object record are written by the encoder in two places, and counted
by the reader in one. `Object.fills_code_iff` says for which expressions and profiles
the two agree: the trailing numbers are written only where there is an area, bracket
groups after the first give leading numbers of their own unless they are areas, and a
name or an area that is closed before its end leaves more pieces behind.
-/

namespace InfinityScript

open Reader

-- --------------------
-- Quotes among pieces
-- --------------------

def Lexeme.IsBare : Lexeme → Prop
  | .number _ | .marker _ => True
  | _ => False

theorem Lexeme.Spells.quote_notMem {lexeme : Lexeme} (h : lexeme.Spells shown)
    (hbare : lexeme.IsBare) : '"' ∉ shown := by
  cases h with
  | marker m => cases m <;> decide
  | number hnumeral => exact hnumeral.notMem (by decide) (by decide)
  | _ => exact hbare.elim

theorem quote_notMem_of_isBare (h : ∀ piece ∈ pieces text, piece.1.IsBare) : '"' ∉ text := by
  induction hlen : text.length using Nat.strongRecOn generalizing text with
  | ind n ih =>
    subst hlen
    cases text with
    | nil => simp
    | cons c rest =>
      rcases hread : Lexeme.read c rest with ⟨_ | lexeme, extra⟩
      · have hblank := Lexeme.isBlank_of_read hread
        have hquote : '"' ≠ c := by rintro rfl; exact absurd hblank (by decide)
        rw [pieces_blank hblank] at h
        exact List.not_mem_cons_of_ne_of_not_mem hquote (ih _ (by simp) h rfl)
      · rw [pieces_some hread] at h
        obtain ⟨hfirst, hrest⟩ := List.forall_mem_cons.mp h
        have htaken := (Lexeme.spells_read hread).quote_notMem hfirst
        have hleft := ih _ (by simp only [List.length_drop, List.length_cons]; omega) hrest rfl
        rw [← List.take_append_drop extra rest, ← List.cons_append]
        exact fun hmem => (List.mem_append.mp hmem).elim htaken hleft

theorem exists_string_of_pieces (h : lexemes text = .string shown :: ls) :
    ∃ blanks body rest, text = blanks ++ '"' :: (body ++ '"' :: rest) ∧
      (∀ c ∈ blanks, Text.isBlank c) ∧ '"' ∉ body ∧ lexemes rest = ls := by
  induction text with
  | nil => simp [lexemes] at h
  | cons c text ih =>
    rcases Lexeme.read_splits c text with
      ⟨_, _, -, -, hblanks⟩ | ⟨lexeme, taken, rest, rfl, hread, hspells⟩
    · have hblank := hblanks c List.mem_cons_self
      rw [lexemes, pieces_blank hblank] at h
      obtain ⟨blanks, body, rest, rfl, hblanks, hbody, hrest⟩ := ih h
      exact ⟨c :: blanks, body, rest, rfl, List.forall_mem_cons.mpr ⟨hblank, hblanks⟩, hbody, hrest⟩
    · rw [lexemes, pieces_some hread, List.map_cons, List.drop_left] at h
      obtain ⟨rfl, hrest⟩ := List.cons.inj h
      cases hspells with
      | @string body hbody => exact ⟨[], body, rest, by simp, by simp, hbody, hrest⟩

-- --------------------
-- Fields and their lexemes
-- --------------------

namespace ObjectFields

theorem map_fst_pieces (fields : ObjectFields) : fields.pieces.map Prod.fst =
    fields.before.map .number ++ (fields.area.toList.map .coordinate ++
      .string fields.name :: (fields.after.map .number ++ [.marker .object])) := by
  simp [pieces, numberPiece, Marker.piece, Function.comp_def]

theorem head?_coordinate (area : Option Text) (name : Text) (ls : List Lexeme) (n : Int) :
    (area.toList.map Lexeme.coordinate ++ .string name :: ls).head? ≠ some (.number n) := by
  cases area <;> simp

theorem numbers_append_inj {ns ms : List Int} {ls ks : List Lexeme}
    (hls : ∀ n, ls.head? ≠ some (.number n)) (hks : ∀ n, ks.head? ≠ some (.number n))
    (h : ns.map .number ++ ls = ms.map .number ++ ks) : ns = ms ∧ ls = ks := by
  have hparse := parse_numbers_append ns hls
  rw [h, parse_numbers_append ms hks] at hparse
  obtain ⟨hnumbers, hrest⟩ := Prod.mk.inj hparse
  exact ⟨(Except.ok.inj hnumbers).symm, hrest.symm⟩

theorem of_lexemes {fields : ObjectFields} {ns : List Int} {area : Option Text} {name : Text}
    (h : ns.map .number ++ (area.toList.map .coordinate ++ .string name :: ls) =
      fields.pieces.map Prod.fst) :
    fields.before = ns ∧ fields.area = area ∧ fields.name = name ∧
      ls = fields.after.map .number ++ [.marker .object] := by
  rw [map_fst_pieces] at h
  obtain ⟨rfl, hrest⟩ := numbers_append_inj (head?_coordinate _ _ _) (head?_coordinate _ _ _) h
  refine ⟨rfl, ?_⟩
  cases area with
  | none =>
    cases harea : fields.area with
    | none => simpa [harea, eq_comm] using hrest
    | some area => simp [harea] at hrest
  | some area =>
    cases harea : fields.area with
    | none => simp [harea] at hrest
    | some area => simpa [harea, eq_comm] using hrest

theorem eq_of_lexemes {fields fields' : ObjectFields}
    (h : fields.pieces.map Prod.fst = fields'.pieces.map Prod.fst) : fields = fields' := by
  rw [map_fst_pieces] at h
  obtain ⟨hbefore, harea, hname, hafter⟩ := of_lexemes h
  obtain ⟨hafter, -⟩ := numbers_append_inj (by simp) (by simp) hafter
  cases fields
  cases fields'
  simp_all

/-- The tokens are those of a record in the layout of the profile, which the reader
accepts: an opening marker, the leading numbers and five qualifiers, at most one area, a
name, the trailing numbers, and a closing marker. -/
structure Fills (profile : Profile) (tokens : List Token) (fields : ObjectFields) : Prop where
  lexemes : tokens.map Token.lexeme = .marker .object :: fields.pieces.map Prod.fst
  before : (fields.before.length : Int) = profile.leadingWidth + 5
  after : (fields.after.length : Int) = profile.trailingWidth
  count : fields.record.numbers.length = profile.objectNumberCount
  read : (ObjectRecord.read profile).run tokens.tail = (.ok fields.record, [])

end ObjectFields

theorem ObjectRecord.exists_fields {record : ObjectRecord}
    (h : (read profile).parse ls = (.ok record, left)) :
    ∃ fields : ObjectFields, ls = fields.pieces.map Prod.fst ++ left ∧ fields.record = record ∧
      record.numbers.length = profile.objectNumberCount := by
  obtain ⟨before, _, hbefore, h⟩ := parse_bind_eq_ok h
  obtain ⟨area, _, harea, h⟩ := parse_bind_eq_ok h
  obtain ⟨name, _, hname, h⟩ := parse_bind_eq_ok h
  obtain ⟨after, _, hafter, h⟩ := parse_bind_eq_ok h
  obtain ⟨_, rest, hmarker, h⟩ := parse_bind_eq_ok h
  dsimp only at h
  split at h
  · simp at h
  · next hcount =>
    split at h
    · simp at h
    · rw [parse_pure] at h
      cases h
      refine ⟨⟨before, area, name, after⟩, ?_, rfl, Decidable.not_not.mp hcount⟩
      rw [parse_numbers_ok hbefore, parse_coordinate?_ok harea, parse_string_ok hname,
        parse_numbers_ok hafter, parse_marker_ok hmarker, ObjectFields.map_fst_pieces]
      simp

def Profile.Fills (profile : Profile) (code : Text) : Prop :=
  ∃ tokens fields, readTokens code = .ok tokens ∧ ObjectFields.Fills profile tokens fields

section

variable {profile : Profile} {code : Text}

theorem Profile.Fills.exists_fields (h : profile.Fills code) :
    ∃ fields : ObjectFields, lexemes code = .marker .object :: fields.pieces.map Prod.fst ∧
      (fields.before.length : Int) = profile.leadingWidth + 5 ∧
      (fields.after.length : Int) = profile.trailingWidth := by
  obtain ⟨tokens, fields, htokens, hfills⟩ := h
  obtain ⟨rfl, -⟩ := readTokens_eq_ok_iff.mp htokens
  refine ⟨fields, ?_, hfills.before, hfills.after⟩
  rw [← map_lexeme_tokenize]
  exact hfills.lexemes

/-- Code that has fields for its pieces is a record exactly when the fields are as many
as the profile has. -/
theorem ObjectFields.fills_iff (fields : ObjectFields) (hlow : 0 ≤ profile.leadingWidth)
    (hhigh : profile.leadingWidth ≤ profile.vectorWidth)
    (hpieces : InfinityScript.pieces code = Marker.object.piece :: fields.pieces)
    (hfew : ∀ n ∈ fields.record.numbers, Text.FewDigits (Text.ofInt n)) :
    profile.Fills code ↔ (fields.before.length : Int) = profile.leadingWidth + 5 ∧
      (fields.after.length : Int) = profile.trailingWidth := by
  have hlexemes : lexemes code = .marker .object :: fields.pieces.map Prod.fst := by
    rw [InfinityScript.lexemes, hpieces]
    rfl
  constructor
  · intro h
    obtain ⟨found, hfound, hbefore, hafter⟩ := h.exists_fields
    obtain ⟨-, hsame⟩ := List.cons.inj (hlexemes.symm.trans hfound)
    obtain rfl := eq_of_lexemes hsame
    exact ⟨hbefore, hafter⟩
  · rintro ⟨hbefore, hafter⟩
    have hlegible : ∀ piece ∈ InfinityScript.pieces code, Legible piece := by
      rw [hpieces]
      exact List.forall_mem_cons.mpr ⟨by simp [Legible, Marker.piece, Lexeme.kind], fields.written.legible
        fun n hn => hfew n (number_mem_pieces hn)⟩
    have hcount : fields.record.numbers.length = profile.objectNumberCount := by
      have hwidth : profile.trailingWidth = profile.vectorWidth - profile.leadingWidth := rfl
      have hnumbers : profile.objectNumberCount = profile.vectorWidth + 5 := rfl
      simp only [record, List.length_append]
      omega
    have htail : (tokenize code).tail.map Token.lexeme = fields.pieces.map Prod.fst := by
      rw [List.map_tail, map_lexeme_tokenize, hlexemes, List.tail_cons]
    have hparse := parse_read hcount (ObjectRecord.qualifiers_ne_nil_of_width hlow hhigh hcount) []
    rw [List.append_nil, ← htail] at hparse
    obtain ⟨left, hrun, hleft⟩ :=
      (ObjectRecord.stepwise_read profile).positionless.exists_run hparse
    obtain rfl := List.map_eq_nil_iff.mp hleft
    refine ⟨_, fields, readTokens_eq_ok_iff.mpr ⟨rfl, hlegible⟩, ?_, hbefore, hafter, hcount, hrun⟩
    rw [map_lexeme_tokenize, hlexemes]

end

-- --------------------
-- Names and areas that are closed too early
-- --------------------

theorem quote_notMem_of_lexemes {after : List Int}
    (h : lexemes text = after.map .number ++ [.marker .object]) : '"' ∉ text := by
  refine quote_notMem_of_isBare fun piece hmem => ?_
  have hlexeme : piece.1 ∈ lexemes text := List.mem_map_of_mem hmem
  rw [h, List.mem_append, List.mem_singleton] at hlexeme
  rcases hlexeme with hnumber | hmarker
  · obtain ⟨n, -, hn⟩ := List.mem_map.mp hnumber
    exact hn ▸ trivial
  · exact hmarker ▸ trivial

/-- What is left of an area that is closed before its end keeps the name of a record from
being the next piece. -/
theorem lexemes_ne_of_closing {left : Text} (hleft : left.getLast? = some ']') (after : List Int) :
    lexemes (left ++ ' ' :: '"' :: '"' :: rest) ≠
      .string name :: (after.map .number ++ [.marker .object]) := by
  intro h
  obtain ⟨blanks, body, rest', htext, hblanks, hbody, hrest⟩ := exists_string_of_pieces h
  have hnone := quote_notMem_of_lexemes hrest
  have hblank : '"' ∉ blanks := fun hmem => absurd (hblanks _ hmem) (by decide)
  -- The string has the only two quotes, which are those of the empty name.
  have hquote : '"' ∉ left := by
    have hcount := congrArg (List.count '"') htext
    simp only [List.count_append, List.count_cons, List.count_eq_zero_of_not_mem hblank,
      List.count_eq_zero_of_not_mem hbody, List.count_eq_zero_of_not_mem hnone] at hcount
    refine List.count_eq_zero.mp ?_
    simp at hcount
    omega
  have hcut := Text.cut?_append hblank (body ++ '"' :: rest')
  rw [← htext, List.append_cons, Text.cut?_append (by simpa using hquote)] at hcut
  obtain ⟨rfl, -⟩ := Prod.mk.inj (Option.some.inj hcut)
  have hclosing := hblanks ']' (List.mem_append_left _ (List.mem_of_getLast? hleft))
  exact absurd hclosing (by decide)

namespace Profile

variable {profile : Profile} {qualifiers : List Int} (hleading : SplitsNumbers leading ns)
  (hcount : qualifiers.length ≤ 5)
  (hqualifiers : ∀ n ∈ qualifiers, Text.FewDigits (Text.ofInt (toSigned32 n)))

include hleading hcount hqualifiers

theorem exists_lexemes_objectLayout (profile : Profile) (area name trailing : Text) :
    ∃ before : List Int,
      (lexemes (profile.objectLayout leading qualifiers area name trailing)).tail =
        before.map .number ++ lexemes (profile.objectTail area name trailing) := by
  obtain ⟨qs, -, hsplits⟩ := exists_splits_qualifierText hcount hqualifiers
  have hlayout : profile.objectLayout leading qualifiers area name trailing =
      Marker.object.code ++ ['\n'] ++ (leading ++ qualifierText qualifiers ++
        profile.objectTail area name trailing) := by
    simp [objectLayout, Marker.code]
  refine ⟨ns ++ qs, ?_⟩
  rw [hlayout, lexemes, splits_marker, (hleading.append hsplits).splits]
  simp [numberPiece, Function.comp_def, lexemes]

theorem lexemes_ne_of_quote {inside : Text} (hinside : '"' ∈ inside) (trailing : Text)
    (fields : ObjectFields) :
    (lexemes (profile.objectLayout leading qualifiers noArea ('"' :: (inside ++ ['"']))
      trailing)).tail ≠ fields.pieces.map Prod.fst := by
  obtain ⟨before, hbefore⟩ := exists_lexemes_objectLayout hleading hcount hqualifiers profile
    noArea ('"' :: (inside ++ ['"'])) trailing
  obtain ⟨body, more, rfl, hbody⟩ := List.eq_append_cons_of_mem hinside
  have htail : profile.objectTail noArea ('"' :: (body ++ '"' :: more ++ ['"'])) trailing =
      (if profile.hasObjectArea then noArea ++ " " else []) ++ '"' :: (body ++ '"' ::
        (more ++ '"' :: (profile.trailer trailing ++ Marker.object.code))) := by
    rw [objectTail_eq]
    simp
  intro hfields
  rw [hbefore, htail, lexemes, splits_area fun _ => bracketed_noArea.1, pieces_string hbody,
    List.map_append, List.map_cons, List.map_map, Function.comp_def] at hfields
  obtain ⟨-, -, -, hrest⟩ := ObjectFields.of_lexemes hfields
  exact quote_notMem_of_lexemes hrest (by simp)

theorem lexemes_ne_of_bracket (harea : profile.hasObjectArea) {inside : Text}
    (hinside : ']' ∈ inside) (trailing : Text) (fields : ObjectFields) :
    (lexemes (profile.objectLayout leading qualifiers ('[' :: (inside ++ [']'])) emptyString
      trailing)).tail ≠ fields.pieces.map Prod.fst := by
  obtain ⟨before, hbefore⟩ := exists_lexemes_objectLayout hleading hcount hqualifiers profile
    ('[' :: (inside ++ [']'])) emptyString trailing
  obtain ⟨body, more, rfl, hbody⟩ := List.eq_append_cons_of_mem hinside
  have htail : profile.objectTail ('[' :: (body ++ ']' :: more ++ [']'])) emptyString trailing =
      '[' :: (body ++ ']' :: ((more ++ [']']) ++ ' ' :: '"' :: '"' ::
        (profile.trailer trailing ++ Marker.object.code))) := by
    rw [objectTail_eq, if_pos harea]
    simp [emptyString]
  intro hfields
  rw [hbefore, htail, lexemes, pieces_coordinate hbody, List.map_cons,
    ObjectFields.map_fst_pieces] at hfields
  obtain ⟨-, hrest⟩ := ObjectFields.numbers_append_inj (by simp)
    (ObjectFields.head?_coordinate _ _ _) hfields
  cases hfound : fields.area with
  | none => simp [hfound] at hrest
  | some area =>
    rw [hfound] at hrest
    exact lexemes_ne_of_closing (by simp) _ (List.cons.inj hrest).2

end Profile

-- --------------------
-- The code of an expression
-- --------------------

namespace Object

variable {symbols : Symbols} {profile : Profile} {fields : ObjectFields}

theorem symbolParts_area (core : Text) :
    ∃ inside, (symbolParts core).2 = '[' :: (inside ++ [']']) := by
  unfold symbolParts
  split
  · next before after hcut =>
    split
    · next hlast =>
      rw [(Text.cut?_eq_some hcut).2] at hlast
      have hafter : after.getLast? = some ']' := by
        cases after with
        | nil => simp at hlast
        | cons c after => simpa using hlast
      obtain ⟨inside, rfl⟩ := List.getLast?_eq_some_iff.mp hafter
      exact ⟨inside, rfl⟩
    · exact ⟨"-1.-1.-1.-1", rfl⟩
  · exact ⟨"-1.-1.-1.-1", rfl⟩

/-- Code that has the lexemes of a record comes of a core that is closed at its end. -/
theorem closedCore_of_lexemes (hlow : 0 ≤ profile.leadingWidth)
    (hqualify : qualify symbols value = .ok (qualifiers, core))
    (h : code symbols profile definition value = .ok part)
    (hfields : (lexemes part.value).tail = fields.pieces.map Prod.fst) : ClosedCore core := by
  obtain ⟨hcount, -⟩ := qualify_parts hqualify
  obtain ⟨ns, -, hsplits⟩ := Profile.exists_splits_leadingZeros hlow
  obtain ⟨parts, hparts, h⟩ := Outcome.bind_ok.mp h
  obtain rfl := Except.ok.inj (hqualify.symm.trans (Refusal.ofFault_ok.mp hparts))
  dsimp only at h
  unfold ClosedCore
  split at h
  · next hhead => rw [if_pos hhead]; trivial
  · next hhead =>
    obtain ⟨text, htext, h⟩ := Outcome.bind_ok.mp h
    obtain rfl := Outcome.pure_ok.mp h
    rw [if_neg (by simp [hhead]), if_pos hhead]
    obtain ⟨inside, rfl, hfew, rfl⟩ := exists_layout_nameCode hhead htext
    have hinner : Text.inner ('"' :: (inside ++ ['"'])) = inside := by simp [Text.inner]
    rw [hinner]
    exact fun hinside => Profile.lexemes_ne_of_quote hsplits hcount hfew hinside _ fields hfields
  · next hbracket hquote =>
    obtain ⟨text, htext, h⟩ := Outcome.bind_ok.mp h
    obtain rfl := Outcome.pure_ok.mp h
    rw [if_neg hbracket, if_neg hquote]
    obtain ⟨id, -, hlength, hfew, hnone, rfl⟩ := exists_layout_symbolCode hcount htext
    refine Decidable.byContradiction fun hopen => ?_
    have hprofile : profile.hasObjectArea := by
      refine Decidable.byContradiction fun harea => hopen ?_
      rw [hnone harea]
      exact bracketed_noArea.1
    obtain ⟨inside, hinside⟩ := symbolParts_area core
    rw [hinside] at hopen hfields
    have hclosing : ']' ∈ inside :=
      Decidable.byContradiction fun hclosed => hopen ⟨inside, rfl, hclosed⟩
    exact Profile.lexemes_ne_of_bracket hsplits hlength hfew hprofile hclosing _ fields hfields

theorem exists_gives_of_run (hprofile : profile.Sized)
    (h : code symbols profile definition value = .ok part)
    (htokens : readTokens part.value = .ok tokens)
    (hrun : (ObjectRecord.read profile).run tokens.tail = (.ok record, [])) :
    ∃ qualifiers core again fields, qualify symbols value = .ok (qualifiers, core) ∧
      Gives profile core again part.value fields ∧ fields.Reads profile part.value ∧
      fields.record = record := by
  obtain ⟨⟨qualifiers, core⟩, hparts, -⟩ := Outcome.bind_ok.mp h
  have hqualify := Refusal.ofFault_ok.mp hparts
  have hparse := (ObjectRecord.stepwise_read profile).positionless.parse_eq hrun
  obtain ⟨found, hfound, hrecord, hwidth⟩ := ObjectRecord.exists_fields hparse
  obtain ⟨rfl, -⟩ := readTokens_eq_ok_iff.mp htokens
  rw [List.map_tail, map_lexeme_tokenize, List.map_nil, List.append_nil] at hfound
  have hclosed := closedCore_of_lexemes hprofile.leading hqualify h hfound
  obtain ⟨fields, hgives⟩ :=
    exists_gives_code hprofile.leading hprofile.vector hqualify hclosed h
  rw [lexemes, hgives.spells.alone] at hfound
  obtain rfl := ObjectFields.eq_of_lexemes hfound
  exact ⟨_, _, _, fields, hqualify, hgives, ⟨⟨hgives.spells, hrecord ▸ hwidth⟩, hgives.few⟩, hrecord⟩

/-- The core of an expression gives a record its width: the leading numbers come of it
once, and a name or an area ends where it is closed. Where no numbers lead, they may come
of it any number of times. -/
def FillsCore (symbols : Symbols) (profile : Profile) (core : Text) : Prop :=
  core.head? = some '[' ∧ profile.leadingWidth = 0 ∨ PlainCore symbols profile core

instance : Decidable (FillsCore symbols profile core) :=
  inferInstanceAs (Decidable (_ ∨ _))

theorem fillsCore_iff : FillsCore symbols profile core ↔
    ClosedCore core ∧ (profile.leadingWidth = 0 ∨ repeats symbols profile core = 0) := by
  rw [FillsCore, plainCore_iff]
  by_cases hhead : core.head? = some '['
  · simp [hhead, ClosedCore]
  · simp [hhead, repeats]

theorem fills_code_iff_core (hlow : 0 ≤ profile.leadingWidth)
    (hhigh : profile.leadingWidth ≤ profile.vectorWidth)
    (hqualify : qualify symbols value = .ok (qualifiers, core))
    (h : code symbols profile definition value = .ok part) :
    profile.Fills part.value ↔ (profile.trailingWidth ≠ 0 → profile.hasObjectArea) ∧
      FillsCore symbols profile core := by
  rw [fillsCore_iff]
  by_cases hclosed : ClosedCore core
  · obtain ⟨fields, hgives⟩ := exists_gives_code hlow hhigh hqualify hclosed h
    rw [fields.fills_iff hlow hhigh hgives.spells.alone hgives.few, hgives.before, hgives.after,
      and_comm]
    refine and_congr_right fun _ => ?_
    -- The leading numbers are right if they come once, or if there are none of them.
    have honce : profile.leadingWidth * ((repeats symbols profile core : Int) + 1) + 5 =
        profile.leadingWidth + 5 ↔
          profile.leadingWidth = 0 ∨ (repeats symbols profile core : Int) = 0 := by
      rw [← Int.mul_eq_zero, Int.mul_add, Int.mul_one]
      omega
    rw [honce, Int.natCast_eq_zero]
    simp [hclosed]
  · refine iff_of_false (fun hfills => hclosed ?_) fun hcore => hclosed hcore.2.1
    obtain ⟨fields, hfields, -⟩ := hfills.exists_fields
    exact closedCore_of_lexemes hlow hqualify h (by rw [hfields, List.tail_cons])

/-- What an expression is encoded to has the fields of the profile, and is read as a record,
exactly when the profile has an area wherever it has trailing numbers, and the core of the
expression gives the record its width. -/
theorem fills_code_iff (hlow : 0 ≤ profile.leadingWidth)
    (hhigh : profile.leadingWidth ≤ profile.vectorWidth)
    (h : code symbols profile definition value = .ok part) :
    profile.Fills part.value ↔ (profile.trailingWidth ≠ 0 → profile.hasObjectArea) ∧
      ∀ parts ∈ (qualify symbols value).toOption, FillsCore symbols profile parts.2 := by
  obtain ⟨⟨qualifiers, core⟩, hparts, -⟩ := Outcome.bind_ok.mp h
  have hqualify := Refusal.ofFault_ok.mp hparts
  rw [fills_code_iff_core hlow hhigh hqualify h, hqualify]
  simp [Except.toOption]

theorem fills_code_iff_sample :
    let symbols : Symbols := .build [(Table.read "EA" "255 ENEMY").value,
      (Table.read "OBJECT" "1 Myself\n12 NearestEnemyOf").value] [] [] [] none
    let profile : Profile := .custom .none ["EA.IDS", "RACE.IDS", "CLASS.IDS"] (some 1) true false
    ∃ part, code symbols profile "O:Object*" "NearestEnemyOf([ENEMY.0.2][1.2.3.4])" = .ok part ∧
      part.value = "OB\n255 12 0 0 0 0 [1.2.3.4] \"\" 0 2 OB" ∧ profile.Fills part.value := by
  intro symbols profile
  have hcode : (code symbols profile "O:Object*" "NearestEnemyOf([ENEMY.0.2][1.2.3.4])").toOption.any
      fun part => part.value = ("OB\n255 12 0 0 0 0 [1.2.3.4] \"\" 0 2 OB" : Text) := by
    decide +kernel
  obtain ⟨part, hpart, hvalue⟩ := Outcome.exists_of_any hcode
  exact ⟨part, hpart, of_decide_eq_true hvalue, (fills_code_iff (by decide) (by decide) hpart).mpr
    ⟨by decide, by decide +kernel⟩⟩

/-- Where there is no area, a vector that is divided by the qualifiers has no numbers after the
name; and a vector that is said twice has twice as many before it. -/
theorem not_fills_code :
    let divided : Profile := .custom .none ["EA.IDS", "RACE.IDS"] (some 1) false false
    (∃ part, code {} divided "O:Object*" "[ANYONE]" = .ok part ∧
      part.value = "OB\n0 0 0 0 0 0 \"\"OB" ∧ ¬ divided.Fills part.value) ∧
    ∃ part, code {} (.ofGame .none) "O:Object*" "[1][2]" = .ok part ∧
      part.value = "OB\n1 0 0 0 0 0 0 2 0 0 0 0 0 0 0 0 0 0 0 \"\"OB" ∧
      ¬ Profile.Fills (.ofGame .none) part.value := by
  intro divided
  have hanyone : (code {} divided "O:Object*" "[ANYONE]").toOption.any
      fun part => part.value = ("OB\n0 0 0 0 0 0 \"\"OB" : Text) := by decide +kernel
  have htwice : (code {} (.ofGame .none) "O:Object*" "[1][2]").toOption.any fun part =>
      part.value = ("OB\n1 0 0 0 0 0 0 2 0 0 0 0 0 0 0 0 0 0 0 \"\"OB" : Text) := by decide +kernel
  obtain ⟨part, hpart, hvalue⟩ := Outcome.exists_of_any hanyone
  obtain ⟨part', hpart', hvalue'⟩ := Outcome.exists_of_any htwice
  refine ⟨⟨part, hpart, of_decide_eq_true hvalue, ?_⟩, part', hpart', of_decide_eq_true hvalue', ?_⟩
  · rw [fills_code_iff_core (by decide) (by decide) rfl hpart]
    decide +kernel
  · rw [fills_code_iff_core (by decide) (by decide) rfl hpart']
    decide +kernel

end Object

end InfinityScript
