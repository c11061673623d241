import InfinityScript.Proofs.Symbol.Lookup
import InfinityScript.Proofs.Text.Breaks
import InfinityScript.Symbol.Reading

/-!
# Written tables

A table is read as it is written (`load_written`): each line gives back its entry, whichever
way the id is written and whatever blanks and comment stand around it. Only a decimal id may
have too many digits to be read.
-/

namespace InfinityScript

-- --------------------
-- Ids
-- --------------------

/-- An id as it may be written: digits, decimal or after `0x` hexadecimal, and a minus sign
before a number that is not positive. -/
structure WrittenId where
  negative : Bool := false
  hexadecimal : Bool := false
  digits : Text
  magnitude : Nat
  reads : (if hexadecimal then Text.readHex? digits else Text.readNat? digits) = some magnitude

namespace WrittenId

def value (id : WrittenId) : Int := if id.negative then -(id.magnitude : Int) else id.magnitude

def unsigned (id : WrittenId) : Text := (if id.hexadecimal then ['0', 'x'] else []) ++ id.digits

def text (id : WrittenId) : Text :=
  (if id.negative then ['-'] else []) ++ id.unsigned

/-- Hexadecimal digits are read however many there are. -/
def IsShort (id : WrittenId) : Prop := id.hexadecimal = true ∨ Text.FewDigits id.digits

instance (id : WrittenId) : Decidable id.IsShort := inferInstanceAs (Decidable (_ ∨ _))

theorem readHex?_toDigits (n : Nat) : Text.readHex? (Nat.toDigits 16 n) = some n := by
  have hdigit : ∀ d < 16, Text.hexValue? (Nat.digitChar d) = some d := by decide
  have hfold : (Nat.toDigits 16 n).foldlM
      (fun m c => (Text.hexValue? c).map (16 * m + ·)) 0 = some n := by
    induction n using Nat.strongRecOn with
    | ind n ih =>
      by_cases hn : n < 16
      · simp [Nat.toDigits_of_lt_base hn, hdigit n hn]
      · have hlast := hdigit (n % 16) (Nat.mod_lt n (by decide))
        rw [Nat.toDigits_of_base_le (by decide) (by omega), List.foldlM_append, ih (n / 16) (by omega)]
        simp [hlast, Nat.div_add_mod]
  simp [Text.readHex?, Text.readDigits?, hfold]

def ofInt (n : Int) (hexadecimal : Bool) : WrittenId where
  negative := n < 0
  hexadecimal := hexadecimal
  digits := if hexadecimal then Nat.toDigits 16 n.natAbs else Text.ofNat n.natAbs
  magnitude := n.natAbs
  reads := by
    cases hexadecimal
    · exact Text.readNat?_ofNat n.natAbs
    · exact readHex?_toDigits n.natAbs

theorem value_ofInt (n : Int) (hexadecimal : Bool) : (ofInt n hexadecimal).value = n := by
  simp only [value, ofInt, decide_eq_true_eq]
  split <;> omega

variable (id : WrittenId)

theorem isSome_of_mem_digits (hc : c ∈ id.digits) :
    if id.hexadecimal then (Text.hexValue? c).isSome else Text.isDecimalDigit c := by
  have hreads := id.reads
  split at hreads
  · next hhex =>
    rw [if_pos hhex]
    exact Text.isSome_of_readDigits? hreads c hc
  · next hhex =>
    rw [if_neg hhex]
    exact Text.isSome_of_readDigits? hreads c hc

theorem digits_ne_nil : id.digits ≠ [] := by
  intro hnil
  have hreads := id.reads
  simp [hnil, Text.readHex?, Text.readNat?, Text.readDigits?] at hreads

theorem isBlank_of_hexValue? (h : (Text.hexValue? c).isSome) :
    Text.isBlank c = false ∧ c ≠ '/' := by
  have hrange : 0x30 ≤ c.toNat ∧ c.toNat ≤ 0x66 := by
    unfold Text.hexValue? at h
    simp only [Char.le_def, UInt32.le_iff_toNat_le, Bool.and_eq_true, decide_eq_true_eq] at h
    change (if 48 ≤ c.toNat ∧ c.toNat ≤ 57 then _ else if 65 ≤ c.toNat ∧ c.toNat ≤ 70 then _ else
      if 97 ≤ c.toNat ∧ c.toNat ≤ 102 then _ else none : Option Nat).isSome at h
    split at h
    · omega
    · split at h
      · omega
      · split at h
        · omega
        · cases h
  refine ⟨?_, ?_⟩
  · simp only [Text.isBlank, Bool.or_eq_false_iff, Bool.and_eq_false_iff, decide_eq_false_iff_not,
      beq_eq_false_iff_ne]
    omega
  · rintro rfl
    exact absurd hrange.1 (by decide)

theorem isBlank_of_mem_unsigned (hc : c ∈ id.unsigned) : Text.isBlank c = false ∧ c ≠ '/' := by
  rcases List.mem_append.mp hc with hc | hc
  · split at hc
    · have hprefix : ∀ c ∈ ['0', 'x'], Text.isBlank c = false ∧ c ≠ '/' := by decide
      exact hprefix c hc
    · cases hc
  · have hsome := id.isSome_of_mem_digits hc
    split at hsome
    · exact isBlank_of_hexValue? hsome
    · refine ⟨Text.isBlank_eq_false_of_isDecimalDigit hsome, ?_⟩
      rintro rfl
      exact absurd hsome (by decide)

theorem isDecimalDigit_of_mem_digits (h : id.hexadecimal = false) :
    ∀ c ∈ id.digits, Text.isDecimalDigit c := fun c hc => by
  simpa [h] using id.isSome_of_mem_digits hc

theorem unsigned_ne (h : id.hexadecimal = false) (rest more : Text) :
    id.unsigned ++ ' ' :: rest ≠ '0' :: 'x' :: more := by
  have hdigits := id.isDecimalDigit_of_mem_digits h
  intro heq
  rw [unsigned, h, if_neg Bool.false_ne_true, List.nil_append] at heq
  cases hsplit : id.digits with
  | nil => exact id.digits_ne_nil hsplit
  | cons c digits =>
    rw [hsplit] at heq hdigits
    cases digits with
    | nil => simp at heq
    | cons d digits =>
      obtain rfl : d = 'x' := by simpa using (List.cons.inj (List.cons.inj heq).2).1
      exact absurd (hdigits 'x' (by simp)) (by decide)

theorem takeWhile_unsigned (h : id.hexadecimal = false) (rest : Text) :
    (id.unsigned ++ ' ' :: rest).takeWhile Text.isDecimalDigit = id.digits ∧
      (id.unsigned ++ ' ' :: rest).dropWhile Text.isDecimalDigit = ' ' :: rest := by
  have hdigits := id.isDecimalDigit_of_mem_digits h
  have hblank : Text.isDecimalDigit ' ' = false := by decide
  simp [unsigned, h, List.takeWhile_append_of_pos hdigits, List.dropWhile_append_of_pos hdigits,
    hblank]

theorem unsigned?_append (rest : Text) :
    Entry.readId?.unsigned? (id.unsigned ++ ' ' :: rest) = some (id.magnitude, ' ' :: rest) := by
  have hreads := id.reads
  cases hhex : id.hexadecimal with
  | true =>
    have hdigits : ∀ c ∈ id.digits, (Text.hexValue? c).isSome := fun c hc => by
      simpa [hhex] using id.isSome_of_mem_digits hc
    have hblank : (Text.hexValue? ' ').isSome = false := by decide
    rw [hhex, if_pos rfl] at hreads
    simp [unsigned, hhex, Entry.readId?.unsigned?, List.takeWhile_append_of_pos hdigits,
      List.dropWhile_append_of_pos hdigits, hblank, hreads]
  | false =>
    obtain ⟨htake, hdrop⟩ := id.takeWhile_unsigned hhex rest
    rw [hhex, if_neg Bool.false_ne_true] at hreads
    rw [Entry.readId?.unsigned?.eq_2 _ (id.unsigned_ne hhex rest), htake, hdrop, hreads,
      Option.map_some]

theorem exists_unsigned : ∃ c rest, id.unsigned = c :: rest ∧ Text.isDecimalDigit c := by
  cases hhex : id.hexadecimal with
  | true => exact ⟨'0', 'x' :: id.digits, by rw [unsigned, hhex]; rfl, by decide⟩
  | false =>
    obtain ⟨c, rest, hsplit⟩ := List.exists_cons_of_ne_nil id.digits_ne_nil
    exact ⟨c, rest, by rw [unsigned, hhex, hsplit]; rfl,
      id.isDecimalDigit_of_mem_digits hhex c (hsplit ▸ List.mem_cons_self)⟩

theorem ne_minus (h : Text.isDecimalDigit c) : c ≠ '-' := by
  rintro rfl
  exact absurd h (by decide)

theorem exists_text : ∃ c rest, id.text = c :: rest ∧ (Text.isDecimalDigit c ∨ c = '-') := by
  obtain ⟨c, rest, hsplit, hdigit⟩ := id.exists_unsigned
  cases hnegative : id.negative with
  | true => exact ⟨'-', id.unsigned, by rw [text, hnegative]; rfl, .inr rfl⟩
  | false => exact ⟨c, rest, by rw [text, hnegative, hsplit]; rfl, .inl hdigit⟩

theorem isBlank_of_mem_text (hc : c ∈ id.text) : Text.isBlank c = false ∧ c ≠ '/' := by
  rcases List.mem_append.mp hc with hc | hc
  · split at hc
    · rw [List.mem_singleton.mp hc]
      decide
    · cases hc
  · exact ⟨(id.isBlank_of_mem_unsigned hc).1, (id.isBlank_of_mem_unsigned hc).2⟩

theorem readId?_text (rest : Text) :
    Entry.readId? (id.text ++ ' ' :: rest) = some (id.value, ' ' :: rest) := by
  have hread := id.unsigned?_append rest
  rw [text, value]
  cases id.negative with
  | true => simp [Entry.readId?, hread]
  | false =>
    obtain ⟨c, more, hsplit, hdigit⟩ := id.exists_unsigned
    rw [hsplit] at hread ⊢
    simp only [Bool.false_eq_true, if_false, List.nil_append, List.cons_append] at hread ⊢
    rw [Entry.readId?, hread]
    · rfl
    · rintro digits hdigits
      exact ne_minus hdigit (List.cons.inj hdigits).1

/-- A decimal id with too many digits is the only one that cannot be read. -/
theorem checkId_text (rest : Text) :
    Entry.checkId (id.text ++ ' ' :: rest) =
      if id.IsShort then .ok ()
      else .error (.tooManyDigits (id.digits.countP Text.isDecimalDigit)) := by
  have hdrop : (if (id.text ++ ' ' :: rest).head? = some '-' then (id.text ++ ' ' :: rest).drop 1
      else id.text ++ ' ' :: rest) = id.unsigned ++ ' ' :: rest := by
    rw [text]
    cases id.negative with
    | true => simp
    | false =>
      obtain ⟨c, more, hsplit, hdigit⟩ := id.exists_unsigned
      simp [hsplit, ne_minus hdigit]
  simp only [Entry.checkId, hdrop]
  cases hhex : id.hexadecimal with
  | true => simp [unsigned, hhex, IsShort]
  | false =>
    have hplain : ¬ ("0x" : Text).isPrefixOf (id.unsigned ++ ' ' :: rest) := by
      rw [List.isPrefixOf_iff_prefix]
      rintro ⟨more, hmore⟩
      exact id.unsigned_ne hhex rest more hmore.symm
    rw [if_neg hplain, (id.takeWhile_unsigned hhex rest).1]
    simp only [IsShort, hhex, Text.checkDigits, Text.FewDigits, Bool.false_eq_true, false_or]
    split
    · rw [if_neg (by omega)]
    · rw [if_pos (by omega)]

end WrittenId

-- --------------------
-- Lines
-- --------------------

/-- What may stand around the text of a line: blanks, and after a blank a comment. -/
structure Margin where
  before : Text := []
  after : Text := []
  comment : Option Text := none
  before_blank : ∀ c ∈ before, Text.isBlank c ∧ Text.isLineBreak c = false
  after_blank : ∀ c ∈ after, Text.isBlank c ∧ Text.isLineBreak c = false
  comment_apart : comment.isSome → after ≠ []
  comment_unbroken : ∀ remark ∈ comment, Text.Unbroken remark

namespace Margin

def around (margin : Margin) (core : Text) : Text :=
  margin.before ++ (core ++ margin.after) ++
    (margin.comment.map fun remark => '/' :: '/' :: remark).getD []

theorem beforeComment_slashes (h : '/' ∉ text) (remark : Text) :
    Text.beforeComment (text ++ '/' :: '/' :: remark) = text := by
  induction text with
  | nil => rfl
  | cons c text ih =>
    rw [List.cons_append, Text.beforeComment_cons (fun e => h (by simp [e])),
      ih fun hmem => h (by simp [hmem])]

theorem statement_around (margin : Margin) (h : Text.statement core = core) :
    Text.statement (margin.around core) = core := by
  have hbefore : ∀ c ∈ margin.before, Text.isBlank c := fun c hc => (margin.before_blank c hc).1
  have hafter : ∀ c ∈ margin.after, Text.isBlank c := fun c hc => (margin.after_blank c hc).1
  cases hcomment : margin.comment with
  | none =>
    have hcore := Text.statement_append hbefore hafter core
    rw [h, List.append_assoc] at hcore
    simpa [around, hcomment] using hcore
  | some remark =>
    obtain ⟨hself, htrim⟩ := Text.beforeComment_trim_eq_self h
    obtain ⟨c, blanks, hsplit⟩ := List.exists_cons_of_ne_nil
      (margin.comment_apart (by rw [hcomment]; rfl))
    rw [hsplit] at hafter
    have hblanks : '/' ∉ blanks := fun hmem =>
      Text.isBlank_ne_slash (hafter '/' (by simp [hmem])) rfl
    have hleft := Text.statement_append hbefore (List.forall_mem_nil _)
      (core ++ c :: (blanks ++ '/' :: '/' :: remark))
    rw [List.append_nil] at hleft
    simp only [around, hcomment, hsplit, Option.map_some, Option.getD_some, List.append_assoc,
      List.cons_append]
    rw [hleft, Text.statement,
      Text.beforeComment_append hself (Text.isBlank_ne_slash (hafter c (by simp))),
      beforeComment_slashes hblanks, ← List.nil_append core,
      Text.trim_append (List.forall_mem_nil _) hafter, htrim, List.nil_append]

theorem around_ne_nil (margin : Margin) (h : core ≠ []) : margin.around core ≠ [] := by
  simp [around, h]

theorem unbroken_around (margin : Margin) (h : Text.Unbroken core) :
    Text.Unbroken (margin.around core) := by
  intro c hc
  simp only [around, List.mem_append] at hc
  rcases hc with (hc | hc | hc) | hc
  · exact (margin.before_blank c hc).2
  · exact h c hc
  · exact (margin.after_blank c hc).2
  · cases hcomment : margin.comment with
    | none => simp [hcomment] at hc
    | some remark =>
      simp only [hcomment, Option.map_some, Option.getD_some, List.mem_cons] at hc
      rcases hc with rfl | rfl | hc
      · decide
      · decide
      · exact margin.comment_unbroken remark hcomment c hc

end Margin

structure EntryLine where
  id : WrittenId
  name : Text
  parameters : Option Text
  margin : Margin
  name_ne_nil : name ≠ []
  name_trim : Text.trim name = name
  name_call : '(' ∉ name
  name_comment : ¬ (['/', '/'] <:+: name)
  name_unbroken : Text.Unbroken name
  parameters_comment : ∀ text ∈ parameters, ¬ (['/', '/'] <:+: text)
  parameters_unbroken : ∀ text ∈ parameters, Text.Unbroken text

namespace EntryLine

theorem not_slashes {text : Text} (h : '/' ∉ text) : ¬ (['/', '/'] <:+: text) := fun hslashes =>
  h (hslashes.subset List.mem_cons_self)

variable (line : EntryLine)

def entry : Entry := ⟨line.id.value, line.name, line.parameters⟩

def call : Text := line.name ++ (line.parameters.map fun text => '(' :: (text ++ [')'])).getD []

def core : Text := line.id.text ++ ' ' :: line.call

def text : Text := line.margin.around line.core

theorem endsVisibly_name : Text.EndsVisibly line.name := by
  have hne : Text.trim line.name ≠ [] := line.name_trim.symm ▸ line.name_ne_nil
  have hends : Text.EndsVisibly (Text.trim line.name) := Text.endsVisibly_trimRight hne
  rwa [line.name_trim] at hends

theorem endsVisibly_call : Text.EndsVisibly line.call := by
  cases hparameters : line.parameters with
  | none => simpa [call, hparameters] using line.endsVisibly_name
  | some text =>
    refine ⟨')', ?_, by decide⟩
    simp [call, hparameters, List.getLast?_cons]

theorem exists_call : ∃ c rest, line.call = c :: rest ∧ Text.isBlank c = false := by
  obtain ⟨c, rest, hsplit⟩ := List.exists_cons_of_ne_nil line.name_ne_nil
  have hc := Text.isBlank_head_of_trim_eq_self line.name_trim c (by simp [hsplit])
  exact ⟨c, _, by rw [call, hsplit, List.cons_append], hc⟩

theorem beforeComment_call : Text.beforeComment line.call = line.call := by
  have hname := Text.beforeComment_eq_self_of_not_infix line.name_comment
  cases hparameters : line.parameters with
  | none => simpa [call, hparameters] using hname
  | some text =>
    have htext := Text.beforeComment_eq_self_of_not_infix (line.parameters_comment text hparameters)
    simp only [call, hparameters, Option.map_some, Option.getD_some]
    rw [Text.beforeComment_append hname (by decide), Text.beforeComment_append htext (by decide),
      Text.beforeComment]

theorem statement_core : Text.statement line.core = line.core := by
  have hslash : '/' ∉ line.id.text := fun hmem => (line.id.isBlank_of_mem_text hmem).2 rfl
  have hcomment : Text.beforeComment line.core = line.core := by
    rw [core, Text.beforeComment_append (Text.beforeComment_eq_self hslash) (by decide),
      line.beforeComment_call]
  rw [Text.statement, hcomment]
  refine Text.trim_eq_self (fun c hc => ?_) fun c hc => ?_
  · obtain ⟨d, rest, hsplit, -⟩ := line.id.exists_text
    rw [core, hsplit, List.cons_append, List.head?_cons] at hc
    obtain rfl := Option.some.inj hc
    exact (line.id.isBlank_of_mem_text (hsplit ▸ List.mem_cons_self)).1
  · obtain ⟨d, hd, hblank⟩ := Text.endsVisibly_append line.endsVisibly_call (line.id.text ++ [' '])
    rw [List.append_assoc, List.singleton_append, ← core] at hd
    obtain rfl := Option.some.inj (hd.symm.trans hc)
    exact hblank

theorem unbroken_core : Text.Unbroken line.core := by
  intro c hc
  rw [core, List.mem_append, List.mem_cons, call, List.mem_append] at hc
  rcases hc with hc | rfl | hc | hc
  · exact Text.isLineBreak_of_visible (line.id.isBlank_of_mem_text hc).1
  · decide
  · exact line.name_unbroken c hc
  · cases hparameters : line.parameters with
    | none => simp [hparameters] at hc
    | some text =>
      simp only [hparameters, Option.map_some, Option.getD_some, List.mem_cons, List.mem_append,
        List.not_mem_nil, or_false] at hc
      rcases hc with rfl | hc | rfl
      · decide
      · exact line.parameters_unbroken text hparameters c hc
      · decide

theorem guard_bind {α : Type} {p : Prop} [Decidable p] (h : p) (next : Unit → Option α) :
    (guard p >>= next) = next () := by
  have hguard : (guard p : Option Unit) = some () := if_pos h
  rw [hguard, Option.bind_eq_bind, Option.bind_some]

theorem read?_core : Entry.read? line.core = some line.entry := by
  obtain ⟨c, rest, hsplit, hblank⟩ := line.exists_call
  have htrim : Text.trimLeft (' ' :: line.call) = line.call := by
    rw [Text.trimLeft, List.dropWhile_cons_of_pos (by decide), hsplit,
      List.dropWhile_cons_of_neg (by simp [hblank])]
  rw [Entry.read?, core, line.id.readId?_text, Option.bind_eq_bind, Option.bind_some]
  have hdivided : (' ' :: line.call).head?.any Text.isBlank = true := rfl
  refine (guard_bind hdivided _).trans ?_
  rw [htrim]
  cases hparameters : line.parameters with
  | none =>
    have hcall : line.call = line.name := by simp [call, hparameters]
    rw [hcall]
    dsimp only
    rw [Text.cut?_eq_none line.name_call]
    refine (guard_bind line.name_ne_nil _).trans ?_
    rw [entry, hparameters]
    rfl
  | some text =>
    have hcall : line.call = line.name ++ '(' :: (text ++ [')']) := by simp [call, hparameters]
    rw [hcall]
    dsimp only
    rw [Text.cut?_append line.name_call]
    dsimp only
    rw [Text.trimRight_eq_self line.endsVisibly_name]
    refine (guard_bind ⟨line.name_ne_nil, List.getLast?_concat⟩ _).trans ?_
    rw [entry, hparameters, List.dropLast_concat]
    rfl

/-- An id is neither a header nor, with a name after it, a count. -/
theorem isAside_core (number : Nat) : Table.isAside number line.core = false := by
  obtain ⟨c, rest, hsplit, hc⟩ := line.id.exists_text
  have hcore : line.core = c :: (rest ++ ' ' :: line.call) := by rw [core, hsplit, List.cons_append]
  have hcaseless : Text.isCaseless c := by
    rcases hc with hdigit | rfl
    · exact Text.isCaseless_of_isDecimalDigit hdigit
    · decide +kernel
  have hletter : c ≠ 'I' := by
    rintro rfl
    exact absurd hcaseless (by decide +kernel)
  have hheader : Table.isHeader number line.core = false := by
    rw [Table.isHeader, hcore, Text.upper, List.flatMap_cons, Text.upperChar_of_isCaseless hcaseless]
    simp [List.isPrefixOf, hletter.symm]
  have hcount : Table.isCount line.core = false := by
    have hblank : Text.isDecimalDigit ' ' = false := by decide
    simp [Table.isCount, core, hblank]
  rw [Table.isAside, hheader, hcount, hcore]
  rfl

end EntryLine

/-- What may be written before the entries: the header, and a line of digits. -/
structure Heading where
  header : Option Margin := none
  count : Option (Margin × Text) := none
  count_digits : ∀ pair ∈ count, pair.2 ≠ [] ∧ ∀ c ∈ pair.2, Text.isDecimalDigit c

namespace Heading

def headerLines (heading : Heading) : List Text := heading.header.toList.map (·.around "IDS V1.0")

def countLines (heading : Heading) : List Text :=
  heading.count.toList.map fun pair => pair.1.around pair.2

def lines (heading : Heading) : List Text := heading.headerLines ++ heading.countLines

theorem isAside (heading : Heading) (hpair : pair ∈ heading.lines.zipIdx 1) :
    ∃ margin core, pair.1 = Margin.around margin core ∧ Text.statement core = core ∧
      Table.isAside pair.2 core ∧ Text.Unbroken core ∧ core ≠ [] := by
  rw [lines, List.zipIdx_append, List.mem_append] at hpair
  rcases hpair with hpair | hpair
  · cases hheader : heading.header with
    | none => simp [headerLines, hheader] at hpair
    | some margin =>
      obtain rfl : pair = (margin.around "IDS V1.0", 1) := by simpa [headerLines, hheader] using hpair
      have haside : Table.isAside 1 "IDS V1.0" := by decide +kernel
      exact ⟨margin, "IDS V1.0", rfl, by decide +kernel, haside, by decide, by decide⟩
  · cases hcount : heading.count with
    | none => simp [countLines, hcount] at hpair
    | some written =>
      obtain ⟨hne, hdigits⟩ := heading.count_digits written hcount
      obtain rfl : pair = (written.1.around written.2, 1 + heading.headerLines.length) := by
        simpa [countLines, hcount] using hpair
      have hvisible : ∀ c ∈ written.2, Text.isBlank c = false := fun c hc =>
        Text.isBlank_eq_false_of_isDecimalDigit (hdigits c hc)
      have hslash : '/' ∉ written.2 := fun hmem => absurd (hdigits '/' hmem) (by decide)
      refine ⟨written.1, written.2, rfl, ?_, ?_,
        fun c hc => Text.isLineBreak_of_visible (hvisible c hc), hne⟩
      · rw [Text.statement, Text.beforeComment_eq_self hslash, Text.trim_eq_self_of_forall hvisible]
      · have hall : written.2.all Text.isDecimalDigit := List.all_eq_true.mpr hdigits
        simp [Table.isAside, Table.isCount, hne, hall]

theorem unbroken (heading : Heading) (hline : line ∈ heading.lines) :
    Text.Unbroken line ∧ line ≠ [] := by
  obtain ⟨index, hindex⟩ := List.mem_iff_getElem?.mp hline
  obtain ⟨margin, core, rfl, -, -, hcore, hne⟩ :=
    heading.isAside (List.mk_add_mem_zipIdx_iff_getElem?.mpr hindex)
  exact ⟨margin.unbroken_around hcore, margin.around_ne_nil hne⟩

end Heading

-- --------------------
-- Tables
-- --------------------

namespace Table

theorem entries_foldl_add (entries : List Entry) (table : Table) :
    (entries.foldl add table).entries.toList = table.entries.toList ++ entries := by
  induction entries generalizing table with
  | nil => simp
  | cons entry entries ih => simp [ih, add]

theorem name_foldl_add (entries : List Entry) (table : Table) :
    (entries.foldl add table).name = table.name := by
  induction entries generalizing table with
  | nil => rfl
  | cons entry entries ih => rw [List.foldl_cons, ih, add]

theorem readLine_entry (line : EntryLine) (table : Table) (number : Nat) :
    table.readLine number line.text = pure (table.add line.entry) := by
  rw [readLine, EntryLine.text, line.margin.statement_around line.statement_core, if_neg (by
    rw [line.isAside_core]; decide), line.read?_core]

theorem readLine_aside (margin : Margin) (hstatement : Text.statement core = core)
    (haside : isAside number core) (table : Table) :
    table.readLine number (margin.around core) = pure table := by
  rw [readLine, margin.statement_around hstatement, if_pos haside]

theorem idFault?_entry (line : EntryLine) (number : Nat) :
    idFault? number line.text = if line.id.IsShort then none
      else some (.tooManyDigits (line.id.digits.countP Text.isDecimalDigit)) := by
  have hcheck : Entry.checkId line.core = _ := line.id.checkId_text line.call
  simp only [idFault?, EntryLine.text, line.margin.statement_around line.statement_core,
    line.isAside_core, line.read?_core, Option.isNone_some, Bool.or_false, Bool.false_eq_true,
    if_false, hcheck]
  by_cases hshort : line.id.IsShort <;> simp [hshort]

theorem idFault?_aside (margin : Margin) (hstatement : Text.statement core = core)
    (haside : isAside number core) : idFault? number (margin.around core) = none := by
  rw [idFault?, margin.statement_around hstatement, haside]
  rfl

theorem numberedLines_written (heading : Heading) (lines : List EntryLine)
    (htext : text ∈ [Text.ofLines (heading.lines ++ lines.map EntryLine.text),
      Text.join ['\n'] (heading.lines ++ lines.map EntryLine.text)]) :
    numberedLines text = heading.lines.zipIdx 1 ++
      (lines.map EntryLine.text).zipIdx (1 + heading.lines.length) := by
  have hall : ∀ line ∈ heading.lines ++ lines.map EntryLine.text, Text.Unbroken line ∧ line ≠ [] := by
    intro line hline
    rcases List.mem_append.mp hline with hline | hline
    · exact heading.unbroken hline
    · obtain ⟨written, -, rfl⟩ := List.mem_map.mp hline
      exact ⟨written.margin.unbroken_around written.unbroken_core,
        written.margin.around_ne_nil (by simp [EntryLine.core])⟩
  have hdisplay : Text.displayLines text = heading.lines ++ lines.map EntryLine.text := by
    rcases List.mem_cons.mp htext with rfl | htext
    · exact Text.displayLines_ofLines fun line hline => (hall line hline).1
    · rw [List.mem_singleton.mp htext]
      exact Text.displayLines_join (fun line hline => (hall line hline).1)
        fun line hline => (hall line hline).2
  rw [numberedLines, hdisplay, List.zipIdx_append]

def takeUp (table : Table) (pair : Text × Nat) : Noted SkippedLine Table :=
  table.readLine pair.2 pair.1

theorem readLines_eq (name : Text) (pairs : List (Text × Nat)) :
    readLines name pairs = pairs.foldlM takeUp (Table.empty name) :=
  rfl

theorem foldlM_aside {pairs : List (Text × Nat)} {table : Table}
    (h : ∀ pair ∈ pairs, takeUp table pair = pure table) : pairs.foldlM takeUp table = pure table := by
  induction pairs with
  | nil => rfl
  | cons pair pairs ih =>
    rw [List.foldlM_cons, h pair (by simp), pure_bind, ih fun other hother => h other (by simp [hother])]

theorem foldlM_entries (lines : List EntryLine) (table : Table) (start : Nat) :
    ((lines.map EntryLine.text).zipIdx start).foldlM takeUp table =
      pure ((lines.map EntryLine.entry).foldl add table) := by
  induction lines generalizing table start with
  | nil => rfl
  | cons line lines ih =>
    rw [List.map_cons, List.zipIdx_cons, List.foldlM_cons, takeUp, readLine_entry, pure_bind, ih,
      List.map_cons, List.foldl_cons]

theorem notes_foldlM_takeUp {pairs : List (Text × Nat)}
    (h : ∀ pair ∈ pairs, ∀ table : Table, (takeUp table pair).notes = []) (table : Table) :
    (pairs.foldlM takeUp table).notes = [] := by
  induction pairs generalizing table with
  | nil => rfl
  | cons pair pairs ih =>
    rw [List.foldlM_cons, Noted.notes_bind, ih fun other hother => h other (by simp [hother]),
      h pair (by simp), List.append_nil]

theorem outcome_load_of_none
    (h : (numberedLines text).findSome? (fun pair => idFault? pair.2 pair.1) = none) (name : Text) :
    (load name text).outcome = ⟨.ok (read name text).value, (read name text).notes⟩ := by
  have hload : load name text = ExceptT.lift (read name text) := by
    rw [load]
    split
    · rfl
    · next fault hfault => cases h.symm.trans hfault
  rw [hload]
  show (⟨.ok (read name text).value, (read name text).notes ++ []⟩ :
    Noted SkippedLine (Except NumeralFault Table)) = _
  rw [List.append_nil]

theorem outcome_load_of_some
    (h : (numberedLines text).findSome? (fun pair => idFault? pair.2 pair.1) = some fault)
    (name : Text) : ∃ pairs, pairs ⊆ numberedLines text ∧
      (load name text).outcome = ⟨.error fault, (readLines name pairs).notes⟩ := by
  refine ⟨(numberedLines text).takeWhile fun pair => (idFault? pair.2 pair.1).isNone,
    (List.takeWhile_sublist _).subset, ?_⟩
  rw [load]
  split
  · next hnone => cases h.symm.trans hnone
  · next found hfound =>
    obtain rfl : fault = found := Option.some.inj (h.symm.trans hfound)
    show (⟨.error fault, ((readLines name _).notes ++ []) ++ []⟩ :
      Noted SkippedLine (Except NumeralFault Table)) = _
    rw [List.append_nil, List.append_nil]

section Written

variable {text : Text} (heading : Heading) (lines : List EntryLine)
  (htext : text ∈ [Text.ofLines (heading.lines ++ lines.map EntryLine.text),
    Text.join ['\n'] (heading.lines ++ lines.map EntryLine.text)])

include htext

theorem read_written (name : Text) :
    read name text = pure ((lines.map EntryLine.entry).foldl add (Table.empty name)) := by
  rw [read, readLines_eq, numberedLines_written heading lines htext, List.foldlM_append,
    foldlM_aside fun pair hpair => ?_, pure_bind, foldlM_entries]
  obtain ⟨margin, core, hline, hstatement, haside, -⟩ := heading.isAside hpair
  rw [takeUp, hline, readLine_aside margin hstatement haside]

theorem takeUp_written (hpair : pair ∈ numberedLines text) :
    (∀ table, (takeUp table pair).notes = []) ∧
      (idFault? pair.2 pair.1 = none ∨ ∃ line ∈ lines, pair.1 = line.text) := by
  rw [numberedLines_written heading lines htext, List.mem_append] at hpair
  rcases hpair with hpair | hpair
  · obtain ⟨margin, core, hline, hstatement, haside, -⟩ := heading.isAside hpair
    rw [hline]
    refine ⟨fun table => ?_, .inl (idFault?_aside margin hstatement haside)⟩
    rw [takeUp, hline, readLine_aside margin hstatement haside, Noted.notes_pure]
  · obtain ⟨line, hline, hwritten⟩ := List.mem_map.mp (List.fst_mem_of_mem_zipIdx hpair)
    refine ⟨fun table => ?_, .inr ⟨line, hline, hwritten.symm⟩⟩
    rw [takeUp, ← hwritten, readLine_entry, Noted.notes_pure]

theorem outcome_load_short (hshort : ∀ line ∈ lines, line.id.IsShort) (name : Text) :
    (load name text).outcome =
      ⟨.ok ((lines.map EntryLine.entry).foldl add (Table.empty name)), []⟩ := by
  have hnone : (numberedLines text).findSome? (fun pair => idFault? pair.2 pair.1) = none := by
    rw [List.findSome?_eq_none_iff]
    intro pair hpair
    rcases (takeUp_written heading lines htext hpair).2 with hnone | ⟨line, hline, hwritten⟩
    · exact hnone
    · rw [hwritten, idFault?_entry, if_pos (hshort line hline)]
  rw [outcome_load_of_none hnone, read_written heading lines htext]
  rfl

theorem outcome_load_long (hline : line ∈ lines) (hlong : ¬ line.id.IsShort) (name : Text) :
    ∃ digits, digitLimit < digits ∧
      (load name text).outcome = ⟨.error (.tooManyDigits digits), []⟩ := by
  have hnumber : ∃ number, (line.text, number) ∈ numberedLines text := by
    rw [numberedLines_written heading lines htext]
    obtain ⟨index, hindex⟩ := List.mem_iff_getElem?.mp (List.mem_map_of_mem hline)
    exact ⟨_, List.mem_append_right _ (List.mk_add_mem_zipIdx_iff_getElem?.mpr hindex)⟩
  cases hfault : (numberedLines text).findSome? (fun pair => idFault? pair.2 pair.1) with
  | none =>
    obtain ⟨number, hnumber⟩ := hnumber
    have hnone := List.findSome?_eq_none_iff.mp hfault _ hnumber
    rw [idFault?_entry, if_neg hlong] at hnone
    cases hnone
  | some fault =>
    obtain ⟨pair, hpair, hsome⟩ := List.exists_of_findSome?_eq_some hfault
    obtain ⟨pairs, hpairs, houtcome⟩ := outcome_load_of_some hfault name
    have hnotes : (readLines name pairs).notes = [] := notes_foldlM_takeUp
      (fun pair hpair => (takeUp_written heading lines htext (hpairs hpair)).1) (Table.empty name)
    rw [hnotes] at houtcome
    rcases (takeUp_written heading lines htext hpair).2 with hnone | ⟨other, -, hwritten⟩
    · cases hsome.symm.trans hnone
    · rw [hwritten, idFault?_entry] at hsome
      split at hsome
      · cases hsome
      · next hother =>
        obtain rfl := Option.some.inj hsome
        exact ⟨_, Nat.lt_of_not_le fun hfew => hother (.inr hfew), houtcome⟩

end Written

/-- A written table gives back its entries in their order, and no line of it is skipped. Only a
decimal id with too many digits ends the reading. -/
theorem load_written (name : Text) (heading : Heading) (lines : List EntryLine)
    (htext : text ∈ [Text.ofLines (heading.lines ++ lines.map EntryLine.text),
      Text.join ['\n'] (heading.lines ++ lines.map EntryLine.text)]) :
    let entries := lines.map EntryLine.entry
    let table := entries.foldl add (Table.empty name)
    table.name = tableName name ∧ table.entries.toList = entries ∧
    ((∀ line ∈ lines, line.id.IsShort) → (load name text).outcome = ⟨.ok table, []⟩) ∧
    ((∃ line ∈ lines, ¬ line.id.IsShort) → ∃ digits, digitLimit < digits ∧
      (load name text).outcome = ⟨.error (.tooManyDigits digits), []⟩) := by
  intro entries table
  refine ⟨name_foldl_add _ _, by rw [entries_foldl_add]; rfl,
    fun hshort => outcome_load_short heading lines htext hshort name, ?_⟩
  rintro ⟨line, hline, hlong⟩
  exact outcome_load_long heading lines htext hline hlong name

theorem load_written_sample :
    let text : Text := "IDS V1.0\n2\n0x4023 True()\n\t-7 Two Words) // no call"
    ∃ table, (load "trigger" text).outcome = ⟨.ok table, []⟩ ∧
      table.entries.toList = [⟨0x4023, "True", some []⟩, ⟨-7, "Two Words)", none⟩] := by
  intro text
  let bare : Margin := ⟨[], [], none, by decide, by decide, by decide, by simp⟩
  let noted : Margin := ⟨['\t'], [' '], some " no call", by decide, by decide, by decide, by
    simp [Text.Unbroken, Text.isLineBreak]⟩
  let heading : Heading := ⟨some bare, some (bare, "2"), by simp; decide⟩
  let call : EntryLine := ⟨.ofInt 0x4023 true, "True", some [], bare, by decide, by decide, by decide,
    EntryLine.not_slashes (by decide), by decide, by simp, by simp [Text.Unbroken]⟩
  let symbol : EntryLine := ⟨.ofInt (-7) false, "Two Words)", none, noted, by decide, by decide,
    by decide, EntryLine.not_slashes (by decide), by decide, by simp, by simp⟩
  have htext : text ∈ [Text.ofLines (heading.lines ++ [call, symbol].map EntryLine.text),
      Text.join ['\n'] (heading.lines ++ [call, symbol].map EntryLine.text)] := by
    decide +kernel
  obtain ⟨-, hentries, hshort, -⟩ := load_written "trigger" heading [call, symbol] htext
  refine ⟨_, hshort ?_, hentries.trans ?_⟩
  · decide +kernel
  · simp [call, symbol, EntryLine.entry, WrittenId.value_ofInt]

theorem load_longDigits {digits : Text} (hdigits : ∀ c ∈ digits, Text.isDecimalDigit c)
    (hlong : digitLimit < digits.length) (name : Text) :
    ∃ n, Text.readNat? digits = some n ∧
      ∃ fault, (load name (digits ++ " a")).outcome = ⟨.error fault, []⟩ := by
  obtain ⟨n, hn⟩ := Option.isSome_iff_exists.mp
    (Text.readNat?_isSome (List.ne_nil_of_length_pos (by omega)) hdigits)
  let line : EntryLine := ⟨⟨false, false, digits, n, hn⟩, "a", none,
    ⟨[], [], none, by decide, by decide, by decide, by simp⟩, by decide, by decide, by decide,
    EntryLine.not_slashes (by decide), by decide, by simp, by simp⟩
  have hshort : ¬ line.id.IsShort := by
    simpa [line, WrittenId.IsShort, Text.FewDigits, List.countP_eq_length.mpr hdigits] using hlong
  have htext : line.text = digits ++ " a" := by
    simp [line, EntryLine.text, EntryLine.core, EntryLine.call, Margin.around, WrittenId.text,
      WrittenId.unsigned]
  let heading : Heading := ⟨none, none, by simp⟩
  have hmem : digits ++ " a" ∈ [Text.ofLines (heading.lines ++ [line].map EntryLine.text),
      Text.join ['\n'] (heading.lines ++ [line].map EntryLine.text)] := by
    refine .tail _ (List.mem_singleton.mpr ?_)
    simp [heading, htext, Heading.lines, Heading.headerLines, Heading.countLines]
  obtain ⟨count, -, houtcome⟩ := outcome_load_long heading [line] hmem (by simp) hshort name
  exact ⟨n, hn, _, houtcome⟩

/-- A table whose one id is written with 4301 decimal digits is not read. -/
theorem load_longId : ∃ n, Text.readNat? (List.replicate 4301 '1') = some n ∧
    ∀ table notes,
      (load "action" (List.replicate 4301 '1' ++ " a")).outcome ≠ ⟨.ok table, notes⟩ := by
  have hdigits : ∀ c ∈ List.replicate 4301 '1', Text.isDecimalDigit c := fun c hc => by
    rw [List.eq_of_mem_replicate hc]
    decide
  obtain ⟨n, hn, fault, houtcome⟩ :=
    load_longDigits hdigits (by rw [List.length_replicate]; decide) "action"
  refine ⟨n, hn, fun table notes h => ?_⟩
  rw [houtcome] at h
  cases h

end Table

end InfinityScript
