import InfinityScript.Proofs.Outcome
import InfinityScript.Proofs.Text.Lines
import InfinityScript.Script.Compile

/-!
# Layout of a source

Line numbers go into findings and nowhere else. A source is compiled to the same
code, with the same remarks in the same order, as its bare statements
(`compileStatements_of_compile`), so that blank lines, indents and comments do not matter.
-/

namespace InfinityScript

namespace Noted

theorem mapM_eq (f : α → Noted ν β) (xs : List α) :
    xs.mapM f = ⟨xs.map fun x => (f x).value, xs.flatMap fun x => (f x).notes⟩ := by
  induction xs with
  | nil => rfl
  | cons x xs ih =>
    rw [List.mapM_cons, ih]
    simp [Bind.bind, Noted.bind, Pure.pure]

end Noted

def Line.bare (text : Text) : Line := ⟨0, text⟩

def Line.plain (line : Line) : Line := .bare line.text

def Block.plain (block : Block σ) : Block σ where
  triggers := block.triggers.map fun trigger => (0, trigger.2)
  thenLine := block.thenLine.map fun _ => 0
  body := block.body.map fun line => (0, line.2)
  endLine := block.endLine.map fun _ => 0

def Outline.plain (outline : Outline) : Outline where
  blocks := outline.blocks.map Block.plain
  stray := outline.stray.map fun _ => 0

theorem Line.upTo_plain (word : Text) (lines : List Line) :
    Line.upTo word (lines.map Line.plain) =
      ((Line.upTo word lines).1.map Line.plain, (Line.upTo word lines).2.1.map fun _ => 0,
        (Line.upTo word lines).2.2.map Line.plain) := by
  induction lines with
  | nil => rfl
  | cons line lines ih =>
    rw [List.map_cons, Line.upTo, Line.upTo, ih]
    show (if Text.upper line.text = word then _ else _) = _
    split <;> rfl

namespace Outline

theorem readBlock_plain (lines : List Line) :
    readBlock (lines.map Line.plain) =
      ((readBlock lines).1.plain, (readBlock lines).2.map Line.plain) := by
  simp [readBlock, Line.upTo_plain, Block.plain, Line.plain, Line.bare, Function.comp_def]

theorem ofLines_plain (lines : List Line) :
    ofLines (lines.map Line.plain) = (ofLines lines).plain := by
  fun_induction ofLines lines with
  | case1 => rw [List.map_nil, ofLines]; rfl
  | case2 line lines h =>
    rw [List.map_cons, ofLines, if_pos (by exact h)]
    rfl
  | case3 line lines h read outline ih =>
    rw [List.map_cons, ofLines, if_neg (by exact h)]
    simp only [readBlock_plain]
    rw [ih]
    rfl

end Outline

/-- A value with its findings, wherever they were made. -/
def Noted.remarked (x : Findings α) : α × List Remark := (x.value, x.notes.map Finding.remark)

theorem Noted.remarked_bind {x y : Findings α} {f g : α → Findings β}
    (h : x.remarked = y.remarked) (hf : ∀ value, (f value).remarked = (g value).remarked) :
    (x >>= f).remarked = (y >>= g).remarked := by
  obtain ⟨hvalue, hnotes⟩ := Prod.mk.inj h
  obtain ⟨hvalue', hnotes'⟩ := Prod.mk.inj (hf y.value)
  refine Prod.ext ?_ ?_
  · show (f x.value).value = (g y.value).value
    rw [hvalue, hvalue']
  · show (x.notes ++ (f x.value).notes).map Finding.remark =
      (y.notes ++ (g y.value).notes).map Finding.remark
    rw [List.map_append, List.map_append, hnotes, hvalue, hnotes']

theorem Encoded.remarked_onLine (encoded : Encoded) (line line' : Nat) :
    (encoded.onLine line).remarked = (encoded.onLine line').remarked := by
  simp [Noted.remarked, Encoded.onLine, Function.comp_def]

theorem Fault.remarked_leaveIf (present : Bool) (fault : Fault) (line line' : Nat) :
    (Fault.leaveIf present fault line).remarked = (Fault.leaveIf present fault line').remarked := by
  cases present <;> rfl

namespace Block

theorem encodeEach_ok {encode : σ → Except Halt τ} {lines : List (Nat × σ)}
    {encoded : List (Nat × τ)} :
    encodeEach encode lines = .ok encoded ↔
      encoded.map Prod.fst = lines.map Prod.fst ∧
        (lines.map fun line => encode line.2) = encoded.map fun line => .ok line.2 := by
  rw [encodeEach, Outcome.mapM_ok]
  induction lines generalizing encoded with
  | nil => cases encoded <;> simp
  | cons line lines ih =>
    cases encoded with
    | nil => simp
    | cons first encoded =>
      simp only [List.map_cons, List.cons.injEq, ih, Outcome.bind_ok, Outcome.pure_ok]
      constructor
      · rintro ⟨⟨value, hvalue, rfl⟩, hnumbers, hvalues⟩
        exact ⟨⟨rfl, hnumbers⟩, hvalue, hvalues⟩
      · rintro ⟨⟨hnumber, hnumbers⟩, hvalue, hvalues⟩
        exact ⟨⟨first.2, hvalue, by rw [← hnumber]⟩, hnumbers, hvalues⟩

theorem mem_encodeEach {encode : σ → Except Halt τ} {lines : List (Nat × σ)}
    (h : encodeEach encode lines = .ok encoded) (hmem : line ∈ encoded) :
    ∃ statement ∈ lines, encode statement.2 = .ok line.2 := by
  have hvalue : .ok line.2 ∈ encoded.map fun line => (.ok line.2 : Except Halt τ) :=
    List.mem_map_of_mem hmem
  rw [← (encodeEach_ok.mp h).2] at hvalue
  exact List.mem_map.mp hvalue

theorem encodeEach_cons (encode : σ → Except Halt τ) (line : Nat × σ) (lines : List (Nat × σ)) :
    encodeEach encode (line :: lines) = (do
      let value ← encode line.2
      let rest ← encodeEach encode lines
      return (line.1, value) :: rest) := by
  simp only [encodeEach, List.mapM_cons, bind_assoc, pure_bind]

theorem encodeEach_plain (encode : σ → Except Halt τ) (lines : List (Nat × σ)) :
    encodeEach encode (lines.map fun line => (0, line.2)) =
      (List.map fun line => (0, line.2)) <$> encodeEach encode lines := by
  induction lines with
  | nil => rfl
  | cons line lines ih =>
    rw [List.map_cons, encodeEach_cons, encodeEach_cons, ih]
    cases encode line.2 with
    | error reason => rfl
    | ok value => cases encodeEach encode lines <;> rfl

theorem encode_plain (symbols : Symbols) (profile : Profile) (block : Block Text) :
    block.plain.encode symbols profile = Block.plain <$> block.encode symbols profile := by
  simp only [encode, plain, encodeEach_plain]
  cases encodeEach (Encoded.trigger symbols profile) block.triggers with
  | error reason => rfl
  | ok triggers =>
    cases encodeEach (BodyLine.encode (Encoded.action symbols profile)) block.body <;> rfl

theorem triggerCode_plain (missing : Int) (triggers : List (Nat × Encoded)) :
    (triggerCode missing (triggers.map fun trigger => (0, trigger.2))).remarked =
      (triggerCode missing triggers).remarked := by
  induction triggers generalizing missing with
  | nil => rfl
  | cons trigger triggers ih =>
    exact Noted.remarked_bind (trigger.2.remarked_onLine 0 trigger.1) fun text =>
      Noted.remarked_bind (Fault.remarked_leaveIf _ _ _ _) fun fault =>
        Noted.remarked_bind (ih _) fun _ => rfl

theorem conditionCode_plain (length : Nat) (block : Block Encoded) :
    (block.plain.conditionCode 0).remarked = (block.conditionCode length).remarked := by
  refine Noted.remarked_bind (triggerCode_plain 0 block.triggers) fun triggers => ?_
  refine Noted.remarked_bind (Fault.remarked_leaveIf _ _ _ _) fun opened => ?_
  refine Noted.remarked_bind ?_ fun ended => rfl
  simp only [plain, Option.isNone_map]
  exact Fault.remarked_leaveIf _ _ _ _

theorem bodyCode_plain (first : Bool) (body : List (Nat × BodyLine Encoded)) :
    (bodyCode first (body.map fun line => (0, line.2))).remarked =
      (bodyCode first body).remarked := by
  induction body generalizing first with
  | nil => rfl
  | cons line body ih =>
    obtain ⟨number, line⟩ := line
    cases line with
    | response weight =>
      refine Noted.remarked_bind ?_ fun weight => Noted.remarked_bind (ih false) fun _ => rfl
      cases weight <;> rfl
    | action encoded =>
      exact Noted.remarked_bind (encoded.remarked_onLine 0 number) fun text =>
        Noted.remarked_bind (ih first) fun _ => rfl

theorem responseCode_plain (length : Nat) (block : Block Encoded) :
    (block.plain.responseCode 0).remarked = (block.responseCode length).remarked := by
  refine Noted.remarked_bind (bodyCode_plain true block.body) fun text => ?_
  refine Noted.remarked_bind ?_ fun ended => rfl
  simp only [plain, Option.isNone_map]
  exact Fault.remarked_leaveIf _ _ _ _

theorem code_plain (length : Nat) (block : Block Encoded) :
    (block.plain.code 0).remarked = (block.code length).remarked :=
  Noted.remarked_bind (conditionCode_plain length block) fun _ =>
    Noted.remarked_bind (responseCode_plain length block) fun _ => rfl

end Block

theorem Outline.code_plain (length : Nat) (blocks : List (Block Encoded))
    (stray : Option Nat) :
    (Outline.code 0 (blocks.map Block.plain) (stray.map fun _ => 0)).remarked =
      (Outline.code length blocks stray).remarked := by
  have hblocks : ((blocks.map Block.plain).mapM (Block.code 0)).remarked =
      (blocks.mapM (Block.code length)).remarked := by
    induction blocks with
    | nil => rfl
    | cons block blocks ih =>
      rw [List.map_cons, List.mapM_cons, List.mapM_cons]
      exact Noted.remarked_bind (block.code_plain length) fun _ =>
        Noted.remarked_bind ih fun _ => rfl
  refine Noted.remarked_bind hblocks fun codes => ?_
  cases stray <;> rfl

def Source.statements (source : Source) : List Text := source.listing.lines.map Line.text

def compileStatements (symbols : Symbols) (profile : Profile) (statements : List Text) :
    Except Halt (Text × List Remark) := do
  profile.checkWidths.mapError .repetition
  let outline := Outline.ofLines (statements.map Line.bare)
  let blocks ← outline.blocks.mapM (Block.encode symbols profile)
  return (Outline.code 0 blocks outline.stray).remarked

theorem map_bare_statements (source : Source) :
    source.statements.map Line.bare = source.listing.lines.map Line.plain := by
  simp [Source.statements, Function.comp_def, Line.plain]

theorem compileStatements_statements (symbols : Symbols) (profile : Profile) (source : Source) :
    compileStatements symbols profile source.statements = (do
      profile.checkWidths.mapError .repetition
      let outline := Outline.ofLines source.listing.lines
      let blocks ← outline.blocks.mapM (Block.encode symbols profile)
      return (Outline.code source.listing.length blocks outline.stray).remarked) := by
  have hblocks : ∀ blocks : List (Block Text),
      (blocks.map Block.plain).mapM (Block.encode symbols profile) =
        List.map Block.plain <$> blocks.mapM (Block.encode symbols profile) := by
    intro blocks
    induction blocks with
    | nil => rfl
    | cons block blocks ih =>
      rw [List.map_cons, List.mapM_cons, List.mapM_cons, ih, Block.encode_plain]
      cases block.encode symbols profile with
      | error reason => rfl
      | ok encoded => cases blocks.mapM (Block.encode symbols profile) <;> rfl
  rw [compileStatements, map_bare_statements, Outline.ofLines_plain]
  simp only [Outline.plain, hblocks, bind_map_left, Outline.code_plain source.listing.length]

/-- A source is compiled to the code of its statements, with the remarks about them. -/
theorem compileStatements_of_compile (h : compile symbols profile source = .ok r) :
    ∃ findings : Findings Text, r = .ofFindings findings ∧
      compileStatements symbols profile source.statements = .ok findings.remarked := by
  obtain ⟨_, hwidths, h⟩ := Outcome.bind_ok.mp h
  obtain ⟨blocks, hblocks, h⟩ := Outcome.bind_ok.mp h
  refine ⟨_, (Outcome.pure_ok.mp h).symm, ?_⟩
  rw [compileStatements_statements]
  exact Outcome.bind_ok.mpr ⟨_, hwidths, Outcome.bind_ok.mpr ⟨blocks, hblocks, rfl⟩⟩

theorem compile_of_compileStatements
    (h : compileStatements symbols profile source.statements = .ok result) :
    ∃ findings : Findings Text, compile symbols profile source = .ok (.ofFindings findings) ∧
      findings.remarked = result := by
  rw [compileStatements_statements] at h
  obtain ⟨_, hwidths, h⟩ := Outcome.bind_ok.mp h
  obtain ⟨blocks, hblocks, h⟩ := Outcome.bind_ok.mp h
  exact ⟨_, Outcome.bind_ok.mpr ⟨_, hwidths, Outcome.bind_ok.mpr ⟨blocks, hblocks, rfl⟩⟩,
    Outcome.pure_ok.mp h⟩

def Encoded.ofRole (isAction : Bool) (symbols : Symbols) (profile : Profile) (statement : Text) :
    Except Halt Encoded :=
  if isAction then action symbols profile statement else trigger symbols profile statement

theorem compileDialog_singleton (hlines : source.listing.lines = [line]) :
    compileDialog symbols profile source isAction = .ok r ↔
      profile.checkWidths = .ok () ∧
        ∃ encoded, Encoded.ofRole isAction symbols profile line.text = .ok encoded ∧
          r = .ofFindings (encoded.onLine line.number) := by
  have hencode : (if isAction then Encoded.action else Encoded.trigger) symbols profile line.text =
      Encoded.ofRole isAction symbols profile line.text := by
    cases isAction <;> rfl
  have hfindings : ∀ encoded : Encoded, Compiled.ofFindings (List.flatten <$>
      [(line.number, encoded)].mapM fun numbered => numbered.2.onLine numbered.1) =
      .ofFindings (encoded.onLine line.number) := by
    intro encoded
    rw [Noted.mapM_eq]
    simp [Compiled.ofFindings, Encoded.onLine]
  simp only [compileDialog, hlines, List.mapM_cons, List.mapM_nil, Outcome.bind_ok,
    Outcome.mapError_ok, Outcome.pure_ok, hencode]
  constructor
  · rintro ⟨_, hwidths, _, ⟨_, ⟨encoded, hencoded, rfl⟩, _, rfl, rfl⟩, rfl⟩
    exact ⟨hwidths, encoded, hencoded, hfindings encoded⟩
  · rintro ⟨hwidths, encoded, hencoded, rfl⟩
    exact ⟨_, hwidths, _, ⟨_, ⟨encoded, hencoded, rfl⟩, _, rfl, rfl⟩, hfindings encoded⟩

theorem compileDialog_nil (hlines : source.listing.lines = [])
    (h : compileDialog symbols profile source isAction = .ok r) : r.code = [] := by
  obtain ⟨_, -, h⟩ := Outcome.bind_ok.mp h
  obtain ⟨statements, hstatements, h⟩ := Outcome.bind_ok.mp h
  rw [hlines, List.mapM_nil] at hstatements
  obtain rfl := Outcome.pure_ok.mp hstatements
  rw [← Outcome.pure_ok.mp h]
  rfl

def sampleSymbols : Symbols :=
  .build [
    ((Table.empty "TRIGGER").add ⟨0x4089, "OR", some "I:OrCount*"⟩).add ⟨0x4023, "True", some ""⟩,
    (Table.empty "ACTION").add ⟨1, "Say", some "S:Name*"⟩] [] [] [] none

end InfinityScript
