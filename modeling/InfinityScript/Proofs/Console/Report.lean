import InfinityScript.Console.Report
import InfinityScript.Proofs.Record.Codec
import InfinityScript.Proofs.Script.FindingLines
import InfinityScript.Proofs.Text.Breaks

/-!
# Reported lines

The findings of a compilation are numbered by physical lines and shown with displayed lines.
`diagnostics_compile` says when the two are the same.
-/

namespace InfinityScript.Report

def shown (lines : List Text) (number : Int) (colour : Text) : Option Text :=
  if 0 < number then (lines[number.toNat - 1]?).map (highlight · number colour) else none

theorem shown_eq (h : 0 < number) (lines : List Text) (colour : Text) :
    shown lines number colour = (lines[number.toNat - 1]?).map (highlight · number colour) :=
  if_pos h

theorem severityLines_eq (severity colour : Text) (lines : List Text) (name : Text)
    (diagnostics : Diagnostics) :
    severityLines severity colour lines name diagnostics = diagnostics.toList.flatMap fun entry =>
      let label : Text := if name = [] then [] else name ++ ":"
      Colour.paint colour (severity ++ ":" ++ label ++ Text.ofInt entry.1 ++ ": " ++ entry.2) ::
        (shown lines entry.1 colour).toList :=
  rfl

theorem paintPart_append (colour indent text : Text) :
    Colour.paintPart colour (indent ++ text) indent.length (indent ++ text).length =
      indent ++ colour ++ text ++ Colour.reset := by
  have hindent : window 0 (indent.length : Int) (indent ++ text) = indent :=
    window_append [] indent text rfl rfl (by simp)
  have htext : window (indent.length : Int) ((indent ++ text).length : Int) (indent ++ text) = text :=
    window_append indent text [] (by simp) rfl (by simp)
  have hnone : window ((indent ++ text).length : Int) ((indent ++ text).length : Int)
      (indent ++ text) = [] :=
    window_append (indent ++ text) [] [] (by simp) rfl (by simp)
  rw [Colour.paintPart, hindent, htext, hnone, List.append_nil]

theorem highlight_eq (line : Text) (number : Int) (colour : Text) :
    highlight line number colour =
      Colour.paint Colour.cyan (Text.padLeft 4 (Text.ofInt number) ++ "| ") ++
        ((Text.trimRight line).takeWhile Text.isBlank ++ colour ++
          (Text.trimRight line).dropWhile Text.isBlank ++ Colour.reset) := by
  have hsplit := List.takeWhile_append_dropWhile (p := Text.isBlank) (l := Text.trimRight line)
  have hindent : (Text.trimRight line).length - (Text.trimLeft (Text.trimRight line)).length =
      ((Text.trimRight line).takeWhile Text.isBlank).length := by
    have hlength := congrArg List.length hsplit
    rw [List.length_append] at hlength
    rw [Text.trimLeft]
    omega
  rw [highlight, hindent, ← paintPart_append, hsplit]

theorem highlight_congr (h : Text.trimRight line = Text.trimRight other) (number : Int)
    (colour : Text) : highlight line number colour = highlight other number colour := by
  rw [highlight_eq, highlight_eq, h]

theorem takeWhile_append_stop (hall : ∀ c ∈ blanks, Text.isBlank c) (hstop : Text.isBlank c = false)
    (rest : Text) : (blanks ++ c :: rest).takeWhile Text.isBlank = blanks ∧
      (blanks ++ c :: rest).dropWhile Text.isBlank = c :: rest := by
  simp [List.takeWhile_append_of_pos hall, List.dropWhile_append_of_pos hall, hstop]

/-- Lines that are shown the same look the same: a colour ends the indent. -/
theorem trimRight_eq_of_highlight_eq (hcolour : colour ∈ [Colour.red, Colour.yellow])
    (h : highlight line number colour = highlight other number colour) :
    Text.trimRight line = Text.trimRight other := by
  obtain ⟨code, rfl⟩ : ∃ code, colour = '\x1b' :: code := by
    rcases List.mem_cons.mp hcolour with rfl | hcolour
    · exact ⟨_, rfl⟩
    · exact ⟨_, List.mem_singleton.mp hcolour⟩
  have hblank : ∀ text : Text, ∀ c ∈ text.takeWhile Text.isBlank, Text.isBlank c := fun text c hc =>
    List.all_eq_true.mp List.all_takeWhile c hc
  have hescape : Text.isBlank '\x1b' = false := by decide
  rw [highlight_eq, highlight_eq, List.append_cancel_left_eq, List.append_cancel_right_eq,
    List.append_assoc, List.append_assoc] at h
  obtain ⟨htake, hdrop⟩ := takeWhile_append_stop (hblank (Text.trimRight line)) hescape
    (code ++ (Text.trimRight line).dropWhile Text.isBlank)
  obtain ⟨htake', hdrop'⟩ := takeWhile_append_stop (hblank (Text.trimRight other)) hescape
    (code ++ (Text.trimRight other).dropWhile Text.isBlank)
  rw [← List.cons_append] at htake hdrop htake' hdrop'
  rw [h, htake'] at htake
  rw [h, hdrop', List.append_cancel_left_eq] at hdrop
  rw [← List.takeWhile_append_dropWhile (p := Text.isBlank) (l := Text.trimRight line), ← htake, ← hdrop,
    List.takeWhile_append_dropWhile]

theorem shown_of_isPrefix {lines displayed : List Text}
    (h : lines.map Text.trimRight <+: displayed.map Text.trimRight)
    (hline : lines[number.toNat - 1]? = some line) (hnumber : 0 < number) (colour : Text) :
    shown displayed number colour = some (highlight line number colour) := by
  have hmap : (displayed.map Text.trimRight)[number.toNat - 1]? = some (Text.trimRight line) := by
    obtain ⟨rest, hrest⟩ := h
    rw [← hrest, List.getElem?_append_left, List.getElem?_map, hline, Option.map_some]
    rw [List.length_map]
    exact (List.getElem?_eq_some_iff.mp hline).1
  rw [List.getElem?_map] at hmap
  obtain ⟨other, hother, htrim⟩ := Option.map_eq_some_iff.mp hmap
  rw [shown_eq hnumber, hother, Option.map_some, highlight_congr htrim]

/-- Every physical line is shown under its number exactly when nothing visible stands after a
break that is no line feed. -/
theorem onlyFeeds_iff_shown (source : Text) :
    Text.OnlyFeeds (Text.trimRight source) ↔
      ∀ (number : Int) (line colour : Text), 0 < number →
        (Text.physicalLines source)[number.toNat - 1]? = some line →
          colour ∈ [Colour.red, Colour.yellow] →
            shown (Text.displayLines source) number colour = some (highlight line number colour) := by
  rw [← Text.isPrefix_displayLines_iff]
  constructor
  · intro h number line colour hnumber hline _
    exact shown_of_isPrefix h hline hnumber colour
  · intro h
    rw [List.prefix_iff_getElem?]
    intro i hi
    rw [List.length_map] at hi
    have hshown := h (i + 1) _ Colour.red (by omega)
      (List.getElem?_eq_getElem (by omega : (i + 1 : Int).toNat - 1 < _)) (by simp)
    rw [shown_eq (by omega)] at hshown
    obtain ⟨line, hline, hsame⟩ := Option.map_eq_some_iff.mp hshown
    have htrim := trimRight_eq_of_highlight_eq (by simp) hsame
    have hindex : (i + 1 : Int).toNat - 1 = i := by omega
    simp only [hindex] at hline htrim
    rw [List.getElem?_map, hline, List.getElem_map, Option.map_some, htrim]

theorem severityLines_congr {lines displayed : List Text} {told : Diagnostics} (colour : Text)
    (h : ∀ entry ∈ told.toList, shown displayed entry.1 colour = shown lines entry.1 colour)
    (severity name : Text) :
    severityLines severity colour displayed name told =
      severityLines severity colour lines name told := by
  rw [severityLines_eq, severityLines_eq, List.flatMap_def, List.flatMap_def]
  refine congrArg List.flatten (List.map_congr_left fun entry hentry => ?_)
  rw [h entry hentry]

/-- Every finding is about a physical line, which is shown with it when nothing visible up to
the end of that line stands after a break that is no line feed. All physical lines are shown
under their numbers exactly when this holds of the whole source, and the report is then the one
made from the physical lines. -/
theorem diagnostics_compile (h : compile symbols profile (.text source) = .ok compiled)
    (name : Text) :
    (∀ number message, (number, message) ∈ compiled.errors.toList ∨
      (number, message) ∈ compiled.warnings.toList →
        ∃ line, 0 < number ∧ (Text.physicalLines source)[number.toNat - 1]? = some line ∧
          (Text.OnlyFeeds (Text.trimRight
              (Text.ofLines ((Text.physicalLines source).take number.toNat))) →
            ∀ colour, shown (Text.displayLines source) number colour =
              some (highlight line number colour))) ∧
    (Text.OnlyFeeds (Text.trimRight source) ↔
      ∀ (number : Int) (line colour : Text), 0 < number →
        (Text.physicalLines source)[number.toNat - 1]? = some line →
          colour ∈ [Colour.red, Colour.yellow] →
            shown (Text.displayLines source) number colour =
              some (highlight line number colour)) ∧
    (Text.OnlyFeeds (Text.trimRight source) →
      diagnostics source compiled.errors compiled.warnings name =
        severityLines "Error" Colour.red (Text.physicalLines source) name compiled.errors ++
          severityLines "Warning" Colour.yellow (Text.physicalLines source) name
            compiled.warnings) := by
  have hkey : ∀ number message, (number, message) ∈ compiled.errors.toList ∨
      (number, message) ∈ compiled.warnings.toList →
        ∃ line, 0 < number ∧ (Text.physicalLines source)[number.toNat - 1]? = some line := by
    intro number message hmessage
    obtain ⟨index, rfl, hpos, hle⟩ := compile_within h hmessage
    have hindex : (index : Int).toNat - 1 < (Text.physicalLines source).length := by
      have : index ≤ (Text.physicalLines source).length := hle
      omega
    exact ⟨_, by omega, List.getElem?_eq_getElem hindex⟩
  refine ⟨fun number message hmessage => ?_, onlyFeeds_iff_shown source, fun hfeeds => ?_⟩
  · obtain ⟨line, hnumber, hline⟩ := hkey number message hmessage
    refine ⟨line, hnumber, hline, fun hfeeds colour => ?_⟩
    refine shown_of_isPrefix (Text.isPrefix_take_displayLines hfeeds) ?_ hnumber colour
    rw [List.getElem?_take_of_lt (by omega), hline]
  · have hshown : ∀ number message, (number, message) ∈ compiled.errors.toList ∨
        (number, message) ∈ compiled.warnings.toList → ∀ colour,
          shown (Text.displayLines source) number colour =
            shown (Text.physicalLines source) number colour := by
      intro number message hmessage colour
      obtain ⟨line, hnumber, hline⟩ := hkey number message hmessage
      rw [shown_of_isPrefix ((Text.isPrefix_displayLines_iff source).mpr hfeeds) hline hnumber,
        shown_eq hnumber, hline, Option.map_some]
    rw [diagnostics, severityLines_congr Colour.red fun entry hentry =>
        hshown entry.1 entry.2 (.inl hentry) _,
      severityLines_congr Colour.yellow fun entry hentry => hshown entry.1 entry.2 (.inr hentry) _]

theorem diagnostics_compile_sample :
    let source : Text := "IF\r\n\tNo()\r\nTHEN\x0c\nEND"
    ∃ compiled, compile sampleSymbols (.ofGame .none) (.text source) = .ok compiled ∧
      (2, ("No not found in TRIGGER.IDS" : Text)) ∈ compiled.errors.toList ∧
      shown (Text.displayLines source) 2 Colour.red = some (highlight "\tNo()" 2 Colour.red) := by
  intro source
  obtain ⟨compiled, hcompiled, herror⟩ := Outcome.exists_of_any (by decide +kernel :
    (compile sampleSymbols (.ofGame .none) (.text source)).toOption.any fun compiled =>
      (2, ("No not found in TRIGGER.IDS" : Text)) ∈ compiled.errors.toList)
  have herror := of_decide_eq_true herror
  obtain ⟨line, -, hline, hshown⟩ := (diagnostics_compile hcompiled []).1 2 _ (.inl herror)
  obtain rfl : ("\tNo()\r" : Text) = line := Option.some.inj (Eq.trans (by decide +kernel) hline)
  refine ⟨compiled, hcompiled, herror, (hshown ?_ Colour.red).trans ?_⟩
  · have hfirst : Text.trimRight (Text.ofLines ((Text.physicalLines source).take (2 : Int).toNat)) =
        "IF\r\n\tNo()" := by decide +kernel
    rw [hfirst]
    simp [Text.OnlyFeeds, Text.isLineBreak]
  · exact congrArg some (highlight_congr (by decide) 2 Colour.red)

/-- A form feed before a line that has a fault: an empty line is shown in its place. -/
theorem shown_after_formFeed :
    let source : Text := "IF\x0c\nNo()\nTHEN\nEND\n"
    ∃ compiled, compile sampleSymbols (.ofGame .none) (.text source) = .ok compiled ∧
      (2, ("No not found in TRIGGER.IDS" : Text)) ∈ compiled.errors.toList ∧
      (Text.physicalLines source)[1]? = some ("No()" : Text) ∧
      shown (Text.displayLines source) 2 Colour.red = some (highlight [] 2 Colour.red) ∧
      highlight [] 2 Colour.red ≠ highlight "No()" 2 Colour.red := by
  intro source
  obtain ⟨compiled, hcompiled, herror⟩ := Outcome.exists_of_any (by decide +kernel :
    (compile sampleSymbols (.ofGame .none) (.text source)).toOption.any fun compiled =>
      (2, ("No not found in TRIGGER.IDS" : Text)) ∈ compiled.errors.toList)
  exact ⟨compiled, hcompiled, of_decide_eq_true herror, by decide +kernel, by decide +kernel,
    by decide +kernel⟩

end InfinityScript.Report
