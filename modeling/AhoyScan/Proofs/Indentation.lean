import AhoyScan.Proofs.SourceLines
import Mathlib.Order.Monotone.Basic

/-!
# Only the order of widths counts

Blocks are opened and closed by comparing widths, so that a strictly increasing change of all widths
changes no token. `tokens_reindented` says this of texts: the white space at the beginning of each
line may be replaced by any other whose width, for tabs of any width, is given by such a change.
-/

namespace AhoyScan

/-- The line with other blanks in the place of those it begins with. If these were of some width,
the others have the width that `f` makes of it, for tabs of another width. -/
def Reindented (f : Nat → Nat) (tabWidth tabWidth' : Nat) (line line' : List Char) : Prop :=
  ∃ lead, (∀ c ∈ lead, isBlank c = true) ∧
    columns tabWidth' lead = f (columns tabWidth (line.takeWhile isBlank)) ∧
    line' = lead ++ line.dropWhile isBlank

/-! ## Blocks of other widths -/

section Widths

variable {f : Nat → Nat} (hf : StrictMono f)
include hf

/-- The marks before a line depend only on the order of its width and those of the blocks. -/
theorem reindent_map (hzero : f 0 = 0) (width : Nat) (blocks : List Nat) :
    reindent (f width) (blocks.map f) =
      ((reindent width blocks).1, (reindent width blocks).2.map f) := by
  have hwider : (fun block ↦ decide (f width < block)) ∘ f =
      fun block ↦ decide (width < block) := by
    funext block
    exact decide_eq_decide.2 hf.lt_iff_lt
  have hhead (kept : List Nat) : (kept.map f).headD 0 = f (kept.headD 0) := by
    cases kept with
    | nil => exact hzero.symm
    | cons block kept => rfl
  rw [reindent_eq, reindent_eq, List.takeWhile_map, List.dropWhile_map, hwider, hhead]
  simp only [List.length_map, hf.lt_iff_lt]
  split <;> rfl

/-- The first lexeme of a line comes after the same marks when the widths change together. -/
theorem Layout.first_lexeme_rescale (hzero : f 0 = 0) {tabWidth tabWidth' : Nat}
    {lead lead' : List Char} (hwidth : columns tabWidth' lead' = f (columns tabWidth lead))
    (line : Nat) (blocks : List Nat) (l : Lexeme) :
    Layout.step ⟨tabWidth', true⟩ ⟨line, some lead', blocks.map f⟩ (.lexeme l) =
      ((Layout.step ⟨tabWidth, true⟩ ⟨line, some lead, blocks⟩ (.lexeme l)).1,
        (Layout.step ⟨tabWidth, true⟩ ⟨line, some lead, blocks⟩ (.lexeme l)).2.rescale f) := by
  simp only [step]
  rw [enter_some _ _ rfl, enter_some _ _ rfl]
  simp only [Options.reindent, if_true]
  rw [hwidth, reindent_map hf hzero]
  rfl

end Widths

/-! ## Lines -/

section Lines

variable {f : Nat → Nat}

/-- Behind the first lexeme of a line the widths of the blocks have no part in what is read. -/
theorem Layout.read_rescale (options options' : Options) {layout : Layout} {line : List Segment}
    (hlead : layout.lead = none) (hlineEnd : .lineEnd ∉ line) :
    (layout.rescale f).read options' line =
      ((layout.read options line).1, (layout.read options line).2.rescale f) := by
  induction line generalizing layout with
  | nil => rfl
  | cons segment line ih =>
      rw [List.mem_cons, not_or] at hlineEnd
      have hstep : (layout.rescale f).step options' segment =
          ((layout.step options segment).1, (layout.step options segment).2.rescale f) ∧
            (layout.step options segment).2.lead = none := by
        cases segment with
        | blanks chars | comment chars => exact ⟨rfl, by simp [step, hlead]⟩
        | lineEnd => exact absurd rfl hlineEnd.1
        | lexeme l =>
            have hlead' : (layout.rescale f).lead = none := hlead
            simp only [step, enter_none _ _ hlead, enter_none _ _ hlead']
            exact ⟨rfl, hlead⟩
      rw [read_cons, read_cons, hstep.1, ih hstep.2 hlineEnd.2]

/-- What comes behind the blanks at the beginning of a line begins with no blank. -/
theorem head_dropWhile_blank (line : List Char) :
    ∀ c ∈ (line.dropWhile isBlank).head?, isBlank c = false := by
  intro c hc
  have hhead := List.head?_dropWhile_not isBlank line
  rw [hc] at hhead
  simpa using hhead

/-- The blanks at the beginning of a line are cut off by themselves. -/
theorem all_takeWhile_blank (line : List Char) :
    Segment.all line =
      Segment.all (line.takeWhile isBlank) ++ Segment.all (line.dropWhile isBlank) := by
  rw [← Segment.all_blanks_append (fun c ↦ List.mem_takeWhile_imp) (head_dropWhile_blank line),
    List.takeWhile_append_dropWhile]

/-- A line that begins with no blank begins with its first lexeme if it holds one. -/
theorem exists_first_lexeme {text : List Char} (hblank : ∀ c ∈ text.head?, isBlank c = false)
    (hlineEnd : .lineEnd ∉ Segment.all text) (hlexemes : lexemesOf (Segment.all text) ≠ []) :
    ∃ l rest, Segment.all text = .lexeme l :: rest := by
  have hcut : WellCut (Segment.all text ++ []) := by
    rw [List.append_nil]
    exact wellCut_all text
  have hlead := leadOf_eq hcut hlineEnd hlexemes
  rw [Segment.flatMap_chars_all] at hlead
  cases hall : Segment.all text with
  | nil =>
      rw [hall] at hlexemes
      exact absurd rfl hlexemes
  | cons segment rest =>
      obtain ⟨c, tail, left, rfl, hchars, -⟩ := Segment.exists_first_of_all hall
      rw [hall] at hlead
      cases segment with
      | lexeme l => exact ⟨l, rest, rfl⟩
      | blanks chars | comment chars | lineEnd =>
          -- Its characters would be blanks at the beginning of the line.
          simp [leadOf, Segment.lexeme?, hchars, hblank c rfl] at hlead

/-- A line is read like the one it was before it was indented in another way. -/
theorem Reindented.readAlike (hf : StrictMono f) (hzero : f 0 = 0) {tabWidth tabWidth' : Nat}
    {line line' : List Char} (h : Reindented f tabWidth tabWidth' line line')
    (hlineEnd : .lineEnd ∉ Segment.all line) :
    ReadAlike f ⟨tabWidth, true⟩ ⟨tabWidth', true⟩ (Segment.all line) (Segment.all line') := by
  obtain ⟨lead', hlead', hwidth, rfl⟩ := h
  have hlead : ∀ c ∈ line.takeWhile isBlank, isBlank c = true := fun c ↦ List.mem_takeWhile_imp
  have hbody := head_dropWhile_blank line
  rw [all_takeWhile_blank, List.mem_append, not_or] at hlineEnd
  rw [all_takeWhile_blank line, Segment.all_blanks_append hlead' hbody]
  rintro ⟨number, _, blocks⟩ ⟨⟩
  -- Both lines differ only in the leading text with which their bodies are reached.
  rw [Layout.read_append, Layout.read_append,
    Layout.read_margin _ _ (Segment.margin_all_blanks hlead),
    Layout.read_margin _ _ (Segment.margin_all_blanks hlead'), Segment.flatMap_chars_all,
    Segment.flatMap_chars_all]
  simp only [Layout.rescale, Option.map_some, List.nil_append]
  by_cases hlexemes : lexemesOf (Segment.all (line.dropWhile isBlank)) = []
  · rw [Layout.read_blank _ _ hlineEnd.2 hlexemes, Layout.read_blank _ _ hlineEnd.2 hlexemes]
    exact ⟨rfl, rfl, rfl, by simp⟩
  · obtain ⟨l, rest, hall⟩ := exists_first_lexeme hbody hlineEnd.2 hlexemes
    rw [hall, List.mem_cons, not_or] at hlineEnd
    have hfirst := Layout.first_lexeme_rescale hf hzero hwidth number blocks l
    have hnone : (Layout.step ⟨tabWidth, true⟩
        ⟨number, some (line.takeWhile isBlank), blocks⟩ (.lexeme l)).2.lead = none := by
      simp [Layout.step]
    rw [hall, Layout.read_cons, Layout.read_cons, hfirst,
      Layout.read_rescale ⟨tabWidth, true⟩ _ hnone hlineEnd.2.2]
    exact ⟨rfl, rfl, rfl, Iff.rfl⟩

/-- A line without illegal input is legal after it was indented in another way. -/
theorem Reindented.legal {tabWidth tabWidth' : Nat} {line line' : List Char}
    (h : Reindented f tabWidth tabWidth' line line') (hlegal : Legal (Segment.all line)) :
    Legal (Segment.all line') := by
  obtain ⟨lead', hlead', -, rfl⟩ := h
  rw [all_takeWhile_blank, legal_append] at hlegal
  rw [Segment.all_blanks_append hlead' (head_dropWhile_blank line)]
  exact legal_append.2 ⟨(Segment.margin_all_blanks hlead').legal, hlegal.2⟩

end Lines

/-- The white space at the beginnings of the lines of a text without illegal input may be replaced
by any other white space, and tabs may get another width, without any change of the tokens, if a
strictly increasing function that keeps 0 leads from the old widths to the new ones. A line begins
at the beginning of the text and after every line end that is not inside a lexeme. -/
theorem tokens_reindented {f : Nat → Nat} (hf : StrictMono f) (hzero : f 0 = 0)
    {tabWidth tabWidth' : Nat} {text : List Char} {lines' : List (List Char)}
    (hlegal : ∀ token ∈ tokens ⟨tabWidth, true⟩ text, token.kind ≠ .illegal)
    (h : List.Forall₂ (Reindented f tabWidth tabWidth') (sourceLines text) lines') :
    ['\n'].intercalate (sourceLines text) = text ∧
      tokens ⟨tabWidth', true⟩ (['\n'].intercalate lines') = tokens ⟨tabWidth, true⟩ text := by
  refine ⟨intercalate_sourceLines text, tokens_of_lines_alike (f := f) hlegal h ?_⟩
  intro line line' hlegal hlineEnd hline
  exact ⟨hline.legal hlegal, hline.readAlike hf hzero hlineEnd⟩

/-- All widths times 3, and tabs narrower by one column: a block is closed and a narrower one opened
as before. The third line of characters begins inside a string and is none of the source lines. -/
theorem tokens_reindented_tabs :
    sourceLines "x\n    y \"a\n  b\"\n  z".toList =
        ["x".toList, "    y \"a\n  b\"".toList, "  z".toList] ∧
      tokens ⟨3, true⟩ "x\n\t\t\t\ty \"a\n  b\"\n\r\t   z".toList =
        [⟨.identifier, "x", 1⟩, ⟨.newline, "\n", 1⟩, ⟨.indent, "", 2⟩, ⟨.identifier, "y", 2⟩,
          ⟨.string, "a\n  b", 2⟩, ⟨.newline, "\n", 3⟩, ⟨.dedent, "", 4⟩, ⟨.indent, "", 4⟩,
          ⟨.identifier, "z", 4⟩, ⟨.dedent, "", 4⟩] := by
  have hlines : sourceLines "x\n    y \"a\n  b\"\n  z".toList =
      ["x".toList, "    y \"a\n  b\"".toList, "  z".toList] := by
    decide +kernel
  have h : List.Forall₂ (Reindented (3 * ·) 4 3) (sourceLines "x\n    y \"a\n  b\"\n  z".toList)
      ["x".toList, "\t\t\t\ty \"a\n  b\"".toList, "\r\t   z".toList] := by
    rw [hlines]
    exact .cons ⟨[], List.all_eq_true.1 rfl, rfl, rfl⟩
      (.cons ⟨"\t\t\t\t".toList, List.all_eq_true.1 rfl, rfl, rfl⟩
        (.cons ⟨"\r\t   ".toList, List.all_eq_true.1 rfl, rfl, rfl⟩ .nil))
  have hlegal : ∀ token ∈ tokens ⟨4, true⟩ "x\n    y \"a\n  b\"\n  z".toList,
      token.kind ≠ .illegal := by
    decide +kernel
  have hmono : StrictMono fun width ↦ 3 * width := fun m n h ↦ by
    show 3 * m < 3 * n
    omega
  refine ⟨hlines, (tokens_reindented hmono rfl hlegal h).2.trans ?_⟩
  decide +kernel

end AhoyScan
