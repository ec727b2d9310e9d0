import AhoyScan.Proofs.Extension
import AhoyScan.Proofs.Lines

/-!
# Replacing the lines of a source

The line ends between the segments of a text divide it into lines, each of which is cut into
segments by itself (`sourceLines`). Two lines are read alike if they give the same tokens and leave
the same behind for the next line, up to a change of the widths of the open blocks (`ReadAlike`).
So a text has the same tokens when its lines are replaced by such lines (`tokens_of_lines_alike`).
-/

namespace AhoyScan

/-- The lines of a text: what the line ends between its segments separate. A line end inside a
lexeme separates nothing. -/
def sourceLines (text : List Char) : List (List Char) :=
  ((Segment.all text).splitOn .lineEnd).map (·.flatMap Segment.chars)

/-- The place with other widths for its open blocks. -/
def Layout.rescale (f : Nat → Nat) (layout : Layout) : Layout :=
  { layout with blocks := layout.blocks.map f }

/-- The places differ at most in the widths of their open blocks and in the leading text of their
line. -/
structure Layout.EndAlike (f : Nat → Nat) (last last' : Layout) : Prop where
  line_eq : last'.line = last.line
  blocks_eq : last'.blocks = last.blocks.map f
  lead_iff : last'.lead = none ↔ last.lead = none

/-- From the beginning of a line both give the same tokens and lead to places that end alike. -/
def ReadAlike (f : Nat → Nat) (options options' : Options) (line line' : List Segment) : Prop :=
  ∀ layout : Layout, layout.lead = some [] →
    ((layout.rescale f).read options' line').1 = (layout.read options line).1 ∧
      ((layout.read options line).2).EndAlike f ((layout.rescale f).read options' line').2

/-! ## Lines and line ends -/

/-- A line is some of the segments of the text, and none of them is a line end. -/
theorem mem_splitOn_lineEnd {segments line : List Segment} (h : line ∈ segments.splitOn .lineEnd) :
    line <:+: segments ∧ .lineEnd ∉ line := by
  induction segments using lines_induction with
  | last segments hlineEnd =>
      rw [List.splitOn_eq_singleton hlineEnd, List.mem_singleton] at h
      rw [h]
      exact ⟨List.infix_rfl, hlineEnd⟩
  | more first rest hlineEnd ih =>
      rw [List.splitOn_append_cons_self_of_not_mem hlineEnd, List.mem_cons] at h
      rcases h with rfl | h
      · exact ⟨(List.prefix_append line _).isInfix, hlineEnd⟩
      · obtain ⟨hpart, hline⟩ := ih h
        refine ⟨hpart.trans ?_, hline⟩
        exact ((List.suffix_cons _ rest).trans (List.suffix_append first _)).isInfix

/-- The lines of a text are cut as they are in the text. -/
theorem map_all_sourceLines (text : List Char) :
    (sourceLines text).map Segment.all = (Segment.all text).splitOn .lineEnd := by
  have hself : ∀ line ∈ (Segment.all text).splitOn .lineEnd,
      Segment.all (line.flatMap Segment.chars) = id line :=
    fun line hline ↦ Segment.all_infix (mem_splitOn_lineEnd hline).1
  rw [sourceLines, List.map_map]
  exact (List.map_congr_left hself).trans (List.map_id _)

/-- What the segments of joined parts spell is the parts joined by what the joint spells. -/
theorem flatMap_chars_intercalate (joint : List Segment) (parts : List (List Segment)) :
    (joint.intercalate parts).flatMap Segment.chars =
      (joint.flatMap Segment.chars).intercalate (parts.map (·.flatMap Segment.chars)) := by
  induction parts with
  | nil => rfl
  | cons part parts ih =>
      cases parts with
      | nil => simp
      | cons next parts => simp [ih]

/-- The lines of a text with line ends between them are the text. -/
theorem intercalate_sourceLines (text : List Char) :
    ['\n'].intercalate (sourceLines text) = text := by
  have hjoined := flatMap_chars_intercalate [.lineEnd] ((Segment.all text).splitOn .lineEnd)
  rw [List.intercalate_splitOn, Segment.flatMap_chars_all] at hjoined
  exact hjoined.symm

/-- Lines of legal input with line ends between them are cut one by one. -/
theorem Segment.all_intercalate {lines : List (List Char)}
    (hlegal : ∀ line ∈ lines, Legal (all line)) :
    all (['\n'].intercalate lines) = [.lineEnd].intercalate (lines.map all) := by
  induction lines with
  | nil => rw [List.intercalate_nil, all]; rfl
  | cons line lines ih =>
      have hrest := ih fun other hother ↦ hlegal other (List.mem_cons_of_mem line hother)
      cases lines with
      | nil => simp
      | cons next lines =>
          simp only [List.intercalate_cons_cons, List.map_cons, List.append_assoc,
            List.singleton_append]
          rw [all_append_lineEnd (hlegal line List.mem_cons_self), hrest]
          rfl

/-- The lines of a legal text are legal. -/
theorem legal_sourceLines {text line : List Char} (hlegal : Legal (Segment.all text))
    (h : line ∈ sourceLines text) : Legal (Segment.all line) ∧ .lineEnd ∉ Segment.all line := by
  obtain ⟨segments, hsegments, rfl⟩ := List.mem_map.1 h
  obtain ⟨hpart, hlineEnd⟩ := mem_splitOn_lineEnd hsegments
  rw [Segment.all_infix hpart]
  exact ⟨fun segment hsegment ↦ hlegal segment (hpart.mem hsegment), hlineEnd⟩

/-! ## Segments without tokens, and illegal input -/

section Parts

variable {segments : List Segment}

/-- Among white space and comments there is no line end. -/
theorem Margin.lineEnd_notMem (h : Margin segments) : .lineEnd ∉ segments := by
  intro hmem
  cases h .lineEnd hmem

/-- Among white space and comments there is no lexeme. -/
theorem Margin.lexemesOf_eq (h : Margin segments) : lexemesOf segments = [] := by
  rw [lexemesOf, List.filterMap_eq_nil_iff]
  intro segment hsegment
  have hkind := h segment hsegment
  cases segment with
  | lexeme l => cases hkind
  | blanks chars | comment chars | lineEnd => rfl

/-- White space and comments are legal. -/
theorem Margin.legal (h : Margin segments) : Legal segments := by
  intro segment hsegment hillegal
  rw [h segment hsegment] at hillegal
  cases hillegal

/-- White space and comments only add to the leading text of a line. -/
theorem Layout.read_margin (options : Options) (layout : Layout) (h : Margin segments) :
    layout.read options segments =
      ([], { layout with lead := layout.lead.map (· ++ segments.flatMap Segment.chars) }) :=
  layout.read_blank options h.lineEnd_notMem h.lexemesOf_eq

/-- Every lexeme that is read gives a token of its kind. -/
theorem Layout.exists_token (options : Options) (layout : Layout) {l : Lexeme}
    (h : .lexeme l ∈ segments) :
    ∃ token ∈ (layout.read options segments).1, token.kind = l.kind := by
  induction segments generalizing layout with
  | nil => cases h
  | cons segment rest ih =>
      rw [read_cons]
      rcases List.mem_cons.1 h with rfl | h
      · refine ⟨⟨l.kind, l.text, layout.line⟩, List.mem_append_left _ ?_, rfl⟩
        exact List.mem_append_right _ List.mem_cons_self
      · obtain ⟨token, htoken, hkind⟩ := ih (layout.step options segment).2 h
        exact ⟨token, List.mem_append_right _ htoken, hkind⟩

/-- A text whose tokens are legal has legal segments. -/
theorem legal_of_tokens {options : Options} {text : List Char}
    (h : ∀ token ∈ tokens options text, token.kind ≠ .illegal) : Legal (Segment.all text) := by
  intro segment hsegment hillegal
  cases segment with
  | lexeme l =>
      obtain ⟨token, htoken, hkind⟩ := Layout.exists_token options {} hsegment
      have hmem : token ∈ tokens options text := List.mem_append_left _ htoken
      exact h token hmem (hkind.trans (Option.some.inj hillegal))
  | blanks chars | comment chars | lineEnd => cases hillegal

end Parts

/-! ## Reading lines -/

section Read

variable {f : Nat → Nat} {options options' : Options}

/-- A line end after places that end alike gives the same token and begins the same next line. -/
theorem Layout.EndAlike.lineEnd {last last' : Layout} (h : last.EndAlike f last') :
    last'.step options' .lineEnd =
      ((last.step options .lineEnd).1, (last.step options .lineEnd).2.rescale f) := by
  obtain ⟨hline, hblocks, hlead⟩ := h
  have hnone : last'.lead.isNone = last.lead.isNone := by
    rw [Bool.eq_iff_iff, Option.isNone_iff_eq_none, Option.isNone_iff_eq_none, hlead]
  simp [step, rescale, hline, hblocks, hnone]

/-- In places that end alike the same blocks are closed. -/
theorem Layout.EndAlike.close {last last' : Layout} (h : last.EndAlike f last') :
    last'.close = last.close := by
  rw [Layout.close, Layout.close, h.blocks_eq, h.line_eq, List.map_map]
  rfl

/-- Lines that are read alike are read alike one after the other. -/
theorem readAlike_intercalate {lines lines' : List (List Segment)}
    (h : List.Forall₂ (ReadAlike f options options') lines lines') :
    ReadAlike f options options' ([.lineEnd].intercalate lines)
      ([.lineEnd].intercalate lines') := by
  induction h with
  | nil => exact fun layout hlead ↦ ⟨rfl, rfl, rfl, Iff.rfl⟩
  | @cons line line' lines lines' hline hlines ih =>
      cases hlines with
      | nil =>
          rw [List.intercalate_singleton, List.intercalate_singleton]
          exact hline
      | cons =>
          intro layout hlead
          obtain ⟨htokens, halike⟩ := hline layout hlead
          obtain ⟨hmore, hlast⟩ := ih ((layout.read options line).2.step options .lineEnd).2 rfl
          simp only [List.intercalate_cons_cons, List.append_assoc, List.singleton_append,
            Layout.read_append, Layout.read_cons]
          rw [halike.lineEnd, htokens, hmore]
          exact ⟨rfl, hlast⟩

end Read

/-- The tokens of a text without illegal input stay as they are when each of its lines is replaced
in such a way that the new line holds no illegal input and is read like the old one. -/
theorem tokens_of_lines_alike {f : Nat → Nat} {options options' : Options} {text : List Char}
    {lines' : List (List Char)} {Replaces : List Char → List Char → Prop}
    (hlegal : ∀ token ∈ tokens options text, token.kind ≠ .illegal)
    (h : List.Forall₂ Replaces (sourceLines text) lines')
    (halike : ∀ line line', Legal (Segment.all line) → .lineEnd ∉ Segment.all line →
      Replaces line line' → Legal (Segment.all line') ∧
        ReadAlike f options options' (Segment.all line) (Segment.all line')) :
    tokens options' (['\n'].intercalate lines') = tokens options text := by
  have hlines (line : List Char) (hline : line ∈ sourceLines text) :
      Legal (Segment.all line) ∧ .lineEnd ∉ Segment.all line :=
    legal_sourceLines (legal_of_tokens hlegal) hline
  have hboth : List.Forall₂ (fun line line' ↦ Legal (Segment.all line') ∧
      ReadAlike f options options' (Segment.all line) (Segment.all line'))
      (sourceLines text) lines' := by
    refine ((List.forall₂_and_left _ _).2 ⟨hlines, h⟩).imp ?_
    intro line line' hline
    exact halike line line' hline.1.1 hline.1.2 hline.2
  have hlegal' : ∀ line' ∈ lines', Legal (Segment.all line') :=
    ((List.forall₂_and_left _ _).1 hboth.flip).1
  have hread : List.Forall₂ (ReadAlike f options options')
      ((Segment.all text).splitOn .lineEnd) (lines'.map Segment.all) := by
    rw [← map_all_sourceLines, List.forall₂_map_left_iff, List.forall₂_map_right_iff]
    exact hboth.imp fun line line' hline ↦ hline.2
  obtain ⟨htokens, hlast⟩ := readAlike_intercalate hread {} rfl
  rw [List.intercalate_splitOn, ← Segment.all_intercalate hlegal'] at htokens hlast
  rw [tokens_eq, tokens_eq, ← htokens, ← hlast.close]
  rfl

end AhoyScan
