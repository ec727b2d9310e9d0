import AhoyScan.Proofs.Composition
import AhoyScan.Proofs.SourceLines

/-!
# White space that changes no token

White space and comments in front of a line end are no part of any token, whatever they are made of.
`tokens_append_blanks` says this of white space added at the end of each line, and so of carriage
returns before the line ends. `tokens_insert_line` is about whole lines of white space and comments:
wherever such a line is put, it only moves the tokens after it one line down.
-/

namespace AhoyScan

open Pattern (Matches)

/-- The line with white space added at its end. -/
def Trailed (line line' : List Char) : Prop :=
  ∃ run, (∀ c ∈ run, isBlank c = true) ∧ line' = line ++ run

/-- White space and perhaps a comment, and nothing else. -/
def Pattern.blankLine : Pattern :=
  .seq (.many (.one isBlank)) (.either .empty .comment)

/-- A line begins where the first text meets the second one. -/
def LineBegins (before after : List Char) : Prop :=
  before = [] ∨ LineEndsBetween before after

/-- The token one line further down if it is on a line after this one. -/
def Token.makeRoom (line : Nat) (token : Token) : Token :=
  if line < token.line then token.shift 1 else token

/-! ## White space at the ends of lines -/

/-- A place is itself when its widths are changed to themselves. -/
theorem Layout.rescale_id (layout : Layout) : layout.rescale id = layout := by
  rw [rescale, List.map_id]

/-- A line is as legal, and read in the same way, with white space at its end. -/
theorem Trailed.readAlike (options : Options) {line line' : List Char} (h : Trailed line line')
    (hlegal : Legal (Segment.all line)) :
    Legal (Segment.all line') ∧
      ReadAlike id options options (Segment.all line) (Segment.all line') := by
  obtain ⟨run, hrun, rfl⟩ := h
  obtain ⟨front, margin, margin', hall, hall', hmargin, hmargin'⟩ :=
    Segment.all_append_blanks hlegal hrun
  rw [hall, legal_append] at hlegal
  rw [hall, hall']
  refine ⟨legal_append.2 ⟨hlegal.1, hmargin'.legal⟩, ?_⟩
  intro layout hlead
  rw [Layout.rescale_id, Layout.read_append, Layout.read_append,
    Layout.read_margin options _ hmargin, Layout.read_margin options _ hmargin']
  exact ⟨rfl, rfl, (List.map_id _).symm, by simp⟩

/-- Lines with a carriage return and a line end between them are lines with white space at their
ends. -/
theorem exists_trailed_return (lines : List (List Char)) :
    ∃ lines', List.Forall₂ Trailed lines lines' ∧
      ['\r', '\n'].intercalate lines = ['\n'].intercalate lines' := by
  induction lines with
  | nil => exact ⟨[], .nil, rfl⟩
  | cons line lines ih =>
      obtain ⟨lines', htrailed, hjoined⟩ := ih
      cases htrailed with
      | nil => exact ⟨[line], .cons ⟨[], by simp, by simp⟩ .nil, rfl⟩
      | @cons next next' lines lines' hnext hlines =>
          refine ⟨(line ++ ['\r']) :: next' :: lines',
            .cons ⟨['\r'], List.all_eq_true.1 rfl, rfl⟩ (.cons hnext hlines), ?_⟩
          rw [List.intercalate_cons_cons, List.intercalate_cons_cons, hjoined]
          simp

/-- White space may be added before every line end that is not inside a lexeme, and at the end of
the text, without any change of the tokens of a text without illegal input. In particular these line
ends may be written with a carriage return. -/
theorem tokens_append_blanks {options : Options} {text : List Char} {lines' : List (List Char)}
    (hlegal : ∀ token ∈ tokens options text, token.kind ≠ .illegal)
    (h : List.Forall₂ Trailed (sourceLines text) lines') :
    ['\n'].intercalate (sourceLines text) = text ∧
      tokens options (['\n'].intercalate lines') = tokens options text ∧
      tokens options (['\r', '\n'].intercalate (sourceLines text)) = tokens options text := by
  have hsame {others : List (List Char)}
      (hothers : List.Forall₂ Trailed (sourceLines text) others) :
      tokens options (['\n'].intercalate others) = tokens options text :=
    tokens_of_lines_alike hlegal hothers fun line line' hlegal _ hline ↦
      hline.readAlike options hlegal
  obtain ⟨returned, hreturned, hjoined⟩ := exists_trailed_return (sourceLines text)
  rw [hjoined]
  exact ⟨intercalate_sourceLines text, hsame h, hsame hreturned⟩

/-- White space at the ends of a line with a comment, of an empty line and of the last line. -/
theorem tokens_append_blanks_comment :
    sourceLines "go x ? when\n\n  \"a\nb\"".toList =
        ["go x ? when".toList, [], "  \"a\nb\"".toList] ∧
      tokens {} "go x ? when \r\n\t\t\n  \"a\nb\"\x0c\r".toList =
        [⟨.identifier, "go", 1⟩, ⟨.identifier, "x", 1⟩, ⟨.newline, "\n", 1⟩, ⟨.indent, "", 3⟩,
          ⟨.string, "a\nb", 3⟩, ⟨.dedent, "", 4⟩] := by
  have hlines : sourceLines "go x ? when\n\n  \"a\nb\"".toList =
      ["go x ? when".toList, [], "  \"a\nb\"".toList] := by
    decide +kernel
  have h : List.Forall₂ Trailed (sourceLines "go x ? when\n\n  \"a\nb\"".toList)
      ["go x ? when \r".toList, "\t\t".toList, "  \"a\nb\"\x0c\r".toList] := by
    rw [hlines]
    exact .cons ⟨" \r".toList, List.all_eq_true.1 rfl, rfl⟩
      (.cons ⟨"\t\t".toList, List.all_eq_true.1 rfl, rfl⟩
        (.cons ⟨"\x0c\r".toList, List.all_eq_true.1 rfl, rfl⟩ .nil))
  have hlegal : ∀ token ∈ tokens {} "go x ? when\n\n  \"a\nb\"".toList,
      token.kind ≠ .illegal := by
    decide +kernel
  refine ⟨hlines, (tokens_append_blanks hlegal h).2.1.trans ?_⟩
  decide +kernel

/-! ## Lines of white space and comments -/

/-- What is read up to a line end is on the lines before the next one. -/
theorem Layout.line_lt_of_lineEnd (options : Options) {layout : Layout} {front : List Segment}
    {token : Token} (h : token ∈ (layout.read options (front ++ [.lineEnd])).1) :
    token.line < (layout.read options (front ++ [.lineEnd])).2.line := by
  rw [read_append] at h ⊢
  have hlast : token.line ≤ (layout.read options front).2.line := by
    rcases List.mem_append.1 h with hfront | hend
    · exact ((read_between options layout front).2 token hfront).2
    · rw [read_cons] at hend
      rcases List.mem_append.1 hend with hstep | hnil
      · exact (line_of_step options hstep).le
      · cases hnil
  exact Nat.lt_succ_of_le hlast

/-- Such a line is a run of blanks and behind it nothing or a comment. -/
theorem Pattern.matches_blankLine_iff {line : List Char} :
    Matches blankLine line ↔
      ∃ run back, (∀ c ∈ run, isBlank c = true) ∧
        (back = [] ∨ ∃ rest, rest.head? ≠ some '?' ∧ '\n' ∉ rest ∧ back = '?' :: rest) ∧
        line = run ++ back := by
  simp only [blankLine, matches_seq_iff, matches_many_one_iff, matches_either_iff,
    matches_empty_iff, matches_comment_iff]

/-- A line of white space and comments has no other segments. -/
theorem Pattern.Matches.margin {line : List Char} (h : Matches Pattern.blankLine line) :
    Margin (Segment.all line) := by
  obtain ⟨run, _, hrun, rfl | ⟨rest, hhead, hnewline, rfl⟩, rfl⟩ :=
    Pattern.matches_blankLine_iff.1 h
  · rw [List.append_nil]
    exact Segment.margin_all_blanks hrun
  · have hclassed : Classed none ('?' :: rest) := .inl ⟨rfl, rfl, hhead, hnewline⟩
    obtain ⟨segment, hall, hkind⟩ := Segment.all_of_classed hclassed
    have hquestion : ∀ c ∈ ('?' :: rest).head?, isBlank c = false := by
      rintro c ⟨⟩
      rfl
    rw [Segment.all_blanks_append hrun hquestion, hall]
    exact margin_append.2 ⟨Segment.margin_all_blanks hrun, margin_singleton.2 hkind⟩

/-- A line of white space and comments does not begin with an apostrophe. -/
theorem Pattern.Matches.head_ne {line : List Char} (h : Matches Pattern.blankLine line)
    (after : List Char) : (line ++ '\n' :: after).head? ≠ some '\'' := by
  obtain ⟨run, back, hrun, hback, rfl⟩ := Pattern.matches_blankLine_iff.1 h
  cases run with
  | cons c run =>
      intro hquote
      obtain rfl : c = '\'' := Option.some.inj hquote
      exact absurd (hrun '\'' List.mem_cons_self) (by decide)
  | nil => rcases hback with rfl | ⟨rest, -, -, rfl⟩ <;> simp

/-- Of tokens up to a line and tokens below it the latter move down. -/
theorem Token.map_makeRoom {line : Nat} {first later : List Token}
    (hfirst : ∀ token ∈ first, token.line ≤ line) (hlater : ∀ token ∈ later, line < token.line) :
    (first ++ later).map (makeRoom line) = first ++ later.map (shift 1) := by
  have hstay : first.map (makeRoom line) = first.map id :=
    List.map_congr_left fun token htoken ↦ if_neg (hfirst token htoken).not_gt
  have hmove : later.map (makeRoom line) = later.map (shift 1) :=
    List.map_congr_left fun token htoken ↦ if_pos (hlater token htoken)
  rw [List.map_append, hstay, hmove, List.map_id]

section Place

variable {before after : List Char}

/-- The text after the beginning of a line has no part in that, unless it begins with an
apostrophe. -/
theorem LineBegins.change {after' : List Char} (h : LineBegins before after)
    (hafter : after'.head? ≠ some '\'') : LineBegins before after' := by
  rcases h with rfl | ⟨front, back, hall, hbefore⟩
  · exact .inl rfl
  · refine .inr ⟨front, Segment.all after', ?_, hbefore⟩
    rw [← hbefore, List.flatMap_append, List.append_assoc]
    exact Segment.all_after_lineEnd hall hafter

/-- The segments of a text that is divided at the beginning of a line are those of its parts. -/
theorem LineBegins.segments (h : LineBegins before after) :
    Segment.all (before ++ after) = Segment.all before ++ Segment.all after := by
  rcases h with rfl | hplace
  · rw [Segment.all]
    rfl
  · exact hplace.segments.1

/-- The tokens of the lines before the beginning of a line are on these lines, and the line begins
with nothing left of them but the open blocks. -/
theorem LineBegins.place (options : Options) (h : LineBegins before after) :
    (∃ blocks, (Layout.read options {} (Segment.all before)).2 =
        { line := lineAfter before, blocks }) ∧
      ∀ token ∈ (Layout.read options {} (Segment.all before)).1,
        token.line ≤ before.count '\n' := by
  rcases h with rfl | hplace
  · rw [Segment.all]
    exact ⟨⟨[], rfl⟩, fun token htoken ↦ by cases htoken⟩
  · refine ⟨⟨_, hplace.place options⟩, ?_⟩
    intro token htoken
    obtain ⟨-, front, hbefore⟩ := hplace.segments
    have hline := congrArg Layout.line (hplace.place options)
    rw [hbefore] at htoken hline
    have hlt := Layout.line_lt_of_lineEnd options htoken
    rw [hline] at hlt
    change token.line < 1 + before.count '\n' at hlt
    omega

end Place

/-- A line of white space and comments only leads to the next line. -/
theorem Layout.read_blankLine (options : Options) {layout : Layout} {margin : List Segment}
    (hlead : layout.lead = some []) (hmargin : Margin margin) (rest : List Segment) :
    layout.read options (margin ++ .lineEnd :: rest) = (layout.shift 1).read options rest := by
  obtain ⟨line, _, blocks⟩ := layout
  obtain rfl : _ = some [] := hlead
  rw [read_append, read_margin options _ hmargin, read_cons]
  rfl

/-- A line of white space, of a comment, or of both may be put at the beginning of any line of any
text. Its only effect is that the tokens on later lines than those before it move one line down: it
opens and closes no block and ends no line. -/
theorem tokens_insert_line (options : Options) {before after line : List Char}
    (hplace : LineBegins before after) (hline : Matches Pattern.blankLine line) :
    tokens options (before ++ (line ++ '\n' :: after)) =
      (tokens options (before ++ after)).map (Token.makeRoom (before.count '\n')) := by
  have hplace' := hplace.change (hline.head_ne after)
  obtain ⟨⟨blocks, hreached⟩, hbefore⟩ := hplace.place options
  let place : Layout := { line := lineAfter before, blocks }
  let last := (place.read options (Segment.all after)).2
  have hlater : ∀ token ∈ (place.read options (Segment.all after)).1 ++ last.close,
      before.count '\n' < token.line := by
    have hnext : before.count '\n' < place.line := Nat.lt_add_of_pos_left Nat.one_pos
    obtain ⟨hlast, hread⟩ := Layout.read_between options place (Segment.all after)
    intro token htoken
    rcases List.mem_append.1 htoken with htoken | htoken
    · exact hnext.trans_le (hread token htoken).1
    · obtain ⟨block, -, rfl⟩ := List.mem_map.1 htoken
      exact hnext.trans_le hlast
  rw [tokens_eq, hplace'.segments, Layout.read_append, hreached,
    Segment.all_append_lineEnd hline.margin.legal,
    Layout.read_blankLine options rfl hline.margin, Layout.read_shift, Layout.close_shift,
    tokens_eq, hplace.segments, Layout.read_append, hreached, List.append_assoc, List.append_assoc,
    Token.map_makeRoom hbefore hlater, List.map_append]

/-- A deep comment between a line and its block, which holds illegal input. -/
theorem tokens_insert_line_comment :
    tokens {} ("go x\n".toList ++ ("\t\t\t? deep".toList ++ '\n' :: "  y '\n".toList)) =
      [⟨.identifier, "go", 1⟩, ⟨.identifier, "x", 1⟩, ⟨.newline, "\n", 1⟩, ⟨.indent, "", 3⟩,
        ⟨.identifier, "y", 3⟩, ⟨.illegal, "'", 3⟩, ⟨.newline, "\n", 3⟩, ⟨.dedent, "", 4⟩] := by
  have hplace : LineBegins "go x\n".toList "  y '\n".toList :=
    .inr ⟨Segment.all "go x".toList, Segment.all "  y '\n".toList, by decide +kernel,
      by decide +kernel⟩
  have hline : Matches Pattern.blankLine "\t\t\t? deep".toList :=
    Pattern.matches_blankLine_iff.2 ⟨"\t\t\t".toList, "? deep".toList, List.all_eq_true.1 rfl,
      .inr ⟨" deep".toList, by decide, by decide, rfl⟩, rfl⟩
  rw [tokens_insert_line {} hplace hline]
  decide +kernel

end AhoyScan
