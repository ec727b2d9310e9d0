import AhoyScan.Proofs.Reading
import AhoyScan.Proofs.Segments
import Mathlib.Data.List.Forall2

/-!
# The lines of a text and their groups of tokens

The lines of a text are what its line ends separate; only those that hold a lexeme matter for the
tokens. The tokens of such a line are a `Group`: marks that close blocks, perhaps one that opens a
block, the tokens of the lexemes, and perhaps a NEWLINE. `tokens_grouped` says that the tokens of a
text are the groups of its lines and the marks that close the blocks left open, and that the blocks
change from line to line as `reindent` says.
-/

namespace AhoyScan

/-- The lexeme that a segment is. -/
def Segment.lexeme? : Segment → Option Lexeme
  | lexeme l => some l
  | _ => none

/-- The lexemes among some segments, in order. -/
def lexemesOf (segments : List Segment) : List Lexeme :=
  segments.filterMap Segment.lexeme?

/-- The lines that hold a lexeme, as the segments between line ends. -/
def contentLines (segments : List Segment) : List (List Segment) :=
  (segments.splitOn .lineEnd).filter fun line ↦ !(lexemesOf line).isEmpty

/-- The width of the white space at the beginning of a line: its spaces, and its tabs times the
width of a tab. -/
def indentWidth (tabWidth : Nat) (line : List Segment) : Nat :=
  let lead := (line.flatMap Segment.chars).takeWhile isBlank
  lead.count ' ' + tabWidth * lead.count '\t'

/-- The tokens of a line: DEDENTs, at most one INDENT, at least one token of a lexeme, and a NEWLINE
unless the text ends before the line does. -/
structure Group where
  closing : List Token
  opening : Option Token
  content : List Token
  ending : Option Token
  closing_kind : ∀ token ∈ closing, token.kind = .dedent
  opening_kind : ∀ token ∈ opening, token.kind = .indent
  content_kind : ∀ token ∈ content, token.kind.isLayout = false
  content_ne_nil : content ≠ []
  ending_kind : ∀ token ∈ ending, token.kind = .newline

namespace Group

/-- The marks before the first lexeme of the line. -/
def marks (group : Group) : List Token :=
  group.closing ++ group.opening.toList

/-- All the tokens of the line, in order. -/
def tokens (group : Group) : List Token :=
  group.marks ++ group.content ++ group.ending.toList

end Group

/-- The groups are those of the lines, and lead from the blocks open before the first line to those
open after the last one. -/
inductive Grouped (options : Options) :
    List Nat → List (List Segment) → List Group → List Nat → Prop where
  | nil (blocks : List Nat) : Grouped options blocks [] [] blocks
  | cons {blocks last : List Nat} {line : List Segment} {lines : List (List Segment)}
      {group : Group} {groups : List Group} :
      group.marks.map Token.kind =
        (options.reindent (indentWidth options.tabWidth line) blocks).1 →
      List.Forall₂ Lexeme.StandsFor (lexemesOf line) group.content →
      Grouped options (options.reindent (indentWidth options.tabWidth line) blocks).2
        lines groups last →
      Grouped options blocks (line :: lines) (group :: groups) last

/-! ## Lines -/

/-- Where there is no line end, there is one line. -/
theorem contentLines_line {line : List Segment} (h : .lineEnd ∉ line) :
    contentLines line = if lexemesOf line = [] then [] else [line] := by
  rw [contentLines, List.splitOn_eq_singleton h]
  cases hlexemes : lexemesOf line <;> simp [hlexemes]

/-- A line end separates the lines before it from those after it. -/
theorem contentLines_append (front back : List Segment) :
    contentLines (front ++ .lineEnd :: back) = contentLines front ++ contentLines back := by
  rw [contentLines, List.splitOn_append_cons_self, List.filter_append]
  rfl

/-- What holds of the last line, and of a line before others of which it holds, holds of all
segments. -/
theorem lines_induction {motive : List Segment → Prop}
    (last : ∀ line, .lineEnd ∉ line → motive line)
    (more : ∀ line rest, .lineEnd ∉ line → motive rest → motive (line ++ .lineEnd :: rest))
    (segments : List Segment) : motive segments := by
  by_cases hmem : .lineEnd ∈ segments
  · obtain ⟨line, rest, rfl, hline⟩ := List.eq_append_cons_of_mem hmem
    exact more line rest hline (lines_induction last more rest)
  · exact last segments hmem
termination_by segments.length

/-! ## White space at the beginning of a line -/

/-- The text of the segments before the first lexeme. -/
def leadOf (segments : List Segment) : List Char :=
  (segments.takeWhile fun segment ↦ segment.lexeme?.isNone).flatMap Segment.chars

/-- A sound segment that is no line end begins with another character. -/
theorem Segment.Sound.head_ne {segment : Segment} {left : List Char} (h : segment.Sound left)
    (hlineEnd : segment ≠ .lineEnd) : ∃ c rest, segment.chars = c :: rest ∧ c ≠ '\n' := by
  cases segment with
  | blanks chars =>
      obtain ⟨hnonempty, hblank⟩ := h
      obtain ⟨c, rest, rfl⟩ := List.exists_cons_of_ne_nil hnonempty
      refine ⟨c, rest, rfl, ?_⟩
      intro h
      obtain rfl := h
      simpa using hblank '\n' List.mem_cons_self
  | comment chars =>
      obtain ⟨body, rfl, -⟩ := h
      exact ⟨'?', body, rfl, by decide⟩
  | lineEnd => exact absurd rfl hlineEnd
  | lexeme l =>
      obtain ⟨c, rest, hchars, -, hnewline⟩ := Lexeme.Sound.begins h
      exact ⟨c, rest, hchars, hnewline⟩

/-- A comment is followed by nothing but the end of its line. -/
theorem lineEnd_after_comment {chars : List Char} {next : Segment} {rest : List Segment}
    (h : WellCut (.comment chars :: next :: rest)) : next = .lineEnd := by
  obtain ⟨⟨-, -, -, -, hleft⟩, hrest⟩ := wellCut_cons.1 h
  by_contra hnext
  obtain ⟨c, tail, hchars, hc⟩ := (wellCut_cons.1 hrest).1.head_ne hnext
  rw [List.flatMap_cons, hchars] at hleft
  rcases hleft with hnil | hhead
  · cases hnil
  · exact absurd (Option.some.inj hhead) hc

/-- The text before the first lexeme of a line is the white space at its beginning: a comment is
not followed by anything on its line. -/
theorem leadOf_eq {line after : List Segment} (hcut : WellCut (line ++ after))
    (hlineEnd : .lineEnd ∉ line) (hlexemes : lexemesOf line ≠ []) :
    (line.flatMap Segment.chars).takeWhile isBlank = leadOf line := by
  induction line with
  | nil => exact absurd rfl hlexemes
  | cons segment line ih =>
      rw [List.cons_append, wellCut_cons] at hcut
      obtain ⟨hsound, hrest⟩ := hcut
      rw [List.mem_cons, not_or] at hlineEnd
      cases segment with
      | blanks chars =>
          have hblank : ∀ c ∈ chars, isBlank c = true := fun c hc ↦ isBlank_iff.2 (hsound.2 c hc)
          have ih := ih hrest hlineEnd.2 hlexemes
          rw [List.flatMap_cons, Segment.chars, List.takeWhile_append_of_pos hblank, ih]
          rfl
      | comment chars =>
          -- This cannot be: a comment takes its whole line, and the line has a lexeme after it.
          obtain ⟨next, more, rfl⟩ := List.exists_cons_of_ne_nil (l := line) fun hnil ↦
            hlexemes (hnil ▸ rfl)
          have hnext : next = .lineEnd := lineEnd_after_comment (wellCut_cons.2 ⟨hsound, hrest⟩)
          exact absurd (hnext ▸ List.mem_cons_self) hlineEnd.2
      | lineEnd => exact absurd rfl hlineEnd.1
      | lexeme l =>
          obtain ⟨c, rest, hchars, hblank, -⟩ := Lexeme.Sound.begins hsound
          rw [List.flatMap_cons, Segment.chars, hchars, List.cons_append]
          simp [hblank, leadOf, Segment.lexeme?]

/-- The columns of white space are its spaces and its tabs, each tab as wide as tabs are. -/
theorem columns_eq (tabWidth : Nat) (lead : List Char) :
    columns tabWidth lead = lead.count ' ' + tabWidth * lead.count '\t' := by
  induction lead with
  | nil => rfl
  | cons c lead ih =>
      rw [columns, ih, charColumns]
      split_ifs with hspace htab
      · subst hspace
        simp
        omega
      · subst htab
        simp [Nat.mul_add]
        omega
      · simp [hspace, htab]

/-- The width of a line is the columns of the text before its first lexeme. -/
theorem indentWidth_eq {line after : List Segment} (tabWidth : Nat)
    (hcut : WellCut (line ++ after)) (hlineEnd : .lineEnd ∉ line) (hlexemes : lexemesOf line ≠ []) :
    indentWidth tabWidth line = columns tabWidth (leadOf line) := by
  rw [columns_eq, ← leadOf_eq hcut hlineEnd hlexemes]
  rfl

/-! ## Reading a line -/

variable (options : Options)

/-- Reading a line without a lexeme only adds to its leading text. -/
theorem Layout.read_blank (layout : Layout) {line : List Segment} (hlineEnd : .lineEnd ∉ line)
    (hlexemes : lexemesOf line = []) :
    layout.read options line =
      ([], { layout with lead := layout.lead.map (· ++ line.flatMap Segment.chars) }) := by
  induction line generalizing layout with
  | nil => simp [read]
  | cons segment line ih =>
      rw [List.mem_cons, not_or] at hlineEnd
      cases segment with
      | blanks chars | comment chars =>
          rw [read_cons, ih _ hlineEnd.2 hlexemes]
          simp [step, Segment.chars, Function.comp_def]
      | lineEnd => exact absurd rfl hlineEnd.1
      | lexeme l => cases hlexemes

/-- Reading the rest of a line that holds a lexeme gives the tokens of its lexemes and leaves the
blocks as they are. -/
theorem Layout.read_entered {layout : Layout} {line : List Segment} (hlead : layout.lead = none)
    (hlineEnd : .lineEnd ∉ line) (hsound : ∀ l, .lexeme l ∈ line → l.Sound) :
    List.Forall₂ Lexeme.StandsFor (lexemesOf line) (layout.read options line).1 ∧
      (layout.read options line).2.lead = none ∧
      (layout.read options line).2.blocks = layout.blocks := by
  induction line generalizing layout with
  | nil => exact ⟨.nil, hlead, rfl⟩
  | cons segment line ih =>
      rw [List.mem_cons, not_or] at hlineEnd
      have hsound' : ∀ l, .lexeme l ∈ line → l.Sound :=
        fun l hl ↦ hsound l (List.mem_cons_of_mem segment hl)
      cases segment with
      | blanks chars | comment chars =>
          have hnext : (layout.step options (.blanks chars)).2.lead = none := by
            simp [step, hlead]
          exact ih hnext hlineEnd.2 hsound'
      | lineEnd => exact absurd rfl hlineEnd.1
      | lexeme l =>
          have hstep : layout.step options (.lexeme l) =
              ([⟨l.kind, l.text, layout.line⟩],
                { layout with line := layout.line + l.chars.count '\n' }) := by
            simp [step, enter_none options layout hlead]
          have hnext : (layout.step options (.lexeme l)).2.lead = none := by
            rw [hstep, hlead]
          obtain ⟨htokens, hlast, hblocks⟩ := ih hnext hlineEnd.2 hsound'
          rw [read_cons, hstep]
          rw [hstep] at htokens hlast hblocks
          refine ⟨.cons ⟨rfl, (hsound l List.mem_cons_self).spells⟩ htokens, hlast, hblocks⟩

/-- Reading a line from its beginning gives the marks for the text before its first lexeme and the
tokens of its lexemes. -/
theorem Layout.read_line {layout : Layout} {line : List Segment} {lead : List Char}
    (hlead : layout.lead = some lead) (hlineEnd : .lineEnd ∉ line) (hlexemes : lexemesOf line ≠ [])
    (hsound : ∀ l, .lexeme l ∈ line → l.Sound) :
    let marked := options.reindent (columns options.tabWidth (lead ++ leadOf line)) layout.blocks
    ∃ content, (layout.read options line).1 =
        marked.1.map (⟨·, "", layout.line⟩) ++ content ∧
      List.Forall₂ Lexeme.StandsFor (lexemesOf line) content ∧
      (layout.read options line).2.lead = none ∧
      (layout.read options line).2.blocks = marked.2 := by
  -- Blanks move from the line into `lead`, so that the two together stay the same.
  induction line generalizing layout lead with
  | nil => exact absurd rfl hlexemes
  | cons segment line ih =>
      rw [List.mem_cons, not_or] at hlineEnd
      have hsound' : ∀ l, .lexeme l ∈ line → l.Sound :=
        fun l hl ↦ hsound l (List.mem_cons_of_mem segment hl)
      cases segment with
      | blanks chars | comment chars =>
          have hnext : (layout.step options (.blanks chars)).2.lead = some (lead ++ chars) := by
            simp [step, hlead]
          have hrest := ih hnext hlineEnd.2 hlexemes hsound'
          rwa [List.append_assoc] at hrest
      | lineEnd => exact absurd rfl hlineEnd.1
      | lexeme l =>
          have hnone : leadOf (.lexeme l :: line) = [] := rfl
          rw [hnone, List.append_nil]
          have hnext : (layout.step options (.lexeme l)).2.lead = none := by
            simp [step]
          obtain ⟨htokens, hlast, hblocks⟩ := read_entered options hnext hlineEnd.2 hsound'
          have henter := enter_some options layout hlead
          have hfirst : l.StandsFor ⟨l.kind, l.text, layout.line⟩ :=
            ⟨rfl, (hsound l List.mem_cons_self).spells⟩
          refine ⟨⟨l.kind, l.text, layout.line⟩ :: _, ?_, .cons hfirst htokens, hlast, ?_⟩
          · simp [read_cons, step, henter]
          · rw [read_cons, hblocks]
            simp [step, henter]

/-! ## Groups -/

/-- The marks before a line are DEDENTs and after them at most one INDENT. -/
theorem Options.reindent_marks (options : Options) (width : Nat) (blocks : List Nat) :
    ∃ (n : Nat) (opened : Option Kind),
      (options.reindent width blocks).1 = List.replicate n .dedent ++ opened.toList ∧
        ∀ kind ∈ opened, kind = .indent := by
  rw [Options.reindent]
  split
  · rw [reindent_eq]
    split
    · exact ⟨_, some .indent, rfl, by simp⟩
    · exact ⟨_, none, rfl, by simp⟩
  · exact ⟨0, none, rfl, by simp⟩

/-- The tokens of lexemes are no marks of line structure. -/
theorem standsFor_plain {lexemes : List Lexeme} {content : List Token}
    (h : List.Forall₂ Lexeme.StandsFor lexemes content)
    (hplain : ∀ l ∈ lexemes, l.kind.isLayout = false) :
    ∀ token ∈ content, token.kind.isLayout = false := by
  induction h with
  | nil => simp
  | @cons l token lexemes content hstands _ ih =>
      intro other hother
      rcases List.mem_cons.1 hother with rfl | hother
      · rw [hstands.1]
        exact hplain l List.mem_cons_self
      · exact ih (fun l' hl' ↦ hplain l' (List.mem_cons_of_mem l hl')) other hother

/-- The lexemes of a line are among its segments. -/
theorem mem_of_mem_lexemesOf {line : List Segment} {l : Lexeme} (h : l ∈ lexemesOf line) :
    .lexeme l ∈ line := by
  obtain ⟨segment, hmem, hlexeme⟩ := List.mem_filterMap.1 h
  cases segment with
  | lexeme l' =>
      cases hlexeme
      exact hmem
  | _ => cases hlexeme

/-- Reading a line that holds a lexeme, and then perhaps a NEWLINE, gives the group of the line. -/
theorem Layout.read_group {layout : Layout} {line after : List Segment}
    (hlead : layout.lead = some []) (hcut : WellCut (line ++ after)) (hlineEnd : .lineEnd ∉ line)
    (hlexemes : lexemesOf line ≠ []) (ending : Option Token)
    (hending : ∀ token ∈ ending, token.kind = .newline) :
    let marked := options.reindent (indentWidth options.tabWidth line) layout.blocks
    (layout.read options line).2.lead = none ∧ (layout.read options line).2.blocks = marked.2 ∧
      ∃ group : Group, group.tokens = (layout.read options line).1 ++ ending.toList ∧
        group.ending = ending ∧ group.marks.map Token.kind = marked.1 ∧
        List.Forall₂ Lexeme.StandsFor (lexemesOf line) group.content := by
  have hsound : ∀ l, .lexeme l ∈ line → l.Sound :=
    fun l hl ↦ hcut.lexeme_sound (List.mem_append_left after hl)
  obtain ⟨content, htokens, hstands, hlast, hblocks⟩ :=
    read_line options hlead hlineEnd hlexemes hsound
  rw [List.nil_append, ← indentWidth_eq options.tabWidth hcut hlineEnd hlexemes] at htokens hblocks
  obtain ⟨n, opened, hmarks, hopened⟩ :=
    options.reindent_marks (indentWidth options.tabWidth line) layout.blocks
  let mark (kind : Kind) : Token := ⟨kind, "", layout.line⟩
  let group : Group :=
    { closing := List.replicate n (mark .dedent)
      opening := opened.map mark
      content
      ending
      closing_kind := fun token htoken ↦ by rw [List.eq_of_mem_replicate htoken]
      opening_kind := fun token htoken ↦ by
        obtain ⟨kind, hkind, rfl⟩ := Option.map_eq_some_iff.1 htoken
        exact hopened kind hkind
      content_kind :=
        standsFor_plain hstands fun l hl ↦ (hsound l (mem_of_mem_lexemesOf hl)).plain
      content_ne_nil := fun hnil ↦ hlexemes (List.forall₂_nil_right_iff.1 (hnil ▸ hstands))
      ending_kind := hending }
  refine ⟨hlast, hblocks, group, ?_, rfl, ?_, hstands⟩
  · show List.replicate n (mark .dedent) ++ (opened.map mark).toList ++ content ++
      ending.toList = _
    rw [htokens, hmarks]
    cases opened <;> simp [mark]
  · show (List.replicate n (mark .dedent) ++ (opened.map mark).toList).map Token.kind = _
    rw [hmarks]
    cases opened <;> simp [mark]

/-- Reading well cut segments from the beginning of a line gives the groups of their lines. Only
the last group may lack its NEWLINE. -/
theorem Layout.read_grouped {segments : List Segment} (hcut : WellCut segments) (layout : Layout)
    (hlead : layout.lead = some []) :
    ∃ groups : List Group,
      Grouped options layout.blocks (contentLines segments) groups
        (layout.read options segments).2.blocks ∧
      (layout.read options segments).1 = groups.flatMap Group.tokens ∧
      ∀ group ∈ groups.dropLast, group.ending ≠ none := by
  -- Every line is read from a place at its beginning; only the blocks go from one to the next.
  induction segments using lines_induction generalizing layout with
  | last line hlineEnd =>
      rw [contentLines_line hlineEnd]
      split
      · rename_i hlexemes
        rw [read_blank options layout hlineEnd hlexemes]
        exact ⟨[], .nil _, rfl, by simp⟩
      · rename_i hlexemes
        rw [← List.append_nil line] at hcut
        obtain ⟨-, hblocks, group, htokens, -, hmarks, hstands⟩ :=
          read_group options hlead hcut hlineEnd hlexemes none (by simp)
        rw [hblocks]
        exact ⟨[group], .cons hmarks hstands (.nil _), by simp [htokens], by simp⟩
  | more line rest hlineEnd ih =>
      have hrest : WellCut rest := (wellCut_cons.1 hcut.right).2
      rw [contentLines_append, contentLines_line hlineEnd, read_append]
      split
      · rename_i hlexemes
        rw [read_blank options layout hlineEnd hlexemes]
        obtain ⟨groups, hgrouped, htokens, hended⟩ :=
          ih hrest ⟨layout.line + 1, some [], layout.blocks⟩ rfl
        refine ⟨groups, ?_, ?_, hended⟩
        · simpa [read_cons, step] using hgrouped
        · simpa [read_cons, step, hlead] using htokens
      · rename_i hlexemes
        let place := (layout.read options line).2
        obtain ⟨hlast, hblocks, group, hgroup, hending, hmarks, hstands⟩ :=
          read_group options hlead hcut hlineEnd hlexemes
            (some ⟨.newline, "\n", place.line⟩) (by simp)
        obtain ⟨groups, hgrouped, htokens, hended⟩ :=
          ih hrest ⟨place.line + 1, some [], place.blocks⟩ rfl
        have hstep : place.step options .lineEnd =
            ([⟨.newline, "\n", place.line⟩], ⟨place.line + 1, some [], place.blocks⟩) := by
          simp [step, place, hlast]
        rw [read_cons, hstep]
        refine ⟨group :: groups, .cons hmarks hstands ?_, ?_, ?_⟩
        · rw [← hblocks]
          exact hgrouped
        · rw [List.flatMap_cons, hgroup, htokens]
          simp [place]
        · intro other hother
          cases groups with
          | nil => cases hother
          | cons next groups =>
              rw [List.dropLast_cons_cons] at hother
              rcases List.mem_cons.1 hother with rfl | hother
              · simp [hending]
              · exact hended other hother

/-- The tokens of a text are the groups of its lines and one DEDENT for each block open after the
last line. Only the last group may lack its NEWLINE. -/
theorem tokens_grouped (text : List Char) :
    ∃ (groups : List Group) (last : List Nat) (ending : List Token),
      Grouped options [] (contentLines (Segment.all text)) groups last ∧
      (∀ group ∈ groups.dropLast, group.ending ≠ none) ∧
      (∀ token ∈ ending, token.kind = .dedent) ∧ ending.length = last.length ∧
      tokens options text = groups.flatMap Group.tokens ++ ending := by
  obtain ⟨groups, hgrouped, htokens, hended⟩ :=
    Layout.read_grouped options (wellCut_all text) {} rfl
  refine ⟨groups, _, (Layout.read options {} (Segment.all text)).2.close, hgrouped, hended, ?_, ?_,
    ?_⟩
  · intro token htoken
    obtain ⟨block, -, rfl⟩ := List.mem_map.1 htoken
    rfl
  · exact List.length_map ..
  · rw [tokens_eq, htokens]

end AhoyScan
