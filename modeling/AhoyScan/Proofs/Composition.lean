import AhoyScan.Proofs.LineNumbers
import AhoyScan.Proofs.Locality

/-!
# Reading a text in two parts

At a line end between segments a text can be divided: nothing before that place depends on what
follows, and all that is kept of what was read is the number of the line and the open blocks.
`tokens_compositional` compares the tokens of a text with those of its two parts. Without
indentation they are the tokens of the first part and then those of the second one, numbered on from
the line that the first part leads to; with indentation the tokens of the first part, but for the
DEDENTs at its end, still come first.
-/

namespace AhoyScan

/-- A line ends where the first text meets the second one: the segments of both together have a line
end there. A line end inside a lexeme is none of these. -/
def LineEndsBetween (before after : List Char) : Prop :=
  ∃ front back, Segment.all (before ++ after) = front ++ .lineEnd :: back ∧
    (front ++ [.lineEnd]).flatMap Segment.chars = before

/-- The token this many lines further down. -/
def Token.shift (lines : Nat) (token : Token) : Token :=
  { token with line := token.line + lines }

/-- The place this many lines further down, in the same blocks. -/
def Layout.shift (lines : Nat) (layout : Layout) : Layout :=
  { layout with line := layout.line + lines }

/-! ## Reading further down -/

namespace Layout

section Shift

variable (options : Options) (layout : Layout) (lines : Nat)

/-- The marks at the first lexeme of a line move down with the line. -/
theorem enter_shift :
    (layout.shift lines).enter options =
      ((layout.enter options).1.map (Token.shift lines), (layout.enter options).2.shift lines) := by
  cases hlead : layout.lead with
  | none =>
      rw [enter_none options layout hlead, enter_none options (layout.shift lines) hlead]
      rfl
  | some lead =>
      rw [enter_some options layout hlead, enter_some options (layout.shift lines) hlead,
        List.map_map]
      rfl

/-- The tokens of a segment move down with it. -/
theorem step_shift (segment : Segment) :
    (layout.shift lines).step options segment =
      ((layout.step options segment).1.map (Token.shift lines),
        (layout.step options segment).2.shift lines) := by
  cases segment with
  | blanks chars | comment chars => rfl
  | lineEnd =>
      have hline : layout.line + lines + 1 = layout.line + 1 + lines := Nat.add_right_comm ..
      cases hlead : layout.lead <;> simp [step, shift, Token.shift, hlead, hline]
  | lexeme l =>
      have hline (more : Nat) : layout.line + lines + more = layout.line + more + lines :=
        Nat.add_right_comm ..
      simp only [step, enter_shift]
      simp [shift, Token.shift, hline]

/-- What is read further down is the same, further down. -/
theorem read_shift (segments : List Segment) :
    (layout.shift lines).read options segments =
      ((layout.read options segments).1.map (Token.shift lines),
        (layout.read options segments).2.shift lines) := by
  induction segments generalizing layout with
  | nil => rfl
  | cons segment rest ih => simp [read_cons, step_shift, ih]

/-- Blocks are closed further down. -/
theorem close_shift : (layout.shift lines).close = layout.close.map (Token.shift lines) := by
  rw [close, close, List.map_map]
  rfl

end Shift

/-! ## Places at a line end -/

variable {options : Options} {layout : Layout}

/-- Where indentation is not reported, reading opens and closes no block. -/
theorem read_blocks (hoff : options.indentation = false) (segments : List Segment) :
    (layout.read options segments).2.blocks = layout.blocks := by
  induction segments generalizing layout with
  | nil => rfl
  | cons segment rest ih =>
      rw [read_cons, ih]
      cases segment with
      | blanks chars | comment chars | lineEnd => rfl
      | lexeme l =>
          show (layout.enter options).2.blocks = layout.blocks
          cases hlead : layout.lead with
          | none => rw [enter_none options layout hlead]
          | some lead =>
              rw [enter_some options layout hlead, Options.reindent, hoff]
              rfl

/-- After a line end nothing is left of the line: only its number and the open blocks count. -/
theorem read_lineEnd (options : Options) {front after : List Segment}
    (hcut : WellCut (front ++ [Segment.lineEnd] ++ after)) :
    (Layout.read options {} (front ++ [Segment.lineEnd])).2 =
      { line := lineAfter ((front ++ [Segment.lineEnd]).flatMap Segment.chars)
        blocks := (Layout.read options {} (front ++ [Segment.lineEnd])).2.blocks } := by
  have hline : (Layout.read options {} (front ++ [Segment.lineEnd])).2.line =
      lineAfter ((front ++ [Segment.lineEnd]).flatMap Segment.chars) :=
    (reached_start.read hcut).line_eq
  rw [← hline, read_append]
  rfl

/-! ## The last token of a line -/

/-- The tokens of a segment do not end with a DEDENT. -/
theorem step_last {segment : Segment} (hsound : ∀ l, segment = .lexeme l → l.Sound) :
    ∀ last ∈ (layout.step options segment).1.getLast?, last.kind ≠ .dedent := by
  intro last hlast
  cases segment with
  | blanks chars | comment chars => cases hlast
  | lineEnd =>
      have hmem := List.mem_of_getLast? hlast
      rw [step] at hmem
      split at hmem
      · rw [List.mem_singleton.1 hmem]
        simp
      · cases hmem
  | lexeme l =>
      obtain rfl : ⟨l.kind, l.text, layout.line⟩ = last := by
        simpa [step] using hlast
      have hplain := (hsound l rfl).plain
      intro hkind
      rw [show l.kind = .dedent from hkind] at hplain
      cases hplain

/-- The tokens that are read do not end with a DEDENT. -/
theorem read_last {segments : List Segment} (hsound : ∀ l, .lexeme l ∈ segments → l.Sound) :
    ∀ last ∈ (layout.read options segments).1.getLast?, last.kind ≠ .dedent := by
  induction segments generalizing layout with
  | nil =>
      intro last hlast
      cases hlast
  | cons segment rest ih =>
      intro last hlast
      rw [read_cons, List.getLast?_append, Option.mem_def, Option.or_eq_some_iff] at hlast
      rcases hlast with hrest | ⟨-, hfirst⟩
      · exact ih (fun l hl ↦ hsound l (List.mem_cons_of_mem segment hl)) last hrest
      · exact step_last (fun l hl ↦ hsound l (hl ▸ List.mem_cons_self)) last hfirst

end Layout

/-! ## Two parts of a text -/

section Parts

variable {before after : List Char} (options : Options)

/-- The segments of a text that is divided at a line end are those of its parts. -/
theorem LineEndsBetween.segments (h : LineEndsBetween before after) :
    Segment.all (before ++ after) = Segment.all before ++ Segment.all after ∧
      ∃ front, Segment.all before = front ++ [.lineEnd] := by
  obtain ⟨front, back, hall, hbefore⟩ := h
  rw [List.append_cons] at hall
  have hafter : back.flatMap Segment.chars = after := by
    have hwhole := Segment.flatMap_chars_all (before ++ after)
    rw [hall, List.flatMap_append, hbefore] at hwhole
    exact List.append_cancel_left hwhole
  have hfront := Segment.all_front hall
  have hback := Segment.all_back hall
  rw [hbefore] at hfront
  rw [hafter] at hback
  rw [hall, hfront, hback]
  exact ⟨rfl, front, rfl⟩

/-- The lines before a place lead to its line. Nothing of them counts there but their number and the
open blocks. -/
theorem LineEndsBetween.place (h : LineEndsBetween before after) :
    (Layout.read options {} (Segment.all before)).2 =
      { line := lineAfter before
        blocks := (Layout.read options {} (Segment.all before)).2.blocks } := by
  obtain ⟨hall, front, hbefore⟩ := h.segments
  have hcut : WellCut (front ++ [Segment.lineEnd] ++ Segment.all after) := by
    rw [← hbefore, ← hall]
    exact wellCut_all (before ++ after)
  have hread := Layout.read_lineEnd options hcut
  rwa [← hbefore, Segment.flatMap_chars_all] at hread

/-- The tokens of a text that is divided at a line end: those read from its first part, and those
read from the second one at the place where the first part leads. -/
theorem LineEndsBetween.tokens_read (h : LineEndsBetween before after) :
    ∃ blocks,
      let place : Layout := { line := lineAfter before, blocks }
      tokens options before = (Layout.read options {} (Segment.all before)).1 ++ place.close ∧
        tokens options (before ++ after) =
          (Layout.read options {} (Segment.all before)).1 ++
            ((place.read options (Segment.all after)).1 ++
              (place.read options (Segment.all after)).2.close) ∧
        (options.indentation = false → blocks = []) := by
  obtain ⟨hall, -⟩ := h.segments
  refine ⟨(Layout.read options {} (Segment.all before)).2.blocks, ?_, ?_, ?_⟩
  · rw [← h.place, tokens_eq]
  · rw [← h.place, tokens_eq, hall, Layout.read_append, List.append_assoc]
  · intro hoff
    exact Layout.read_blocks hoff (Segment.all before)

end Parts

/-- A text may be divided at any line end that is none inside a lexeme. Where indentation is not
reported, its tokens are those of the part before and those of the part after, which are numbered on
from the line ends of the part before. In any case the tokens of the part before, without the
DEDENTs that close its blocks at the end, are the first tokens of the whole text. -/
theorem tokens_compositional {before after : List Char} (h : LineEndsBetween before after) :
    (∀ tabWidth,
        tokens ⟨tabWidth, false⟩ (before ++ after) =
          tokens ⟨tabWidth, false⟩ before ++
            (tokens ⟨tabWidth, false⟩ after).map (Token.shift (before.count '\n'))) ∧
      ∀ options, ∃ kept ending,
        tokens options before = kept ++ ending ∧
          (∀ token ∈ ending, token.kind = .dedent ∧ token.line = lineAfter before) ∧
          (∀ last ∈ kept.getLast?, last.kind ≠ .dedent) ∧
          kept <+: tokens options (before ++ after) := by
  refine ⟨?_, ?_⟩
  · intro tabWidth
    obtain ⟨blocks, hbefore, hwhole, hblocks⟩ := h.tokens_read ⟨tabWidth, false⟩
    obtain rfl : blocks = [] := hblocks rfl
    have hplace : ({ line := lineAfter before } : Layout) = Layout.shift (before.count '\n') {} :=
      rfl
    have hread : tokens ⟨tabWidth, false⟩ before =
        (Layout.read ⟨tabWidth, false⟩ {} (Segment.all before)).1 := by
      rw [hbefore]
      exact List.append_nil _
    rw [hwhole, ← hread, hplace, Layout.read_shift, Layout.close_shift, ← List.map_append,
      ← tokens_eq]
  · intro options
    obtain ⟨blocks, hbefore, hwhole, -⟩ := h.tokens_read options
    refine ⟨_, _, hbefore, ?_, ?_, ?_⟩
    · intro token htoken
      obtain ⟨block, -, rfl⟩ := List.mem_map.1 htoken
      exact ⟨rfl, rfl⟩
    · exact Layout.read_last fun l ↦ (wellCut_all before).lexeme_sound
    · rw [hwhole]
      exact List.prefix_append _ _

/-- A string that is not closed stops before the backslash at the end of its line, so that the line
end is none of its characters and the text can be divided there. -/
theorem tokens_compositional_backslash :
    LineEndsBetween "if x\n\t\"a\\\n".toList "b '\n".toList ∧
      tokens ⟨4, false⟩ ("if x\n\t\"a\\\n".toList ++ "b '\n".toList) =
        tokens ⟨4, false⟩ "if x\n\t\"a\\\n".toList ++
          [⟨.identifier, "b", 3⟩, ⟨.illegal, "'", 3⟩, ⟨.newline, "\n", 3⟩] := by
  have h : LineEndsBetween "if x\n\t\"a\\\n".toList "b '\n".toList := by
    refine ⟨(Segment.all "if x\n\t\"a\\\n".toList).dropLast, Segment.all "b '\n".toList, ?_, ?_⟩ <;>
      decide +kernel
  have hafter : (tokens ⟨4, false⟩ "b '\n".toList).map
        (Token.shift ("if x\n\t\"a\\\n".toList.count '\n')) =
      [⟨.identifier, "b", 3⟩, ⟨.illegal, "'", 3⟩, ⟨.newline, "\n", 3⟩] := by
    decide +kernel
  exact ⟨h, hafter ▸ (tokens_compositional h).1 4⟩

end AhoyScan
