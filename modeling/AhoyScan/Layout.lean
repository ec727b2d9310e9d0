import AhoyScan.Segment
import AhoyScan.Token

/-!
# Line structure

`Layout` reads the segments of a text one after the other and reports their tokens: one for each
lexeme, a NEWLINE at the end of each line that holds a lexeme, and, at the first lexeme of a line,
the INDENT and DEDENT tokens that lead from the open blocks to the line's indentation. At the end
of the text every block that is still open is closed. `tokens` is the whole reading of a text.
-/

namespace AhoyScan

/-- The columns that a character of leading white space counts for: one for a space, the tab
width for a tab, none for any other character. -/
def charColumns (tabWidth : Nat) (c : Char) : Nat :=
  if c = ' ' then 1 else if c = '\t' then tabWidth else 0

/-- The columns of leading white space. -/
def columns (tabWidth : Nat) : List Char → Nat
  | [] => 0
  | c :: rest => charColumns tabWidth c + columns tabWidth rest

/-- The blocks open after a line of this width, innermost first, with the marks that lead there.
Blocks wider than the line are closed; then the line opens a block of its own, unless its width is
that of the block it is in. -/
def reindent (width : Nat) (blocks : List Nat) : List Kind × List Nat :=
  let closed := (blocks.takeWhile (width < ·)).map fun _ ↦ Kind.dedent
  let kept := blocks.dropWhile (width < ·)
  if kept.headD 0 < width then (closed ++ [.indent], width :: kept) else (closed, kept)

/-- A place in a text: the line number, the text since the start of the line as long as no lexeme
has been met on it, and the widths of the open blocks, innermost first. -/
structure Layout where
  line : Nat := 1
  lead : Option (List Char) := some []
  blocks : List Nat := []
  deriving DecidableEq, Repr

namespace Layout

/-- The first lexeme of a line ends its leading text and, if indentation is reported, moves to the
blocks of that width; a later lexeme changes nothing. -/
def enter (options : Options) (layout : Layout) : List Token × Layout :=
  match layout.lead with
  | none => ([], layout)
  | some lead =>
      if options.indentation then
        let (marks, blocks) := reindent (columns options.tabWidth lead) layout.blocks
        (marks.map (⟨·, "", layout.line⟩), { layout with lead := none, blocks })
      else ([], { layout with lead := none })

/-- The tokens that a segment stands for, and the place after it. A lexeme is numbered by the line
on which it begins and may end on a later one. -/
def step (options : Options) (layout : Layout) : Segment → List Token × Layout
  | .blanks chars | .comment chars =>
      ([], { layout with lead := layout.lead.map (· ++ chars) })
  | .lineEnd =>
      (if layout.lead.isNone then [⟨.newline, "\n", layout.line⟩] else [],
        { layout with line := layout.line + 1, lead := some [] })
  | .lexeme lexeme =>
      let (marks, entered) := layout.enter options
      (marks ++ [⟨lexeme.kind, lexeme.text, layout.line⟩],
        { entered with line := layout.line + lexeme.chars.count '\n' })

/-- The tokens that a sequence of segments stands for, and the place after it. -/
def read (options : Options) : Layout → List Segment → List Token × Layout
  | layout, [] => ([], layout)
  | layout, segment :: rest =>
      let (tokens, next) := layout.step options segment
      let (more, last) := read options next rest
      (tokens ++ more, last)

/-- One DEDENT for every open block. -/
def close (layout : Layout) : List Token :=
  layout.blocks.map fun _ ↦ ⟨.dedent, "", layout.line⟩

end Layout

/-- All the tokens of a text. -/
def tokens (options : Options) (text : List Char) : List Token :=
  let (tokens, last) := Layout.read options {} (Segment.all text)
  tokens ++ last.close

end AhoyScan
