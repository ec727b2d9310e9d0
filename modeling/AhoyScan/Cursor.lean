import AhoyScan.Layout
import AhoyScan.Text.Offset

/-!
# Reading a text in place

A `Cursor` hands out the tokens of a text as a `Stream` does, but keeps the whole text and works
with byte offsets into it. The white space at the beginning of a line is the slice of the text from
where the line starts to the first lexeme, and the text of a string or of a character literal is the
slice of its lexeme without the first and the last byte. Where a slice is out of range the result is
`none`.
-/

namespace AhoyScan

/-- The text of the token: the whole lexeme, but strings and character literals without the byte at
each end. -/
def Lexeme.slicedText? (lexeme : Lexeme) : Option String :=
  match lexeme.kind with
  | .string | .char =>
      (slice? lexeme.chars 1 (byteSize lexeme.chars - 1)).map String.ofList
  | _ => some (String.ofList lexeme.chars)

/-- A place in a text: the line number, the byte offset at which the line starts, whether a lexeme
has been met on the line, and the widths of the open blocks, innermost first. -/
structure Place where
  line : Nat := 1
  lineStart : Nat := 0
  hasContent : Bool := false
  blocks : List Nat := []
  deriving DecidableEq, Repr

namespace Place

/-- The first lexeme of a line, which begins at byte offset `start`, moves to the blocks of the
line's width, if indentation is reported. The width is measured between the start of the line and
the lexeme. A later lexeme changes nothing. -/
def enter? (options : Options) (text : List Char) (start : Nat) (place : Place) :
    Option (List Token × Place) :=
  if place.hasContent then some ([], place)
  else if options.indentation then do
    let lead ← slice? text place.lineStart start
    let (marks, blocks) := reindent (columns options.tabWidth lead) place.blocks
    return (marks.map (⟨·, "", place.line⟩), { place with hasContent := true, blocks })
  else some ([], { place with hasContent := true })

/-- The place after a lexeme that begins at byte offset `start`. Where the lexeme goes over several
lines, the line starts after the last line end in it. -/
def pass (place : Place) (start : Nat) (chars : List Char) : Place :=
  match lastLineEnd? chars with
  | none => place
  | some last =>
      { place with line := place.line + chars.count '\n', lineStart := start + last + 1 }

/-- The tokens that a segment which begins at byte offset `start` stands for, and the place after
it. -/
def step? (options : Options) (text : List Char) (start : Nat) (place : Place) :
    Segment → Option (List Token × Place)
  | .blanks _ | .comment _ => some ([], place)
  | .lineEnd =>
      some (if place.hasContent then [⟨.newline, "\n", place.line⟩] else [],
        { place with line := place.line + 1, lineStart := start + 1, hasContent := false })
  | .lexeme lexeme => do
      let (marks, entered) ← place.enter? options text start
      let sliced ← lexeme.slicedText?
      return (marks ++ [⟨lexeme.kind, sliced, place.line⟩], entered.pass start lexeme.chars)

end Place

/-- A text that has been read up to a byte offset: what is left of it, the place, the tokens that
are known already but not yet handed out, and whether the end of the text has been dealt with. -/
structure Cursor where
  options : Options
  source : List Char
  rest : List Char
  offset : Nat := 0
  place : Place := {}
  ready : List Token := []
  finished : Bool := false
  deriving DecidableEq, Repr

namespace Cursor

/-- A text that has not been read from. -/
def start (options : Options) (text : List Char) : Cursor :=
  { options, source := text, rest := text }

/-- Read one more segment or, at the end of the text, close the open blocks. The tokens for that are
handed out after those that are ready. -/
def advance? (cursor : Cursor) : Option Cursor :=
  match cursor.rest with
  | [] =>
      some { cursor with
        place := { cursor.place with blocks := [] }
        ready := cursor.ready ++ cursor.place.blocks.map fun _ ↦ ⟨.dedent, "", cursor.place.line⟩
        finished := true }
  | c :: rest => do
      let (segment, left) := Segment.first c rest
      let (tokens, place) ← cursor.place.step? cursor.options cursor.source cursor.offset segment
      return { cursor with
        rest := left
        offset := cursor.offset + byteSize segment.chars
        place
        ready := cursor.ready ++ tokens }

/-- How often a cursor can be advanced at most: once for each character and once for the end. -/
def steps (cursor : Cursor) : Nat :=
  if cursor.finished then 0 else cursor.rest.length + 1

/-- There is less to do after a cursor has been advanced. -/
theorem steps_advance?_lt {cursor next : Cursor} (h : ¬ cursor.finished)
    (hadvance : cursor.advance? = some next) : next.steps < cursor.steps := by
  rw [Bool.not_eq_true] at h
  cases hrest : cursor.rest with
  | nil =>
      simp only [advance?, hrest, Option.some.injEq] at hadvance
      subst hadvance
      simp [steps, h]
  | cons c rest =>
      simp only [advance?, hrest, Option.bind_eq_bind, Option.bind_eq_some_iff, Option.pure_def,
        Option.some.injEq] at hadvance
      obtain ⟨-, -, rfl⟩ := hadvance
      have hlength := Segment.first_length_lt c rest
      simpa [steps, hrest, h] using hlength

/-- Take the next token: the cursor is advanced until one is ready. A cursor that has dealt with the
end of the text has no more tokens than those that are ready. -/
def next? (cursor : Cursor) : Option (Option Token × Cursor) :=
  match cursor.ready with
  | token :: ready => some (some token, { cursor with ready })
  | [] =>
      if _ : cursor.finished then some (none, cursor)
      else
        match _ : cursor.advance? with
        | none => none
        | some next => next.next?
termination_by cursor.steps
decreasing_by exact steps_advance?_lt ‹_› ‹_›

/-- Take up to `n` tokens. A cursor that has no more answers `none` once, which ends the taking. -/
def pull? : Nat → Cursor → Option (List (Option Token) × Cursor)
  | 0, cursor => some ([], cursor)
  | n + 1, cursor => do
      let (answer, next) ← cursor.next?
      match answer with
      | none => return ([none], next)
      | some token =>
          let (more, last) ← pull? n next
          return (some token :: more, last)

end Cursor

end AhoyScan
