import AhoyScan.Cursor
import AhoyScan.Proofs.Lines
import AhoyScan.Proofs.Lossless
import AhoyScan.Stream
import Mathlib.Data.List.DropRight

/-!
# Reading in place is reading

A cursor works with byte offsets where a stream carries the text since the start of the line
(`Cursor.stream`). `Place.Fits` says what the offsets are: where a line holds no lexeme yet, its
start is the end of the lines before it. Where a line holds one, its start says nothing, and is not
used. From this it follows that no slice is out of range and that both do the same: for one segment
(`Place.Fits.step?`), for one token (`Reaches.next?`) and for any number of them
(`Cursor.pull?_start`).
-/

namespace AhoyScan

/-- The segments of the lines that have ended. -/
def endedLines (scanned : List Segment) : List Segment :=
  scanned.rdropWhile (· ≠ .lineEnd)

/-- The segments of the line that has not ended. -/
def currentLine (scanned : List Segment) : List Segment :=
  scanned.rtakeWhile (· ≠ .lineEnd)

/-- The same place with the leading text itself instead of the offset at which it starts. -/
def Place.layout (place : Place) (text : List Char) (offset : Nat) : Layout :=
  { line := place.line
    lead := if place.hasContent then none else slice? text place.lineStart offset
    blocks := place.blocks }

/-- The same reading without byte offsets. -/
def Cursor.stream (cursor : Cursor) : Stream :=
  { options := cursor.options
    rest := cursor.rest
    layout := cursor.place.layout cursor.source cursor.offset
    ready := cursor.ready
    finished := cursor.finished }

/-- The cursors that the reading of a text comes to, each with the segments scanned so far. A token
that is ready is taken; when none is, the cursor is advanced. -/
inductive Reaches (options : Options) (text : List Char) : List Segment → Cursor → Prop where
  | start : Reaches options text [] (.start options text)
  | take {scanned : List Segment} {cursor : Cursor} {token : Token} {ready : List Token} :
      Reaches options text scanned cursor → cursor.ready = token :: ready →
      Reaches options text scanned { cursor with ready }
  | advance {scanned : List Segment} {cursor next : Cursor} :
      Reaches options text scanned cursor → cursor.ready = [] → cursor.finished = false →
      cursor.advance? = some next →
      Reaches options text (scanned ++ (Segment.all cursor.rest).take 1) next

/-- The place is the one after these segments. Its line starts where the lines before it end, as
long as no lexeme has been met on the line. -/
structure Place.Fits (place : Place) (scanned : List Segment) : Prop where
  hasContent_iff : place.hasContent = true ↔ HoldsLexeme scanned
  lineStart_eq : place.hasContent = false →
    place.lineStart = byteSize ((endedLines scanned).flatMap Segment.chars)

/-- The cursor has scanned these segments of the text and is at the offset where they end. -/
structure Cursor.Tracks (cursor : Cursor) (text : List Char) (scanned : List Segment) : Prop where
  source_eq : cursor.source = text
  all_eq : Segment.all text = scanned ++ Segment.all cursor.rest
  offset_eq : cursor.offset = byteSize (scanned.flatMap Segment.chars)
  fits : cursor.place.Fits scanned

/-! ## The current line -/

section CurrentLine

variable {scanned : List Segment} {segment : Segment}

/-- What has been scanned are the lines that have ended and the current one. -/
theorem endedLines_append_currentLine (scanned : List Segment) :
    endedLines scanned ++ currentLine scanned = scanned :=
  List.rdropWhile_append_rtakeWhile

/-- At a line end the current line is a new one. -/
@[simp] theorem currentLine_lineEnd : currentLine (scanned ++ [.lineEnd]) = [] :=
  List.rtakeWhile_concat_neg _ _ _ (by simp)

/-- At a line end all lines have ended. -/
@[simp] theorem endedLines_lineEnd : endedLines (scanned ++ [.lineEnd]) = scanned ++ [.lineEnd] :=
  List.rdropWhile_concat_neg _ _ _ (by simp)

/-- Another segment belongs to the current line. -/
theorem currentLine_concat (h : segment ≠ .lineEnd) :
    currentLine (scanned ++ [segment]) = currentLine scanned ++ [segment] :=
  List.rtakeWhile_concat_pos _ _ _ (by simpa using h)

/-- Another segment ends no line. -/
theorem endedLines_concat (h : segment ≠ .lineEnd) :
    endedLines (scanned ++ [segment]) = endedLines scanned :=
  List.rdropWhile_concat_pos _ _ _ (by simpa using h)

/-- Everything up to a line end belongs to lines that have ended. -/
theorem endedLines_append (front back : List Segment) :
    endedLines (front ++ .lineEnd :: back) = front ++ .lineEnd :: endedLines back := by
  induction back using List.reverseRecOn with
  | nil => exact endedLines_lineEnd
  | append_singleton back segment ih =>
      rw [← List.cons_append, ← List.append_assoc]
      by_cases hlineEnd : segment = .lineEnd
      · rw [hlineEnd, endedLines_lineEnd, endedLines_lineEnd, List.append_assoc, List.cons_append]
      · rw [endedLines_concat hlineEnd, endedLines_concat hlineEnd, ih]

/-- The current line has not ended. -/
theorem lineEnd_notMem_currentLine : .lineEnd ∉ currentLine scanned := by
  intro hmem
  simpa using List.mem_rtakeWhile_imp hmem

/-- The current line holds no lexeme if none has been met on it. -/
theorem lexeme_notMem_currentLine (h : ¬ HoldsLexeme scanned) (l : Lexeme) :
    .lexeme l ∉ currentLine scanned := fun hmem ↦
  h ⟨endedLines scanned, currentLine scanned, (endedLines_append_currentLine scanned).symm,
    lineEnd_notMem_currentLine, l, hmem⟩

/-- The text of the current line can be taken from the whole text. -/
theorem slice?_currentLine (scanned : List Segment) (left : List Char) :
    slice? (scanned.flatMap Segment.chars ++ left)
        (byteSize ((endedLines scanned).flatMap Segment.chars))
        (byteSize (scanned.flatMap Segment.chars)) =
      some ((currentLine scanned).flatMap Segment.chars) := by
  rw [slice?_eq_some_iff]
  refine ⟨(endedLines scanned).flatMap Segment.chars, left, ?_, rfl, ?_⟩ <;>
    rw [← List.flatMap_append, endedLines_append_currentLine]

end CurrentLine

/-! ## Quotes -/

/-- Two quotes of one byte each take up two bytes. -/
theorem byteSize_quoted (quote : Char) (hquote : quote.utf8Size = 1) (body : List Char) :
    byteSize (quote :: (body ++ [quote])) = byteSize body + 2 := by
  simp only [byteSize_cons, byteSize_append, byteSize_nil, hquote]
  omega

/-- What is between two quotes of one byte each is the part without the first and the last byte. -/
theorem slice?_quoted (quote : Char) (hquote : quote.utf8Size = 1) (body : List Char) :
    slice? (quote :: (body ++ [quote])) 1 (byteSize (quote :: (body ++ [quote])) - 1) =
      some body := by
  rw [slice?_eq_some_iff, byteSize_quoted quote hquote]
  refine ⟨[quote], [quote], by simp, by simp [hquote], ?_⟩
  rw [List.singleton_append, byteSize_cons, hquote]
  omega

/-- The slice of a lexeme is the text that it spells. -/
theorem Lexeme.Spells.slicedText?_eq {lexeme : Lexeme} {text : String} (h : lexeme.Spells text) :
    lexeme.slicedText? = some text := by
  obtain ⟨kind, chars⟩ := lexeme
  cases kind with
  | string =>
      obtain rfl : chars = '"' :: (text.toList ++ ['"']) := h
      simp only [slicedText?, slice?_quoted '"' rfl, Option.map_some, String.ofList_toList]
  | char =>
      obtain rfl : chars = '\'' :: (text.toList ++ ['\'']) := h
      simp only [slicedText?, slice?_quoted '\'' rfl, Option.map_some,
        String.ofList_toList]
  | _ =>
      obtain rfl : chars = text.toList := h
      exact congrArg some String.ofList_toList

/-! ## Places -/

namespace Place

variable {place : Place} {scanned : List Segment} {segment : Segment}
  {text left : List Char} {start : Nat}

/-- A lexeme leads on by as many lines as there are line ends in it. -/
@[simp] theorem pass_line (start : Nat) (chars : List Char) :
    (place.pass start chars).line = place.line + chars.count '\n' := by
  rw [pass]
  split
  · rename_i hnone
    rw [List.count_eq_zero.2 (lastLineEnd?_eq_none hnone), Nat.add_zero]
  · rfl

@[simp] theorem pass_hasContent (start : Nat) (chars : List Char) :
    (place.pass start chars).hasContent = place.hasContent := by
  rw [pass]
  split <;> rfl

@[simp] theorem pass_blocks (start : Nat) (chars : List Char) :
    (place.pass start chars).blocks = place.blocks := by
  rw [pass]
  split <;> rfl

/-- On a line that holds a lexeme byte offsets have no part in the place. -/
theorem layout_of_hasContent (h : place.hasContent = true) (text : List Char) (offset : Nat) :
    place.layout text offset = ⟨place.line, none, place.blocks⟩ := by
  simp [layout, h]

/-- On a line that holds no lexeme the text since its start is in range, and is that of its
segments. -/
theorem Fits.slice_eq (h : place.Fits scanned) (hcontent : place.hasContent = false)
    (htext : text = scanned.flatMap Segment.chars ++ left)
    (hstart : start = byteSize (scanned.flatMap Segment.chars)) :
    slice? text place.lineStart start = some ((currentLine scanned).flatMap Segment.chars) := by
  rw [htext, hstart, h.lineStart_eq hcontent, slice?_currentLine]

/-- On a line that holds no lexeme the leading text is that of all its segments. -/
theorem Fits.layout_eq (h : place.Fits scanned) (hcontent : place.hasContent = false)
    (htext : text = scanned.flatMap Segment.chars ++ left)
    (hstart : start = byteSize (scanned.flatMap Segment.chars)) :
    place.layout text start =
      ⟨place.line, some ((currentLine scanned).flatMap Segment.chars), place.blocks⟩ := by
  simp [layout, hcontent, h.slice_eq hcontent htext hstart]

/-- The text before the first lexeme of a line is in range, and the marks and blocks that it leads
to are those of the leading text. -/
theorem Fits.enter? (h : place.Fits scanned) (options : Options)
    (htext : text = scanned.flatMap Segment.chars ++ left)
    (hstart : start = byteSize (scanned.flatMap Segment.chars)) :
    ∃ marks entered, place.enter? options text start = some (marks, entered) ∧
      entered.hasContent = true ∧ entered.line = place.line ∧
      (place.layout text start).enter options = (marks, ⟨place.line, none, entered.blocks⟩) := by
  cases hcontent : place.hasContent with
  | true =>
      refine ⟨[], place, by simp [Place.enter?, hcontent], hcontent, rfl, ?_⟩
      rw [layout_of_hasContent hcontent, Layout.enter_none _ _ rfl]
  | false =>
      have hslice := h.slice_eq hcontent htext hstart
      rw [h.layout_eq hcontent htext hstart, Layout.enter_some _ _ rfl]
      cases hindentation : options.indentation <;>
        simp [Place.enter?, hcontent, hindentation, hslice, Options.reindent]

/-- Blanks and comments change nothing about where a line starts. -/
theorem Fits.concat (h : place.Fits scanned) (hlineEnd : segment ≠ .lineEnd)
    (hlexeme : ∀ l, segment ≠ .lexeme l) : place.Fits (scanned ++ [segment]) where
  hasContent_iff := h.hasContent_iff.trans (holdsLexeme_concat hlineEnd hlexeme).symm
  lineStart_eq := by
    rw [endedLines_concat hlineEnd]
    exact h.lineStart_eq

/-- Blanks and comments add to the leading text of a line on which no lexeme has been met. -/
theorem Fits.layout_concat (h : place.Fits scanned) (hlineEnd : segment ≠ .lineEnd)
    (hlexeme : ∀ l, segment ≠ .lexeme l)
    (htext : text = scanned.flatMap Segment.chars ++ (segment.chars ++ left))
    (hstart : start = byteSize (scanned.flatMap Segment.chars)) :
    place.layout text (start + byteSize segment.chars) =
      { place.layout text start with
        lead := (place.layout text start).lead.map (· ++ segment.chars) } := by
  cases hcontent : place.hasContent with
  | true => simp [layout_of_hasContent hcontent]
  | false =>
      have htext' : text = (scanned ++ [segment]).flatMap Segment.chars ++ left := by
        simpa using htext
      have hstop : start + byteSize segment.chars =
          byteSize ((scanned ++ [segment]).flatMap Segment.chars) := by
        simp [hstart]
      rw [(h.concat hlineEnd hlexeme).layout_eq hcontent htext' hstop,
        h.layout_eq hcontent htext hstart, currentLine_concat hlineEnd]
      simp

/-- After a line end a line starts at the next byte. -/
theorem fits_lineEnd {line : Nat} {blocks : List Nat}
    (hstart : start = byteSize (scanned.flatMap Segment.chars)) :
    Fits ⟨line, start + 1, false, blocks⟩ (scanned ++ [.lineEnd]) where
  hasContent_iff := by simp [not_holdsLexeme_lineEnd]
  lineStart_eq := by
    intro _
    rw [endedLines_lineEnd, hstart, List.flatMap_append, byteSize_append]
    rfl

/-- A step takes no slice that is out of range. It keeps the place in agreement with the segments
before it and stands for the same tokens as without byte offsets. -/
theorem Fits.step? (h : place.Fits scanned) (options : Options)
    (htext : text = scanned.flatMap Segment.chars ++ (segment.chars ++ left))
    (hstart : start = byteSize (scanned.flatMap Segment.chars))
    (hsound : ∀ l, segment = .lexeme l → l.Sound) :
    ∃ tokens next, place.step? options text start segment = some (tokens, next) ∧
      next.Fits (scanned ++ [segment]) ∧
      (place.layout text start).step options segment =
        (tokens, next.layout text (start + byteSize segment.chars)) := by
  cases segment with
  | blanks chars | comment chars =>
      refine ⟨[], place, rfl, h.concat (by simp) (by simp), ?_⟩
      rw [h.layout_concat (by simp) (by simp) htext hstart]
      rfl
  | lineEnd =>
      have hnext : Fits ⟨place.line + 1, start + 1, false, place.blocks⟩ (scanned ++ [.lineEnd]) :=
        fits_lineEnd hstart
      refine ⟨_, _, rfl, hnext, ?_⟩
      rw [hnext.layout_eq rfl (by simpa using htext) (by rw [hstart]; simp), currentLine_lineEnd]
      cases hcontent : place.hasContent with
      | true => simp [layout_of_hasContent hcontent, Layout.step]
      | false => simp [h.layout_eq hcontent htext hstart, Layout.step]
  | lexeme l =>
      obtain ⟨marks, entered, henter, hcontent, hline, hlayout⟩ :=
        h.enter? options htext hstart
      have hsliced := (hsound l rfl).spells.slicedText?_eq
      have hpassed : (entered.pass start l.chars).hasContent = true := by
        rw [pass_hasContent, hcontent]
      refine ⟨marks ++ [⟨l.kind, l.text, place.line⟩], entered.pass start l.chars, ?_, ?_, ?_⟩
      · simp [Place.step?, henter, hsliced]
      · exact ⟨by simp [hcontent, holdsLexeme_lexeme], by simp [hcontent]⟩
      · rw [layout_of_hasContent hpassed, Layout.step, hlayout, pass_line, pass_blocks, hline]
        rfl

end Place

/-! ## Cursors -/

namespace Cursor

variable {options : Options} {text : List Char} {scanned : List Segment} {cursor : Cursor}

/-- At the beginning of a text nothing has been scanned. -/
theorem tracks_start (options : Options) (text : List Char) :
    (start options text).Tracks text [] where
  source_eq := rfl
  all_eq := rfl
  offset_eq := rfl
  fits := ⟨by simp [start, not_holdsLexeme_nil], fun _ ↦ rfl⟩

/-- A cursor at the beginning of a text is a stream at the beginning of it. -/
theorem stream_start (options : Options) (text : List Char) :
    (start options text).stream = { options, rest := text } := by
  have hlead : slice? text 0 0 = some [] := slice?_eq_some_iff.2 ⟨[], text, rfl, rfl, rfl⟩
  simp [stream, start, Place.layout, hlead]

/-- What has been scanned and what is left are the whole text. -/
theorem Tracks.text_eq (h : cursor.Tracks text scanned) :
    text = scanned.flatMap Segment.chars ++ cursor.rest := by
  rw [← Segment.flatMap_chars_all text, h.all_eq, List.flatMap_append, Segment.flatMap_chars_all]

/-- Advancing a cursor does not fail. It scans the next segment, if there is one, and is the same as
advancing a stream. -/
theorem Tracks.advance? (h : cursor.Tracks text scanned) :
    ∃ next, cursor.advance? = some next ∧
      next.Tracks text (scanned ++ (Segment.all cursor.rest).take 1) ∧
      next.stream = cursor.stream.advance := by
  cases hrest : cursor.rest with
  | nil =>
      have hadvance : cursor.advance? = some { cursor with
          place := { cursor.place with blocks := [] }
          ready := cursor.ready ++ cursor.place.blocks.map fun _ ↦ ⟨.dedent, "", cursor.place.line⟩
          finished := true } := by
        simp [Cursor.advance?, hrest]
      rw [Segment.all, List.take_nil, List.append_nil]
      refine ⟨_, hadvance, ⟨h.source_eq, h.all_eq, h.offset_eq, h.fits.1, h.fits.2⟩, ?_⟩
      simp [stream, Stream.advance, hrest, Place.layout, Layout.close]
  | cons c rest =>
      have htext : cursor.source = scanned.flatMap Segment.chars ++
          ((Segment.first c rest).1.chars ++ (Segment.first c rest).2) := by
        rw [h.source_eq, h.text_eq, hrest, Segment.first_append]
      have hsound : ∀ l, (Segment.first c rest).1 = .lexeme l → l.Sound := by
        intro l hl
        have hsound := Segment.first_sound c rest
        rwa [hl] at hsound
      obtain ⟨tokens, place, hstep, hfits, hlayout⟩ :=
        h.fits.step? cursor.options htext h.offset_eq hsound
      have hadvance : cursor.advance? = some { cursor with
          rest := (Segment.first c rest).2
          offset := cursor.offset + byteSize (Segment.first c rest).1.chars
          place
          ready := cursor.ready ++ tokens } := by
        simp [Cursor.advance?, hrest, hstep]
      rw [Segment.all, List.take_succ_cons, List.take_zero]
      refine ⟨_, hadvance, ⟨h.source_eq, ?_, ?_, hfits⟩, ?_⟩
      · rw [h.all_eq, hrest, Segment.all, List.append_cons]
      · simp [h.offset_eq]
      · simp [stream, Stream.advance, hrest, hlayout]

end Cursor

/-! ## Runs -/

section Runs

variable {options : Options} {text : List Char} {scanned : List Segment} {cursor : Cursor}

/-- Every cursor that the reading of a text comes to is where the segments scanned so far end. -/
theorem Reaches.tracks (h : Reaches options text scanned cursor) : cursor.Tracks text scanned := by
  induction h with
  | start => exact Cursor.tracks_start options text
  | take _ _ ih => exact ⟨ih.source_eq, ih.all_eq, ih.offset_eq, ih.fits⟩
  | advance _ _ _ hadvance ih =>
      obtain ⟨next, hnext, htracks, -⟩ := ih.advance?
      rw [hnext] at hadvance
      cases hadvance
      exact htracks

/-- A stream with no token ready that has not dealt with the end of the text is advanced first. -/
theorem Stream.next_of_unfinished {stream : Stream} (hready : stream.ready = [])
    (hfinished : stream.finished = false) : stream.next = stream.advance.next := by
  conv_lhs => rw [Stream.next]
  simp [hready, hfinished]

/-- Taking a token does not fail. It is the same as taking one from a stream, and the reading goes
on from there. -/
theorem Reaches.next? (h : Reaches options text scanned cursor) :
    ∃ answer next more, cursor.next? = some (answer, next) ∧
      Reaches options text (scanned ++ more) next ∧
      cursor.stream.next = (answer, next.stream) := by
  fun_induction Cursor.next? cursor generalizing scanned with
  | case1 cursor token ready hready =>
      refine ⟨some token, { cursor with ready }, [], rfl, ?_, ?_⟩
      · rw [List.append_nil]
        exact h.take hready
      · simp [Stream.next, Cursor.stream, hready]
  | case2 cursor hready hfinished =>
      refine ⟨none, cursor, [], rfl, ?_, ?_⟩
      · rwa [List.append_nil]
      · simp [Stream.next, Cursor.stream, hready, hfinished]
  | case3 cursor hready hfinished hadvance =>
      obtain ⟨next, hnext, -⟩ := h.tracks.advance?
      cases hadvance.symm.trans hnext
  | case4 cursor hready hfinished next hadvance ih =>
      have hunfinished : cursor.finished = false := by simpa using hfinished
      obtain ⟨next', hnext, -, hstream⟩ := h.tracks.advance?
      obtain rfl : next = next' := Option.some.inj (hadvance.symm.trans hnext)
      obtain ⟨answer, last, more, hlast, hreaches, hanswer⟩ :=
        ih (h.advance hready hunfinished hadvance)
      have hloop : cursor.stream.next = next.stream.next := by
        rw [hstream, Stream.next_of_unfinished hready hunfinished]
      rw [List.append_assoc] at hreaches
      exact ⟨answer, last, _, hlast, hreaches, hloop.trans hanswer⟩

/-- Taking any number of tokens does not fail and is the same as taking them from a stream. -/
theorem Reaches.pull? (n : Nat) (h : Reaches options text scanned cursor) :
    ∃ last more, cursor.pull? n = some ((cursor.stream.pull n).1, last) ∧
      Reaches options text (scanned ++ more) last ∧ (cursor.stream.pull n).2 = last.stream := by
  induction n generalizing scanned cursor with
  | zero => exact ⟨cursor, [], rfl, by rwa [List.append_nil], rfl⟩
  | succ n ih =>
      obtain ⟨answer, next, more, hnext, hreaches, hanswer⟩ := h.next?
      cases answer with
      | none =>
          refine ⟨next, more, ?_, hreaches, ?_⟩
          · simp [Cursor.pull?, Stream.pull, hnext, hanswer]
          · simp [Stream.pull, hanswer]
      | some token =>
          obtain ⟨last, later, hlast, hreaches', hstream⟩ := ih hreaches
          refine ⟨last, more ++ later, ?_, ?_, ?_⟩
          · simp [Cursor.pull?, Stream.pull, hnext, hanswer, hlast]
          · rwa [List.append_assoc] at hreaches'
          · simpa [Stream.pull, hanswer] using hstream

end Runs

/-- Tokens that are taken from the beginning of a text in place are those that a stream hands out.
-/
theorem Cursor.pull?_start (options : Options) (text : List Char) (n : Nat) :
    ∃ last, (start options text).pull? n =
      some ((Stream.pull n { options, rest := text }).1, last) := by
  have hstart : Reaches options text [] (start options text) := .start
  obtain ⟨last, -, hlast, -⟩ := hstart.pull? n
  rw [stream_start] at hlast
  exact ⟨last, hlast⟩

end AhoyScan
