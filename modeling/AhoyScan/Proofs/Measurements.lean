import AhoyScan.Proofs.Cursors

/-!
# Indentation is measured over white space

Where the first lexeme of a line is scanned, the text from the start of the line to the lexeme is
`Measured`: it can be taken from the source, it is white space through and through, and it begins
after a line end between lines, never after one inside a lexeme. A string or a character literal is
`Quoted`. `slices_in_range` says both of every state that the reading of a text in place comes to,
so that no slice can fail.
-/

namespace AhoyScan

/-- A measurement from byte offset `lineStart` to byte offset `start`, made when these segments have
been scanned. The line starts just after the last line end among them, or where the text does. The
part that is measured is in range, is the text of the current line so far, and is made of spaces,
tabs, form feeds and carriage returns; no comment and no lexeme has a part in it. Where a lexeme
before it goes over several lines, the offset after the last line end in that lexeme is not the one
that is used. -/
structure Measured (text : List Char) (scanned : List Segment) (lineStart start : Nat) : Prop where
  lineStart_eq : lineStart = byteSize ((endedLines scanned).flatMap Segment.chars)
  lineStart_le : lineStart ≤ start
  slice_eq : slice? text lineStart start = some ((currentLine scanned).flatMap Segment.chars)
  white : ∀ c ∈ (currentLine scanned).flatMap Segment.chars,
    c = ' ' ∨ c = '\t' ∨ c = '\x0c' ∨ c = '\r'
  blanks : ∀ segment ∈ currentLine scanned, ∃ chars, segment = .blanks chars
  within_lt : ∀ before l after, scanned = before ++ .lexeme l :: after →
    ∀ last, lastLineEnd? l.chars = some last →
      byteSize (before.flatMap Segment.chars) + last + 1 < lineStart

/-- The lexeme has this quote at both ends and is at least two bytes long. The part without the
first and the last byte is in range and is the text of the token. -/
structure Lexeme.Quoted (lexeme : Lexeme) (quote : Char) : Prop where
  chars_eq : lexeme.chars = quote :: (lexeme.text.toList ++ [quote])
  two_le : 2 ≤ byteSize lexeme.chars
  slice_eq : slice? lexeme.chars 1 (byteSize lexeme.chars - 1) = some lexeme.text.toList

/-! ## White space before a lexeme -/

/-- Before the first lexeme of a line there is nothing on it but blanks. -/
theorem blanks_before_lexeme {line after : List Segment} {l : Lexeme}
    (hcut : WellCut (line ++ .lexeme l :: after)) (hlineEnd : .lineEnd ∉ line)
    (hlexeme : ∀ l', .lexeme l' ∉ line) :
    ∀ segment ∈ line, ∃ chars, segment = .blanks chars ∧
      ∀ c ∈ chars, c = ' ' ∨ c = '\t' ∨ c = '\x0c' ∨ c = '\r' := by
  intro segment hmem
  obtain ⟨front, back, rfl⟩ := List.append_of_mem hmem
  rw [List.append_assoc] at hcut
  have hrest : WellCut (segment :: (back ++ .lexeme l :: after)) := hcut.right
  cases segment with
  | blanks chars => exact ⟨chars, rfl, (wellCut_cons.1 hrest).1.2⟩
  | comment chars =>
      -- This cannot be: the next segment would be a line end, and it is the lexeme or on the line.
      cases back with
      | nil => cases lineEnd_after_comment hrest
      | cons next back =>
          obtain rfl : next = .lineEnd := lineEnd_after_comment hrest
          simp at hlineEnd
  | lineEnd => exact absurd hmem hlineEnd
  | lexeme l' => exact absurd hmem (hlexeme l')

/-- A line on which no lexeme has been met starts after the end of every lexeme before it. -/
theorem byteSize_lt_endedLines {before after : List Segment} {l : Lexeme}
    (h : ¬ HoldsLexeme (before ++ .lexeme l :: after)) :
    byteSize (before.flatMap Segment.chars) + byteSize l.chars <
      byteSize ((endedLines (before ++ .lexeme l :: after)).flatMap Segment.chars) := by
  have hmem : .lineEnd ∈ after := by
    by_contra hnone
    exact h ⟨before, .lexeme l :: after, rfl, by simpa using hnone, l, List.mem_cons_self⟩
  obtain ⟨line, rest, rfl⟩ := List.append_of_mem hmem
  have hended := endedLines_append (before ++ .lexeme l :: line) rest
  rw [List.append_assoc, List.cons_append] at hended
  rw [hended]
  simp only [List.flatMap_append, List.flatMap_cons, byteSize_append, Segment.chars, byteSize_cons]
  have hpositive := Char.utf8Size_pos '\n'
  omega

/-- Where the first lexeme of a line comes next, the text from the start of the line can be
measured. -/
theorem Cursor.Tracks.measured {cursor : Cursor} {text : List Char} {scanned after : List Segment}
    {l : Lexeme} (h : cursor.Tracks text scanned)
    (hnext : Segment.all cursor.rest = .lexeme l :: after) (hfirst : ¬ HoldsLexeme scanned) :
    Measured text scanned cursor.place.lineStart cursor.offset := by
  have hcontent : cursor.place.hasContent = false := by
    rw [← Bool.not_eq_true, h.fits.hasContent_iff]
    exact hfirst
  have hlineStart := h.fits.lineStart_eq hcontent
  have hcut : WellCut (currentLine scanned ++ .lexeme l :: after) := by
    have hcut := wellCut_all text
    rw [h.all_eq, hnext, ← endedLines_append_currentLine scanned, List.append_assoc] at hcut
    exact hcut.right
  have hblanks := blanks_before_lexeme hcut lineEnd_notMem_currentLine
    (lexeme_notMem_currentLine hfirst)
  have hslice := h.fits.slice_eq hcontent h.text_eq h.offset_eq
  refine ⟨hlineStart, le_of_slice?_eq_some hslice, hslice, ?_, ?_, ?_⟩
  · intro c hc
    obtain ⟨segment, hsegment, hc⟩ := List.mem_flatMap.1 hc
    obtain ⟨chars, rfl, hwhite⟩ := hblanks segment hsegment
    exact hwhite c hc
  · intro segment hsegment
    obtain ⟨chars, hchars, -⟩ := hblanks segment hsegment
    exact ⟨chars, hchars⟩
  · rintro before l' rest rfl last hlast
    rw [hlineStart]
    have hlt := byteSize_lt_endedLines hfirst
    have hwithin := lastLineEnd?_lt hlast
    omega

/-! ## Quotes -/

/-- A lexeme is quoted if its text stands between two quotes of one byte each. -/
theorem Lexeme.quoted_of_chars {l : Lexeme} {quote : Char} (hquote : quote.utf8Size = 1)
    (h : l.chars = quote :: (l.text.toList ++ [quote])) : l.Quoted quote where
  chars_eq := h
  two_le := by
    rw [h, byteSize_quoted quote hquote]
    exact Nat.le_add_left 2 _
  slice_eq := by
    rw [h]
    exact slice?_quoted quote hquote l.text.toList

/-- A string has quotes at both ends, and a character literal apostrophes. -/
theorem Lexeme.Sound.quoted {l : Lexeme} (h : l.Sound) :
    (l.kind = .string → l.Quoted '"') ∧ (l.kind = .char → l.Quoted '\'') := by
  have hspells := h.spells
  rw [Lexeme.Spells] at hspells
  constructor <;> intro hkind <;> rw [hkind] at hspells
  · exact Lexeme.quoted_of_chars rfl hspells
  · exact Lexeme.quoted_of_chars rfl hspells

/-! ## Every state of a reading -/

/-- A cursor that is advanced over a segment has scanned that one too. -/
theorem Reaches.scan {options : Options} {text : List Char} {scanned : List Segment}
    {cursor next : Cursor} {segment : Segment} (h : Reaches options text scanned cursor)
    (hready : cursor.ready = []) (hfinished : cursor.finished = false)
    (hsegment : (Segment.all cursor.rest).take 1 = [segment])
    (hadvance : cursor.advance? = some next) :
    Reaches options text (scanned ++ [segment]) next :=
  hsegment ▸ h.advance hready hfinished hadvance

/-- At every state that the reading of a text in place comes to, whatever the options are, the
cursor has scanned a part of the text's segments and is at the byte offset where they end, and
taking the next token does not fail: it leads to another such state, and hands out what a stream
does. Where the first lexeme of a line comes next, indentation is measured over the white space
before it and nothing else. Where a string or a character literal comes next, both its quotes are
there to be taken off. -/
theorem slices_in_range (options : Options) (text : List Char) (scanned : List Segment)
    (cursor : Cursor) (h : Reaches options text scanned cursor) :
    cursor.Tracks text scanned ∧
      (∃ answer next more, cursor.next? = some (answer, next) ∧
        Reaches options text (scanned ++ more) next ∧
        cursor.stream.next = (answer, next.stream)) ∧
      ∀ l after, Segment.all cursor.rest = .lexeme l :: after →
        (¬ HoldsLexeme scanned → Measured text scanned cursor.place.lineStart cursor.offset) ∧
          (l.kind = .string → l.Quoted '"') ∧ (l.kind = .char → l.Quoted '\'') := by
  refine ⟨h.tracks, h.next?, ?_⟩
  intro l after hnext
  have hsound : l.Sound := (wellCut_all cursor.rest).lexeme_sound (hnext ▸ List.mem_cons_self)
  exact ⟨h.tracks.measured hnext, hsound.quoted⟩

/-- After a string that goes over two lines and a line end, the text measured is the tab before the
name: from byte 6 on, not from byte 4, which is where the second line of the string starts. -/
theorem slices_in_range_after_string :
    Reaches {} "\"é\n\"\n\tx".toList [.lexeme ⟨.string, "\"é\n\"".toList⟩, .lineEnd, .blanks ['\t']]
        ⟨{}, "\"é\n\"\n\tx".toList, ['x'], 7, ⟨3, 6, false, []⟩, [], false⟩ ∧
      ¬ HoldsLexeme [.lexeme ⟨.string, "\"é\n\"".toList⟩, .lineEnd, .blanks ['\t']] ∧
      Measured "\"é\n\"\n\tx".toList
        [.lexeme ⟨.string, "\"é\n\"".toList⟩, .lineEnd, .blanks ['\t']] 6 7 := by
  have hstring : Reaches {} "\"é\n\"\n\tx".toList [.lexeme ⟨.string, "\"é\n\"".toList⟩]
      ⟨{}, "\"é\n\"\n\tx".toList, "\n\tx".toList, 5, ⟨2, 4, true, []⟩,
        [⟨.string, "é\n", 1⟩], false⟩ :=
    Reaches.start.scan rfl rfl (by decide +kernel) (by decide +kernel)
  have hlineEnd : Reaches {} "\"é\n\"\n\tx".toList [.lexeme ⟨.string, "\"é\n\"".toList⟩, .lineEnd]
      ⟨{}, "\"é\n\"\n\tx".toList, "\tx".toList, 6, ⟨3, 6, false, []⟩,
        [⟨.newline, "\n", 2⟩], false⟩ :=
    (hstring.take rfl).scan rfl rfl (by decide +kernel) (by decide +kernel)
  have hblanks : Reaches {} "\"é\n\"\n\tx".toList
      [.lexeme ⟨.string, "\"é\n\"".toList⟩, .lineEnd, .blanks ['\t']]
      ⟨{}, "\"é\n\"\n\tx".toList, ['x'], 7, ⟨3, 6, false, []⟩, [], false⟩ :=
    (hlineEnd.take rfl).scan rfl rfl (by decide +kernel) (by decide +kernel)
  refine ⟨hblanks, ?_⟩
  have hall : Segment.all ['x'] = [.lexeme ⟨.identifier, ['x']⟩] := by decide +kernel
  obtain ⟨htracks, -, hnext⟩ := slices_in_range _ _ _ _ hblanks
  have hfirst := fun h ↦ htracks.fits.hasContent_iff.2 h
  exact ⟨by simpa using hfirst, (hnext _ _ hall).1 (by simpa using hfirst)⟩

end AhoyScan
