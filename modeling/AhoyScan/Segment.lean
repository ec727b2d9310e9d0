import AhoyScan.Lexeme

/-!
# Cutting a source text into segments

A source text is a sequence of segments: runs of blanks, comments, line ends and lexemes.
`Segment.first` takes the segment at the front of a text and `Segment.all` cuts a whole text. The
main statement, `Segment.flatMap_chars_all`, says that the segments cover the text exactly, in
order and without overlap.
-/

namespace AhoyScan

/-- A piece of source text. Only lexemes stand for tokens of their own. -/
inductive Segment where
  | blanks (chars : List Char)
  | comment (chars : List Char)
  | lineEnd
  | lexeme (lexeme : Lexeme)
  deriving DecidableEq, Repr

namespace Segment

/-- The source text of a segment. -/
def chars : Segment → List Char
  | blanks chars => chars
  | comment chars => chars
  | lineEnd => ['\n']
  | lexeme l => l.chars

/-- The segment at the front of the text `c :: rest`, and what remains after it. A question mark
begins a comment, which runs up to the next line end, unless another one follows. -/
def first (c : Char) (rest : List Char) : Segment × List Char :=
  if isBlank c then (blanks (c :: rest.takeWhile isBlank), rest.dropWhile isBlank)
  else if c = '\n' then (lineEnd, rest)
  else if c = '?' ∧ rest.head? ≠ some '?' then
    (comment (c :: rest.takeWhile (· ≠ '\n')), rest.dropWhile (· ≠ '\n'))
  else
    let (l, left) := Lexeme.first c rest
    (lexeme l, left)

/-- The first segment and the text after it are the whole text. -/
theorem first_append (c : Char) (rest : List Char) :
    (first c rest).1.chars ++ (first c rest).2 = c :: rest := by
  unfold first
  split
  · simp [chars]
  split
  · rename_i h; simp [chars, h]
  split
  · simp [chars]
  · exact Lexeme.first_append c rest

/-- A segment is never empty. -/
theorem first_chars_ne_nil (c : Char) (rest : List Char) : (first c rest).1.chars ≠ [] := by
  unfold first
  split
  · simp [chars]
  split
  · simp [chars]
  split
  · simp [chars]
  · exact Lexeme.first_chars_ne_nil c rest

/-- What remains after the first segment is shorter than the text. -/
theorem first_length_lt (c : Char) (rest : List Char) :
    (first c rest).2.length < (c :: rest).length := by
  have whole := congrArg List.length (first_append c rest)
  have positive := List.length_pos_iff.2 (first_chars_ne_nil c rest)
  rw [List.length_append] at whole
  omega

/-- All the segments of a text, in order. -/
def all : List Char → List Segment
  | [] => []
  | c :: rest => (first c rest).1 :: all (first c rest).2
termination_by text => text.length
decreasing_by exact first_length_lt c rest

/-- The segments of a text cover it exactly. -/
theorem flatMap_chars_all (text : List Char) : (all text).flatMap chars = text := by
  fun_induction all text with
  | case1 => rfl
  | case2 c rest ih => rw [List.flatMap_cons, ih, first_append]

/-- Every segment of a text is the first one of what begins with it. -/
theorem first_of_all {text : List Char} {before after : List Segment} {segment : Segment}
    (h : all text = before ++ segment :: after) :
    ∃ c rest, segment.chars ++ after.flatMap chars = c :: rest ∧
      first c rest = (segment, after.flatMap chars) := by
  induction before generalizing text with
  | nil =>
      cases text with
      | nil => simp [all] at h
      | cons c rest =>
          rw [all, List.nil_append, List.cons.injEq] at h
          obtain ⟨rfl, rfl⟩ := h
          rw [flatMap_chars_all]
          exact ⟨c, rest, first_append c rest, rfl⟩
  | cons previous before ih =>
      cases text with
      | nil => simp [all] at h
      | cons c rest =>
          rw [all, List.cons_append, List.cons.injEq] at h
          exact ih h.2

end Segment

end AhoyScan
