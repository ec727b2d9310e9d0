import AhoyScan.Layout

/-!
# Tokens on demand

A `Stream` hands out the tokens of a text one at a time and cuts the text only as far as it needs
to. `Stream.next` takes one token, `Stream.pull` up to a given number of them, and
`Stream.batches` repeats that for a list of numbers.
-/

namespace AhoyScan

/-- A text that has been read up to some place: what is left of it, the place, the tokens that are
known already but not yet handed out, and whether the end of the text has been dealt with. -/
structure Stream where
  options : Options
  rest : List Char
  layout : Layout := {}
  ready : List Token := []
  finished : Bool := false

namespace Stream

/-- Read one more segment or, at the end of the text, close the open blocks. The tokens for that are
handed out after those that are ready. -/
def advance (stream : Stream) : Stream :=
  match stream.rest with
  | [] =>
      { stream with
        layout := { stream.layout with blocks := [] }
        ready := stream.ready ++ stream.layout.close
        finished := true }
  | c :: rest =>
      let (segment, left) := Segment.first c rest
      let (tokens, layout) := stream.layout.step stream.options segment
      { stream with rest := left, layout, ready := stream.ready ++ tokens }

/-- How often a stream can be advanced at most: once for each character and once for the end. -/
def steps (stream : Stream) : Nat :=
  if stream.finished then 0 else stream.rest.length + 1

/-- There is less to do after a stream has been advanced. -/
theorem steps_advance_lt {stream : Stream} (h : ¬ stream.finished) :
    stream.advance.steps < stream.steps := by
  rw [Bool.not_eq_true] at h
  cases hrest : stream.rest with
  | nil => simp [advance, steps, hrest, h]
  | cons c rest =>
      have hlength := Segment.first_length_lt c rest
      simpa [advance, steps, hrest, h] using hlength

/-- Take the next token: the stream is advanced until one is ready. A stream whose end has been dealt
with has no more tokens than those that are ready. -/
def next (stream : Stream) : Option Token × Stream :=
  match stream.ready with
  | token :: ready => (some token, { stream with ready })
  | [] => if _ : stream.finished then (none, stream) else next stream.advance
termination_by stream.steps
decreasing_by exact steps_advance_lt ‹_›

/-- Take up to `n` tokens. A stream that has no more answers `none` once, which ends the taking. -/
def pull : Nat → Stream → List (Option Token) × Stream
  | 0, stream => ([], stream)
  | n + 1, stream =>
      match stream.next with
      | (none, last) => ([none], last)
      | (some token, rest) =>
          let (more, last) := pull n rest
          (some token :: more, last)

/-- Take batches of the given sizes, each from where the one before it stopped. -/
def batches : List Nat → Stream → List (List (Option Token))
  | [], _ => []
  | n :: sizes, stream =>
      let (batch, next) := stream.pull n
      batch :: batches sizes next

end Stream

end AhoyScan
