import AhoyScan.Proofs.Reading
import AhoyScan.Stream
import Mathlib.Algebra.Ring.Nat

/-!
# A stream hands out the tokens of its text

Wherever a stream has been stopped, what it has yet to hand out is known: the tokens that are ready,
and those of the rest of the text read from the place it is at (`Stream.remaining`). Advancing a
stream changes nothing about them (`Stream.remaining_advance`), and taking a token takes the first
of them (`Stream.next_eq`). So batches of tokens cut the tokens of the text into consecutive pieces,
and a stream without tokens stays without them: `batches_exact`.
-/

namespace AhoyScan

namespace Stream

/-- All that a stream has yet to hand out. -/
def remaining (stream : Stream) : List Token :=
  stream.ready ++
    if stream.finished then []
    else
      let (tokens, last) := stream.layout.read stream.options (Segment.all stream.rest)
      tokens ++ last.close

/-- The stream after this many calls of `next`, whatever these have answered. -/
def after : Nat → Stream → Stream
  | 0, stream => stream
  | calls + 1, stream => after calls stream.next.2

/-- What a batch of this size looks like when these tokens are left: that many of them, or, if there
are fewer, all of them and the answer that there are no more. -/
def batch (n : Nat) (left : List Token) : List (Option Token) :=
  if n ≤ left.length then (left.take n).map some else left.map some ++ [none]

/-! ## Batches of tokens -/

section Batches

variable {n : Nat} {token : Token} {left : List Token}

/-- No tokens are asked for. -/
@[simp] theorem batch_zero (left : List Token) : batch 0 left = [] := by
  rw [batch, if_pos (Nat.zero_le _)]
  rfl

/-- Where no tokens are left, a batch is the answer that there are none. -/
@[simp] theorem batch_nil : batch (n + 1) [] = [none] :=
  rfl

/-- The first of the tokens that are left is the first of a batch. -/
@[simp] theorem batch_cons : batch (n + 1) (token :: left) = some token :: batch n left := by
  by_cases hn : n ≤ left.length
  · have hn' : n + 1 ≤ (token :: left).length := Nat.succ_le_succ hn
    rw [batch, batch, if_pos hn, if_pos hn']
    rfl
  · have hn' : ¬ n + 1 ≤ (token :: left).length := mt Nat.le_of_succ_le_succ hn
    rw [batch, batch, if_neg hn, if_neg hn']
    rfl

/-- What a batch looks like when as many tokens as `start` have been taken before it. -/
theorem batch_drop (n start : Nat) (all : List Token) :
    batch n (all.drop start) =
      if n = 0 then []
      else if start + n ≤ all.length then ((all.drop start).take n).map some
      else (all.drop start).map some ++ [none] := by
  split_ifs with hzero henough
  · rw [hzero, batch_zero]
  · rw [batch, if_pos]
    rw [List.length_drop]
    omega
  · rw [batch, if_neg]
    rw [List.length_drop]
    omega

end Batches

/-! ## What remains -/

/-- A stream that has not been read from has all the tokens of its text. -/
theorem remaining_start (options : Options) (text : List Char) :
    remaining { options, rest := text } = tokens options text :=
  rfl

variable {stream : Stream}

/-- A stream whose end has been dealt with has only what is ready. -/
theorem remaining_finished (h : stream.finished = true) : stream.remaining = stream.ready := by
  rw [remaining, if_pos h, List.append_nil]

/-- Advancing a stream makes tokens ready and changes nothing about what it has. -/
theorem remaining_advance (h : stream.finished = false) :
    stream.advance.remaining = stream.remaining := by
  cases hrest : stream.rest with
  | nil => simp [remaining, advance, hrest, h, Segment.all, Layout.read]
  | cons c rest => simp [remaining, advance, hrest, h, Segment.all, Layout.read_cons]

/-- The next token is the first one that remains, and taking it leaves the others. -/
theorem next_eq (stream : Stream) :
    stream.next.1 = stream.remaining.head? ∧ stream.next.2.remaining = stream.remaining.tail := by
  fun_induction next stream with
  | case1 stream token ready hready => simp [remaining, hready]
  | case2 stream hready hfinished => simp [remaining_finished hfinished, hready]
  | case3 stream hready hfinished ih =>
      rwa [remaining_advance (by simpa using hfinished)] at ih

/-- Calls of `next` take one token each as long as there are any. -/
theorem remaining_after (calls : Nat) (stream : Stream) :
    (stream.after calls).remaining = stream.remaining.drop calls := by
  induction calls generalizing stream with
  | zero => rfl
  | succ calls ih => rw [after, ih, (next_eq stream).2, List.drop_tail]

/-- A batch is taken from the front of what remains. -/
theorem pull_eq (n : Nat) (stream : Stream) :
    (stream.pull n).1 = batch n stream.remaining ∧
      (stream.pull n).2.remaining = stream.remaining.drop n := by
  induction n generalizing stream with
  | zero => simp [pull]
  | succ n ih =>
      obtain ⟨hhead, htail⟩ := next_eq stream
      cases hnext : stream.next with
      | mk answer rest =>
          rw [hnext] at hhead htail
          cases hremaining : stream.remaining with
          | nil =>
              rw [hremaining] at hhead htail
              obtain rfl : answer = none := hhead
              simp [pull, hnext, htail]
          | cons token left =>
              rw [hremaining] at hhead htail
              obtain rfl : answer = some token := hhead
              obtain rfl : rest.remaining = left := htail
              simp [pull, hnext, ih rest]

/-- Every batch is taken from what the batches before it have left. -/
theorem getElem?_batches {sizes : List Nat} {j n : Nat} (h : sizes[j]? = some n)
    (stream : Stream) :
    (batches sizes stream)[j]? = some (batch n (stream.remaining.drop (sizes.take j).sum)) := by
  induction sizes generalizing j stream with
  | nil => simp at h
  | cons size sizes ih =>
      obtain ⟨hbatch, hrest⟩ := pull_eq size stream
      cases j with
      | zero =>
          obtain rfl : size = n := Option.some.inj h
          simp [batches, hbatch]
      | succ j =>
          have hlater := ih h (stream.pull size).2
          rw [hrest, List.drop_drop] at hlater
          simpa [batches] using hlater

/-- There are as many batches as sizes. -/
theorem length_batches (sizes : List Nat) (stream : Stream) :
    (batches sizes stream).length = sizes.length := by
  induction sizes generalizing stream with
  | nil => rfl
  | cons size sizes ih => simp [batches, ih]

end Stream

/-- Tokens that are taken from a new stream in batches are the tokens of its text, cut into pieces of
the sizes of the batches. A batch for which there are not enough of them has those that are left and
then the answer that there are no more. A stream that has answered so once, in whatever state it has
been, does so ever after. -/
theorem batches_exact (options : Options) (text : List Char) (sizes : List Nat) :
    let all := tokens options text
    let batches := Stream.batches sizes { options, rest := text }
    batches.length = sizes.length ∧
      (∀ j n, sizes[j]? = some n →
        let start := (sizes.take j).sum
        batches[j]? = some (
          if n = 0 then []
          else if start + n ≤ all.length then ((all.drop start).take n).map some
          else (all.drop start).map some ++ [none])) ∧
      ∀ stream : Stream, stream.next.1 = none → ∀ calls, (stream.after calls).next.1 = none := by
  intro all batches
  refine ⟨Stream.length_batches sizes _, ?_, ?_⟩
  · intro j n hsize start
    have hbatch := Stream.getElem?_batches hsize { options, rest := text }
    rwa [Stream.remaining_start, Stream.batch_drop] at hbatch
  · intro stream hnone calls
    have hempty : stream.remaining = [] := by
      rwa [(Stream.next_eq stream).1, List.head?_eq_none_iff] at hnone
    rw [(Stream.next_eq _).1, Stream.remaining_after, hempty, List.drop_nil]
    rfl

end AhoyScan
