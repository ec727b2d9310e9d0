import AhoyScan.Layout
import Mathlib.Tactic.Common

/-!
# Reading segments one after the other

What `Layout.step` and its parts do to a place, stated once so that later proofs do not look into
them, and `Layout.read` as the composition of steps. `of_mem_tokens` says where a token of a text can
come from.
-/

namespace AhoyScan

/-- Wider blocks are closed one by one, and a block is opened if the line is wider than what is
left. -/
theorem reindent_eq (width : Nat) (blocks : List Nat) :
    reindent width blocks =
      (List.replicate (blocks.takeWhile (width < ·)).length .dedent ++
          (if (blocks.dropWhile (width < ·)).headD 0 < width then [.indent] else []),
        if (blocks.dropWhile (width < ·)).headD 0 < width then width :: blocks.dropWhile (width < ·)
        else blocks.dropWhile (width < ·)) := by
  simp only [reindent, List.map_const']
  split <;> simp

/-- The marks that lead to the indentation of a line open and close blocks and do nothing else. -/
theorem reindent_kinds {width : Nat} {blocks : List Nat} :
    ∀ kind ∈ (reindent width blocks).1, kind = .indent ∨ kind = .dedent := by
  intro kind hkind
  rw [reindent_eq] at hkind
  rcases List.mem_append.1 hkind with hclosed | hopened
  · exact .inr (List.eq_of_mem_replicate hclosed)
  · split at hopened
    · exact .inl (List.mem_singleton.1 hopened)
    · cases hopened

/-- The marks before a line of this width and the blocks open on it. Where indentation is not
reported there are no marks, and no block is opened or closed. -/
def Options.reindent (options : Options) (width : Nat) (blocks : List Nat) :
    List Kind × List Nat :=
  if options.indentation then AhoyScan.reindent width blocks else ([], blocks)

namespace Layout

variable (options : Options) (layout : Layout)

/-- The first lexeme of a line comes after the marks for the white space before it. -/
theorem enter_some {lead : List Char} (h : layout.lead = some lead) :
    layout.enter options =
      ((options.reindent (columns options.tabWidth lead) layout.blocks).1.map
          (⟨·, "", layout.line⟩),
        { layout with
          lead := none
          blocks := (options.reindent (columns options.tabWidth lead) layout.blocks).2 }) := by
  obtain ⟨line, _, blocks⟩ := layout
  obtain rfl : _ = some lead := h
  cases hindentation : options.indentation <;> simp [enter, Options.reindent, hindentation]

/-- A later lexeme of the line changes nothing about the blocks. -/
theorem enter_none (h : layout.lead = none) : layout.enter options = ([], layout) := by
  rw [enter, h]

/-- After the first lexeme of a line there is no leading text any more. -/
@[simp] theorem enter_lead : (layout.enter options).2.lead = none := by
  cases hlead : layout.lead with
  | none => rw [enter_none options layout hlead, hlead]
  | some lead => rw [enter_some options layout hlead]

/-- The tokens at the first lexeme of a line are marks with no text, on its line. -/
theorem enter_marks {token : Token} (h : token ∈ (layout.enter options).1) :
    (token.kind = .indent ∨ token.kind = .dedent) ∧ token.text = "" ∧
      token.line = layout.line := by
  cases hlead : layout.lead with
  | none =>
      rw [enter_none options layout hlead] at h
      cases h
  | some lead =>
      rw [enter_some options layout hlead] at h
      obtain ⟨kind, hkind, rfl⟩ := List.mem_map.1 h
      refine ⟨?_, rfl, rfl⟩
      rw [Options.reindent] at hkind
      split at hkind
      · exact reindent_kinds kind hkind
      · cases hkind

/-- A token of a step is the NEWLINE of a line end, a mark before a lexeme or the token of the
lexeme. -/
theorem of_mem_step {segment : Segment} {token : Token}
    (h : token ∈ (layout.step options segment).1) :
    (segment = .lineEnd ∧ token = ⟨.newline, "\n", layout.line⟩) ∨
      ∃ l, segment = .lexeme l ∧
        (token ∈ (layout.enter options).1 ∨ token = ⟨l.kind, l.text, layout.line⟩) := by
  cases segment with
  | blanks chars | comment chars => cases h
  | lineEnd =>
      rw [step] at h
      split at h
      · exact .inl ⟨rfl, List.mem_singleton.1 h⟩
      · cases h
  | lexeme l =>
      rcases List.mem_append.1 h with hmark | hlexeme
      · exact .inr ⟨l, rfl, .inl hmark⟩
      · exact .inr ⟨l, rfl, .inr (List.mem_singleton.1 hlexeme)⟩

/-- Reading one segment and then others. -/
theorem read_cons (segment : Segment) (rest : List Segment) :
    layout.read options (segment :: rest) =
      ((layout.step options segment).1 ++ ((layout.step options segment).2.read options rest).1,
        ((layout.step options segment).2.read options rest).2) :=
  rfl

/-- Reading some segments and then others. -/
theorem read_append (front back : List Segment) :
    layout.read options (front ++ back) =
      ((layout.read options front).1 ++ ((layout.read options front).2.read options back).1,
        ((layout.read options front).2.read options back).2) := by
  induction front generalizing layout with
  | nil => rfl
  | cons segment front ih => simp [read_cons, ih]

/-- A token that is read is a token of a step. -/
theorem of_mem_read {segments : List Segment} {token : Token}
    (h : token ∈ (layout.read options segments).1) :
    ∃ segment ∈ segments, ∃ place : Layout, token ∈ (place.step options segment).1 := by
  induction segments generalizing layout with
  | nil => cases h
  | cons segment rest ih =>
      rw [read_cons] at h
      rcases List.mem_append.1 h with hfirst | hrest
      · exact ⟨segment, List.mem_cons_self, layout, hfirst⟩
      · obtain ⟨other, hother, hstep⟩ := ih _ hrest
        exact ⟨other, List.mem_cons_of_mem segment hother, hstep⟩

end Layout

/-- The tokens of a text are read from its segments; what is open at the end is closed. -/
theorem tokens_eq (options : Options) (text : List Char) :
    tokens options text =
      (Layout.read options {} (Segment.all text)).1 ++
        (Layout.read options {} (Segment.all text)).2.close :=
  rfl

/-- A token of a text is a token of a step at one of its segments, or closes a block at its end. -/
theorem of_mem_tokens {options : Options} {text : List Char} {token : Token}
    (h : token ∈ tokens options text) :
    (∃ segment ∈ Segment.all text, ∃ place : Layout, token ∈ (place.step options segment).1) ∨
      token.kind = .dedent ∧ token.text = "" := by
  rw [tokens_eq] at h
  rcases List.mem_append.1 h with hread | hclose
  · exact .inl (Layout.of_mem_read options {} hread)
  · obtain ⟨block, -, rfl⟩ := List.mem_map.1 hclose
    exact .inr ⟨rfl, rfl⟩

end AhoyScan
