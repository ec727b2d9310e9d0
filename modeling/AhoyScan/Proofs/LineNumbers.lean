import AhoyScan.Proofs.Lossless

/-!
# Line numbers

A token carries the number of the line on which its lexeme begins, which is one more than the
number of line ends in the source before it, wherever these stand: between lines, in strings or in
illegal input. `Layout.Reached` is the invariant that ties the line of a place to the segments
before it. `tokens_line_numbers` gives the line of every token, those of layout included.
-/

namespace AhoyScan

/-- The number of the line on which the text after these characters begins. -/
def lineAfter (before : List Char) : Nat :=
  1 + before.count '\n'

/-- The tokens that a segment on this line accounts for when `before` is the segments before it.
Marks of indentation stand in front of the first lexeme of a line and nowhere else. -/
def Segment.Emits (before : List Segment) (line : Nat) (portion : List Token) : Segment → Prop
  | .blanks _ | .comment _ => portion = []
  | .lineEnd =>
      (HoldsLexeme before → portion = [⟨.newline, "\n", line⟩]) ∧
        (¬ HoldsLexeme before → portion = [])
  | .lexeme l =>
      ∃ marks token, portion = marks ++ [token] ∧ l.StandsFor token ∧ token.line = line ∧
        (∀ mark ∈ marks, (mark.kind = .indent ∨ mark.kind = .dedent) ∧ mark.line = line) ∧
        (HoldsLexeme before → marks = [])

/-- Each segment with all the tokens that it accounts for. -/
def Layout.portions (options : Options) : Layout → List Segment → List (Segment × List Token)
  | _, [] => []
  | layout, segment :: rest =>
      (segment, (layout.step options segment).1) ::
        portions options (layout.step options segment).2 rest

/-- The place is the one after these segments: on the line that they lead to, which holds a lexeme
if they say so. -/
structure Layout.Reached (layout : Layout) (before : List Segment) : Prop where
  line_eq : layout.line = lineAfter (before.flatMap Segment.chars)
  follows : layout.Follows before

/-! ## Counting line ends -/

/-- More text leads on by as many lines as there are line ends in it. -/
theorem lineAfter_append (front back : List Char) :
    lineAfter (front ++ back) = lineAfter front + back.count '\n' := by
  rw [lineAfter, lineAfter, List.count_append, Nat.add_assoc]

/-- A text leads on by no more lines than it has characters. -/
theorem lineAfter_le (text : List Char) : lineAfter text ≤ 1 + text.length :=
  Nat.add_le_add_left List.count_le_length 1

/-- White space inside a line and comments hold no line end. -/
theorem Segment.Sound.count_eq_zero {segment : Segment} {left : List Char}
    (h : segment.Sound left) (hlineEnd : segment ≠ .lineEnd)
    (hlexeme : ∀ lexeme, segment ≠ .lexeme lexeme) : segment.chars.count '\n' = 0 := by
  rw [List.count_eq_zero]
  intro hmem
  cases segment with
  | blanks chars =>
      have hblank := h.2 '\n' hmem
      revert hblank
      decide
  | comment chars =>
      obtain ⟨body, rfl, hbody, -⟩ := h
      rcases List.mem_cons.1 hmem with heq | hmem
      · revert heq
        decide
      · exact hbody hmem
  | lineEnd => exact hlineEnd rfl
  | lexeme l => exact hlexeme l rfl

/-! ## The line of a place -/

namespace Layout

variable (options : Options) {layout : Layout} {segment : Segment}

/-- The tokens of a segment are numbered by the line on which it begins. -/
theorem line_of_step {token : Token} (h : token ∈ (layout.step options segment).1) :
    token.line = layout.line := by
  rcases layout.of_mem_step options h with ⟨-, rfl⟩ | ⟨l, -, hmark | rfl⟩
  · rfl
  · exact (layout.enter_marks options hmark).2.2
  · rfl

/-- A segment leads on by as many lines as there are line ends in it. -/
theorem step_line {left : List Char} (h : segment.Sound left) :
    (layout.step options segment).2.line = layout.line + segment.chars.count '\n' := by
  cases segment with
  | blanks chars | comment chars =>
      rw [h.count_eq_zero (by simp) (by simp)]
      rfl
  | lineEnd => rfl
  | lexeme l => rfl

/-- No segment leads back. -/
theorem step_line_le : layout.line ≤ (layout.step options segment).2.line := by
  cases segment with
  | blanks chars | comment chars => exact Nat.le_refl layout.line
  | lineEnd => exact Nat.le_succ layout.line
  | lexeme l => exact Nat.le_add_right layout.line _

/-- Reading leads on from line to line, and the tokens that are read lie on the way. -/
theorem read_between (layout : Layout) (segments : List Segment) :
    layout.line ≤ (layout.read options segments).2.line ∧
      ∀ token ∈ (layout.read options segments).1,
        layout.line ≤ token.line ∧ token.line ≤ (layout.read options segments).2.line := by
  induction segments generalizing layout with
  | nil => exact ⟨Nat.le_refl layout.line, fun token htoken ↦ by cases htoken⟩
  | cons segment rest ih =>
      obtain ⟨hlast, hrest⟩ := ih (layout.step options segment).2
      have hnext : layout.line ≤ (layout.step options segment).2.line := step_line_le options
      rw [read_cons]
      refine ⟨hnext.trans hlast, ?_⟩
      intro token htoken
      rcases List.mem_append.1 htoken with hfirst | hmore
      · have hline := line_of_step options hfirst
        exact ⟨hline.ge, hline.le.trans (hnext.trans hlast)⟩
      · exact ⟨hnext.trans (hrest token hmore).1, (hrest token hmore).2⟩

/-- The tokens that are read are in the order of their lines. -/
theorem read_ordered (layout : Layout) (segments : List Segment) :
    (layout.read options segments).1.Pairwise (·.line ≤ ·.line) := by
  induction segments generalizing layout with
  | nil => exact .nil
  | cons segment rest ih =>
      rw [read_cons, List.pairwise_append]
      refine ⟨List.pairwise_of_forall_mem_list ?_, ih _, ?_⟩
      · intro first hfirst second hsecond
        rw [line_of_step options hfirst, line_of_step options hsecond]
      · intro first hfirst second hsecond
        rw [line_of_step options hfirst]
        exact (step_line_le options).trans ((read_between options _ rest).2 second hsecond).1

/-- Before the first segment a place is at the beginning of the first line. -/
theorem reached_start : Reached {} [] :=
  ⟨rfl, by simp [Follows, not_holdsLexeme_nil]⟩

variable {options} {before : List Segment}

/-- A step keeps the place in agreement with the segments before it. -/
theorem Reached.step (h : layout.Reached before) {left : List Char} (hsound : segment.Sound left) :
    (layout.step options segment).2.Reached (before ++ [segment]) := by
  refine ⟨?_, h.follows.step⟩
  rw [step_line options hsound, h.line_eq, List.flatMap_append, List.flatMap_singleton,
    lineAfter_append]

/-- Reading keeps the place in agreement with the segments before it. -/
theorem Reached.read {segments after : List Segment} (h : layout.Reached before)
    (hcut : WellCut (segments ++ after)) :
    (layout.read options segments).2.Reached (before ++ segments) := by
  -- A segment that has been read is one of `before` for those after it.
  induction segments generalizing layout before with
  | nil =>
      rw [List.append_nil]
      exact h
  | cons segment rest ih =>
      rw [List.cons_append, wellCut_cons] at hcut
      rw [read_cons, List.append_cons]
      exact ih (h.step hcut.1) hcut.2

/-- What a segment accounts for at a place is what it should account for there. -/
theorem Reached.emits (h : layout.Reached before) (hsound : ∀ l, segment = .lexeme l → l.Sound) :
    segment.Emits before (lineAfter (before.flatMap Segment.chars))
      (layout.step options segment).1 := by
  rw [← h.line_eq]
  have hfollows : layout.lead = none ↔ HoldsLexeme before := h.follows
  cases segment with
  | blanks chars | comment chars => rfl
  | lineEnd =>
      refine ⟨?_, ?_⟩
      · intro hholds
        simp [Layout.step, hfollows.2 hholds]
      · intro hholds
        simp [Layout.step, mt hfollows.1 hholds]
  | lexeme l =>
      refine ⟨(layout.enter options).1, ⟨l.kind, l.text, layout.line⟩, rfl,
        ⟨rfl, (hsound l rfl).spells⟩, rfl, ?_, ?_⟩
      · intro mark hmark
        obtain ⟨hkind, -, hline⟩ := layout.enter_marks options hmark
        exact ⟨hkind, hline⟩
      · intro hholds
        rw [enter_none options layout (hfollows.2 hholds)]

end Layout

/-! ## Portions -/

namespace Layout

variable (options : Options) (layout : Layout)

/-- The portions belong to the segments that were read. -/
theorem portions_segments (segments : List Segment) :
    (layout.portions options segments).map Prod.fst = segments := by
  induction segments generalizing layout with
  | nil => rfl
  | cons segment rest ih => rw [portions, List.map_cons, ih]

/-- The portions together are the tokens that were read. -/
theorem portions_tokens (segments : List Segment) :
    (layout.portions options segments).flatMap Prod.snd = (layout.read options segments).1 := by
  induction segments generalizing layout with
  | nil => rfl
  | cons segment rest ih => rw [portions, List.flatMap_cons, ih, read_cons]

/-- The portion of a segment is what it accounts for at the place after the segments before it. -/
theorem portion_eq {segments : List Segment} {segment : Segment} {portion : List Token}
    {front back : List (Segment × List Token)}
    (h : layout.portions options segments = front ++ (segment, portion) :: back) :
    portion = ((layout.read options (front.map Prod.fst)).2.step options segment).1 := by
  induction segments generalizing layout front with
  | nil => simp [portions] at h
  | cons first rest ih =>
      rw [portions] at h
      cases front with
      | nil =>
          rw [List.nil_append, List.cons.injEq, Prod.mk.injEq] at h
          obtain ⟨⟨rfl, rfl⟩, -⟩ := h
          rfl
      | cons previous front =>
          rw [List.cons_append, List.cons.injEq] at h
          obtain ⟨rfl, hrest⟩ := h
          rw [List.map_cons, read_cons]
          exact ih _ hrest

end Layout

/-! ## The end of a text -/

variable (options : Options)

/-- Reading a whole text leads to the line after all its line ends. -/
theorem last_line_eq (text : List Char) :
    (Layout.read options {} (Segment.all text)).2.line = lineAfter text := by
  have hcut : WellCut (Segment.all text ++ []) := by
    rw [List.append_nil]
    exact wellCut_all text
  rw [(Layout.reached_start.read hcut).line_eq, List.nil_append, Segment.flatMap_chars_all]

/-- The blocks that are still open are closed on the last line. -/
theorem close_line {text : List Char} {token : Token}
    (h : token ∈ (Layout.read options {} (Segment.all text)).2.close) :
    token.kind = .dedent ∧ token.line = lineAfter text := by
  obtain ⟨block, -, rfl⟩ := List.mem_map.1 h
  exact ⟨rfl, last_line_eq options text⟩

/-- No token is on a line after the last one. -/
theorem line_le {text : List Char} {token : Token} (h : token ∈ tokens options text) :
    token.line ≤ lineAfter text := by
  rw [tokens_eq] at h
  rcases List.mem_append.1 h with hread | hclose
  · rw [← last_line_eq options text]
    exact ((Layout.read_between options {} _).2 token hread).2
  · exact (close_line options hclose).2.le

/-- The tokens of a text are in the order of their lines. -/
theorem tokens_ordered (text : List Char) :
    (tokens options text).Pairwise (·.line ≤ ·.line) := by
  rw [tokens_eq, List.pairwise_append]
  refine ⟨Layout.read_ordered options {} _, List.pairwise_of_forall_mem_list ?_, ?_⟩
  · intro first hfirst second hsecond
    rw [(close_line options hfirst).2, (close_line options hsecond).2]
  · intro first hfirst second hsecond
    rw [(close_line options hsecond).2, ← last_line_eq options text]
    exact ((Layout.read_between options {} _).2 first hfirst).2

/-- Every token has the number of the line on which its lexeme begins: one more than the number of
line ends in the source before it. The tokens of a text are the portions of its segments and then
DEDENTs. A lexeme accounts for its token, and the first one of a line for the marks of indentation
before it, which are on its line too; a line end accounts for a NEWLINE on the line that it ends, if
that line holds a lexeme. The DEDENTs at the end are on the last line, and nowhere is a token on an
earlier line than the token before it. -/
theorem tokens_line_numbers (options : Options) (text : List Char) :
    ∃ (portions : List (Segment × List Token)) (ending : List Token),
      portions.map Prod.fst = Segment.all text ∧
      tokens options text = portions.flatMap Prod.snd ++ ending ∧
      (∀ before segment portion after, portions = before ++ (segment, portion) :: after →
        let front := (before.map Prod.fst).flatMap Segment.chars
        front ++ segment.chars <+: text ∧
          segment.Emits (before.map Prod.fst) (lineAfter front) portion) ∧
      (∀ token ∈ ending, token.kind = .dedent ∧ token.line = lineAfter text) ∧
      (tokens options text).Pairwise (·.line ≤ ·.line) := by
  have hsegments := Layout.portions_segments options {} (Segment.all text)
  refine ⟨Layout.portions options {} (Segment.all text),
    (Layout.read options {} (Segment.all text)).2.close, hsegments, ?_, ?_,
    fun token ↦ close_line options, tokens_ordered options text⟩
  · rw [tokens_eq, Layout.portions_tokens]
  · intro before segment portion after hportions
    have hsplit : Segment.all text = before.map Prod.fst ++ segment :: after.map Prod.fst := by
      rw [← hsegments, hportions, List.map_append, List.map_cons]
    have hcut := wellCut_all text
    rw [hsplit] at hcut
    refine ⟨⟨(after.map Prod.fst).flatMap Segment.chars, ?_⟩, ?_⟩
    · rw [← Segment.flatMap_chars_all text, hsplit, List.flatMap_append, List.flatMap_cons,
        List.append_assoc]
    · rw [Layout.portion_eq options {} hportions]
      exact (Layout.reached_start.read hcut).emits fun l hl ↦
        hcut.lexeme_sound (hl ▸ List.mem_append_right _ List.mem_cons_self)

/-- A line end inside a string counts: the NEWLINE after the string is on the second line. -/
example : (tokens {} "s \"a\nb\"\nt".toList).map Token.line = [1, 1, 2, 3] := by cbv

end AhoyScan
