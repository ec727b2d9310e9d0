import AhoyScan.Proofs.Reading
import AhoyScan.Proofs.Segments

/-!
# Nothing is lost and nothing is made up

Apart from the marks of indentation, every token comes from one segment of the text and every
segment accounts for its tokens: a lexeme for one, a line end for at most one, everything else for
none. `tokens_lossless` gives the segments of a text together with their shares of the tokens.
-/

namespace AhoyScan

/-- The token is one that a segment of the text stands for, and no mark of indentation. -/
def Token.isPlain (token : Token) : Bool :=
  token.kind ≠ .indent && token.kind ≠ .dedent

/-- At least one lexeme lies between the end of these segments and the line end before it, or their
beginning if there is none. -/
def HoldsLexeme (before : List Segment) : Prop :=
  ∃ earlier line, before = earlier ++ line ∧ .lineEnd ∉ line ∧ ∃ lexeme, .lexeme lexeme ∈ line

/-- The tokens that a segment accounts for when `before` is the segments before it. -/
def Segment.Yields (before : List Segment) (share : List Token) : Segment → Prop
  | .blanks _ | .comment _ => share = []
  | .lineEnd =>
      (HoldsLexeme before → ∃ line, share = [⟨.newline, "\n", line⟩]) ∧
        (¬ HoldsLexeme before → share = [])
  | .lexeme l => ∃ token, share = [token] ∧ l.StandsFor token

/-! ## Lines that hold a lexeme -/

/-- No line has begun to hold a lexeme before the first segment. -/
theorem not_holdsLexeme_nil : ¬ HoldsLexeme [] := by
  intro h
  obtain ⟨earlier, line, hsplit, -, lexeme, hmem⟩ := h
  obtain ⟨-, rfl⟩ := List.append_eq_nil_iff.1 hsplit.symm
  cases hmem

/-- A new line holds no lexeme. -/
theorem not_holdsLexeme_lineEnd {before : List Segment} :
    ¬ HoldsLexeme (before ++ [.lineEnd]) := by
  intro h
  obtain ⟨earlier, line, hsplit, hline, lexeme, hmem⟩ := h
  -- The last segment of a line that is not empty would be the line end.
  rcases List.eq_nil_or_concat line with rfl | ⟨front, last, rfl⟩
  · cases hmem
  · rw [List.concat_eq_append, ← List.append_assoc] at hsplit
    obtain ⟨-, hlast⟩ := List.append_inj' hsplit rfl
    cases hlast
    simp at hline

/-- A line holds a lexeme when one has been met. -/
theorem holdsLexeme_lexeme {before : List Segment} (lexeme : Lexeme) :
    HoldsLexeme (before ++ [.lexeme lexeme]) :=
  ⟨before, [.lexeme lexeme], rfl, by simp, lexeme, by simp⟩

/-- Other segments change nothing about what their line holds. -/
theorem holdsLexeme_concat {before : List Segment} {segment : Segment}
    (hlineEnd : segment ≠ .lineEnd) (hlexeme : ∀ lexeme, segment ≠ .lexeme lexeme) :
    HoldsLexeme (before ++ [segment]) ↔ HoldsLexeme before := by
  constructor
  · intro h
    obtain ⟨earlier, line, hsplit, hline, lexeme, hmem⟩ := h
    rcases List.eq_nil_or_concat line with rfl | ⟨front, last, rfl⟩
    · cases hmem
    · rw [List.concat_eq_append, ← List.append_assoc] at hsplit
      obtain ⟨rfl, hlast⟩ := List.append_inj' hsplit rfl
      cases hlast
      simp only [List.concat_eq_append, List.mem_append, List.mem_singleton, not_or] at hline hmem
      exact ⟨earlier, front, rfl, hline.1, lexeme, hmem.resolve_right (Ne.symm (hlexeme lexeme))⟩
  · intro h
    obtain ⟨earlier, line, rfl, hline, lexeme, hmem⟩ := h
    refine ⟨earlier, line ++ [segment], List.append_assoc .., ?_, lexeme, by simp [hmem]⟩
    simp [hline, Ne.symm hlineEnd]

/-! ## Shares -/

/-- Each segment with its share of the tokens. -/
def Layout.shares (options : Options) : Layout → List Segment → List (Segment × List Token)
  | _, [] => []
  | layout, segment :: rest =>
      (segment, (layout.step options segment).1.filter Token.isPlain) ::
        shares options (layout.step options segment).2 rest

/-- The place says that its line holds a lexeme exactly when the segments before it say so. -/
def Layout.Follows (layout : Layout) (before : List Segment) : Prop :=
  layout.lead = none ↔ HoldsLexeme before

/-- The marks before the first lexeme of a line are no plain tokens. -/
theorem Layout.enter_plain (options : Options) (layout : Layout) :
    (layout.enter options).1.filter Token.isPlain = [] := by
  rw [List.filter_eq_nil_iff]
  intro token htoken
  rcases (layout.enter_marks options htoken).1 with hkind | hkind <;>
    simp [Token.isPlain, hkind]

/-- The marks that close the blocks at the end of a text are no plain tokens. -/
theorem Layout.close_plain (layout : Layout) : layout.close.filter Token.isPlain = [] := by
  rw [List.filter_eq_nil_iff]
  intro token htoken
  obtain ⟨block, -, rfl⟩ := List.mem_map.1 htoken
  simp [Token.isPlain]

/-- The token of a lexeme is plain. -/
theorem Lexeme.Sound.isPlain {lexeme : Lexeme} (h : lexeme.Sound) {token : Token}
    (hkind : token.kind = lexeme.kind) : token.isPlain = true := by
  have hplain := h.plain
  cases hlexeme : lexeme.kind <;> simp_all [Token.isPlain, Kind.isLayout]

variable {options : Options} {layout : Layout} {before : List Segment} {segment : Segment}

/-- A step keeps the place in agreement with the segments before it. -/
theorem Layout.Follows.step (h : layout.Follows before) :
    (layout.step options segment).2.Follows (before ++ [segment]) := by
  unfold Follows at h ⊢
  cases segment with
  | blanks chars =>
      rw [holdsLexeme_concat (by simp) (by simp), ← h]
      simp [Layout.step]
  | comment chars =>
      rw [holdsLexeme_concat (by simp) (by simp), ← h]
      simp [Layout.step]
  | lineEnd => simp [Layout.step, not_holdsLexeme_lineEnd]
  | lexeme l => simp [Layout.step, holdsLexeme_lexeme]

/-- The plain tokens of a step are the share of its segment. -/
theorem Layout.Follows.yields (h : layout.Follows before)
    (hsound : ∀ l, segment = .lexeme l → l.Sound) :
    segment.Yields before ((layout.step options segment).1.filter Token.isPlain) := by
  cases segment with
  | blanks chars => rfl
  | comment chars => rfl
  | lineEnd =>
      constructor
      · intro hholds
        exact ⟨layout.line, by simp [Layout.step, h.2 hholds, Token.isPlain]⟩
      · intro hholds
        have hlead : layout.lead.isNone = false := by
          simpa [Option.ne_none_iff_isSome] using mt h.1 hholds
        simp [Layout.step, hlead]
  | lexeme l =>
      have hplain : Token.isPlain ⟨l.kind, l.text, layout.line⟩ = true := (hsound l rfl).isPlain rfl
      refine ⟨⟨l.kind, l.text, layout.line⟩, ?_, rfl, (hsound l rfl).spells⟩
      simp [Layout.step, layout.enter_plain, hplain]

/-- The shares belong to the segments that were read. -/
theorem Layout.shares_segments (options : Options) (layout : Layout) (segments : List Segment) :
    (layout.shares options segments).map Prod.fst = segments := by
  induction segments generalizing layout with
  | nil => rfl
  | cons segment rest ih => rw [shares, List.map_cons, ih]

/-- The shares together are the plain tokens that were read. -/
theorem Layout.shares_tokens (options : Options) (layout : Layout) (segments : List Segment) :
    (layout.shares options segments).flatMap Prod.snd =
      (layout.read options segments).1.filter Token.isPlain := by
  induction segments generalizing layout with
  | nil => rfl
  | cons segment rest ih => rw [shares, List.flatMap_cons, ih, read_cons, List.filter_append]

/-- Every segment that is read accounts for its share. -/
theorem Layout.Follows.shares_yield {segments earlier : List Segment} {share : List Token}
    {front back : List (Segment × List Token)} (h : layout.Follows earlier)
    (hsound : ∀ l, .lexeme l ∈ segments → l.Sound)
    (hshares : layout.shares options segments = front ++ (segment, share) :: back) :
    segment.Yields (earlier ++ front.map Prod.fst) share := by
  -- A segment that has been read is one of `earlier` for those after it.
  induction segments generalizing layout earlier front with
  | nil => simp [Layout.shares] at hshares
  | cons first rest ih =>
      rw [Layout.shares] at hshares
      cases front with
      | nil =>
          rw [List.nil_append, List.cons.injEq, Prod.mk.injEq] at hshares
          obtain ⟨⟨rfl, rfl⟩, -⟩ := hshares
          rw [List.map_nil, List.append_nil]
          exact h.yields fun l hl ↦ hsound l (hl ▸ List.mem_cons_self)
      | cons previous front =>
          rw [List.cons_append, List.cons.injEq] at hshares
          obtain ⟨rfl, hshares⟩ := hshares
          have hyields := ih h.step (fun l hl ↦ hsound l (List.mem_cons_of_mem first hl)) hshares
          rwa [List.append_assoc] at hyields

/-- A text is cut into segments that cover it exactly, none of them empty, and its tokens, but for
the marks of indentation, are the shares of the segments in the same order. A lexeme stands for one
token, which spells it. A line end stands for a NEWLINE if its line holds a lexeme and for nothing
otherwise. Blanks and comments stand for nothing. -/
theorem tokens_lossless (options : Options) (text : List Char) :
    ∃ shares : List (Segment × List Token),
      shares.map Prod.fst = Segment.all text ∧
      (shares.flatMap fun entry ↦ entry.1.chars) = text ∧
      (tokens options text).filter Token.isPlain = shares.flatMap Prod.snd ∧
      ∀ before segment share after, shares = before ++ (segment, share) :: after →
        segment.chars ≠ [] ∧ segment.Sound (after.flatMap fun entry ↦ entry.1.chars) ∧
          segment.Yields (before.map Prod.fst) share := by
  have hsegments := Layout.shares_segments options {} (Segment.all text)
  have hcover (entries : List (Segment × List Token)) :
      (entries.flatMap fun entry ↦ entry.1.chars) = (entries.map Prod.fst).flatMap Segment.chars :=
    (List.flatMap_map Prod.fst Segment.chars entries).symm
  refine ⟨Layout.shares options {} (Segment.all text), hsegments, ?_, ?_, ?_⟩
  · rw [hcover, hsegments, Segment.flatMap_chars_all]
  · rw [tokens_eq, List.filter_append, Layout.close_plain, List.append_nil, Layout.shares_tokens]
  · intro before segment share after hshares
    have hsplit : Segment.all text = before.map Prod.fst ++ segment :: after.map Prod.fst := by
      rw [← hsegments, hshares, List.map_append, List.map_cons]
    have hstart : Layout.Follows {} [] := by
      simp [Layout.Follows, not_holdsLexeme_nil]
    refine ⟨?_, ?_, ?_⟩
    · obtain ⟨c, rest, -, hfirst⟩ := Segment.first_of_all hsplit
      have hnonempty := Segment.first_chars_ne_nil c rest
      rwa [hfirst] at hnonempty
    · rw [hcover]
      exact Segment.sound_of_all hsplit
    · exact hstart.shares_yield (fun l ↦ (wellCut_all text).lexeme_sound) hshares

end AhoyScan
