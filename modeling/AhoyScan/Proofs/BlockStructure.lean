import AhoyScan.Proofs.Nesting

/-!
# The shape of a token stream

`tokens_block_structured` says what every consumer of tokens may rely on: the tokens are the groups
of lines, each with its marks in front and its NEWLINE behind, blocks are opened before they are
closed and all of them are closed at the end, and the marks of line structure have fixed texts.
-/

namespace AhoyScan

/-- Marks of indentation have no text, and the text of a NEWLINE is a line end. -/
structure Token.MarkFits (token : Token) : Prop where
  indent : token.kind = .indent → token.text = ""
  dedent : token.kind = .dedent → token.text = ""
  newline : token.kind = .newline → token.text = "\n"

/-! ## Texts of marks -/

variable {options : Options}

/-- A token with another kind than those of line structure may have any text. -/
theorem Token.markFits_plain {token : Token} (h : token.kind.isLayout = false) :
    token.MarkFits := by
  constructor <;> intro hkind <;> rw [hkind] at h <;> cases h

/-- A mark of indentation without a text has the text it should have. -/
theorem Token.markFits_mark {token : Token} (hkind : token.kind = .indent ∨ token.kind = .dedent)
    (htext : token.text = "") : token.MarkFits := by
  refine ⟨fun _ ↦ htext, fun _ ↦ htext, ?_⟩
  intro hnewline
  rw [hnewline] at hkind
  rcases hkind with h | h <;> cases h

/-- A NEWLINE with the text of a line end has the text it should have. -/
theorem Token.markFits_newline {token : Token} (hkind : token.kind = .newline)
    (htext : token.text = "\n") : token.MarkFits := by
  refine ⟨?_, ?_, fun _ ↦ htext⟩ <;> intro hmark <;> rw [hkind] at hmark <;> cases hmark

/-- The marks among the tokens of a segment have the texts they should have. -/
theorem Layout.step_markFits {layout : Layout} {segment : Segment}
    (hsound : ∀ l, segment = .lexeme l → l.Sound) :
    ∀ token ∈ (layout.step options segment).1, token.MarkFits := by
  intro token htoken
  rcases layout.of_mem_step options htoken with ⟨-, rfl⟩ | ⟨l, rfl, hmark | rfl⟩
  · exact Token.markFits_newline rfl rfl
  · obtain ⟨hkind, htext, -⟩ := layout.enter_marks options hmark
    exact Token.markFits_mark hkind htext
  · exact Token.markFits_plain (hsound l rfl).plain

/-- The marks of a text have the texts they should have. -/
theorem tokens_markFits (options : Options) (text : List Char) :
    ∀ token ∈ tokens options text, token.MarkFits := by
  intro token htoken
  rcases of_mem_tokens htoken with ⟨segment, hsegment, place, hstep⟩ | ⟨hkind, htext⟩
  · have hsound (l : Lexeme) (hl : segment = .lexeme l) : l.Sound :=
      (wellCut_all text).lexeme_sound (hl ▸ hsegment)
    exact Layout.step_markFits hsound token hstep
  · exact Token.markFits_mark (.inr hkind) htext

/-! ## Indentation that is not reported -/

/-- Where indentation is not reported, no line has marks and no block is ever open. -/
theorem Grouped.no_marks {blocks last : List Nat} {lines : List (List Segment)}
    {groups : List Group} (h : Grouped options blocks lines groups last)
    (hoff : options.indentation = false) :
    last = blocks ∧ ∀ group ∈ groups, group.marks = [] := by
  have hreindent (width : Nat) (blocks : List Nat) :
      options.reindent width blocks = ([], blocks) := by
    rw [Options.reindent, hoff]
    rfl
  induction h with
  | nil => exact ⟨rfl, by simp⟩
  | cons hmarks _ _ ih =>
      rw [hreindent] at hmarks ih
      refine ⟨ih.1, ?_⟩
      intro group hgroup
      rcases List.mem_cons.1 hgroup with rfl | hgroup
      · exact List.map_eq_nil_iff.1 hmarks
      · exact ih.2 group hgroup

/-- The tokens of a text are groups and then DEDENTs. A group is DEDENTs, at most one INDENT, tokens
of lexemes, and a NEWLINE, which only the last group may lack. No more blocks are closed than were
opened before, all of them are closed at the end, and there are none where indentation is not
reported. INDENT and DEDENT have no text, and that of NEWLINE is a line end. -/
theorem tokens_block_structured (options : Options) (text : List Char) :
    (∃ (groups : List Group) (ending : List Token),
        tokens options text = groups.flatMap Group.tokens ++ ending ∧
          (∀ group ∈ groups.dropLast, group.ending ≠ none) ∧
          ∀ token ∈ ending, token.kind = .dedent) ∧
      (∀ front, front <+: tokens options text → tally .dedent front ≤ tally .indent front) ∧
      tally .dedent (tokens options text) = tally .indent (tokens options text) ∧
      (options.indentation = false →
        ∀ token ∈ tokens options text, token.kind ≠ .indent ∧ token.kind ≠ .dedent) ∧
      ∀ token ∈ tokens options text, token.MarkFits := by
  obtain ⟨groups, last, ending, hgrouped, hended, hending, hlength, htokens⟩ :=
    tokens_grouped options text
  have hnested := tokens_nested options text
  refine ⟨⟨groups, ending, htokens, hended, hending⟩, ?_, ?_, ?_, tokens_markFits options text⟩
  · intro front hfront
    obtain ⟨next, hnext⟩ := nesting_begins hnested (hfront.map Token.kind)
    have hcount := nesting_count hnext
    show (front.map Token.kind).count .dedent ≤ (front.map Token.kind).count .indent
    omega
  · have hcount := nesting_count hnested
    show ((tokens options text).map Token.kind).count .dedent =
      ((tokens options text).map Token.kind).count .indent
    omega
  · intro hoff token htoken
    -- No block is open after the last line, so there is nothing behind the groups.
    obtain ⟨rfl, hmarks⟩ := hgrouped.no_marks hoff
    obtain rfl : ending = [] := List.eq_nil_of_length_eq_zero hlength
    rw [htokens, List.append_nil] at htoken
    obtain ⟨group, hgroup, htoken⟩ := List.mem_flatMap.1 htoken
    rw [Group.tokens, hmarks group hgroup, List.nil_append] at htoken
    exact group.unmarked token htoken

end AhoyScan
