import AhoyScan.Proofs.Reading
import AhoyScan.Proofs.Segments

/-!
# Bounds on the tokens of a text

The characters of a token's text come from the source (`text_subset`), and there are at most three
tokens for every two characters of it. The second bound needs an account, for one line can close
any number of blocks: every block is paid for when it is opened, together with its closing, by the
white space and the first lexeme of its line. `Layout.due` is what a place has been paid for but
not yet reported.
-/

namespace AhoyScan

/-- What a place will still report for what has been read: the closing of its blocks, two for each,
and what the white space before the first lexeme of the line pays for, three for each character. -/
def Layout.due (layout : Layout) : Nat :=
  2 * layout.blocks.length + 3 * (layout.lead.getD []).length

variable (options : Options) {layout : Layout} {segment : Segment}

/-! ## Texts -/

/-- The text of a lexeme's token is part of the lexeme. -/
theorem Lexeme.text_subset (lexeme : Lexeme) : lexeme.text.toList ⊆ lexeme.chars := by
  have hinner : lexeme.chars.tail.dropLast ⊆ lexeme.chars :=
    ((List.dropLast_sublist _).trans (List.tail_sublist _)).subset
  rw [text]
  split <;> rw [String.toList_ofList]
  · exact hinner
  · exact hinner
  · exact List.Subset.refl _

/-- The texts of a segment's tokens are made of its characters. -/
theorem Layout.step_text_subset {token : Token} (h : token ∈ (layout.step options segment).1) :
    token.text.toList ⊆ segment.chars := by
  rcases layout.of_mem_step options h with ⟨rfl, rfl⟩ | ⟨l, rfl, hmark | rfl⟩
  · simp [Segment.chars]
  · rw [(layout.enter_marks options hmark).2.1]
    exact List.nil_subset _
  · exact l.text_subset

/-- The texts of the tokens are made of the characters of the source. -/
theorem text_subset {text : List Char} {token : Token} (h : token ∈ tokens options text) :
    token.text.toList ⊆ text := by
  rcases of_mem_tokens h with ⟨segment, hsegment, place, hstep⟩ | ⟨-, htext⟩
  · intro c hc
    rw [← Segment.flatMap_chars_all text]
    exact List.mem_flatMap_of_mem hsegment (Layout.step_text_subset options hstep hc)
  · rw [htext]
    exact List.nil_subset text

/-! ## Numbers -/

/-- Where there is a width there is white space. -/
theorem length_pos_of_columns {tabWidth : Nat} {lead : List Char}
    (h : 0 < columns tabWidth lead) : 0 < lead.length := by
  cases lead with
  | nil => cases h
  | cons c lead => exact Nat.succ_pos lead.length

/-- The marks before a line and the blocks open on it are as many as the blocks before, and two
more if a block is opened, which only a line with a width does. -/
theorem reindent_length (width : Nat) (blocks : List Nat) :
    (options.reindent width blocks).1.length + (options.reindent width blocks).2.length ≤
      blocks.length + if 0 < width then 2 else 0 := by
  have hsplit : (blocks.takeWhile (width < ·)).length + (blocks.dropWhile (width < ·)).length =
      blocks.length := by
    rw [← List.length_append, List.takeWhile_append_dropWhile]
  rw [Options.reindent]
  split
  · rw [reindent_eq, List.length_append, List.length_replicate]
    by_cases hopen : (blocks.dropWhile (width < ·)).headD 0 < width
    · simp only [if_pos hopen, if_pos (Nat.zero_lt_of_lt hopen), List.length_cons, List.length_nil]
      omega
    · simp only [if_neg hopen, List.length_nil]
      omega
  · rw [List.length_nil, Nat.zero_add]
    exact Nat.le_add_right _ _

namespace Layout

/-- At the first lexeme of a line no more is reported than what was due, up to one. -/
theorem enter_account (layout : Layout) :
    2 * (layout.enter options).1.length + (layout.enter options).2.due ≤ layout.due + 1 := by
  obtain ⟨line, lead, blocks⟩ := layout
  cases lead with
  | none => exact (Nat.zero_add _).le.trans (Nat.le_succ _)
  | some lead =>
      have hmarks := reindent_length options (columns options.tabWidth lead) blocks
      rw [enter_some options _ rfl, List.length_map]
      show 2 * (options.reindent (columns options.tabWidth lead) blocks).1.length +
        (2 * (options.reindent (columns options.tabWidth lead) blocks).2.length + 3 * 0) ≤
          2 * blocks.length + 3 * lead.length + 1
      -- Two more marks are paid for by a character of white space, up to one.
      by_cases hwidth : 0 < columns options.tabWidth lead
      · have hpositive := length_pos_of_columns hwidth
        rw [if_pos hwidth] at hmarks
        omega
      · rw [if_neg hwidth] at hmarks
        omega

/-- A step reports no more than what was due and three for every two characters of its segment. -/
theorem step_account (hsound : ∀ l, segment = .lexeme l → l.Sound) :
    2 * (layout.step options segment).1.length + (layout.step options segment).2.due ≤
      layout.due + 3 * segment.chars.length := by
  cases segment with
  | blanks chars | comment chars =>
      show 2 * 0 + (2 * layout.blocks.length +
          3 * ((layout.lead.map (· ++ chars)).getD []).length) ≤
        2 * layout.blocks.length + 3 * (layout.lead.getD []).length + 3 * chars.length
      cases layout.lead with
      | none => simp
      | some lead =>
          simp only [Option.map_some, Option.getD_some, List.length_append]
          omega
  | lineEnd =>
      have hmark : (layout.step options .lineEnd).1.length ≤ 1 := by
        rw [step]
        split <;> simp
      show _ + (2 * layout.blocks.length + 3 * 0) ≤
        2 * layout.blocks.length + 3 * (layout.lead.getD []).length + 3 * 1
      omega
  | lexeme l =>
      have henter := layout.enter_account options
      obtain ⟨c, rest, hchars, -⟩ := (hsound l rfl).begins
      have hlength : l.chars.length = rest.length + 1 := by rw [hchars, List.length_cons]
      show 2 * ((layout.enter options).1 ++ [_]).length + (layout.enter options).2.due ≤
        layout.due + 3 * l.chars.length
      rw [List.length_append, List.length_singleton, hlength]
      omega

/-- Reading reports no more than what was due and three for every two characters. -/
theorem read_account (layout : Layout) {segments : List Segment}
    (hsound : ∀ l, .lexeme l ∈ segments → l.Sound) :
    2 * (layout.read options segments).1.length + (layout.read options segments).2.due ≤
      layout.due + 3 * (segments.flatMap Segment.chars).length := by
  induction segments generalizing layout with
  | nil => exact Nat.le_of_eq (Nat.zero_add _)
  | cons segment rest ih =>
      have hstep : 2 * (layout.step options segment).1.length +
          (layout.step options segment).2.due ≤ layout.due + 3 * segment.chars.length :=
        step_account options fun l hl ↦ hsound l (hl ▸ List.mem_cons_self)
      have hrest := ih (layout.step options segment).2 fun l hl ↦
        hsound l (List.mem_cons_of_mem segment hl)
      simp only [read_cons, List.flatMap_cons, List.length_append]
      omega

end Layout

/-- There are at most three tokens for every two characters of a text. -/
theorem tokens_account (text : List Char) : 2 * (tokens options text).length ≤ 3 * text.length := by
  -- Nothing is due at the start, and the blocks that are open at the end are due there.
  have haccount := Layout.read_account options {} fun l (hl : .lexeme l ∈ Segment.all text) ↦
    (wellCut_all text).lexeme_sound hl
  have hdue : 2 * (Layout.read options {} (Segment.all text)).2.blocks.length ≤
      (Layout.read options {} (Segment.all text)).2.due := Nat.le_add_right _ _
  have hstart : Layout.due {} = 0 := rfl
  rw [Segment.flatMap_chars_all] at haccount
  rw [tokens_eq, List.length_append, Layout.close, List.length_map]
  omega

/-- The bound is reached: an indented name opens a block and closes it. -/
example : (tokens {} [' ', 'a']).map Token.kind = [.indent, .identifier, .dedent] := by cbv

end AhoyScan
