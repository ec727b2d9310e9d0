import AhoyScan.Proofs.Lossless

/-!
# Options decide on the marks of indentation only

Two readings of a text under different options go through the same places but for the blocks that
are open there. `Layout.flat` forgets the blocks, and reading without marks of indentation is
reading with them, the blocks and the marks forgotten: `Layout.step_flat` says this of a step and
`Layout.read_flat` of any number of them. So the tokens without marks are the plain ones of the
tokens with marks (`tokens_without_marks`).
-/

namespace AhoyScan

/-- The same place with no block open. -/
def Layout.flat (layout : Layout) : Layout :=
  { layout with blocks := [] }

namespace Layout

variable (options : Options) (tabWidth : Nat) (layout : Layout)

/-- Where indentation is not reported, the first lexeme of a line comes after no marks. -/
theorem enter_flat :
    layout.flat.enter ⟨tabWidth, false⟩ = ([], (layout.enter options).2.flat) := by
  cases hlead : layout.lead with
  | none =>
      rw [enter_none options layout hlead, enter_none _ layout.flat hlead]
  | some lead =>
      rw [enter_some options layout hlead, enter_some _ layout.flat hlead]
      rfl

/-- Without marks a segment stands for its plain tokens, however wide a tab is. -/
theorem step_flat {segment : Segment} (hsound : ∀ l, segment = .lexeme l → l.Sound) :
    layout.flat.step ⟨tabWidth, false⟩ segment =
      ((layout.step options segment).1.filter Token.isPlain,
        (layout.step options segment).2.flat) := by
  cases segment with
  | blanks chars | comment chars => rfl
  | lineEnd =>
      have hplain : Token.isPlain ⟨.newline, "\n", layout.line⟩ = true := rfl
      cases hlead : layout.lead <;> simp [step, flat, hlead, hplain]
  | lexeme l =>
      have hplain : Token.isPlain ⟨l.kind, l.text, layout.line⟩ = true := (hsound l rfl).isPlain rfl
      simp only [step, layout.enter_flat options]
      simp [layout.enter_plain, hplain, flat]

/-- Without marks segments stand for their plain tokens, however wide a tab is. -/
theorem read_flat {segments : List Segment} (hsound : ∀ l, .lexeme l ∈ segments → l.Sound) :
    layout.flat.read ⟨tabWidth, false⟩ segments =
      ((layout.read options segments).1.filter Token.isPlain,
        (layout.read options segments).2.flat) := by
  induction segments generalizing layout with
  | nil => rfl
  | cons segment rest ih =>
      have hstep := layout.step_flat options tabWidth fun l hl ↦ hsound l (hl ▸ List.mem_cons_self)
      have hrest := ih (layout.step options segment).2 fun l hl ↦
        hsound l (List.mem_cons_of_mem segment hl)
      rw [read_cons, read_cons, hstep, hrest, List.filter_append]

end Layout

/-- The tokens of a text without marks of indentation are its tokens under any options with all
INDENT and DEDENT tokens left out. The others keep their kinds, texts, lines and order, and no tab
width has a part in them. -/
theorem tokens_without_marks (options : Options) (tabWidth : Nat) (text : List Char) :
    tokens ⟨tabWidth, false⟩ text =
      (tokens options text).filter fun token ↦ token.kind ≠ .indent && token.kind ≠ .dedent := by
  have hread := Layout.read_flat options tabWidth {} fun l ↦ (wellCut_all text).lexeme_sound
  have hstart : Layout.flat {} = {} := rfl
  have hclose (layout : Layout) : layout.flat.close = layout.close.filter Token.isPlain := by
    rw [layout.close_plain]
    rfl
  rw [tokens_eq, tokens_eq, ← hstart, hread, hclose, ← List.filter_append]
  rfl

end AhoyScan
