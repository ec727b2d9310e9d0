import AhoyScan.Proofs.Locality
import AhoyScan.Proofs.Reading

/-!
# A lexeme read by itself

What stands around a lexeme has no part in what the lexeme stands for: a segment is the only one of
its own text (`Segment.all_chars`), so that the lexeme of a token, taken out of the source, is read
as that token again. `tokens_spelling` says this for all tokens but the marks of line structure,
illegal input included.
-/

namespace AhoyScan

/-- The lexeme of a token, which is its text, with the quotes of a string or of a character literal
put back on both sides. -/
def Token.spelling (token : Token) : List Char :=
  match token.kind with
  | .string => '"' :: (token.text.toList ++ ['"'])
  | .char => '\'' :: (token.text.toList ++ ['\''])
  | _ => token.text.toList

/-- The spelling of a lexeme's token is the lexeme. -/
theorem Lexeme.Sound.spelling {lexeme : Lexeme} (h : lexeme.Sound) {token : Token}
    (hkind : token.kind = lexeme.kind) (htext : token.text = lexeme.text) :
    token.spelling = lexeme.chars := by
  have hspells := h.spells
  rw [Lexeme.Spells] at hspells
  rw [Token.spelling, hkind, htext]
  split at hspells <;> simp_all

/-- A token that is no mark of line structure stands for a lexeme of the text. -/
theorem lexeme_of_mem_tokens {options : Options} {text : List Char} {token : Token}
    (h : token ∈ tokens options text) (hplain : token.kind.isLayout = false) :
    ∃ l, .lexeme l ∈ Segment.all text ∧ token.kind = l.kind ∧ token.text = l.text := by
  rcases of_mem_tokens h with ⟨segment, hsegment, place, hstep⟩ | ⟨hkind, -⟩
  · rcases place.of_mem_step options hstep with ⟨-, rfl⟩ | ⟨l, rfl, hmark | rfl⟩
    · cases hplain
    · rcases (place.enter_marks options hmark).1 with hkind | hkind <;> rw [hkind] at hplain <;>
        cases hplain
    · exact ⟨l, hsegment, rfl, rfl⟩
  · rw [hkind] at hplain
    cases hplain

/-- A text that is one lexeme has one token, on its first line. -/
theorem tokens_lexeme (options : Options) {l : Lexeme} {text : List Char}
    (h : Segment.all text = [.lexeme l]) : tokens options text = [⟨l.kind, l.text, 1⟩] := by
  -- A line without white space at its beginning opens no block, and there is none to close.
  have henter : Layout.enter options {} = ([], { lead := none }) := by
    cases hindentation : options.indentation <;>
      simp [Layout.enter_some options {} rfl, Options.reindent, hindentation, columns, reindent]
  rw [tokens_eq, h, Layout.read_cons, Layout.step, henter]
  rfl

/-- The lexeme of any token but NEWLINE, INDENT and DEDENT, read by itself under any options, stands
for one token: the same kind with the same text, on line 1. -/
theorem tokens_spelling (options options' : Options) (text : List Char) (token : Token)
    (h : token ∈ tokens options text) (hplain : token.kind.isLayout = false) :
    tokens options' token.spelling = [⟨token.kind, token.text, 1⟩] := by
  obtain ⟨l, hl, hkind, htext⟩ := lexeme_of_mem_tokens h hplain
  have hspelling : token.spelling = l.chars :=
    ((wellCut_all text).lexeme_sound hl).spelling hkind htext
  have halone : Segment.all token.spelling = [.lexeme l] := by
    rw [hspelling]
    exact Segment.all_chars hl
  rw [tokens_lexeme options' halone, hkind, htext]

/-- A string on the second line that is not closed and ends before a backslash is read again as what
it was there, without the backslash and on line 1. -/
theorem tokens_spelling_unclosed :
    ⟨.illegal, "\"a", 2⟩ ∈ tokens {} "x\n\t\"a\\\nb".toList ∧
      Kind.illegal.isLayout = false ∧
      tokens ⟨8, true⟩ (Token.spelling ⟨.illegal, "\"a", 2⟩) = [⟨.illegal, "\"a", 1⟩] := by
  have hmem : ⟨.illegal, "\"a", 2⟩ ∈ tokens {} "x\n\t\"a\\\nb".toList := by
    decide +kernel
  exact ⟨hmem, rfl, tokens_spelling {} ⟨8, true⟩ _ _ hmem rfl⟩

end AhoyScan
