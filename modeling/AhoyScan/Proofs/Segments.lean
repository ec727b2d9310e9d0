import AhoyScan.Proofs.LongestMatch
import AhoyScan.Token

/-!
# What segments look like

`Segment.Sound` says what a segment is by itself and next to the text that follows it. Every
segment that a text is cut into is sound (`Segment.sound_of_all`), so that the segments of a text,
and those of it from some place on, are `WellCut`.
-/

namespace AhoyScan

/-- The text of the token is what the lexeme spells: all of it, but for a string and a character
literal what is between their quotes. -/
def Lexeme.Spells (lexeme : Lexeme) (text : String) : Prop :=
  match lexeme.kind with
  | .string => lexeme.chars = '"' :: (text.toList ++ ['"'])
  | .char => lexeme.chars = '\'' :: (text.toList ++ ['\''])
  | _ => lexeme.chars = text.toList

/-- The token is the one that the lexeme stands for: of its kind, and with the text it spells. -/
def Lexeme.StandsFor (lexeme : Lexeme) (token : Token) : Prop :=
  token.kind = lexeme.kind ∧ lexeme.Spells token.text

/-- A lexeme is not empty, begins with a character that is neither blank nor a line end, has none
of the kinds that mark the structure of lines, and spells its text. -/
structure Lexeme.Sound (lexeme : Lexeme) : Prop where
  begins : ∃ c rest, lexeme.chars = c :: rest ∧ isBlank c = false ∧ c ≠ '\n'
  plain : lexeme.kind.isLayout = false
  spells : lexeme.Spells lexeme.text

/-- What a segment is when `left` is the text after it: a run of blanks, a comment up to the end
of its line, a line end, or a lexeme. -/
def Segment.Sound (left : List Char) : Segment → Prop
  | .blanks chars => chars ≠ [] ∧ ∀ c ∈ chars, c = ' ' ∨ c = '\t' ∨ c = '\x0c' ∨ c = '\r'
  | .comment chars => ∃ body, chars = '?' :: body ∧ '\n' ∉ body ∧ (body ++ left).head? ≠ some '?' ∧
      (left = [] ∨ left.head? = some '\n')
  | .lineEnd => True
  | .lexeme l => l.Sound

/-- Every one of some segments is sound before those that follow it. -/
def WellCut (segments : List Segment) : Prop :=
  ∀ before segment after, segments = before ++ segment :: after →
    segment.Sound (after.flatMap Segment.chars)

variable {c : Char} {rest : List Char}

/-! ## Lexemes -/

/-- What a pattern matches is no mark of line structure unless it is a line end, and has quotes on
both sides if it is a string or a character literal. -/
theorem Classed.lexeme {kind : Kind} (h : Classed (some kind) (c :: rest)) (hc : c ≠ '\n') :
    kind.isLayout = false ∧ (kind = .string → ∃ run, c :: rest = '"' :: (run ++ ['"'])) ∧
      (kind = .char → ∃ run, c :: rest = '\'' :: (run ++ ['\''])) := by
  rw [Classed] at h
  split_ifs at h with hblank hname hdigit hquote hapostrophe
  · cases h.1
  · obtain ⟨-, hkind | ⟨keyword, hkind, -⟩⟩ := h
    · cases hkind
      simp [Kind.isLayout]
    · cases hkind
      simp [Kind.isLayout]
  · cases h.1
    simp [Kind.isLayout]
  · obtain ⟨hkind, run, -, rfl⟩ := h
    cases hkind
    subst hquote
    simp [Kind.isLayout]
  · obtain ⟨hkind, ⟨d, -, -, rfl⟩ | ⟨d, -, rfl⟩⟩ := h
    · cases hkind
      subst hapostrophe
      refine ⟨rfl, ?_, fun _ ↦ ⟨[d], rfl⟩⟩
      intro hstring
      cases hstring
    · cases hkind
      subst hapostrophe
      refine ⟨rfl, ?_, fun _ ↦ ⟨['\\', d], rfl⟩⟩
      intro hstring
      cases hstring
  · rcases h with ⟨-, hkind, -⟩ | ⟨symbol, hkind, -⟩
    · cases hkind
    · cases hkind
      simp [Kind.isLayout]

/-- A lexeme with quotes wherever its kind needs them spells its text. -/
theorem Lexeme.spells_text {lexeme : Lexeme}
    (hstring : lexeme.kind = .string → ∃ run, lexeme.chars = '"' :: (run ++ ['"']))
    (hchar : lexeme.kind = .char → ∃ run, lexeme.chars = '\'' :: (run ++ ['\''])) :
    lexeme.Spells lexeme.text := by
  obtain ⟨kind, chars⟩ := lexeme
  cases kind with
  | string =>
      obtain ⟨run, rfl⟩ := hstring rfl
      simp [Spells, text]
  | char =>
      obtain ⟨run, rfl⟩ := hchar rfl
      simp [Spells, text]
  | _ => exact String.toList_ofList.symm

/-- A lexeme cut from the front of a text is sound. -/
theorem Scanned.lexeme_sound {lexeme : Lexeme} (h : Scanned c rest (.lexeme lexeme))
    (hblank : isBlank c = false) (hnewline : c ≠ '\n') : lexeme.Sound := by
  cases h with
  | @matched _ tail hchars hclassed _ _ =>
      have hchars : lexeme.chars = c :: tail := hchars
      obtain ⟨hplain, hstring, hchar⟩ := hclassed.lexeme hnewline
      rw [← hchars] at hstring hchar
      exact ⟨⟨c, tail, hchars, hblank, hnewline⟩, hplain, Lexeme.spells_text hstring hchar⟩
  | unmatched _ hunmatched =>
      obtain ⟨c', rest', heq, hunmatched⟩ := hunmatched
      cases heq
      refine ⟨?_, rfl, String.toList_ofList.symm⟩
      split_ifs at hunmatched with hquote
      · obtain ⟨run, -, rfl⟩ := hunmatched
        exact ⟨'"', run, rfl, hquote ▸ hblank, hquote ▸ hnewline⟩
      · exact ⟨c, [], hunmatched, hblank, hnewline⟩

/-! ## Segments -/

/-- Taking a text while its characters are not line ends stops at a line end or at the end. -/
theorem dropWhile_to_lineEnd (text : List Char) :
    text.dropWhile (· ≠ '\n') = [] ∨ (text.dropWhile (· ≠ '\n')).head? = some '\n' := by
  have hstop := List.head?_dropWhile_not (· ≠ '\n') text
  cases hleft : text.dropWhile (· ≠ '\n') with
  | nil => exact .inl rfl
  | cons d left =>
      rw [hleft] at hstop
      exact .inr (by simpa using hstop)

/-- The segment cut from the front of a text is sound. -/
theorem Segment.first_sound (c : Char) (rest : List Char) :
    (first c rest).1.Sound (first c rest).2 := by
  have hscanned := first_scanned c rest
  unfold first at hscanned ⊢
  split_ifs with hblank hnewline hcomment
  · refine ⟨List.cons_ne_nil _ _, ?_⟩
    intro d hd
    rcases List.mem_cons.1 hd with rfl | hd
    · exact isBlank_iff.1 hblank
    · exact isBlank_iff.1 (List.mem_takeWhile_imp hd)
  · trivial
  · obtain ⟨rfl, hhead⟩ := hcomment
    refine ⟨_, rfl, ?_, ?_, dropWhile_to_lineEnd rest⟩
    · intro hmem
      simpa using List.mem_takeWhile_imp hmem
    · rwa [List.takeWhile_append_dropWhile]
  · rw [if_neg hblank, if_neg hnewline, if_neg hcomment] at hscanned
    exact hscanned.lexeme_sound (by simpa using hblank) hnewline

/-- Every segment of a text is sound before the segments after it. -/
theorem Segment.sound_of_all {text : List Char} {before after : List Segment} {segment : Segment}
    (h : all text = before ++ segment :: after) : segment.Sound (after.flatMap chars) := by
  obtain ⟨c, rest, -, hfirst⟩ := first_of_all h
  have hsound := first_sound c rest
  rwa [hfirst] at hsound

/-- Segments are well cut when the first one is sound and the others are well cut. -/
theorem wellCut_cons {segment : Segment} {rest : List Segment} :
    WellCut (segment :: rest) ↔ segment.Sound (rest.flatMap Segment.chars) ∧ WellCut rest := by
  constructor
  · intro h
    refine ⟨h [] segment rest rfl, ?_⟩
    rintro before other after rfl
    exact h (segment :: before) other after rfl
  · rintro ⟨hsound, hrest⟩ before other after hsplit
    cases before with
    | nil =>
        cases hsplit
        exact hsound
    | cons first before =>
        cases hsplit
        exact hrest before other after rfl

/-- The segments of a text are well cut. -/
theorem wellCut_all (text : List Char) : WellCut (Segment.all text) :=
  fun _ _ _ ↦ Segment.sound_of_all

/-- The lexemes of well cut segments are sound. -/
theorem WellCut.lexeme_sound {segments : List Segment} (h : WellCut segments) {l : Lexeme}
    (hmem : .lexeme l ∈ segments) : l.Sound := by
  obtain ⟨before, after, hsplit⟩ := List.append_of_mem hmem
  exact h before (.lexeme l) after hsplit

/-- The segments after some others are well cut if all of them together are. -/
theorem WellCut.right {front back : List Segment} (h : WellCut (front ++ back)) :
    WellCut back := by
  rintro before segment after rfl
  exact h (front ++ before) segment after (List.append_assoc ..).symm

end AhoyScan
