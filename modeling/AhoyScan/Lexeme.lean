import AhoyScan.Kind

/-!
# Lexemes

A lexeme is a piece of source text that stands for one token. `Lexeme.first` takes the lexeme at
the front of a text: a word, a number, a string, a character literal or a symbol, each as long as
it can be, and otherwise illegal input, which is a single character or an unclosed string. The
main statement, `Lexeme.first_append`, says that the lexeme and the remaining text make up the
text again.
-/

namespace AhoyScan

/-- White space inside a line: spaces, tabs, form feeds and carriage returns. -/
def isBlank (c : Char) : Bool :=
  c = ' ' || c = '\t' || c = '\x0c' || c = '\r'

/-- ASCII letters and the underscore begin a word. -/
def isNameStart (c : Char) : Bool :=
  c.isAlpha || c = '_'

/-- ASCII letters, ASCII digits and the underscore continue a word. -/
def isNameRest (c : Char) : Bool :=
  c.isAlphanum || c = '_'

/-- A piece of source text with the kind of token that it stands for. -/
structure Lexeme where
  kind : Kind
  chars : List Char
  deriving DecidableEq, Repr

namespace Lexeme

/-- The text of the token: the whole lexeme, but strings and character literals without the quote
at each end. -/
def text (lexeme : Lexeme) : String :=
  match lexeme.kind with
  | .string | .char => String.ofList lexeme.chars.tail.dropLast
  | _ => String.ofList lexeme.chars

/-- The word at the front of a text. A word that is no keyword is a name. -/
def word (text : List Char) : Lexeme × List Char :=
  let chars := text.takeWhile isNameRest
  (⟨(Keyword.ofSpelling? chars).elim .identifier .keyword, chars⟩, text.dropWhile isNameRest)

/-- The digits at the front of a text. A point belongs to the number only if a digit follows. -/
def number (text : List Char) : Lexeme × List Char :=
  let whole := text.takeWhile Char.isDigit
  match text.dropWhile Char.isDigit with
  | '.' :: digit :: rest =>
      if digit.isDigit then
        (⟨.number, whole ++ '.' :: digit :: rest.takeWhile Char.isDigit⟩,
          rest.dropWhile Char.isDigit)
      else (⟨.number, whole⟩, '.' :: digit :: rest)
  | rest => (⟨.number, whole⟩, rest)

/-- Split a text after the longest run of string contents: characters other than the quote and the
backslash, and backslashes with the character that each escapes, which is never a line end. -/
def contents : List Char → List Char × List Char
  | [] => ([], [])
  | ['\\'] => ([], ['\\'])
  | '\\' :: escaped :: rest =>
      if escaped = '\n' then ([], '\\' :: escaped :: rest)
      else
        let (run, left) := contents rest
        ('\\' :: escaped :: run, left)
  | c :: rest =>
      if c = '"' then ([], c :: rest)
      else
        let (run, left) := contents rest
        (c :: run, left)

/-- What follows an opening quote: a string up to the closing quote, or, if the contents end
otherwise, illegal input up to that point. -/
def string (rest : List Char) : Lexeme × List Char :=
  match contents rest with
  | (run, '"' :: left) => (⟨.string, '"' :: run ++ ['"']⟩, left)
  | (run, left) => (⟨.illegal, '"' :: run⟩, left)

/-- What follows an apostrophe: one character, or one escape, and a closing apostrophe. An
apostrophe that begins neither is illegal input by itself. -/
def char : List Char → Lexeme × List Char
  | '\\' :: escaped :: '\'' :: rest =>
      if escaped = '\n' then (⟨.illegal, ['\'']⟩, '\\' :: escaped :: '\'' :: rest)
      else (⟨.char, ['\'', '\\', escaped, '\'']⟩, rest)
  | c :: '\'' :: rest =>
      if c = '\'' ∨ c = '\\' then (⟨.illegal, ['\'']⟩, c :: '\'' :: rest)
      else (⟨.char, ['\'', c, '\'']⟩, rest)
  | rest => (⟨.illegal, ['\'']⟩, rest)

/-- The symbol that this character is; a character that is no symbol is illegal input. -/
def single (c : Char) : Lexeme :=
  ⟨(Symbol.ofSpelling? [c]).elim .illegal .symbol, [c]⟩

/-- A symbol of two characters goes before one of a single character. -/
def symbol (c : Char) : List Char → Lexeme × List Char
  | [] => (single c, [])
  | second :: rest =>
      match Symbol.ofSpelling? [c, second] with
      | some symbol => (⟨.symbol symbol, [c, second]⟩, rest)
      | none => (single c, second :: rest)

/-- The lexeme at the front of the text `c :: rest`, and what remains after it. -/
def first (c : Char) (rest : List Char) : Lexeme × List Char :=
  if isNameStart c then word (c :: rest)
  else if c.isDigit then number (c :: rest)
  else if c = '"' then string rest
  else if c = '\'' then char rest
  else symbol c rest

theorem number_append (text : List Char) : (number text).1.chars ++ (number text).2 = text := by
  have split := text.takeWhile_append_dropWhile (p := Char.isDigit)
  unfold number
  split
  · rename_i digit rest h
    rw [h] at split
    split <;> simp [split]
  · exact split

theorem contents_append (text : List Char) : (contents text).1 ++ (contents text).2 = text := by
  fun_induction contents text <;> simp_all

theorem string_append (rest : List Char) :
    (string rest).1.chars ++ (string rest).2 = '"' :: rest := by
  have split := contents_append rest
  unfold string
  split <;> rename_i h <;> simp [h] at split <;> simp [split]

theorem char_append (rest : List Char) :
    (char rest).1.chars ++ (char rest).2 = '\'' :: rest := by
  fun_cases char rest <;> simp

theorem symbol_append (c : Char) (rest : List Char) :
    (symbol c rest).1.chars ++ (symbol c rest).2 = c :: rest := by
  fun_cases symbol c rest <;> simp [single]

/-- The first lexeme and the text after it are the whole text. -/
theorem first_append (c : Char) (rest : List Char) :
    (first c rest).1.chars ++ (first c rest).2 = c :: rest := by
  unfold first
  split
  · exact List.takeWhile_append_dropWhile
  split
  · exact number_append _
  split
  · rename_i h; subst h; exact string_append rest
  split
  · rename_i h; subst h; exact char_append rest
  · exact symbol_append c rest

theorem number_chars_ne_nil {c : Char} {rest : List Char} (digit : c.isDigit) :
    (number (c :: rest)).1.chars ≠ [] := by
  unfold number
  split
  · split <;> simp [digit]
  · simp [digit]

/-- A lexeme is never empty. -/
theorem first_chars_ne_nil (c : Char) (rest : List Char) : (first c rest).1.chars ≠ [] := by
  unfold first
  split
  · rename_i start
    have : isNameRest c := by
      simp only [isNameStart, isNameRest, Char.isAlphanum, Bool.or_eq_true] at start ⊢
      exact start.elim (fun h ↦ Or.inl (Or.inl h)) Or.inr
    simp [word, this]
  split
  · exact number_chars_ne_nil ‹_›
  split
  · unfold string; split <;> simp
  split
  · fun_cases char rest <;> simp
  · fun_cases symbol c rest <;> simp [single]

end Lexeme

end AhoyScan
