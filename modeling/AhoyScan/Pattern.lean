import AhoyScan.Segment

/-!
# The vocabulary as patterns

Regular expressions over characters, and the table that says which of them each kind of segment
matches. `Pattern.Matches` is the meaning of an expression, given without any strategy for finding
a match: it is what the cutting of a text into segments is measured against.
-/

namespace AhoyScan

/-- A regular expression. -/
inductive Pattern where
  | empty
  | one (accepts : Char → Bool)
  | seq (first second : Pattern)
  | either (left right : Pattern)
  | many (item : Pattern)

namespace Pattern

/-- The texts that an expression stands for. -/
inductive Matches : Pattern → List Char → Prop where
  | empty : Matches .empty []
  | one {accepts : Char → Bool} {c : Char} : accepts c → Matches (.one accepts) [c]
  | seq {first second : Pattern} {front back : List Char} :
      Matches first front → Matches second back → Matches (.seq first second) (front ++ back)
  | left {left right : Pattern} {text : List Char} :
      Matches left text → Matches (.either left right) text
  | right {left right : Pattern} {text : List Char} :
      Matches right text → Matches (.either left right) text
  | done {item : Pattern} : Matches (.many item) []
  | more {item : Pattern} {front back : List Char} :
      Matches item front → Matches (.many item) back → Matches (.many item) (front ++ back)

/-- One given character. -/
def this (c : Char) : Pattern :=
  .one (· = c)

/-- The characters of a text one after the other. -/
def spelling (text : String) : Pattern :=
  text.toList.foldr (fun c rest ↦ .seq (this c) rest) .empty

/-- At least one. -/
def several (item : Pattern) : Pattern :=
  .seq item (.many item)

/-- A backslash and any character but a line end. -/
def escape : Pattern :=
  .seq (this '\\') (.one (· ≠ '\n'))

/-- A run of white space inside a line. -/
def blanks : Pattern :=
  several (.one isBlank)

/-- A question mark that no second one follows, and the rest of the line. -/
def comment : Pattern :=
  .seq (this '?')
    (.either .empty
      (.seq (.one fun c ↦ c ≠ '?' && c ≠ '\n') (.many (.one (· ≠ '\n')))))

/-- A letter or underscore, and then letters, digits and underscores. -/
def identifier : Pattern :=
  .seq (.one isNameStart) (.many (.one isNameRest))

/-- Digits, and perhaps a point with digits after it. -/
def number : Pattern :=
  .seq (several (.one Char.isDigit))
    (.either .empty (.seq (this '.') (several (.one Char.isDigit))))

/-- What may stand between double quotes: escapes, and characters that need none. -/
def contents : Pattern :=
  .many (.either (.one fun c ↦ c ≠ '"' && c ≠ '\\') escape)

/-- Contents between double quotes. -/
def string : Pattern :=
  .seq (this '"') (.seq contents (this '"'))

/-- One character or escape between apostrophes. -/
def char : Pattern :=
  .seq (this '\'') (.seq (.either (.one fun c ↦ c ≠ '\'' && c ≠ '\\') escape) (this '\''))

end Pattern

/-- A pattern of the vocabulary with the kind of token that it stands for. White space and comments
stand for none. -/
structure Rule where
  kind : Option Kind
  pattern : Pattern

/-- All the patterns of the vocabulary. -/
def Rule.all : List Rule :=
  [⟨none, .blanks⟩, ⟨none, .comment⟩, ⟨some .newline, .this '\n'⟩,
    ⟨some .identifier, .identifier⟩, ⟨some .number, .number⟩, ⟨some .string, .string⟩,
    ⟨some .char, .char⟩] ++
  Symbol.all.map (fun symbol ↦ ⟨some (.symbol symbol), .spelling symbol.entry.spelling⟩) ++
  Keyword.all.map (fun keyword ↦ ⟨some (.keyword keyword), .spelling keyword.entry.spelling⟩)

end AhoyScan
