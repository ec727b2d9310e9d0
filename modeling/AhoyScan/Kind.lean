/-!
# Kinds of token

The vocabulary of Ahoy: punctuation and keywords with a fixed spelling, names and literals, the
layout marks that stand for line structure, and one kind for input that belongs to none of these.
Every kind has a code that foreign consumers rely on and an upper-case name; `Kind.all` lists the
vocabulary in the order of its codes, and `Kind.ofCode?` finds a kind by its code.
-/

namespace AhoyScan

/-- What is fixed about a symbol or a keyword: its code, its name and its spelling. -/
structure Entry where
  code : Int32
  name : String
  spelling : String

/-- Operators and punctuation. -/
inductive Symbol where
  | doubleColon | colon | semicolon | comma | dot | pipe | ternary
  | plus | minus | times | divide | modulo
  | less | greater | lessEqual | greaterEqual
  | leftParen | rightParen | leftBracket | rightBracket | leftBrace | rightBrace
  | dollar | assign
  deriving DecidableEq, Repr

/-- The table of the symbols. -/
def Symbol.entry : Symbol → Entry
  | .doubleColon => ⟨10, "DOUBLE_COLON", "::"⟩
  | .colon => ⟨11, "COLON", ":"⟩
  | .semicolon => ⟨12, "SEMICOLON", ";"⟩
  | .comma => ⟨13, "COMMA", ","⟩
  | .dot => ⟨14, "DOT", "."⟩
  | .pipe => ⟨15, "PIPE", "|"⟩
  | .ternary => ⟨16, "TERNARY", "??"⟩
  | .plus => ⟨17, "PLUS", "+"⟩
  | .minus => ⟨18, "MINUS", "-"⟩
  | .times => ⟨19, "MULTIPLY", "*"⟩
  | .divide => ⟨20, "DIVIDE", "/"⟩
  | .modulo => ⟨21, "MODULO", "%"⟩
  | .less => ⟨22, "LESS", "<"⟩
  | .greater => ⟨23, "GREATER", ">"⟩
  | .lessEqual => ⟨24, "LESS_EQUAL", "<="⟩
  | .greaterEqual => ⟨25, "GREATER_EQUAL", ">="⟩
  | .leftParen => ⟨26, "LPAREN", "("⟩
  | .rightParen => ⟨27, "RPAREN", ")"⟩
  | .leftBracket => ⟨28, "LBRACKET", "["⟩
  | .rightBracket => ⟨29, "RBRACKET", "]"⟩
  | .leftBrace => ⟨30, "LBRACE", "\x7b"⟩
  | .rightBrace => ⟨31, "RBRACE", "\x7d"⟩
  | .dollar => ⟨32, "DOLLAR", "$"⟩
  | .assign => ⟨33, "ASSIGN", "="⟩

/-- The symbols in the order of their codes. -/
def Symbol.all : List Symbol :=
  [.doubleColon, .colon, .semicolon, .comma, .dot, .pipe, .ternary, .plus, .minus, .times,
    .divide, .modulo, .less, .greater, .lessEqual, .greaterEqual, .leftParen, .rightParen,
    .leftBracket, .rightBracket, .leftBrace, .rightBrace, .dollar, .assign]

/-- The symbol written with exactly these characters. -/
def Symbol.ofSpelling? (chars : List Char) : Option Symbol :=
  all.find? fun symbol ↦ symbol.entry.spelling = String.ofList chars

/-- Words that are not names: statements, word operators, truth values and basic types. -/
inductive Keyword where
  | programWord | importWord | ifWord | anifWord | elseWord | thenWord | switchWord | onWord
  | loopWord | toWord | tillWord | inWord | doWord | whenWord | returnWord | haltWord | nextWord
  | structWord | typeWord | enumWord | functionWord | endWord
  | andWord | orWord | notWord | isWord | plusWord | minusWord | timesWord | divWord | modWord
  | greaterThanWord | lessThanWord
  | trueWord | falseWord
  | intType | floatType | stringType | boolType | dictType | vectorType | colorType
  deriving DecidableEq, Repr

/-- The table of the keywords. -/
def Keyword.entry : Keyword → Entry
  | .programWord => ⟨40, "PROGRAM", "program"⟩
  | .importWord => ⟨41, "IMPORT", "import"⟩
  | .ifWord => ⟨42, "IF", "if"⟩
  | .anifWord => ⟨43, "ANIF", "anif"⟩
  | .elseWord => ⟨44, "ELSE", "else"⟩
  | .thenWord => ⟨45, "THEN", "then"⟩
  | .switchWord => ⟨46, "SWITCH", "switch"⟩
  | .onWord => ⟨47, "ON", "on"⟩
  | .loopWord => ⟨48, "LOOP", "loop"⟩
  | .toWord => ⟨49, "TO", "to"⟩
  | .tillWord => ⟨50, "TILL", "till"⟩
  | .inWord => ⟨51, "IN", "in"⟩
  | .doWord => ⟨52, "DO", "do"⟩
  | .whenWord => ⟨53, "WHEN", "when"⟩
  | .returnWord => ⟨54, "RETURN", "return"⟩
  | .haltWord => ⟨55, "HALT", "halt"⟩
  | .nextWord => ⟨56, "NEXT", "next"⟩
  | .structWord => ⟨57, "STRUCT", "struct"⟩
  | .typeWord => ⟨58, "TYPE", "type"⟩
  | .enumWord => ⟨59, "ENUM", "enum"⟩
  | .functionWord => ⟨60, "FUNCTION", "function"⟩
  | .endWord => ⟨61, "END", "end"⟩
  | .andWord => ⟨62, "AND", "and"⟩
  | .orWord => ⟨63, "OR", "or"⟩
  | .notWord => ⟨64, "NOT", "not"⟩
  | .isWord => ⟨65, "IS", "is"⟩
  | .plusWord => ⟨66, "PLUS_WORD", "plus"⟩
  | .minusWord => ⟨67, "MINUS_WORD", "minus"⟩
  | .timesWord => ⟨68, "TIMES", "times"⟩
  | .divWord => ⟨69, "DIV", "div"⟩
  | .modWord => ⟨70, "MOD", "mod"⟩
  | .greaterThanWord => ⟨73, "GREATER_THAN_WORD", "greater_than"⟩
  | .lessThanWord => ⟨74, "LESS_THAN_WORD", "less_than"⟩
  | .trueWord => ⟨75, "TRUE", "true"⟩
  | .falseWord => ⟨76, "FALSE", "false"⟩
  | .intType => ⟨80, "INT_TYPE", "int"⟩
  | .floatType => ⟨81, "FLOAT_TYPE", "float"⟩
  | .stringType => ⟨82, "STRING_TYPE", "string"⟩
  | .boolType => ⟨83, "BOOL_TYPE", "bool"⟩
  | .dictType => ⟨84, "DICT_TYPE", "dict"⟩
  | .vectorType => ⟨85, "VECTOR2_TYPE", "vector2"⟩
  | .colorType => ⟨86, "COLOR_TYPE", "color"⟩

/-- The words of statements and of operators, whose codes come before those of the layout marks. -/
def Keyword.statements : List Keyword :=
  [.programWord, .importWord, .ifWord, .anifWord, .elseWord, .thenWord, .switchWord, .onWord,
    .loopWord, .toWord, .tillWord, .inWord, .doWord, .whenWord, .returnWord, .haltWord, .nextWord,
    .structWord, .typeWord, .enumWord, .functionWord, .endWord, .andWord, .orWord, .notWord,
    .isWord, .plusWord, .minusWord, .timesWord, .divWord, .modWord]

/-- The word comparisons, the truth values and the basic types, whose codes come after them. -/
def Keyword.values : List Keyword :=
  [.greaterThanWord, .lessThanWord, .trueWord, .falseWord, .intType, .floatType, .stringType,
    .boolType, .dictType, .vectorType, .colorType]

/-- The keywords in the order of their codes. -/
def Keyword.all : List Keyword :=
  statements ++ values

/-- The keyword written with exactly these characters. -/
def Keyword.ofSpelling? (chars : List Char) : Option Keyword :=
  all.find? fun keyword ↦ keyword.entry.spelling = String.ofList chars

/-- What a token is. `illegal` is input outside the vocabulary; `newline`, `indent` and `dedent`
are the layout marks. -/
inductive Kind where
  | illegal
  | newline
  | identifier
  | number
  | string
  | char
  | symbol (symbol : Symbol)
  | keyword (keyword : Keyword)
  | indent
  | dedent
  deriving DecidableEq, Repr

namespace Kind

/-- The number by which consumers know the kind. -/
def code : Kind → Int32
  | illegal => 0
  | newline => 3
  | identifier => 4
  | number => 5
  | string => 6
  | char => 7
  | symbol s => s.entry.code
  | keyword k => k.entry.code
  | indent => 71
  | dedent => 72

/-- The upper-case name shown to people. -/
def name : Kind → String
  | illegal => "ILLEGAL"
  | newline => "NEWLINE"
  | identifier => "IDENTIFIER"
  | number => "NUMBER"
  | string => "STRING"
  | char => "CHAR"
  | symbol s => s.entry.name
  | keyword k => k.entry.name
  | indent => "INDENT"
  | dedent => "DEDENT"

instance : ToString Kind := ⟨name⟩

/-- The name with a NUL after it, as it is stored for readers that look for the NUL. -/
def terminatedName (kind : Kind) : String :=
  kind.name.push '\x00'

/-- The whole vocabulary in the order of its codes. -/
def all : List Kind :=
  [illegal, newline, identifier, number, string, char] ++ Symbol.all.map symbol ++
    Keyword.statements.map keyword ++ [indent, dedent] ++ Keyword.values.map keyword

/-- The kind that has this code, if the code belongs to the vocabulary. -/
def ofCode? (code : Int32) : Option Kind :=
  all.find? fun kind ↦ kind.code = code

/-- The name that goes with a code, `UNKNOWN` outside the vocabulary. -/
def label (code : Int32) : String :=
  (ofCode? code).elim "UNKNOWN" name

/-- The kinds that mark the structure of lines; every other kind stands for text of its own. -/
def isLayout : Kind → Bool
  | newline | indent | dedent => true
  | _ => false

end Kind

end AhoyScan
