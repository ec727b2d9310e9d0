/-!
# JSON documents

Values with integers for numbers, and their printed form: one item or field per line, two spaces
deeper than the brackets around it, and empty brackets on one line.
-/

namespace AhoyScan

/-- A JSON value. The fields of an object keep their order. -/
inductive Json where
  | number (value : Int)
  | string (text : String)
  | array (items : List Json)
  | object (fields : List (String × Json))

namespace Json

/-- A character between the quotes of a JSON string. Quotes, backslashes and controls are escaped;
five controls have an escape of their own, the others are written by their number. -/
def escape (c : Char) : List Char :=
  if c = '"' then ['\\', '"']
  else if c = '\\' then ['\\', '\\']
  else if c = '\x08' then ['\\', 'b']
  else if c = '\x0c' then ['\\', 'f']
  else if c = '\n' then ['\\', 'n']
  else if c = '\r' then ['\\', 'r']
  else if c = '\t' then ['\\', 't']
  else if c.toNat < 0x20 then
    ['\\', 'u', '0', '0', Nat.digitChar (c.toNat / 16), Nat.digitChar (c.toNat % 16)]
  else [c]

/-- A text as a JSON string. -/
def quote (text : String) : List Char :=
  '"' :: text.toList.flatMap escape ++ ['"']

/-- A new line that begins inside this many brackets. -/
def newLine (depth : Nat) : List Char :=
  '\n' :: List.replicate (2 * depth) ' '

mutual

/-- A value inside this many brackets. -/
def print (depth : Nat) : Json → List Char
  | number value => (toString value).toList
  | string text => quote text
  | array [] => ['[', ']']
  | array (item :: items) =>
      '[' :: newLine (depth + 1) ++ print (depth + 1) item ++ printItems (depth + 1) items ++
        newLine depth ++ [']']
  | object [] => ['\x7b', '\x7d']
  | object ((name, value) :: fields) =>
      '\x7b' :: newLine (depth + 1) ++ quote name ++ [':', ' '] ++ print (depth + 1) value ++
        printFields (depth + 1) fields ++ newLine depth ++ ['\x7d']

/-- The items of an array after the first one. -/
def printItems (depth : Nat) : List Json → List Char
  | [] => []
  | item :: items => ',' :: newLine depth ++ print depth item ++ printItems depth items

/-- The fields of an object after the first one. -/
def printFields (depth : Nat) : List (String × Json) → List Char
  | [] => []
  | (name, value) :: fields =>
      ',' :: newLine depth ++ quote name ++ [':', ' '] ++ print depth value ++
        printFields depth fields

end

/-- The printed form of a document. -/
def render (value : Json) : String :=
  String.ofList (value.print 0)

end Json

end AhoyScan
