import AhoyScan.Text.Extender
import AhoyScan.Text.Ignorable
import AhoyScan.Text.Printable

/-!
# Quoted text

Texts and paths are shown to people between double quotes, so that every character can be told
from every other: double quotes and backslashes are escaped, and so is all that would be invisible
or would be drawn on the character before it.
-/

namespace AhoyScan.Quoted

/-- A character by its number, in lower-case hexadecimal digits without leading zeros. -/
def byNumber (c : Char) : List Char :=
  ['\\', 'u', '\x7b'] ++ Nat.toDigits 16 c.toNat ++ ['\x7d']

/-- The halfwidth voiced and semi-voiced sound marks are letters that take a place of their own,
although they extend the character before them. -/
def isSoundMark (c : Char) : Bool :=
  c = '\uff9e' || c = '\uff9f'

/-- The character can be seen, and seen apart from the one before it. -/
def isDistinct (c : Char) : Bool :=
  isPrintable c && !isIgnorable c && (!isExtender c || isSoundMark c)

/-- A character as it is written between double quotes. -/
def escape (c : Char) : List Char :=
  if c = '\x00' then ['\\', '0']
  else if c = '\t' then ['\\', 't']
  else if c = '\r' then ['\\', 'r']
  else if c = '\n' then ['\\', 'n']
  else if c = '\\' || c = '"' then ['\\', c]
  else if isDistinct c then [c]
  else byNumber c

/-- Characters between double quotes. -/
def quote (chars : List Char) : List Char :=
  '"' :: chars.flatMap escape ++ ['"']

/-- A text or a path between double quotes. -/
def text (text : String) : String :=
  String.ofList (quote text.toList)

end AhoyScan.Quoted
