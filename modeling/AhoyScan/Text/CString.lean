import AhoyScan.Text.Utf8

/-!
# NUL-terminated strings

A `CString` is a buffer that holds a NUL; its content is what lies before the first one. Bytes can
be stored as the content of a string only if they hold no NUL themselves, and `ofBytes` says where
the first one is if they do. A buffer that a caller passes in may hold anything before its last
byte; `ofBuffer` adds only that byte.
-/

namespace AhoyScan

/-- A buffer with a NUL somewhere in it. -/
structure CString where
  cells : List UInt8
  terminated : 0 ∈ cells
  deriving DecidableEq, Repr

namespace CString

/-- The bytes before the first NUL. -/
def content (string : CString) : List UInt8 :=
  string.cells.takeWhile (· ≠ 0)

/-- Any bytes with a NUL after them. -/
def ofBuffer (bytes : List UInt8) : CString :=
  ⟨bytes ++ [0], by simp⟩

/-- The string with exactly these bytes as its content, or the index of the NUL that prevents
it. -/
def ofBytes (bytes : List UInt8) : Except Nat CString :=
  match bytes.findIdx? (· = 0) with
  | some index => .error index
  | none => .ok (ofBuffer bytes)

/-- The string that stores a text, unless the text holds a NUL. -/
def ofText? (text : String) : Option CString :=
  (ofBytes (Utf8.encode text.toList)).toOption

/-- The text of the content, read as far as it is UTF-8. -/
def text (string : CString) : String :=
  String.ofList (Utf8.longest string.content).1

end CString

end AhoyScan
