import AhoyScan.Kind
import AhoyScan.Rejection
import AhoyScan.Text.CString

/-!
# Token lists in the form that C callers read

A `WireList` is an array of tokens with a 32-bit count; its tokens have a 32-bit code and line and
a NUL-terminated text. `WireList.ofTokens` builds one from the tokens that a tokenizer reports,
or rejects them all because of the first one that does not fit. `WireList.records` is what a
reader copies out of a list.
-/

namespace AhoyScan

/-- A token as a tokenizer reports it: any code, any text and any line. -/
structure RawToken where
  kind : Int32
  text : String
  line : Nat
  deriving DecidableEq, Repr

/-- A token in a list for C callers. -/
structure WireToken where
  kind : Int32
  value : CString
  line : Int32
  deriving DecidableEq, Repr

/-- A token list for C callers: its array and the number of tokens that readers take from it. -/
structure WireList where
  tokens : List WireToken
  count : Int32
  deriving DecidableEq, Repr

/-- What a reader keeps of a token after the list is gone. -/
structure Record where
  kind : Int32
  kindName : String
  text : String
  line : Int32
  deriving DecidableEq, Repr

/-- The largest number that the count and the lines of a list can hold. -/
def maxWire : Nat := 2147483647

/-- The form of the token at this index: its line must fit, then its text must be free of NUL. -/
def WireToken.ofRaw (token : RawToken) (index : Nat) : Except Rejection WireToken :=
  if token.line ≤ maxWire then
    match CString.ofText? token.text with
    | some value => .ok ⟨token.kind, value, Int32.ofNat token.line⟩
    | none => .error (.nulInText index)
  else .error (.lineTooLarge index token.line)

/-- The record of a token. -/
def WireToken.record (token : WireToken) : Record :=
  ⟨token.kind, Kind.label token.kind, token.value.text, token.line⟩

namespace WireList

/-- The list of these tokens, or the reason why the first token that does not fit prevents it. The
number of tokens is checked before any of them. -/
def ofTokens (tokens : List RawToken) : Except Rejection WireList :=
  if tokens.length ≤ maxWire then do
    let wired ← tokens.zipIdx.mapM fun (token, index) ↦ WireToken.ofRaw token index
    pure ⟨wired, Int32.ofNat tokens.length⟩
  else .error (.tooManyTokens tokens.length)

/-- The tokens that a reader takes: as many as the count says, none if it is negative. -/
def entries (list : WireList) : List WireToken :=
  list.tokens.take list.count.toInt.toNat

/-- The records of the tokens that a reader takes. -/
def records (list : WireList) : List Record :=
  list.entries.map WireToken.record

end WireList

/-- The name of a kind as C callers get it. The name of every kind is free of NUL. -/
def Kind.storedName (code : Int32) : CString :=
  .ofBuffer (Utf8.encode (Kind.label code).toList)

end AhoyScan
