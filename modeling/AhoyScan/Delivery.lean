import AhoyScan.Layout
import AhoyScan.LogRecord
import AhoyScan.Wire

/-!
# Delivering a token list to a C caller

A caller passes a NUL-terminated source, or a null pointer. `deliver` decodes it, runs a tokenizer
on the text and puts the tokens into a list; the first of the three steps that fails decides the
rejection, and the tokenizer is not run on a source that is no text. `request`, `requestChecked`
and `requestStatus` are the ways to ask for a list: they differ in how they report a rejection.
-/

namespace AhoyScan

/-- A tokenizer turns a text into tokens, or rejects it. It may act in a monad. -/
abbrev Tokenizer (m : Type → Type) : Type :=
  String → m (Except Rejection (List RawToken))

/-- A token as it is reported to the boundary: its kind becomes a code. -/
def Token.raw (token : Token) : RawToken :=
  ⟨token.kind.code, token.text, token.line⟩

/-- The tokenizer of the language. It rejects no text. -/
def tokenizer {m : Type → Type} [Pure m] (options : Options) : Tokenizer m :=
  fun text ↦ pure (.ok ((tokens options text.toList).map Token.raw))

/-- The text of a source. -/
def sourceText : Option CString → Except Rejection String
  | none => .error .missingSource
  | some source =>
      match Utf8.decode source.content with
      | .ok chars => .ok (String.ofList chars)
      | .error offset => .error (.malformedSource offset)

/-- A list made from a source, with the size of the source. -/
structure Delivery where
  list : WireList
  sourceBytes : Nat
  deriving DecidableEq, Repr

/-- The record of a delivery. -/
def Delivery.record (delivery : Delivery) : LogRecord :=
  .delivered delivery.sourceBytes delivery.list.entries.length

/-- Decode a source, run a tokenizer on its text and put the tokens into a list. -/
def deliver {m : Type → Type} [Monad m] (tokenizer : Tokenizer m) (source : Option CString) :
    m (Except Rejection Delivery) := do
  match sourceText source with
  | .error cause => pure (.error cause)
  | .ok text =>
      match ← tokenizer text with
      | .error cause => pure (.error cause)
      | .ok tokens =>
          pure ((WireList.ofTokens tokens).map (⟨·, text.utf8ByteSize⟩))

/-- Ask for a list. A rejection is logged and gives no list. -/
def request {m : Type → Type} [Monad m] (tokenizer : Tokenizer m) (source : Option CString) :
    m (Option WireList × List LogRecord) := do
  match ← deliver tokenizer source with
  | .ok delivery => pure (some delivery.list, [delivery.record])
  | .error cause => pure (none, [.rejected cause])

/-- Where a caller wants a result stored: nowhere, or in a cell that holds a pointer, which may be
null. -/
inductive OutCell (α : Type) where
  | absent
  | cell (content : Option α)
  deriving DecidableEq, Repr

namespace OutCell

/-- Store a pointer, if there is a cell for it. -/
def store {α : Type} (out : OutCell α) (content : Option α) : OutCell α :=
  match out with
  | absent => absent
  | cell _ => cell content

/-- What the cell holds, or `default` if there is none. -/
def contentD {α : Type} (out : OutCell α) (default : Option α) : Option α :=
  match out with
  | absent => default
  | cell content => content

/-- Store a message. A message that holds a NUL cannot be stored and leaves a null pointer. -/
def storeMessage (out : OutCell CString) (message : String) : OutCell CString :=
  out.store (CString.ofText? message)

/-- Store a null pointer. -/
def clear {α : Type} (out : OutCell α) : OutCell α :=
  out.store none

end OutCell

/-- Ask for a list of the language's tokens, with a cell for the message of a rejection. -/
def requestChecked (source : Option CString) (errorOut : OutCell CString) :
    Option WireList × OutCell CString × List LogRecord :=
  match Id.run (deliver (tokenizer {}) source) with
  | .ok delivery => (some delivery.list, errorOut.clear, [delivery.record])
  | .error cause => (none, errorOut.storeMessage cause.message, [.rejected cause])

/-- Ask for a list of the language's tokens in a cell, and for a status. Without a cell nothing is
done, and nothing is logged. -/
def requestStatus (source : Option CString) (listOut : OutCell WireList) :
    Status × OutCell WireList × List LogRecord :=
  match listOut with
  | .absent => (.invalidArgument, .absent, [])
  | .cell _ =>
      match Id.run (deliver (tokenizer {}) source) with
      | .ok delivery => (.success, listOut.store (some delivery.list), [delivery.record])
      | .error cause => (cause.status, listOut.store none, [.rejected cause])

end AhoyScan
