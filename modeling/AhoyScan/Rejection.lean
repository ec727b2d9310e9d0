/-!
# Why a request is rejected

Every way in which a text can fail to become a token list, the message for people and the status
for programs.
-/

namespace AhoyScan

/-- Why a request produced no token list. Tokens are counted from 0. -/
inductive Rejection where
  | missingSource
  | malformedSource (offset : Nat)
  | nulInText (index : Nat)
  | tooManyTokens (count : Nat)
  | lineTooLarge (index line : Nat)
  | tokenizerFailed (reason : String)
  deriving DecidableEq, Repr

/-- The message for people. -/
def Rejection.message : Rejection → String
  | .missingSource => "source pointer is null"
  | .malformedSource offset =>
      s!"source is not valid UTF-8 (first invalid byte at offset {offset})"
  | .nulInText index => s!"token {index} contains an interior NUL byte"
  | .tooManyTokens count => s!"token count {count} does not fit in a 32-bit signed integer"
  | .lineTooLarge index line =>
      s!"token {index} has line {line}, which does not fit in a 32-bit signed integer"
  | .tokenizerFailed reason => s!"tokenizer failed: {reason}"

/-- The outcome of a request as a foreign caller sees it. -/
inductive Status where
  | success
  | invalidArgument
  | invalidEncoding
  | tokenizerFailed
  | unrepresentable
  deriving DecidableEq, Repr

/-- The number by which callers know a status. -/
def Status.code : Status → Int32
  | .success => 0
  | .invalidArgument => 1
  | .invalidEncoding => 2
  | .tokenizerFailed => 3
  | .unrepresentable => 4

/-- The status that reports a rejection; tokens that do not fit the list share one. -/
def Rejection.status : Rejection → Status
  | .missingSource => .invalidArgument
  | .malformedSource _ => .invalidEncoding
  | .nulInText _ | .tooManyTokens _ | .lineTooLarge _ _ => .unrepresentable
  | .tokenizerFailed _ => .tokenizerFailed

end AhoyScan
