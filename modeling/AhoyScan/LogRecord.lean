import AhoyScan.Rejection

/-!
# Log records
-/

namespace AhoyScan

/-- What the library reports about its own work: a text delivered as a list, a request rejected,
a list about to be released at a caller's wish, and a list released. -/
inductive LogRecord where
  | delivered (sourceBytes tokens : Nat)
  | rejected (cause : Rejection)
  | releasing (entries : Nat)
  | released (entries : Nat)
  deriving DecidableEq, Repr

/-- How much a record matters, and the record in words. -/
def LogRecord.line : LogRecord → String
  | .delivered bytes tokens => s!"DEBUG: tokenized {bytes} bytes into {tokens} tokens"
  | .rejected cause => "WARN: rejected tokenize request: " ++ cause.message
  | .releasing entries => s!"DEBUG: releasing token list with {entries} entries"
  | .released entries => s!"TRACE: released token list with {entries} entries"

end AhoyScan
