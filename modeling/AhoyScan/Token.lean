import AhoyScan.Kind

/-!
# Tokens and the options that shape them
-/

namespace AhoyScan

/-- A token: what it is, the text it stands for, and the line, counted from 1, on which it begins.
Layout marks that open or close a block have an empty text. -/
structure Token where
  kind : Kind
  text : String
  line : Nat
  deriving DecidableEq, Repr

/-- How leading white space is read: the columns that a tab counts for, and whether changes of
indentation are reported at all. -/
structure Options where
  tabWidth : Nat := 4
  indentation : Bool := true
  deriving DecidableEq, Repr

end AhoyScan
