/-!
# Columns

Texts are filled up with spaces to the width of their column. A text that is wider than its column
is not shortened.
-/

namespace AhoyScan

/-- The text at the left end of a column. -/
def alignLeft (width : Nat) (text : String) : String :=
  text ++ String.ofList (List.replicate (width - text.length) ' ')

/-- The text at the right end of a column. -/
def alignRight (width : Nat) (text : String) : String :=
  String.ofList (List.replicate (width - text.length) ' ') ++ text

end AhoyScan
