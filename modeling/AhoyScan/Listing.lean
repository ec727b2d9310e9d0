import AhoyScan.Json
import AhoyScan.Text.Column
import AhoyScan.Text.Quoted
import AhoyScan.Wire

/-!
# Token listings

The records of a token list as a table for people, one row each, and as a JSON document.
-/

namespace AhoyScan

/-- The row of a table that shows the record at this index. -/
def Record.row (index : Nat) (record : Record) : String :=
  alignRight 4 (toString index) ++ ": " ++ alignLeft 18 record.kindName ++ " " ++
    alignRight 3 (toString record.kind.toInt) ++ "  line " ++
    alignLeft 4 (toString record.line.toInt) ++ " " ++ Quoted.text record.text ++ "\n"

/-- The object that shows a record. -/
def Record.json (record : Record) : Json :=
  .object [("kind", .number record.kind.toInt), ("kind_name", .string record.kindName),
    ("text", .string record.text), ("line", .number record.line.toInt)]

namespace Listing

/-- A table with the number of the records above their rows. -/
def table (records : List Record) : String :=
  s!"=== Tokens ({records.length}) ===\n" ++
    String.join (records.mapIdx fun index record ↦ record.row index)

/-- The JSON document with the records. -/
def document (records : List Record) : String :=
  (Json.array (records.map Record.json)).render ++ "\n"

end Listing

end AhoyScan
