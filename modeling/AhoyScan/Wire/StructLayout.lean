/-!
# The layout of C structs

A struct places its fields one after the other, each at the next multiple of its alignment, and
ends at the next multiple of the largest alignment. `token` and `tokenList` are the two structs
that C callers see where an `int` takes 4 bytes and a pointer 8.
-/

namespace AhoyScan

/-- The types of fields. -/
inductive FieldType where
  | int
  | pointer

/-- Bytes that a field takes, which is also what its offset is a multiple of. -/
def FieldType.size : FieldType → Nat
  | .int => 4
  | .pointer => 8

/-- The least multiple of `unit` that is not below `offset`. -/
def alignUp (offset unit : Nat) : Nat :=
  (offset + unit - 1) / unit * unit

/-- A struct: its named fields in the order of their declaration. -/
structure StructLayout where
  fields : List (String × FieldType)

namespace StructLayout

/-- Place fields from an offset on: the offset of each, and the first byte after the last. -/
def place : Nat → List (String × FieldType) → List (String × Nat) × Nat
  | stop, [] => ([], stop)
  | start, (name, type) :: rest =>
      let offset := alignUp start type.size
      let (more, stop) := place (offset + type.size) rest
      ((name, offset) :: more, stop)

/-- The offset of each field. -/
def offsets (struct : StructLayout) : List (String × Nat) :=
  (place 0 struct.fields).1

/-- The alignment of the struct is the largest one of its fields. -/
def align (struct : StructLayout) : Nat :=
  (struct.fields.map fun field ↦ field.2.size).foldl max 1

/-- The size of the struct, which includes the padding after its last field. -/
def size (struct : StructLayout) : Nat :=
  alignUp (place 0 struct.fields).2 struct.align

/-- A token of a list: its code, its text and its line. -/
def token : StructLayout :=
  ⟨[("token_type", .int), ("value", .pointer), ("line", .int)]⟩

/-- A token list: its array and its count. -/
def tokenList : StructLayout :=
  ⟨[("tokens", .pointer), ("count", .int)]⟩

end StructLayout

end AhoyScan
