import AhoyScan.Proofs.JsonDocuments
import AhoyScan.Proofs.Vocabulary
import AhoyScan.Proofs.WireLists

/-!
# What a listing shows

The form of a listing, said of the text that is read and not of the functions that print it.
`Quoted.Shows` is a text between double quotes, `Listing.ShowsTable` a table in which every record
has a row with its number, and `Listing.ShowsDocument` a JSON document that stands for the records.
A dump of records has this form (`shows_dump`). The records that are dumped are copies of the
entries of a list: `WireList.Carries.copies`.
-/

namespace AhoyScan

/-! ## Forms -/

namespace Quoted

/-- What a letter stands for when it comes after a backslash. -/
def shortForms : List (Char × Char) :=
  [('0', '\x00'), ('t', '\t'), ('r', '\r'), ('n', '\n'), ('\\', '\\'), ('"', '"')]

/-- What is written for a character between double quotes: a letter after a backslash if there is
one for it, else the character itself if it can be seen apart from others, and else its number. The
number is in lower-case hexadecimal digits, without a 0 in front. -/
inductive Writes (c : Char) : List Char → Prop
  | short {mark : Char} (h : (mark, c) ∈ shortForms) : Writes c ['\\', mark]
  | plain (hshort : ∀ mark, (mark, c) ∉ shortForms) (hdistinct : isDistinct c = true) :
      Writes c [c]
  | number {digits : List Char} (hshort : ∀ mark, (mark, c) ∉ shortForms)
      (hdistinct : isDistinct c = false) (hnumber : hexNumber? digits = some c.toNat)
      (hlower : ∀ d ∈ digits, d.isDigit = true ∨ 'a' ≤ d ∧ d ≤ 'f')
      (hhead : digits.head? ≠ some '0') :
      Writes c ('\\' :: 'u' :: '\x7b' :: (digits ++ ['\x7d']))

/-- The text stands between double quotes, with all its characters in order. -/
def Shows (text shown : String) : Prop :=
  ∃ parts, List.Forall₂ Writes text.toList parts ∧
    shown = "\"" ++ String.ofList parts.flatten ++ "\""

end Quoted

/-- The column has the text at its left end and spaces behind it, and is no wider than it must
be. -/
def StandsLeft (width : Nat) (text column : String) : Prop :=
  ∃ spaces, column = text ++ String.ofList (List.replicate spaces ' ') ∧
    column.length = max width text.length

/-- The column has the text at its right end and spaces before it, and is no wider than it must
be. -/
def StandsRight (width : Nat) (text column : String) : Prop :=
  ∃ spaces, column = String.ofList (List.replicate spaces ' ') ++ text ∧
    column.length = max width text.length

/-- The name belongs to the code: the name of the kind with this code, or `UNKNOWN` if there is
none. -/
inductive Kind.Named (code : Int32) : String → Prop
  | known {kind : Kind} (h : kind.code = code) : Named code kind.name
  | unknown (h : ∀ kind : Kind, kind.code ≠ code) : Named code "UNKNOWN"

/-- The record is a copy of a token in a list: its code, the name that belongs to the code, the text
whose bytes are stored, and its line. -/
structure Record.Copies (record : Record) (entry : WireToken) : Prop where
  kind_eq : record.kind = entry.kind
  named : Kind.Named entry.kind record.kindName
  content_eq : Utf8.encode record.text.toList = entry.value.content
  line_eq : record.line = entry.line

namespace Listing

/-- The row shows the index of a record, the name and the code of its kind, its line and its text,
each in a column of its own. -/
inductive ShowsRow (index : Nat) (record : Record) : String → Prop
  | columns {number name code line text : String}
      (hnumber : StandsRight 4 (toString index) number)
      (hname : StandsLeft 18 record.kindName name)
      (hcode : StandsRight 3 (toString record.kind.toInt) code)
      (hline : StandsLeft 4 (toString record.line.toInt) line)
      (htext : Quoted.Shows record.text text) :
      ShowsRow index record
        (number ++ ": " ++ name ++ " " ++ code ++ "  line " ++ line ++ " " ++ text ++ "\n")

/-- The rows show the records in their order, with numbers from this one on. -/
inductive ShowsRows : Nat → List Record → String → Prop
  | nil {index : Nat} : ShowsRows index [] ""
  | cons {index : Nat} {record : Record} {records : List Record} {row rows : String}
      (hfirst : ShowsRow index record row) (hmore : ShowsRows (index + 1) records rows) :
      ShowsRows index (record :: records) (row ++ rows)

/-- The table says how many records there are and shows them in rows that are counted from 0. -/
def ShowsTable (records : List Record) (shown : String) : Prop :=
  ∃ rows, ShowsRows 0 records rows ∧ shown = s!"=== Tokens ({records.length}) ===\n" ++ rows

/-- The document is JSON and stands for the array of the records' objects and for nothing else. -/
def ShowsDocument (records : List Record) (shown : String) : Prop :=
  ∀ datum, Json.Document datum shown ↔ datum = .array (records.map fun record ↦
    .object [("kind", .number record.kind.toInt), ("kind_name", .string record.kindName),
      ("text", .string record.text), ("line", .number record.line.toInt)])

end Listing

/-- The listing shows the records in this form. -/
def Format.Shows : Format → List Record → String → Prop
  | .text => Listing.ShowsTable
  | .json => Listing.ShowsDocument

/-- The listing of no records. -/
def Format.emptyListing : Format → String
  | .text => "=== Tokens (0) ===\n"
  | .json => "[]\n"

/-! ## Quoted texts -/

namespace Quoted

/-- The digits in which the number of a character is written are in lower case. -/
theorem lower_of_mem_toDigits {n : Nat} {d : Char} (h : d ∈ Nat.toDigits 16 n) :
    d.isDigit = true ∨ 'a' ≤ d ∧ d ≤ 'f' := by
  have hlower : ∀ k < 16, (Nat.digitChar k).isDigit = true ∨
      'a' ≤ Nat.digitChar k ∧ Nat.digitChar k ≤ 'f' := by decide
  obtain ⟨k, hk, rfl⟩ := of_mem_toDigits h
  exact hlower k hk

/-- Every character is written in the form that it has between double quotes. -/
theorem writes_escape (c : Char) : Writes c (escape c) := by
  unfold escape
  split_ifs with hnul htab hreturn hlineEnd hmark hdistinct
  · exact .short (by simp [shortForms, hnul])
  · exact .short (by simp [shortForms, htab])
  · exact .short (by simp [shortForms, hreturn])
  · exact .short (by simp [shortForms, hlineEnd])
  · rw [Bool.or_eq_true, decide_eq_true_iff, decide_eq_true_iff] at hmark
    rcases hmark with rfl | rfl
    · exact .short (by decide)
    · exact .short (by decide)
  all_goals
    have hshort : ∀ mark, (mark, c) ∉ shortForms := by
      simp only [Bool.or_eq_true, decide_eq_true_iff, not_or] at hmark
      simp [shortForms, hnul, htab, hreturn, hlineEnd, hmark]
  · exact .plain hshort hdistinct
  · have hpositive : 0 < c.toNat := by
      refine Nat.pos_of_ne_zero fun hzero ↦ hnul ?_
      exact Char.toNat_inj.1 hzero
    exact .number hshort (by simpa using hdistinct) (hexNumber?_toDigits c.toNat)
      (fun d hd ↦ lower_of_mem_toDigits hd) (head?_toDigits_ne (by decide) (by decide) hpositive)

/-- A quoted text shows the text. -/
theorem shows_text (shown : String) : Shows shown (Quoted.text shown) := by
  refine ⟨shown.toList.map escape, ?_, ?_⟩
  · rw [List.forall₂_map_right_iff]
    exact List.forall₂_same.2 fun c _ ↦ writes_escape c
  · rw [Quoted.text, quote, List.flatMap_def, ← String.toList_inj]
    simp

end Quoted

/-! ## Columns -/

/-- A text that is aligned to the left is filled up behind. -/
theorem standsLeft_alignLeft (width : Nat) (text : String) :
    StandsLeft width text (alignLeft width text) := by
  refine ⟨width - text.length, rfl, ?_⟩
  rw [alignLeft, String.length_append, String.length_ofList, List.length_replicate]
  omega

/-- A text that is aligned to the right is filled up in front. -/
theorem standsRight_alignRight (width : Nat) (text : String) :
    StandsRight width text (alignRight width text) := by
  refine ⟨width - text.length, rfl, ?_⟩
  rw [alignRight, String.length_append, String.length_ofList, List.length_replicate]
  omega

/-! ## Tables and documents -/

namespace Listing

variable (records : List Record)

/-- The row of a record shows it. -/
theorem showsRow_row (index : Nat) (record : Record) :
    ShowsRow index record (record.row index) :=
  .columns (standsRight_alignRight 4 _) (standsLeft_alignLeft 18 _) (standsRight_alignRight 3 _)
    (standsLeft_alignLeft 4 _) (Quoted.shows_text record.text)

/-- The rows of records show them, from whatever number they are counted. -/
theorem showsRows_rows (start : Nat) :
    ShowsRows start records
      (String.join (records.mapIdx fun index record ↦ record.row (start + index))) := by
  induction records generalizing start with
  | nil => exact .nil
  | cons record records ih =>
      have hmore := ih (start + 1)
      simp only [Nat.add_assoc, Nat.add_comm 1] at hmore
      rw [List.mapIdx_cons, String.join_cons, Nat.add_zero]
      exact .cons (showsRow_row start record) hmore

/-- The table of records shows them. -/
theorem showsTable_table : ShowsTable records (table records) := by
  refine ⟨_, showsRows_rows records 0, ?_⟩
  simp only [Nat.zero_add, table]

/-- The document of records shows them. -/
theorem showsDocument_document : ShowsDocument records (document records) := by
  intro datum
  rw [document, Json.document_render, Json.datum, Json.data_records]
  rfl

end Listing

/-- A dump of records succeeds and shows them. -/
theorem shows_dump (format : Format) (records : List Record) :
    ∃ shown, dump format records = ⟨0, shown, ""⟩ ∧ format.Shows records shown ∧
      (records = [] → shown = format.emptyListing) := by
  cases format with
  | text =>
      refine ⟨_, rfl, Listing.showsTable_table records, ?_⟩
      rintro rfl
      rfl
  | json =>
      refine ⟨_, rfl, Listing.showsDocument_document records, ?_⟩
      rintro rfl
      rfl

/-! ## Copies -/

/-- The label of a code is the name that belongs to it. -/
theorem Kind.named_label (code : Int32) : Named code (label code) := by
  rw [label]
  cases h : ofCode? code with
  | none =>
      refine .unknown fun kind hcode ↦ ?_
      have hnone := List.find?_eq_none.1 h kind kind.mem_all
      simp [hcode] at hnone
  | some kind => exact .known (by simpa using List.find?_some h)

/-- The record of a token that a list carries is a copy of what is in the list. -/
theorem WireToken.Carries.copies {wire : WireToken} {token : RawToken} (h : wire.Carries token) :
    wire.record.Copies wire where
  kind_eq := rfl
  named := Kind.named_label wire.kind
  content_eq := by
    rw [h.content_eq, ← h.text_eq]
    rfl
  line_eq := rfl

/-- The records of a list that carries tokens are copies of its entries, in their order. -/
theorem WireList.Carries.copies {list : WireList} {tokens : List RawToken}
    (h : list.Carries tokens) : List.Forall₂ Record.Copies list.records list.entries := by
  obtain ⟨hentries, -⟩ := h
  rw [records]
  generalize list.entries = entries at hentries ⊢
  induction hentries with
  | nil => exact .nil
  | cons hfirst _ ih => exact .cons hfirst.copies ih

end AhoyScan
