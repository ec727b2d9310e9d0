import AhoyScan.Program
import AhoyScan.Proofs.JsonGrammar

/-!
# Documents are read back

What is printed for a JSON value is a document for this value by the grammar of JSON, and for
nothing else: `Json.document_render`. So the records of a list are known from the document that
shows them: `document_faithful`.
-/

namespace AhoyScan

namespace Json

/-! ## Texts -/

/-- The controls are written by their numbers. -/
theorem codeUnit_control {n : Nat} (h : n < 0x20) (rest : List Char) :
    CodeUnit n ('0' :: '0' :: Nat.digitChar (n / 16) :: Nat.digitChar (n % 16) :: rest) rest := by
  refine ⟨['0', '0', Nat.digitChar (n / 16), Nat.digitChar (n % 16)], rfl, ?_, rfl⟩
  have hhigh := hexDigit?_digitChar (n / 16) (by omega)
  have hlow := hexDigit?_digitChar (n % 16) (by omega)
  have hzeros : hexNumber? ['0', '0'] = some 0 := rfl
  have hnumber := hexNumber?_concat (hexNumber?_concat hzeros hhigh) hlow
  simpa [Nat.div_add_mod] using hnumber

/-- What is written for a character is that character. -/
theorem letter_escape (c : Char) (rest : List Char) : Letter c (escape c ++ rest) rest := by
  have hshort {mark meaning : Char} (h : (mark, meaning) ∈ shortEscapes) (heq : c = meaning) :
      Letter c ('\\' :: mark :: rest) rest := heq ▸ .short h
  unfold escape
  split_ifs with hquote hbackslash hbackspace hfeed hlineEnd hreturn htab hcontrol
  · exact hshort (by decide) hquote
  · exact hshort (by decide) hbackslash
  · exact hshort (by decide) hbackspace
  · exact hshort (by decide) hfeed
  · exact hshort (by decide) hlineEnd
  · exact hshort (by decide) hreturn
  · exact hshort (by decide) htab
  · exact .unit (codeUnit_control hcontrol rest)
  · exact .plain (Nat.le_of_not_lt hcontrol) hquote hbackslash

/-- What is written for a text and a quote behind it are the characters of the text. -/
theorem letters_escape (chars rest : List Char) :
    Letters chars (chars.flatMap escape ++ '"' :: rest) rest := by
  induction chars with
  | nil => exact .close
  | cons c chars ih =>
      rw [List.flatMap_cons, List.append_assoc]
      exact .letter (letter_escape c _) ih

/-! ## Integers -/

/-- The digits of a number. -/
def Digits.ofNat (n : Nat) : Digits where
  chars := Nat.toDigits 10 n
  nonempty := Nat.toDigits_ne_nil
  isDigit _ h := Nat.isDigit_of_mem_toDigits (by decide) (by decide) h

/-- The digits of a number stand for the number. -/
theorem Digits.value_ofNat (n : Nat) : (ofNat n).value = n :=
  Nat.ofDigitChars_ten_toDigits

/-- An integer as it is written. -/
def Numeral.ofInt (value : ℤ) : Numeral where
  negative := decide (value < 0)
  whole := .ofNat value.natAbs
  fraction := none
  exponent := none
  whole_plain := by
    rcases Nat.eq_zero_or_pos value.natAbs with hzero | hpos
    · rw [hzero]
      exact .inl rfl
    · exact .inr (head?_toDigits_ne (by decide) (by decide) hpos)

/-- An integer is written with its sign and its digits. -/
theorem Numeral.chars_ofInt (value : ℤ) : (ofInt value).chars = (toString value).toList := by
  cases value with
  | ofNat n =>
      have hdigits : (toString (Int.ofNat n)).toList = Nat.toDigits 10 n := Nat.toList_repr
      rw [hdigits]
      simp [chars, ofInt, afterWhole, Digits.ofNat]
  | negSucc n =>
      have hdigits : (toString (Int.negSucc n)).toList = '-' :: Nat.toDigits 10 (n + 1) := by
        rw [← Nat.toList_repr]
        exact String.toList_append
      rw [hdigits]
      simp [chars, ofInt, afterWhole, Digits.ofNat]

/-- What is written for an integer stands for it. -/
theorem Numeral.value_ofInt (value : ℤ) : (ofInt value).value = value := by
  cases value with
  | ofNat n => simp [Numeral.value, ofInt, Digits.value_ofNat]
  | negSucc n => simp [Numeral.value, ofInt, Digits.value_ofNat]

/-! ## Values -/

mutual

/-- What a value stands for. -/
def datum : Json → Datum
  | number value => .number value
  | string text => .string text
  | array items => .array (data items)
  | object fields => .object (namedData fields)

/-- What the items of an array stand for. -/
def data : List Json → List Datum
  | [] => []
  | item :: items => item.datum :: data items

/-- What the fields of an object stand for. -/
def namedData : List (String × Json) → List (String × Datum)
  | [] => []
  | (name, value) :: fields => (name, value.datum) :: namedData fields

end

/-- There may be no white space. -/
theorem Gap.refl (rest : List Char) : Gap rest rest :=
  ⟨[], by simp, rfl⟩

/-- A new line is white space. -/
theorem gap_newLine (depth : Nat) (rest : List Char) : Gap (newLine depth ++ rest) rest := by
  refine ⟨newLine depth, ?_, rfl⟩
  intro c hc
  rcases List.mem_cons.1 hc with rfl | hc
  · rfl
  · obtain rfl := List.eq_of_mem_replicate hc
    rfl

/-- What is printed for a text with something behind it. -/
theorem quote_append (text : String) (rest : List Char) :
    quote text ++ rest = '"' :: (text.toList.flatMap escape ++ '"' :: rest) := by
  simp [quote]

/-- A name, what is printed for a value and white space behind it are a field. -/
theorem reads_named (depth : Nat) (name : String) {datum : Datum} {start back rest : List Char}
    (hvalue : Reads .value datum start back) (hback : Gap back rest) :
    Reads .field (name, datum) (newLine depth ++ (quote name ++ (':' :: ' ' :: start))) rest := by
  rw [quote_append]
  have hspace : Gap (' ' :: start) start := ⟨[' '], by simp [isSpace], rfl⟩
  exact .named (gap_newLine depth _) (letters_escape name.toList _) (Gap.refl _)
    (.element hspace hvalue hback)

mutual

/-- What is printed for a value is that value. -/
theorem reads_print (depth : Nat) (rest : List Char) :
    ∀ value : Json, Reads .value value.datum (value.print depth ++ rest) rest
  | number value => by
      rw [datum, print, ← Numeral.chars_ofInt, ← Numeral.value_ofInt]
      exact .number rfl
  | string text => by
      rw [datum, print, quote_append]
      exact .string (letters_escape text.toList rest)
  | array [] => .emptyArray (Gap.refl _)
  | array (item :: items) => by
      have hitems := reads_printItems (depth + 1) (gap_newLine depth (']' :: rest)) items item
        fun rest ↦ reads_print (depth + 1) rest item
      rw [datum, data, print]
      simpa using .array hitems
  | object [] => .emptyObject (Gap.refl _)
  | object ((name, value) :: fields) => by
      have hfields := reads_printFields (depth + 1) (gap_newLine depth ('\x7d' :: rest)) fields name
        value fun rest ↦ reads_print (depth + 1) rest value
      rw [datum, namedData, print]
      simpa using .object hfields

/-- What is printed for the items of an array, of which the first is known, is these items. -/
theorem reads_printItems (depth : Nat) {back rest : List Char} (hback : Gap back rest) :
    ∀ (items : List Json) (first : Json)
      (_ : ∀ rest, Reads .value first.datum (first.print depth ++ rest) rest),
      Reads .items (first.datum :: data items)
        (newLine depth ++ (first.print depth ++ (printItems depth items ++ back))) rest
  | [], first, hfirst => .lastItem (.element (gap_newLine depth _) (hfirst _) hback)
  | item :: items, first, hfirst => by
      have hmore := reads_printItems depth hback items item fun rest ↦ reads_print depth rest item
      rw [data, printItems]
      refine .item (.element (gap_newLine depth _) (hfirst _) (Gap.refl _)) ?_
      simpa using hmore

/-- What is printed for the fields of an object, of which the first is known, is these fields. -/
theorem reads_printFields (depth : Nat) {back rest : List Char} (hback : Gap back rest) :
    ∀ (fields : List (String × Json)) (name : String) (first : Json)
      (_ : ∀ rest, Reads .value first.datum (first.print depth ++ rest) rest),
      Reads .fields ((name, first.datum) :: namedData fields)
        (newLine depth ++ (quote name ++ (':' :: ' ' ::
          (first.print depth ++ (printFields depth fields ++ back))))) rest
  | [], name, first, hfirst => .lastField (reads_named depth name (hfirst _) hback)
  | (next, value) :: fields, name, first, hfirst => by
      have hmore := reads_printFields depth hback fields next value
        fun rest ↦ reads_print depth rest value
      rw [namedData, printFields]
      refine .field (reads_named depth name (hfirst _) (Gap.refl _)) ?_
      simpa using hmore

end

/-- The printed form of a value with a line end behind it is a document for that value and for
nothing else. -/
theorem document_render (value : Json) (meaning : Datum) :
    Document meaning (value.render ++ "\n") ↔ meaning = value.datum := by
  have hvalue : Document value.datum (value.render ++ "\n") := by
    have hlineEnd : Gap ['\n'] [] := ⟨['\n'], by simp [isSpace], rfl⟩
    rw [Document, render, String.toList_append, String.toList_ofList]
    exact .element (Gap.refl _) (reads_print 0 _ value) hlineEnd
  constructor
  · intro hmeaning
    exact hmeaning.unique hvalue
  · rintro rfl
    exact hvalue

end Json

/-! ## Records -/

/-- The object that stands for a record in a document. -/
def Record.datum (record : Record) : Json.Datum :=
  .object [("kind", .number record.kind.toInt), ("kind_name", .string record.kindName),
    ("text", .string record.text), ("line", .number record.line.toInt)]

/-- What is printed for records stands for their objects. -/
theorem Json.data_records (records : List Record) :
    data (records.map Record.json) = records.map Record.datum := by
  induction records with
  | nil => rfl
  | cons record records ih =>
      rw [List.map_cons, data, ih]
      rfl

/-- A record is known from its object. -/
theorem Record.datum_injective {record record' : Record} (h : record.datum = record'.datum) :
    record = record' := by
  cases record
  cases record'
  simpa only [datum, Json.Datum.object.injEq, List.cons.injEq, Prod.mk.injEq,
    Json.Datum.number.injEq, Json.Datum.string.injEq, Rat.intCast_inj, Int32.toInt_inj, true_and,
    and_true, mk.injEq] using h

/-- The document with the records is JSON, stands for the array of their objects and for nothing
else, and is printed for no other records, whatever their kinds, names, texts and lines are. -/
theorem document_faithful (records : List Record) :
    (∀ datum, Json.Document datum (dump .json records).stdout ↔
        datum = .array (records.map Record.datum)) ∧
      ∀ records', (dump .json records').stdout = (dump .json records).stdout ↔
        records' = records := by
  have hdocument (records : List Record) (datum : Json.Datum) :
      Json.Document datum (dump .json records).stdout ↔
        datum = .array (records.map Record.datum) := by
    rw [← Json.data_records]
    exact Json.document_render (.array (records.map Record.json)) datum
  refine ⟨hdocument records, ?_⟩
  intro records'
  constructor
  · intro hstdout
    have hread := (hdocument records' (.array (records'.map Record.datum))).2 rfl
    rw [hstdout, hdocument records] at hread
    exact (List.map_inj_right fun _ _ ↦ Record.datum_injective).1 (Json.Datum.array.inj hread)
  · rintro rfl
    rfl

end AhoyScan
