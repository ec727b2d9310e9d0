import AhoyScan.Proofs.Numerals
import Mathlib.Algebra.Field.Rat

/-!
# The grammar of JSON

What a JSON text stands for. `Reads` relates a phrase of the grammar to the texts that begin with it
and to what is left behind it. White space may stand around every mark, numbers may have a fraction
and an exponent, and a character of a string may be written as itself, by a short escape or by its
code units in UTF-16.

Reading a text is unambiguous (`Reads.unique`), so a text is a document for one datum at most.
-/

namespace AhoyScan.Json

/-- What a JSON text stands for. The fields of an object keep their order. -/
inductive Datum where
  | null
  | bool (value : Bool)
  | number (value : ℚ)
  | string (text : String)
  | array (items : List Datum)
  | object (fields : List (String × Datum))

/-! ## The grammar -/

/-- White space. -/
def isSpace (c : Char) : Bool :=
  c = ' ' || c = '\t' || c = '\n' || c = '\r'

/-- The text is white space, of which there may be none, before the rest. -/
def Gap (text rest : List Char) : Prop :=
  ∃ gap, (∀ c ∈ gap, isSpace c = true) ∧ text = gap ++ rest

/-- One or more digits. -/
@[ext]
structure Digits where
  chars : List Char
  nonempty : chars ≠ []
  isDigit : ∀ c ∈ chars, c.isDigit = true

/-- The number that the digits stand for. -/
def Digits.value (digits : Digits) : Nat :=
  Nat.ofDigitChars 10 digits.chars 0

/-- A sign. -/
inductive Sign where
  | plus
  | minus

/-- The character for a sign. -/
def Sign.char : Sign → Char
  | plus => '+'
  | minus => '-'

/-- An integer with this absolute value. -/
def Sign.apply : Sign → Nat → ℤ
  | plus, n => n
  | minus, n => -n

/-- The exponent of a number: a mark, perhaps a sign, and digits. -/
structure Exponent where
  mark : Char
  sign : Option Sign
  digits : Digits
  mark_eq : mark = 'e' ∨ mark = 'E'

namespace Exponent

/-- An exponent as it is written. -/
def chars (exponent : Exponent) : List Char :=
  exponent.mark :: (exponent.sign.toList.map Sign.char ++ exponent.digits.chars)

/-- The power of ten that the exponent stands for. -/
def value (exponent : Exponent) : ℤ :=
  (exponent.sign.getD .plus).apply exponent.digits.value

end Exponent

/-- A number as it is written: perhaps a minus sign, digits without a needless 0 in front, perhaps
a fraction and perhaps an exponent. -/
structure Numeral where
  negative : Bool
  whole : Digits
  fraction : Option Digits
  exponent : Option Exponent
  whole_plain : whole.chars = ['0'] ∨ whole.chars.head? ≠ some '0'

namespace Numeral

/-- What is written behind the whole digits. -/
def afterWhole (numeral : Numeral) : List Char :=
  numeral.fraction.elim [] ('.' :: ·.chars) ++ numeral.exponent.elim [] Exponent.chars

/-- A number as it is written. -/
def chars (numeral : Numeral) : List Char :=
  (if numeral.negative then ['-'] else []) ++ (numeral.whole.chars ++ numeral.afterWhole)

/-- The number that is written. -/
def value (numeral : Numeral) : ℚ :=
  (if numeral.negative then -1 else 1) *
    (numeral.whole.value +
      numeral.fraction.elim 0 fun digits ↦ (digits.value / 10 ^ digits.chars.length : ℚ)) *
    10 ^ numeral.exponent.elim 0 Exponent.value

end Numeral

/-- The text is a code unit in four hexadecimal digits and then the rest. -/
def CodeUnit (unit : Nat) (text rest : List Char) : Prop :=
  ∃ digits, digits.length = 4 ∧ hexNumber? digits = some unit ∧ text = digits ++ rest

/-- The escapes of one character, with what they stand for. -/
def shortEscapes : List (Char × Char) :=
  [('"', '"'), ('\\', '\\'), ('/', '/'), ('b', '\x08'), ('f', '\x0c'), ('n', '\n'), ('r', '\r'),
    ('t', '\t')]

/-- The text is a character of a string and then the rest. A code unit that is half of a pair
stands for no character without the other half. -/
inductive Letter : Char → List Char → List Char → Prop
  | plain {c : Char} {rest : List Char} (hcontrol : 0x20 ≤ c.toNat) (hquote : c ≠ '"')
      (hbackslash : c ≠ '\\') : Letter c (c :: rest) rest
  | short {mark c : Char} {rest : List Char} (h : (mark, c) ∈ shortEscapes) :
      Letter c ('\\' :: mark :: rest) rest
  | unit {c : Char} {text rest : List Char} (h : CodeUnit c.toNat text rest) :
      Letter c ('\\' :: 'u' :: text) rest
  | pair {c : Char} {high low : Nat} {text middle rest : List Char}
      (hhigh : CodeUnit high text ('\\' :: 'u' :: middle)) (hlow : CodeUnit low middle rest)
      (hlead : 0xD800 ≤ high ∧ high < 0xDC00) (htrail : 0xDC00 ≤ low ∧ low < 0xE000)
      (hc : c.toNat = 0x10000 + (high - 0xD800) * 0x400 + (low - 0xDC00)) :
      Letter c ('\\' :: 'u' :: text) rest

/-- The text is the characters of a string, the closing quote and then the rest. -/
inductive Letters : List Char → List Char → List Char → Prop
  | close {rest : List Char} : Letters [] ('"' :: rest) rest
  | letter {c : Char} {chars text middle rest : List Char} (hfirst : Letter c text middle)
      (hmore : Letters chars middle rest) : Letters (c :: chars) text rest

/-- The phrases of the grammar. An element is a value with white space around it; items and fields
are separated by commas. -/
inductive Phrase where
  | value
  | element
  | items
  | field
  | fields

/-- What phrases stand for. -/
abbrev Phrase.Meaning : Phrase → Type
  | value | element => Datum
  | items => List Datum
  | field => String × Datum
  | fields => List (String × Datum)

/-- The text is a phrase that stands for this and then the rest. -/
inductive Reads : (phrase : Phrase) → phrase.Meaning → List Char → List Char → Prop
  | nullName {rest : List Char} : Reads .value .null ('n' :: 'u' :: 'l' :: 'l' :: rest) rest
  | trueName {rest : List Char} :
      Reads .value (.bool true) ('t' :: 'r' :: 'u' :: 'e' :: rest) rest
  | falseName {rest : List Char} :
      Reads .value (.bool false) ('f' :: 'a' :: 'l' :: 's' :: 'e' :: rest) rest
  | number {numeral : Numeral} {text rest : List Char} (h : text = numeral.chars ++ rest) :
      Reads .value (.number numeral.value) text rest
  | string {string : String} {text rest : List Char} (h : Letters string.toList text rest) :
      Reads .value (.string string) ('"' :: text) rest
  | emptyArray {text rest : List Char} (h : Gap text (']' :: rest)) :
      Reads .value (.array []) ('[' :: text) rest
  | array {data : List Datum} {text rest : List Char} (h : Reads .items data text (']' :: rest)) :
      Reads .value (.array data) ('[' :: text) rest
  | emptyObject {text rest : List Char} (h : Gap text ('\x7d' :: rest)) :
      Reads .value (.object []) ('\x7b' :: text) rest
  | object {fields : List (String × Datum)} {text rest : List Char}
      (h : Reads .fields fields text ('\x7d' :: rest)) :
      Reads .value (.object fields) ('\x7b' :: text) rest
  | element {datum : Datum} {text start stop rest : List Char} (hbefore : Gap text start)
      (hvalue : Reads .value datum start stop) (hafter : Gap stop rest) :
      Reads .element datum text rest
  | lastItem {datum : Datum} {text rest : List Char} (h : Reads .element datum text rest) :
      Reads .items [datum] text rest
  | item {datum : Datum} {data : List Datum} {text middle rest : List Char}
      (hfirst : Reads .element datum text (',' :: middle)) (hmore : Reads .items data middle rest) :
      Reads .items (datum :: data) text rest
  | named {name : String} {datum : Datum} {text start stop after rest : List Char}
      (hbefore : Gap text ('"' :: start)) (hname : Letters name.toList start stop)
      (hafter : Gap stop (':' :: after)) (hvalue : Reads .element datum after rest) :
      Reads .field (name, datum) text rest
  | lastField {field : String × Datum} {text rest : List Char} (h : Reads .field field text rest) :
      Reads .fields [field] text rest
  | field {field : String × Datum} {fields : List (String × Datum)} {text middle rest : List Char}
      (hfirst : Reads .field field text (',' :: middle))
      (hmore : Reads .fields fields middle rest) : Reads .fields (field :: fields) text rest

/-- The text is a JSON document for the datum. -/
def Document (datum : Datum) (text : String) : Prop :=
  Reads .element datum text.toList []

/-! ## Characters -/

variable {text rest rest' : List Char}

/-- White space up to a text that begins without it ends in one place. -/
theorem Gap.unique (h : Gap text rest) (h' : Gap text rest')
    (hrest : ∀ c ∈ rest.head?, isSpace c = false) (hrest' : ∀ c ∈ rest'.head?, isSpace c = false) :
    rest = rest' := by
  obtain ⟨gap, hgap, rfl⟩ := h
  obtain ⟨gap', hgap', heq⟩ := h'
  exact (append_inj_of_run hgap hgap' hrest hrest' heq).2

/-- White space up to other characters ends before one of them. -/
theorem Gap.unique_cons {c c' : Char} (h : Gap text (c :: rest)) (h' : Gap text (c' :: rest'))
    (hc : isSpace c = false) (hc' : isSpace c' = false) : c = c' ∧ rest = rest' := by
  have hhead {d : Char} {tail : List Char} (hd : isSpace d = false) :
      ∀ e ∈ (d :: tail).head?, isSpace e = false := by simpa using hd
  exact List.cons.inj (h.unique h' (hhead hc) (hhead hc'))

/-- What begins a text with white space in front is white space or begins what is behind it. -/
theorem Gap.head (h : Gap text rest) :
    ∀ c ∈ text.head?, isSpace c = true ∨ c ∈ rest.head? := by
  obtain ⟨gap, hgap, rfl⟩ := h
  intro c hc
  cases gap with
  | nil => exact .inr hc
  | cons space gap =>
      obtain rfl : space = c := Option.some.inj hc
      exact .inl (hgap _ List.mem_cons_self)

/-- A code unit is known from the text, and so is the rest. -/
theorem CodeUnit.unique {unit unit' : Nat} (h : CodeUnit unit text rest)
    (h' : CodeUnit unit' text rest') : unit = unit' ∧ rest = rest' := by
  obtain ⟨digits, hlength, hunit, rfl⟩ := h
  obtain ⟨digits', hlength', hunit', heq⟩ := h'
  obtain ⟨rfl, hrest⟩ := List.append_inj heq (hlength.trans hlength'.symm)
  exact ⟨Option.some.inj (hunit.symm.trans hunit'), hrest⟩

/-- The number of a character is no half of a pair. -/
theorem toNat_lt_or_le (c : Char) : c.toNat < 0xD800 ∨ 0xE000 ≤ c.toNat := by
  rcases c.valid with hsmall | hlarge
  · exact .inl hsmall
  · exact .inr hlarge.1

/-- A short escape stands for one character. -/
theorem shortEscapes_functional : ∀ entry ∈ shortEscapes, ∀ entry' ∈ shortEscapes,
    entry.1 = entry'.1 → entry.2 = entry'.2 := by
  decide

/-- No short escape has the mark of a code unit. -/
theorem unit_notMem_shortEscapes (c : Char) : ('u', c) ∉ shortEscapes := by
  simp [shortEscapes]

/-- A character of a string is known from the text, and so is the rest. -/
theorem Letter.unique {c c' : Char} (h : Letter c text rest) (h' : Letter c' text rest') :
    c = c' ∧ rest = rest' := by
  cases h with
  | plain hcontrol hquote hbackslash =>
      cases h' with
      | plain => exact ⟨rfl, rfl⟩
      | short | unit | pair => exact absurd rfl hbackslash
  | short h =>
      cases h' with
      | plain _ _ hbackslash => exact absurd rfl hbackslash
      | short h' => exact ⟨shortEscapes_functional _ h _ h' rfl, rfl⟩
      | unit | pair => exact absurd h (unit_notMem_shortEscapes c)
  | unit h =>
      cases h' with
      | plain _ _ hbackslash => exact absurd rfl hbackslash
      | short h' => exact absurd h' (unit_notMem_shortEscapes c')
      | unit h' =>
          obtain ⟨hunit, hrest⟩ := h.unique h'
          exact ⟨Char.toNat_inj.1 hunit, hrest⟩
      | pair hhigh _ hlead =>
          obtain ⟨rfl, -⟩ := h.unique hhigh
          have := toNat_lt_or_le c
          omega
  | pair hhigh hlow hlead htrail hc =>
      cases h' with
      | plain _ _ hbackslash => exact absurd rfl hbackslash
      | short h' => exact absurd h' (unit_notMem_shortEscapes c')
      | unit h' =>
          obtain ⟨rfl, -⟩ := h'.unique hhigh
          have := toNat_lt_or_le c'
          omega
      | pair hhigh' hlow' _ _ hc' =>
          obtain ⟨rfl, hmiddle⟩ := hhigh.unique hhigh'
          obtain rfl := (List.cons.inj (List.cons.inj hmiddle).2).2
          obtain ⟨rfl, hrest⟩ := hlow.unique hlow'
          exact ⟨Char.toNat_inj.1 (hc.trans hc'.symm), hrest⟩

/-- The halves of a pair stand for one character together. -/
example : Letter '😀' ['\\', 'u', 'd', '8', '3', 'd', '\\', 'u', 'D', 'E', '0', '0'] [] := by
  have hhigh : CodeUnit 0xD83D ['d', '8', '3', 'd', '\\', 'u', 'D', 'E', '0', '0']
      ['\\', 'u', 'D', 'E', '0', '0'] := ⟨['d', '8', '3', 'd'], by decide⟩
  have hlow : CodeUnit 0xDE00 ['D', 'E', '0', '0'] [] := ⟨['D', 'E', '0', '0'], by decide⟩
  exact .pair hhigh hlow (by decide) (by decide) (by decide)

/-- A closing quote is no character of the string. -/
theorem Letter.not_quote {c : Char} : ¬ Letter c ('"' :: text) rest := by
  intro h
  cases h with
  | plain _ hquote => exact hquote rfl

/-- The characters of a string are known from the text, and so is the rest. -/
theorem Letters.unique {chars chars' : List Char} (h : Letters chars text rest)
    (h' : Letters chars' text rest') : chars = chars' ∧ rest = rest' := by
  induction h generalizing chars' with
  | close =>
      cases h' with
      | close => exact ⟨rfl, rfl⟩
      | letter hfirst => exact absurd hfirst Letter.not_quote
  | letter hfirst _ ih =>
      cases h' with
      | close => exact absurd hfirst Letter.not_quote
      | letter hfirst' hmore' =>
          obtain ⟨rfl, rfl⟩ := hfirst.unique hfirst'
          obtain ⟨rfl, hrest⟩ := ih hmore'
          exact ⟨rfl, hrest⟩

/-! ## Numbers -/

/-- Digits begin with a digit. -/
theorem Digits.exists_cons (digits : Digits) :
    ∃ c tail, digits.chars = c :: tail ∧ c.isDigit = true := by
  obtain ⟨c, tail, hchars⟩ := List.exists_cons_of_ne_nil digits.nonempty
  exact ⟨c, tail, hchars, digits.isDigit c (hchars ▸ List.mem_cons_self)⟩

/-- Digits do not begin with a sign. -/
theorem Digits.ne_sign (digits : Digits) (sign : Sign) (tail : List Char) :
    digits.chars ≠ sign.char :: tail := by
  intro h
  have hdigit := digits.isDigit sign.char (h ▸ List.mem_cons_self)
  cases sign <;> cases hdigit

namespace Exponent

/-- An exponent does not begin with a digit. -/
theorem isDigit_head (exponent : Option Exponent) :
    ∀ c ∈ (exponent.elim [] chars).head?, c.isDigit = false := by
  intro c hc
  cases exponent with
  | none => cases hc
  | some exponent =>
      obtain rfl : exponent.mark = c := Option.some.inj hc
      rcases exponent.mark_eq with h | h <;> rw [h] <;> rfl

/-- The value of an exponent is known from its characters. -/
theorem value_eq {exponent exponent' : Exponent} (h : exponent.chars = exponent'.chars) :
    exponent.value = exponent'.value := by
  obtain ⟨mark, sign, digits, hmark⟩ := exponent
  obtain ⟨mark', sign', digits', hmark'⟩ := exponent'
  have hbehind := (List.cons.inj h).2
  cases sign with
  | none =>
      cases sign' with
      | none => obtain rfl := Digits.ext hbehind; rfl
      | some sign' => exact absurd hbehind (digits.ne_sign sign' _)
  | some sign =>
      cases sign' with
      | none => exact absurd hbehind.symm (digits'.ne_sign sign _)
      | some sign' =>
          obtain ⟨hsign, hdigits⟩ := List.cons.inj hbehind
          obtain rfl := Digits.ext hdigits
          obtain rfl : sign = sign' := by cases sign <;> cases sign' <;> trivial
          rfl

/-- Whether there is an exponent is known as well. -/
theorem elim_value_eq {exponent exponent' : Option Exponent}
    (h : exponent.elim [] chars = exponent'.elim [] chars) :
    exponent.elim 0 value = exponent'.elim 0 value := by
  cases exponent with
  | none =>
      cases exponent' with
      | none => rfl
      | some exponent' => cases h
  | some exponent =>
      cases exponent' with
      | none => cases h
      | some exponent' => exact value_eq h

end Exponent

/-- The characters of numbers. -/
def isNumeric (c : Char) : Bool :=
  c.isDigit || c = '-' || c = '+' || c = '.' || c = 'e' || c = 'E'

namespace Numeral

variable {numeral numeral' : Numeral}

/-- The whole digits end where something else begins. -/
theorem isDigit_head_afterWhole (numeral : Numeral) :
    ∀ c ∈ numeral.afterWhole.head?, c.isDigit = false := by
  obtain ⟨negative, whole, fraction, exponent, hplain⟩ := numeral
  intro c hc
  cases fraction with
  | some digits => obtain rfl := Option.some.inj hc; rfl
  | none => exact Exponent.isDigit_head exponent c hc

/-- The fraction and the exponent are known from what is written behind the whole digits. -/
theorem afterWhole_inj (h : numeral.afterWhole = numeral'.afterWhole) :
    numeral.fraction = numeral'.fraction ∧
      numeral.exponent.elim 0 Exponent.value = numeral'.exponent.elim 0 Exponent.value := by
  obtain ⟨negative, whole, fraction, exponent, hplain⟩ := numeral
  obtain ⟨negative', whole', fraction', exponent', hplain'⟩ := numeral'
  -- The mark of an exponent is no point.
  have hpoint {exponent : Option Exponent} {tail : List Char} :
      exponent.elim [] Exponent.chars ≠ '.' :: tail := by
    intro heq
    cases exponent with
    | none => cases heq
    | some exponent =>
        have hmark := exponent.mark_eq
        rw [(List.cons.inj heq).1] at hmark
        revert hmark
        decide
  cases fraction with
  | none =>
      cases fraction' with
      | none => exact ⟨rfl, Exponent.elim_value_eq h⟩
      | some digits' => exact absurd h hpoint
  | some digits =>
      cases fraction' with
      | none => exact absurd h.symm hpoint
      | some digits' =>
          obtain ⟨hdigits, hexponent⟩ := append_inj_of_run digits.isDigit digits'.isDigit
            (Exponent.isDigit_head exponent) (Exponent.isDigit_head exponent') (List.cons.inj h).2
          exact ⟨congrArg some (Digits.ext hdigits), Exponent.elim_value_eq hexponent⟩

/-- A number is known from its characters. -/
theorem value_eq (h : numeral.chars = numeral'.chars) : numeral.value = numeral'.value := by
  -- No digits begin with the sign.
  have hsign {numeral numeral' : Numeral} : '-' :: (numeral.whole.chars ++ numeral.afterWhole) ≠
      numeral'.whole.chars ++ numeral'.afterWhole := by
    obtain ⟨c, tail, hchars, hdigit⟩ := numeral'.whole.exists_cons
    rw [hchars]
    intro heq
    rw [← (List.cons.inj heq).1] at hdigit
    cases hdigit
  have hunsigned : numeral.negative = numeral'.negative ∧
      numeral.whole.chars ++ numeral.afterWhole = numeral'.whole.chars ++ numeral'.afterWhole := by
    unfold chars at h
    cases hnegative : numeral.negative <;> cases hnegative' : numeral'.negative <;>
      rw [hnegative, hnegative'] at h
    · exact ⟨rfl, h⟩
    · exact absurd h.symm hsign
    · exact absurd h hsign
    · exact ⟨rfl, (List.cons.inj h).2⟩
  obtain ⟨hnegative, hdigits⟩ := hunsigned
  obtain ⟨hwhole, hafter⟩ := append_inj_of_run numeral.whole.isDigit numeral'.whole.isDigit
    numeral.isDigit_head_afterWhole numeral'.isDigit_head_afterWhole hdigits
  obtain ⟨hfraction, hexponent⟩ := afterWhole_inj hafter
  rw [value, value, hnegative, Digits.ext hwhole, hfraction, hexponent]

/-- The fraction counts tenths and the exponent moves the point. -/
example : ∃ numeral : Numeral, numeral.chars = ['-', '0', '.', '5', 'E', '-', '2'] ∧
    numeral.value = -1 / 200 := by
  let digit (c : Char) (h : c.isDigit = true) : Digits := ⟨[c], by simp, by simpa using h⟩
  refine ⟨⟨true, digit '0' rfl, some (digit '5' rfl),
    some ⟨'E', some .minus, digit '2' rfl, .inr rfl⟩, .inl rfl⟩, ?_, ?_⟩
  · rfl
  · decide +kernel

/-- A number is made of the characters of numbers. -/
theorem isNumeric_of_mem {c : Char} (h : c ∈ numeral.chars) : isNumeric c = true := by
  have hdigits {digits : Digits} (h : c ∈ digits.chars) : isNumeric c = true := by
    simp [isNumeric, digits.isDigit c h]
  obtain ⟨negative, whole, fraction, exponent, hplain⟩ := numeral
  rw [chars, List.mem_append, List.mem_append, afterWhole, List.mem_append] at h
  rcases h with hsign | hwhole | hfraction | hexponent
  · cases negative with
    | true => obtain rfl := List.mem_singleton.1 hsign; rfl
    | false => cases hsign
  · exact hdigits hwhole
  · cases fraction with
    | none => cases hfraction
    | some digits =>
        rcases List.mem_cons.1 hfraction with rfl | hmem
        · rfl
        · exact hdigits hmem
  · cases exponent with
    | none => cases hexponent
    | some exponent =>
        rcases List.mem_cons.1 hexponent with rfl | hmem
        · rcases exponent.mark_eq with h | h <;> rw [h] <;> rfl
        · rcases List.mem_append.1 hmem with hsign | hmem
          · obtain ⟨sign, -, rfl⟩ := List.mem_map.1 hsign
            cases sign <;> rfl
          · exact hdigits hmem

/-- A number begins with one of the characters of numbers. -/
theorem exists_cons (numeral : Numeral) :
    ∃ c tail, numeral.chars = c :: tail ∧ isNumeric c = true := by
  have hnonempty : numeral.chars ≠ [] :=
    List.append_ne_nil_of_right_ne_nil _
      (List.append_ne_nil_of_left_ne_nil numeral.whole.nonempty _)
  obtain ⟨c, tail, hchars⟩ := List.exists_cons_of_ne_nil hnonempty
  exact ⟨c, tail, hchars, isNumeric_of_mem (hchars ▸ List.mem_cons_self)⟩

/-- What begins with another character is no number. -/
theorem cons_ne {c : Char} (h : isNumeric c = false) : c :: text ≠ numeral.chars ++ rest := by
  obtain ⟨first, tail, hchars, hnumeric⟩ := numeral.exists_cons
  rw [hchars]
  intro heq
  rw [← (List.cons.inj heq).1, h] at hnumeric
  cases hnumeric

end Numeral

/-! ## Phrases -/

/-- The characters that may stand behind a phrase. Behind white space they show where it ends. -/
def Phrase.Before : Phrase → Char → Prop
  | value, c => isNumeric c = false
  | element, c | field, c => c = ',' ∨ c = ']' ∨ c = '\x7d'
  | items, c | fields, c => c = ']' ∨ c = '\x7d'

/-- The rest, if there is one, begins with a character that may stand behind the phrase. -/
def Phrase.Ends (phrase : Phrase) (rest : List Char) : Prop :=
  ∀ c ∈ rest.head?, phrase.Before c

/-- A character that may stand behind a phrase ends it. -/
theorem Phrase.Ends.cons {phrase : Phrase} {c : Char} (h : phrase.Before c) :
    phrase.Ends (c :: rest) := by
  intro d hd
  obtain rfl : c = d := Option.some.inj hd
  exact h

/-- What ends the items of an array or the fields of an object ends the last one of them. -/
theorem Phrase.Ends.last (h : Phrase.items.Ends rest) : Phrase.element.Ends rest :=
  fun c hc ↦ .inr (h c hc)

/-- What ends an element is no white space. -/
theorem Phrase.Ends.isSpace_head (h : Phrase.element.Ends rest) :
    ∀ c ∈ rest.head?, isSpace c = false := by
  intro c hc
  rcases h c hc with rfl | rfl | rfl <;> rfl

/-- White space is not numeric. -/
theorem isNumeric_of_isSpace {c : Char} (h : isSpace c = true) : isNumeric c = false := by
  simp only [isSpace, Bool.or_eq_true, decide_eq_true_eq] at h
  rcases h with ((rfl | rfl) | rfl) | rfl <;> rfl

/-- White space that ends with an element ends its value. -/
theorem Gap.ends_value (h : Gap text rest) (hrest : Phrase.element.Ends rest) :
    Phrase.value.Ends text := by
  intro c hc
  rcases h.head c hc with hspace | hc
  · exact isNumeric_of_isSpace hspace
  · rcases hrest c hc with rfl | rfl | rfl <;> rfl

namespace Reads

/-- A value begins neither with white space nor with a closing bracket. -/
theorem head {datum : Datum} (h : Reads .value datum text rest) :
    ∀ c ∈ text.head?, isSpace c = false ∧ c ≠ ']' := by
  cases h with
  | @number numeral _ _ h =>
      obtain ⟨first, tail, hchars, hnumeric⟩ := numeral.exists_cons
      rw [h, hchars]
      intro c hc
      obtain rfl : first = c := Option.some.inj hc
      constructor
      · exact Bool.eq_false_iff.2 fun hspace ↦
          Bool.false_ne_true ((isNumeric_of_isSpace hspace).symm.trans hnumeric)
      · rintro rfl
        cases hnumeric
  | nullName | trueName | falseName | string | emptyArray | array | emptyObject | object =>
      simp [isSpace]

/-- Items are no white space before a closing bracket. -/
theorem not_gap_of_items {data : List Datum} (h : Reads .items data text rest) :
    ¬ Gap text (']' :: rest') := by
  have helement {datum : Datum} {rest : List Char} (h : Reads .element datum text rest) :
      ¬ Gap text (']' :: rest') := by
    intro hgap
    cases h with
    | element hbefore hvalue =>
        have hstart := hbefore.unique hgap (fun c hc ↦ (hvalue.head c hc).1) (by simp [isSpace])
        exact (hvalue.head ']' (by rw [hstart]; rfl)).2 rfl
  cases h with
  | lastItem h => exact helement h
  | item hfirst => exact helement hfirst

/-- Fields are no white space before a closing brace. -/
theorem not_gap_of_fields {fields : List (String × Datum)} (h : Reads .fields fields text rest) :
    ¬ Gap text ('\x7d' :: rest') := by
  have hfield {field : String × Datum} {rest : List Char} (h : Reads .field field text rest) :
      ¬ Gap text ('\x7d' :: rest') := by
    intro hgap
    cases h with
    | named hbefore => exact absurd (hbefore.unique_cons hgap rfl rfl).1 (by decide)
  cases h with
  | lastField h => exact hfield h
  | field hfirst => exact hfield hfirst

/-- A phrase is known from the text, if what is behind it may stand there, and so is the rest. -/
theorem unique {phrase : Phrase} {meaning meaning' : phrase.Meaning}
    (h : Reads phrase meaning text rest) (h' : Reads phrase meaning' text rest')
    (hrest : phrase.Ends rest) (hrest' : phrase.Ends rest') :
    meaning = meaning' ∧ rest = rest' := by
  have hbracket {rest : List Char} : Phrase.items.Ends (']' :: rest) := .cons (Or.inl rfl)
  have hbrace {rest : List Char} : Phrase.fields.Ends ('\x7d' :: rest) := .cons (Or.inr rfl)
  have hcomma {rest : List Char} : Phrase.element.Ends (',' :: rest) := .cons (Or.inl rfl)
  have hstuck {rest : List Char} : ¬ Phrase.items.Ends (',' :: rest) := by
    intro h
    rcases h ',' rfl with hbracket | hbrace
    · exact absurd hbracket (by decide)
    · exact absurd hbrace (by decide)
  -- By induction on the first derivation. The mark at the front of the text tells how the other one
  -- begins, except for a number, which has no mark of its own; the hypotheses tell where parts end.
  induction h generalizing rest' with
  | nullName | trueName | falseName =>
      cases h' with
      | number h' => exact absurd h' (Numeral.cons_ne rfl)
      | _ => exact ⟨rfl, rfl⟩
  | number h =>
      cases h' with
      | number h' =>
          obtain ⟨hchars, hsame⟩ := append_inj_of_run (fun _ ↦ Numeral.isNumeric_of_mem)
            (fun _ ↦ Numeral.isNumeric_of_mem) hrest hrest' (h.symm.trans h')
          exact ⟨congrArg Datum.number (Numeral.value_eq hchars), hsame⟩
      | _ => exact absurd h (Numeral.cons_ne rfl)
  | string h =>
      cases h' with
      | string h' =>
          obtain ⟨hchars, hrest⟩ := h.unique h'
          exact ⟨congrArg Datum.string (String.toList_inj.1 hchars), hrest⟩
      | number h' => exact absurd h' (Numeral.cons_ne rfl)
  | emptyArray h =>
      cases h' with
      | emptyArray h' => exact ⟨rfl, (h.unique_cons h' rfl rfl).2⟩
      | array h' => exact absurd h h'.not_gap_of_items
      | number h' => exact absurd h' (Numeral.cons_ne rfl)
  | array h ih =>
      cases h' with
      | emptyArray h' => exact absurd h' h.not_gap_of_items
      | array h' =>
          obtain ⟨rfl, hsame⟩ := ih h' hbracket hbracket
          exact ⟨rfl, (List.cons.inj hsame).2⟩
      | number h' => exact absurd h' (Numeral.cons_ne rfl)
  | emptyObject h =>
      cases h' with
      | emptyObject h' => exact ⟨rfl, (h.unique_cons h' rfl rfl).2⟩
      | object h' => exact absurd h h'.not_gap_of_fields
      | number h' => exact absurd h' (Numeral.cons_ne rfl)
  | object h ih =>
      cases h' with
      | emptyObject h' => exact absurd h' h.not_gap_of_fields
      | object h' =>
          obtain ⟨rfl, hsame⟩ := ih h' hbrace hbrace
          exact ⟨rfl, (List.cons.inj hsame).2⟩
      | number h' => exact absurd h' (Numeral.cons_ne rfl)
  | element hbefore hvalue hafter ih =>
      cases h' with
      | element hbefore' hvalue' hafter' =>
          obtain rfl := hbefore.unique hbefore' (fun c hc ↦ (hvalue.head c hc).1)
            (fun c hc ↦ (hvalue'.head c hc).1)
          obtain ⟨rfl, rfl⟩ := ih hvalue' (hafter.ends_value hrest) (hafter'.ends_value hrest')
          exact ⟨rfl, hafter.unique hafter' hrest.isSpace_head hrest'.isSpace_head⟩
  | lastItem h ih =>
      cases h' with
      | lastItem h' =>
          obtain ⟨rfl, hsame⟩ := ih h' hrest.last hrest'.last
          exact ⟨rfl, hsame⟩
      | item hfirst' =>
          obtain ⟨-, rfl⟩ := ih hfirst' hrest.last hcomma
          exact absurd hrest hstuck
  | item hfirst hmore ihfirst ihmore =>
      cases h' with
      | lastItem h' =>
          obtain ⟨-, rfl⟩ := ihfirst h' hcomma hrest'.last
          exact absurd hrest' hstuck
      | item hfirst' hmore' =>
          obtain ⟨rfl, hmiddle⟩ := ihfirst hfirst' hcomma hcomma
          obtain rfl := (List.cons.inj hmiddle).2
          obtain ⟨rfl, hsame⟩ := ihmore hmore' hrest hrest'
          exact ⟨rfl, hsame⟩
  | named hbefore hname hafter hvalue ih =>
      cases h' with
      | named hbefore' hname' hafter' hvalue' =>
          obtain ⟨-, rfl⟩ := hbefore.unique_cons hbefore' rfl rfl
          obtain ⟨hchars, rfl⟩ := hname.unique hname'
          obtain rfl := String.toList_inj.1 hchars
          obtain ⟨-, rfl⟩ := hafter.unique_cons hafter' rfl rfl
          obtain ⟨rfl, hsame⟩ := ih hvalue' hrest hrest'
          exact ⟨rfl, hsame⟩
  | lastField h ih =>
      cases h' with
      | lastField h' =>
          obtain ⟨rfl, hsame⟩ := ih h' hrest.last hrest'.last
          exact ⟨rfl, hsame⟩
      | field hfirst' =>
          obtain ⟨-, rfl⟩ := ih hfirst' hrest.last hcomma
          exact absurd hrest hstuck
  | field hfirst hmore ihfirst ihmore =>
      cases h' with
      | lastField h' =>
          obtain ⟨-, rfl⟩ := ihfirst h' hcomma hrest'.last
          exact absurd hrest' hstuck
      | field hfirst' hmore' =>
          obtain ⟨rfl, hmiddle⟩ := ihfirst hfirst' hcomma hcomma
          obtain rfl := (List.cons.inj hmiddle).2
          obtain ⟨rfl, hsame⟩ := ihmore hmore' hrest hrest'
          exact ⟨rfl, hsame⟩

end Reads

/-- A text is a document for one datum at most. -/
theorem Document.unique {datum datum' : Datum} {text : String} (h : Document datum text)
    (h' : Document datum' text) : datum = datum' := by
  have hend : Phrase.element.Ends [] := by
    intro c hc
    cases hc
  exact (Reads.unique h h' hend hend).1

end AhoyScan.Json
