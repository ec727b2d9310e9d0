import AhoyScan.Text.CString
import Mathlib.Data.List.TakeWhile
import Mathlib.Order.Bounds.Defs
import Mathlib.Tactic.Common

/-!
# Decoding undoes encoding

`Utf8.Spells` is the table of UTF-8: the bytes that stand for a value, one row for each length.
The bytes of a character are those that spell it (`spells_iff`), and these are the bytes from which
`first?` reads the character (`first?_eq_some_iff`). From there `decode_eq_ok_iff` says that
decoding accepts exactly the bytes of texts, and `decode_of_malformed` where it stops in others.
-/

namespace AhoyScan

namespace Utf8

/-- The bytes are the ones that stand for the value: a lead byte with the first bits, and six bits
in each tail byte, with no more tail bytes than the value needs. -/
inductive Spells (value : Nat) : List UInt8 → Prop where
  | one {lead : UInt8} :
      value < 0x80 → lead.toNat = value → Spells value [lead]
  | two {lead second : UInt8} :
      0x80 ≤ value → value < 0x800 → lead.toNat = 0xC0 + value / 64 →
      second.toNat = 0x80 + value % 64 → Spells value [lead, second]
  | three {lead second third : UInt8} :
      0x800 ≤ value → value < 0x10000 → lead.toNat = 0xE0 + value / 4096 →
      second.toNat = 0x80 + value / 64 % 64 → third.toNat = 0x80 + value % 64 →
      Spells value [lead, second, third]
  | four {lead second third fourth : UInt8} :
      0x10000 ≤ value → value < 0x200000 → lead.toNat = 0xF0 + value / 262144 →
      second.toNat = 0x80 + value / 4096 % 64 → third.toNat = 0x80 + value / 64 % 64 →
      fourth.toNat = 0x80 + value % 64 → Spells value [lead, second, third, fourth]

/-- The bytes are those of some text. -/
def WellFormed (bytes : List UInt8) : Prop :=
  ∃ chars, encode chars = bytes

/-! ## The bytes of a character -/

/-- A value is spelled in one way. -/
theorem Spells.unique {value : Nat} {bytes other : List UInt8} (h : Spells value bytes)
    (hother : Spells value other) : bytes = other := by
  cases h <;> cases hother <;>
    first
    | omega
    | simp only [List.cons.injEq, and_true, ← UInt8.toNat_inj]
      omega

/-- A character is encoded by the bytes that spell it. -/
theorem spells_encodeChar (c : Char) : Spells c.toNat (String.utf8EncodeChar c) := by
  have hvalid : c.toNat < 0xD800 ∨ 0xDFFF < c.toNat ∧ c.toNat < 0x110000 := c.valid
  have hbyte {n m : Nat} (h : n < 256 ∧ n = m) : (UInt8.ofNat n).toNat = m :=
    (UInt8.toNat_ofNat_of_lt' h.1).trans h.2
  rw [String.utf8EncodeChar, Char.toNat_val]
  split_ifs
  · exact .one (by omega) (hbyte (by omega))
  · exact .two (by omega) (by omega) (hbyte (by omega)) (hbyte (by omega))
  · exact .three (by omega) (by omega) (hbyte (by omega)) (hbyte (by omega)) (hbyte (by omega))
  · exact .four (by omega) (by omega) (hbyte (by omega)) (hbyte (by omega)) (hbyte (by omega))
      (hbyte (by omega))

/-- The bytes that spell a character are those it is encoded by. -/
theorem spells_iff {c : Char} {bytes : List UInt8} :
    Spells c.toNat bytes ↔ bytes = String.utf8EncodeChar c := by
  constructor
  · intro h
    exact h.unique (spells_encodeChar c)
  · rintro rfl
    exact spells_encodeChar c

/-! ## Reading a character -/

/-- One more tail byte adds its bits to the value. -/
theorem readTails_succ_eq_some_iff {n value : Nat} {bytes : List UInt8}
    {result : Nat × List UInt8} :
    readTails (n + 1) value bytes = some result ↔
      ∃ byte rest, bytes = byte :: rest ∧ byte.toNat / 64 = 2 ∧
        readTails n (64 * value + byte.toNat % 64) rest = some result := by
  cases bytes with
  | nil => simp [readTails]
  | cons byte rest => simp [readTails, isTail]

/-- Without tail bytes the value is what the lead byte contributes. -/
theorem readTails_zero_eq_some_iff {value total : Nat} {bytes rest : List UInt8} :
    readTails 0 value bytes = some (total, rest) ↔ value = total ∧ bytes = rest := by
  rw [readTails, Option.some.injEq, Prod.mk.injEq]

/-- A lead byte begins a sequence of the length that its own size says. -/
theorem form?_eq_some_iff {lead : UInt8} {form : Form} :
    form? lead = some form ↔
      (lead.toNat < 0x80 ∧ form = ⟨0, lead.toNat, 0⟩) ∨
      (0xC0 ≤ lead.toNat ∧ lead.toNat < 0xE0 ∧ form = ⟨1, lead.toNat - 0xC0, 0x80⟩) ∨
      (0xE0 ≤ lead.toNat ∧ lead.toNat < 0xF0 ∧ form = ⟨2, lead.toNat - 0xE0, 0x800⟩) ∨
      (0xF0 ≤ lead.toNat ∧ lead.toNat < 0xF8 ∧ form = ⟨3, lead.toNat - 0xF0, 0x10000⟩) := by
  rw [form?]
  split_ifs <;> grind

/-- A number that is a character's is the number of that character. -/
theorem toNat_ofNat {n : Nat} (h : n.isValidChar) : (Char.ofNat n).toNat = n := by
  rw [Char.ofNat, dif_pos h]
  rfl

/-- Reading a character takes the bits of the lead byte and of the tail bytes together. -/
theorem first?_cons_eq_some_iff {lead : UInt8} {bytes rest : List UInt8} {c : Char} :
    first? (lead :: bytes) = some (c, rest) ↔
      ∃ form, form? lead = some form ∧ form.least ≤ c.toNat ∧
        readTails form.tails form.bits bytes = some (c.toNat, rest) := by
  simp only [first?, Option.bind_eq_bind, Option.bind_eq_some_iff]
  constructor
  · rintro ⟨form, hform, ⟨value, rest'⟩, hread, h⟩
    split_ifs at h with hvalue
    obtain ⟨hleast, hvalid⟩ := hvalue
    cases h
    rw [toNat_ofNat hvalid]
    exact ⟨form, hform, hleast, hread⟩
  · rintro ⟨form, hform, hleast, hread⟩
    have hvalid : c.toNat.isValidChar := c.valid
    exact ⟨form, hform, (c.toNat, rest), hread, by simp [hleast, hvalid]⟩

/-- A character is read from the bytes that spell it. -/
theorem Spells.first? {front rest : List UInt8} {c : Char} (h : Spells c.toNat front) :
    first? (front ++ rest) = some (c, rest) := by
  cases h with
  | @one lead hshort hlead =>
      have hread : readTails 0 lead.toNat rest = some (c.toNat, rest) :=
        readTails_zero_eq_some_iff.2 ⟨hlead, rfl⟩
      exact first?_cons_eq_some_iff.2
        ⟨_, form?_eq_some_iff.2 (.inl ⟨by omega, rfl⟩), Nat.zero_le _, hread⟩
  | @two lead second hleast hshort hlead hsecond =>
      have hread : readTails 1 (lead.toNat - 0xC0) (second :: rest) = some (c.toNat, rest) := by
        simp only [readTails_succ_eq_some_iff, readTails_zero_eq_some_iff]
        exact ⟨_, _, rfl, by omega, by omega, rfl⟩
      exact first?_cons_eq_some_iff.2
        ⟨_, form?_eq_some_iff.2 (.inr (.inl ⟨by omega, by omega, rfl⟩)), hleast, hread⟩
  | @three lead second third hleast hshort hlead hsecond hthird =>
      have hread : readTails 2 (lead.toNat - 0xE0) (second :: third :: rest) =
          some (c.toNat, rest) := by
        simp only [readTails_succ_eq_some_iff, readTails_zero_eq_some_iff]
        exact ⟨_, _, rfl, by omega, _, _, rfl, by omega, by omega, rfl⟩
      exact first?_cons_eq_some_iff.2
        ⟨_, form?_eq_some_iff.2 (.inr (.inr (.inl ⟨by omega, by omega, rfl⟩))), hleast, hread⟩
  | @four lead second third fourth hleast hshort hlead hsecond hthird hfourth =>
      have hread : readTails 3 (lead.toNat - 0xF0) (second :: third :: fourth :: rest) =
          some (c.toNat, rest) := by
        simp only [readTails_succ_eq_some_iff, readTails_zero_eq_some_iff]
        exact ⟨_, _, rfl, by omega, _, _, rfl, by omega, _, _, rfl, by omega, by omega, rfl⟩
      exact first?_cons_eq_some_iff.2
        ⟨_, form?_eq_some_iff.2 (.inr (.inr (.inr ⟨by omega, by omega, rfl⟩))), hleast, hread⟩

/-- What a character is read from spells it. -/
theorem spells_of_first? {bytes rest : List UInt8} {c : Char} (h : first? bytes = some (c, rest)) :
    ∃ front, bytes = front ++ rest ∧ Spells c.toNat front := by
  cases bytes with
  | nil => cases h
  | cons lead bytes =>
      obtain ⟨form, hform, hleast, hread⟩ := first?_cons_eq_some_iff.1 h
      rcases form?_eq_some_iff.1 hform with ⟨hlead, rfl⟩ | ⟨hlead, hlead', rfl⟩ |
        ⟨hlead, hlead', rfl⟩ | ⟨hlead, hlead', rfl⟩
      · simp only [readTails_zero_eq_some_iff] at hread
        obtain ⟨hvalue, rfl⟩ := hread
        exact ⟨[lead], rfl, .one (by omega) hvalue⟩
      · simp only [readTails_succ_eq_some_iff, readTails_zero_eq_some_iff] at hread hleast
        obtain ⟨second, _, rfl, hsecond, hvalue, rfl⟩ := hread
        have hsize := second.toNat_lt
        exact ⟨[lead, second], rfl, .two hleast (by omega) (by omega) (by omega)⟩
      · simp only [readTails_succ_eq_some_iff, readTails_zero_eq_some_iff] at hread hleast
        obtain ⟨second, _, rfl, hsecond, third, _, rfl, hthird, hvalue, rfl⟩ := hread
        exact ⟨[lead, second, third], rfl,
          .three hleast (by omega) (by omega) (by omega) (by omega)⟩
      · simp only [readTails_succ_eq_some_iff, readTails_zero_eq_some_iff] at hread hleast
        obtain ⟨second, _, rfl, hsecond, third, _, rfl, hthird, fourth, _, rfl, hfourth, hvalue,
          rfl⟩ := hread
        exact ⟨[lead, second, third, fourth], rfl,
          .four hleast (by omega) (by omega) (by omega) (by omega) (by omega)⟩

/-- Reading a character takes its own bytes from the front, and nothing else can be read. -/
theorem first?_eq_some_iff {bytes rest : List UInt8} {c : Char} :
    first? bytes = some (c, rest) ↔ bytes = String.utf8EncodeChar c ++ rest := by
  constructor
  · intro h
    obtain ⟨front, rfl, hspells⟩ := spells_of_first? h
    rw [spells_iff.1 hspells]
  · rintro rfl
    exact (spells_encodeChar c).first?

/-! ## Reading a text -/

/-- The bytes of a character come before those of the others. -/
@[simp] theorem encode_cons (c : Char) (chars : List Char) :
    encode (c :: chars) = String.utf8EncodeChar c ++ encode chars :=
  List.flatMap_cons

/-- The bytes of a text come before those of the text after it. -/
@[simp] theorem encode_append (front back : List Char) :
    encode (front ++ back) = encode front ++ encode back :=
  List.flatMap_append

/-- Reading takes characters until what is left begins with none. -/
theorem longest_spec (bytes : List UInt8) :
    bytes = encode (longest bytes).1 ++ (longest bytes).2 ∧ first? (longest bytes).2 = none := by
  fun_induction longest bytes with
  | case1 bytes h => exact ⟨rfl, h⟩
  | case2 bytes c rest h _ chars left hlongest ih =>
      rw [hlongest] at ih
      refine ⟨?_, ih.2⟩
      rw [encode_cons, List.append_assoc, ← ih.1]
      exact first?_eq_some_iff.1 h

/-- The characters of a text are read one by one, and then those of what comes after it. -/
theorem longest_append (chars : List Char) (rest : List UInt8) :
    longest (encode chars ++ rest) = (chars ++ (longest rest).1, (longest rest).2) := by
  induction chars with
  | nil => rfl
  | cons c chars ih =>
      have hfirst : first? (encode (c :: chars) ++ rest) = some (c, encode chars ++ rest) := by
        rw [encode_cons, List.append_assoc]
        exact first?_eq_some_iff.2 rfl
      rw [longest]
      split
      · rename_i heq
        cases hfirst.symm.trans heq
      · rename_i heq
        cases hfirst.symm.trans heq
        rw [ih]
        rfl

/-- The bytes of a text are read as that text, with nothing left. -/
theorem longest_encode (chars : List Char) : longest (encode chars) = (chars, []) := by
  have hnil : longest [] = ([], []) := by
    rw [longest]
    split
    · rfl
    · rename_i heq
      cases heq
  have h := longest_append chars []
  rwa [List.append_nil, hnil, List.append_nil] at h

/-- No text in front of some bytes has more bytes than what is read of them. -/
theorem length_le_longest {bytes front : List UInt8} (hbegins : front <+: bytes)
    (h : WellFormed front) : front.length ≤ (encode (longest bytes).1).length := by
  obtain ⟨chars, rfl⟩ := h
  obtain ⟨rest, rfl⟩ := hbegins
  rw [longest_append, encode_append, List.length_append]
  exact Nat.le_add_right _ _

/-- Decoding accepts the bytes of a text as that text, and no others. -/
theorem decode_eq_ok_iff {bytes : List UInt8} {chars : List Char} :
    decode bytes = .ok chars ↔ encode chars = bytes := by
  constructor
  · intro h
    have hspec := longest_spec bytes
    rw [decode] at h
    split at h
    · rename_i heq
      cases h
      rw [heq, List.append_nil] at hspec
      exact hspec.1.symm
    · cases h
  · rintro rfl
    rw [decode, longest_encode]

/-- Bytes that are no text are refused, and the offset is the length of the longest text in front of
them. -/
theorem decode_of_malformed {bytes : List UInt8} (h : ¬ WellFormed bytes) :
    ∃ offset, decode bytes = .error offset ∧ offset < bytes.length ∧
      IsGreatest {n | ∃ front, front <+: bytes ∧ WellFormed front ∧ front.length = n} offset := by
  obtain ⟨hsplit, -⟩ := longest_spec bytes
  cases hlongest : longest bytes with
  | mk chars left =>
      rw [hlongest] at hsplit
      cases left with
      | nil => exact absurd ⟨chars, by rw [hsplit, List.append_nil]⟩ h
      | cons byte left =>
          have hlength : bytes.length = (encode chars).length + (left.length + 1) := by
            rw [hsplit, List.length_append, List.length_cons]
          refine ⟨(encode chars).length, ?_, by omega, ?_, ?_⟩
          · have hoffset : bytes.length - (byte :: left).length = (encode chars).length := by
              rw [List.length_cons]
              omega
            rw [decode, hlongest, ← hoffset]
          · exact ⟨encode chars, ⟨byte :: left, hsplit.symm⟩, ⟨chars, rfl⟩, rfl⟩
          · rintro n ⟨front, hbegins, hfront, rfl⟩
            have hle := length_le_longest hbegins hfront
            rwa [hlongest] at hle

/-- A text has at least as many bytes as characters. -/
theorem length_le_encode (chars : List Char) : chars.length ≤ (encode chars).length := by
  induction chars with
  | nil => exact Nat.le_refl 0
  | cons c chars ih =>
      have hpositive : 0 < (String.utf8EncodeChar c).length :=
        List.length_pos_iff.2 String.utf8EncodeChar_ne_nil
      rw [encode_cons, List.length_append, List.length_cons]
      omega

/-- The size of a text is the number of its bytes. -/
theorem length_encode (text : String) : (encode text.toList).length = text.utf8ByteSize := by
  rw [← String.size_toByteArray, ← String.utf8Encode_toList, List.utf8Encode,
    List.size_toByteArray]
  rfl

/-- The byte 0 stands for the character NUL and occurs in the bytes of no other. -/
theorem Spells.zero_mem_iff {value : Nat} {bytes : List UInt8} (h : Spells value bytes) :
    0 ∈ bytes ↔ value = 0 := by
  cases h <;>
    simp only [List.mem_cons, List.not_mem_nil, or_false, ← UInt8.toNat_inj, UInt8.toNat_zero] <;>
    omega

/-- The bytes of a text hold a 0 exactly when the text holds a NUL. -/
theorem zero_mem_encode_iff {chars : List Char} : 0 ∈ encode chars ↔ '\x00' ∈ chars := by
  induction chars with
  | nil => simp [encode]
  | cons c chars ih =>
      have hc : '\x00' = c ↔ c.toNat = 0 := by
        rw [← Char.toNat_inj, eq_comm]
        rfl
      rw [encode_cons, List.mem_append, List.mem_cons, ih, (spells_encodeChar c).zero_mem_iff, hc]

end Utf8

namespace CString

/-! ## Strings that C callers read -/

/-- The content of a string holds no 0. -/
theorem zero_notMem_content (string : CString) : 0 ∉ string.content := by
  intro h
  simpa using List.mem_takeWhile_imp h

/-- Bytes without a 0 are stored as they are. -/
theorem content_ofBuffer {bytes : List UInt8} (h : 0 ∉ bytes) :
    (ofBuffer bytes).content = bytes := by
  have hbytes : ∀ byte ∈ bytes, decide (byte ≠ 0) = true := by
    intro byte hbyte
    exact decide_eq_true fun heq ↦ h (heq ▸ hbyte)
  show (bytes ++ [0]).takeWhile (· ≠ 0) = bytes
  rw [List.takeWhile_append_of_pos hbytes]
  exact List.append_nil bytes

/-- Where there is no 0, none is found. -/
theorem findIdx?_zero_eq_none {bytes : List UInt8} (h : 0 ∉ bytes) :
    bytes.findIdx? (· = 0) = none := by
  rw [List.findIdx?_eq_none_iff]
  exact fun byte hbyte ↦ decide_eq_false fun heq ↦ h (heq ▸ hbyte)

/-- Bytes without a 0 can be stored. -/
theorem ofBytes_eq_ok {bytes : List UInt8} (h : 0 ∉ bytes) :
    ofBytes bytes = .ok (ofBuffer bytes) := by
  rw [ofBytes, findIdx?_zero_eq_none h]

/-- Bytes with a 0 are refused with the place of the first one. -/
theorem ofBytes_eq_error {front back : List UInt8} (h : 0 ∉ front) :
    ofBytes (front ++ 0 :: back) = .error front.length := by
  simp [ofBytes, List.findIdx?_append, findIdx?_zero_eq_none h, List.findIdx?_cons]

/-- A text without a NUL is stored by its bytes; a text with a NUL cannot be stored. -/
theorem ofText?_eq (text : String) :
    ofText? text =
      if '\x00' ∈ text.toList then none else some (ofBuffer (Utf8.encode text.toList)) := by
  rw [ofText?]
  split_ifs with hmem
  · obtain ⟨front, back, hbytes, hfront⟩ :=
      List.eq_append_cons_of_mem (Utf8.zero_mem_encode_iff.2 hmem)
    rw [hbytes, ofBytes_eq_error hfront]
    rfl
  · rw [ofBytes_eq_ok (mt Utf8.zero_mem_encode_iff.1 hmem)]
    rfl

/-- A string with the bytes of a text as its content is read as that text. -/
theorem text_eq {string : CString} {text : String}
    (h : string.content = Utf8.encode text.toList) : string.text = text := by
  rw [CString.text, h, Utf8.longest_encode, String.ofList_toList]

/-- A text without a NUL has a string from which it is read. -/
theorem exists_ofText?_eq {text : String} (h : '\x00' ∉ text.toList) :
    ∃ string, ofText? text = some string ∧ string.content = Utf8.encode text.toList ∧
      string.text = text := by
  have hcontent : (ofBuffer (Utf8.encode text.toList)).content = Utf8.encode text.toList :=
    content_ofBuffer (mt Utf8.zero_mem_encode_iff.1 h)
  exact ⟨_, by rw [ofText?_eq, if_neg h], hcontent, text_eq hcontent⟩

end CString

end AhoyScan
