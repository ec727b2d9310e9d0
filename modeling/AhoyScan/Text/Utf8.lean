/-!
# UTF-8

`encode` writes a text as bytes. `first?` reads one character from the front of some bytes: a lead
byte says how many tail bytes follow and which bits it contributes, and the value must be a
character that no shorter sequence could have carried. `longest` reads characters as far as it
can, and `decode` reads all of the bytes or says where the first sequence begins that is none.
-/

namespace AhoyScan.Utf8

/-- The bytes of a text. -/
def encode (chars : List Char) : List UInt8 :=
  chars.flatMap String.utf8EncodeChar

/-- Tail bytes have the bits `10` in front. -/
def isTail (byte : UInt8) : Bool :=
  byte.toNat / 64 = 2

/-- What a lead byte says: how many tail bytes follow, the first bits of the value, and the least
value that needs a sequence of this length. -/
structure Form where
  tails : Nat
  bits : Nat
  least : Nat

/-- The form that a lead byte begins; tail bytes and bytes above `0xF7` begin none. -/
def form? (lead : UInt8) : Option Form :=
  let n := lead.toNat
  if n < 0x80 then some ⟨0, n, 0⟩
  else if n < 0xC0 then none
  else if n < 0xE0 then some ⟨1, n - 0xC0, 0x80⟩
  else if n < 0xF0 then some ⟨2, n - 0xE0, 0x800⟩
  else if n < 0xF8 then some ⟨3, n - 0xF0, 0x10000⟩
  else none

/-- Append the six bits of each of `n` tail bytes to a value. -/
def readTails : Nat → Nat → List UInt8 → Option (Nat × List UInt8)
  | 0, value, rest => some (value, rest)
  | _ + 1, _, [] => none
  | n + 1, value, byte :: rest =>
      if isTail byte then readTails n (64 * value + byte.toNat % 64) rest else none

/-- The character whose sequence the bytes begin with, and the bytes after it. -/
def first? : List UInt8 → Option (Char × List UInt8)
  | [] => none
  | lead :: bytes => do
      let form ← form? lead
      let (value, rest) ← readTails form.tails form.bits bytes
      if form.least ≤ value ∧ value.isValidChar then some (Char.ofNat value, rest) else none

theorem readTails_length_le {n value : Nat} {bytes : List UInt8} {result : Nat × List UInt8}
    (h : readTails n value bytes = some result) : result.2.length ≤ bytes.length := by
  fun_induction readTails n value bytes with
  | case1 value rest => cases h; exact Nat.le_refl _
  | case2 => cases h
  | case3 n value byte rest tail ih => exact Nat.le_succ_of_le (ih h)
  | case4 => cases h

/-- Reading a character uses up at least one byte. -/
theorem first?_length_lt {bytes : List UInt8} {result : Char × List UInt8}
    (h : first? bytes = some result) : result.2.length < bytes.length := by
  cases bytes with
  | nil => cases h
  | cons lead bytes =>
      simp only [first?, Option.bind_eq_bind, Option.bind_eq_some_iff] at h
      obtain ⟨form, -, read, hread, h⟩ := h
      split at h
      · cases h
        exact Nat.lt_succ_of_le (readTails_length_le hread)
      · cases h

/-- Read characters until the bytes end or begin with no character; what is left is returned. -/
def longest (bytes : List UInt8) : List Char × List UInt8 :=
  match h : first? bytes with
  | none => ([], bytes)
  | some (c, rest) =>
      have : rest.length < bytes.length := first?_length_lt h
      let (chars, left) := longest rest
      (c :: chars, left)
termination_by bytes.length

/-- The text of the bytes, or the offset of the first sequence that is no character. -/
def decode (bytes : List UInt8) : Except Nat (List Char) :=
  match longest bytes with
  | (chars, []) => .ok chars
  | (_, left) => .error (bytes.length - left.length)

end AhoyScan.Utf8
