/-!
# Byte offsets

A place in a text can be given by the number of bytes before it. `slice?` takes the part of a text
between two such offsets. It fails where an offset is past the end of the text or inside a
character, and where the second offset is before the first: `slice?_eq_some_iff` says that it
succeeds exactly where the text can be divided at both.
-/

namespace AhoyScan

/-- The number of bytes that characters take up. -/
def byteSize (chars : List Char) : Nat :=
  (String.ofList chars).utf8ByteSize

/-- The part of a text between two byte offsets, if they are in range. -/
def slice? (text : List Char) (start stop : Nat) : Option (List Char) := do
  let whole := String.ofList text
  let first ← whole.pos? ⟨start⟩
  let last ← whole.pos? ⟨stop⟩
  let slice ← whole.slice? first last
  return slice.copy.toList

/-- The byte offset of the last line end among some characters. -/
def lastLineEnd? : List Char → Option Nat
  | [] => none
  | c :: rest =>
      match lastLineEnd? rest with
      | some offset => some (c.utf8Size + offset)
      | none => if c = '\n' then some 0 else none

@[simp] theorem byteSize_nil : byteSize [] = 0 :=
  rfl

@[simp] theorem byteSize_cons (c : Char) (rest : List Char) :
    byteSize (c :: rest) = c.utf8Size + byteSize rest := by
  simp [byteSize, String.ofList_cons]

@[simp] theorem byteSize_append (front back : List Char) :
    byteSize (front ++ back) = byteSize front + byteSize back := by
  simp [byteSize]

/-- The position of a text at a byte offset is the one with that offset. -/
theorem pos?_eq_some_iff {text : String} {offset : Nat} {pos : text.Pos} :
    text.pos? ⟨offset⟩ = some pos ↔ pos.offset = ⟨offset⟩ := by
  simp only [String.pos?, String.Slice.pos?, Option.map_eq_some_iff]
  constructor
  · rintro ⟨found, hfound, rfl⟩
    split at hfound
    · cases hfound
      rfl
    · cases hfound
  · intro hoffset
    have hvalid : String.Pos.Raw.isValidForSlice text.toSlice ⟨offset⟩ = true := by
      rw [String.Pos.Raw.isValidForSlice_eq_true_iff, String.Pos.Raw.isValidForSlice_toSlice_iff,
        ← hoffset]
      exact pos.isValid
    exact ⟨_, dif_pos hvalid, String.Pos.ext hoffset.symm⟩

/-- Where a text can be divided it has a position. -/
theorem exists_splits {text front back : String} (h : text = front ++ back) :
    ∃ pos : text.Pos, pos.Splits front back :=
  ⟨text.pos front.rawEndPos (String.Pos.Raw.isValid_iff_exists_append.2 ⟨front, back, h, rfl⟩),
    h, rfl⟩

/-- A part can be taken from a text where the text can be divided into what is before the part, the
part, and what is after it. -/
theorem slice?_eq_some_iff {text middle : List Char} {start stop : Nat} :
    slice? text start stop = some middle ↔
      ∃ front back, text = front ++ middle ++ back ∧ start = byteSize front ∧
        stop = byteSize (front ++ middle) := by
  simp only [slice?, Option.bind_eq_bind, Option.bind_eq_some_iff, pos?_eq_some_iff, String.slice?,
    Option.pure_def, Option.some.injEq, Option.dite_none_right_eq_some]
  constructor
  · rintro ⟨first, hfirst, last, hlast, _, ⟨hle, rfl⟩, hmiddle⟩
    obtain ⟨front, back, hbegin, hend⟩ :=
      String.copy_slice_eq_iff_splits.1 ⟨hle, (String.ofList_toList (s := _)).symm⟩
    rw [hmiddle] at hbegin hend
    have htext := congrArg String.toList hend.eq_append
    have hstart := hfirst.symm.trans hbegin.offset_eq_rawEndPos
    have hstop := hlast.symm.trans hend.offset_eq_rawEndPos
    refine ⟨front.toList, back.toList, by simpa using htext, ?_, ?_⟩
    · simpa [byteSize] using congrArg String.Pos.Raw.byteIdx hstart
    · simpa [byteSize] using congrArg String.Pos.Raw.byteIdx hstop
  · rintro ⟨front, back, rfl, rfl, rfl⟩
    obtain ⟨first, hfirst⟩ : ∃ pos : (String.ofList (front ++ middle ++ back)).Pos,
        pos.Splits (String.ofList front) (String.ofList middle ++ String.ofList back) :=
      exists_splits (by simp)
    obtain ⟨last, hlast⟩ : ∃ pos : (String.ofList (front ++ middle ++ back)).Pos,
        pos.Splits (String.ofList front ++ String.ofList middle) (String.ofList back) :=
      exists_splits (by simp [String.append_assoc])
    obtain ⟨hle, hcopy⟩ :=
      String.copy_slice_eq_iff_splits.2 ⟨String.ofList front, String.ofList back, hfirst, hlast⟩
    refine ⟨first, hfirst.offset_eq_rawEndPos, last, ?_, _, ⟨hle, rfl⟩, ?_⟩
    · rw [hlast.offset_eq_rawEndPos, byteSize, String.ofList_append]
      rfl
    · rw [hcopy, String.toList_ofList]

/-- A part of a text does not end before it begins. -/
theorem le_of_slice?_eq_some {text middle : List Char} {start stop : Nat}
    (h : slice? text start stop = some middle) : start ≤ stop := by
  obtain ⟨front, back, -, rfl, rfl⟩ := slice?_eq_some_iff.1 h
  rw [byteSize_append]
  exact Nat.le_add_right _ _

/-- There is no last line end where there is none at all. -/
theorem lastLineEnd?_eq_none {chars : List Char} (h : lastLineEnd? chars = none) :
    '\n' ∉ chars := by
  induction chars with
  | nil => simp
  | cons c rest ih =>
      rw [lastLineEnd?] at h
      split at h
      · cases h
      · rename_i hrest
        have hc : c ≠ '\n' := by
          rintro rfl
          cases h
        simp [ih hrest, hc.symm]

/-- Where there is a last line end, it is at the byte offset of what stands before it, and there is
no line end after it. -/
theorem lastLineEnd?_eq_some {chars : List Char} {offset : Nat}
    (h : lastLineEnd? chars = some offset) :
    ∃ front back, chars = front ++ '\n' :: back ∧ '\n' ∉ back ∧ offset = byteSize front := by
  induction chars generalizing offset with
  | nil => cases h
  | cons c rest ih =>
      rw [lastLineEnd?] at h
      split at h
      · rename_i later hrest
        cases h
        obtain ⟨front, back, rfl, hback, rfl⟩ := ih hrest
        exact ⟨c :: front, back, rfl, hback, (byteSize_cons c front).symm⟩
      · rename_i hrest
        split at h
        · rename_i hc
          cases h
          exact ⟨[], rest, by rw [hc]; rfl, lastLineEnd?_eq_none hrest, rfl⟩
        · cases h

/-- The last line end is within the characters. -/
theorem lastLineEnd?_lt {chars : List Char} {offset : Nat} (h : lastLineEnd? chars = some offset) :
    offset < byteSize chars := by
  obtain ⟨front, back, rfl, -, rfl⟩ := lastLineEnd?_eq_some h
  rw [byteSize_append, byteSize_cons]
  exact Nat.lt_add_of_pos_right (Nat.add_pos_left (Char.utf8Size_pos _) _)

end AhoyScan
