import AhoyScan.Proofs.Numerals
import AhoyScan.Text.Quoted

/-!
# Quoted texts are read back

A text between double quotes is known from what is written, and so is where it ends:
`quote_append_inj`. Each character is written in one of several forms, and `first?` reads the one
that stands at the front of a text (`first?_escape`). No form holds a line end, so a quoted text
stays on its line.
-/

namespace AhoyScan.Quoted

/-- The character that a letter after a backslash stands for. -/
def meaning (mark : Char) : Char :=
  if mark = '0' then '\x00'
  else if mark = 't' then '\t'
  else if mark = 'r' then '\r'
  else if mark = 'n' then '\n'
  else mark

/-- Read what stands after a backslash. -/
def escaped? : List Char → Option (Char × List Char)
  | [] => none
  | 'u' :: '\x7b' :: rest =>
      (hexNumber? (rest.takeWhile (· ≠ '\x7d'))).map fun n ↦
        (Char.ofNat n, (rest.dropWhile (· ≠ '\x7d')).tail)
  | mark :: rest => some (meaning mark, rest)

/-- Read the character that is written at the front of a text. -/
def first? : List Char → Option (Char × List Char)
  | [] => none
  | c :: rest => if c = '\\' then escaped? rest else some (c, rest)

variable {c d : Char} {chars chars' rest rest' : List Char}

/-! ## Characters -/

/-- A character is read back from its number. -/
theorem first?_byNumber : first? (byNumber c ++ rest) = some (c, rest) := by
  have hdigits : ∀ d ∈ Nat.toDigits 16 c.toNat, decide (d ≠ '\x7d') = true := by
    intro d hd
    obtain ⟨n, -, rfl⟩ := of_mem_toDigits hd
    exact decide_eq_true (Nat.digitChar_ne '\x7d' (by decide))
  have hread : first? (byNumber c ++ rest) =
      escaped? ('u' :: '\x7b' :: (Nat.toDigits 16 c.toNat ++ '\x7d' :: rest)) := by
    simp [byNumber, first?]
  rw [hread, escaped?, List.takeWhile_append_of_pos hdigits, List.dropWhile_append_of_pos hdigits,
    List.takeWhile_cons_of_neg (by decide), List.dropWhile_cons_of_neg (by decide), List.append_nil,
    hexNumber?_toDigits, Option.map_some, Char.ofNat_toNat]
  rfl

/-- A character is read back from what is written for it. -/
theorem first?_escape (c : Char) (rest : List Char) :
    first? (escape c ++ rest) = some (c, rest) := by
  unfold escape
  split_ifs with hnul htab hreturn hlineEnd hmark hdistinct
  · subst hnul
    rfl
  · subst htab
    rfl
  · subst hreturn
    rfl
  · subst hlineEnd
    rfl
  · rw [Bool.or_eq_true, decide_eq_true_iff, decide_eq_true_iff] at hmark
    rcases hmark with rfl | rfl <;> rfl
  · have hbackslash : c ≠ '\\' := by
      rintro rfl
      exact hmark rfl
    simp [first?, hbackslash]
  · exact first?_byNumber

/-- A character is written without quotes in front. -/
theorem exists_escape_eq (c : Char) : ∃ d tail, escape c = d :: tail ∧ d ≠ '"' := by
  unfold escape
  split_ifs with hnul htab hreturn hlineEnd hmark hdistinct
  · exact ⟨_, _, rfl, by decide⟩
  · exact ⟨_, _, rfl, by decide⟩
  · exact ⟨_, _, rfl, by decide⟩
  · exact ⟨_, _, rfl, by decide⟩
  · exact ⟨_, _, rfl, by decide⟩
  · refine ⟨_, _, rfl, ?_⟩
    rintro rfl
    exact hmark rfl
  · exact ⟨_, _, rfl, by decide⟩

/-- A character is written without line ends. -/
theorem lineEnd_notMem_escape (c : Char) : '\n' ∉ escape c := by
  unfold escape
  split_ifs with hnul htab hreturn hlineEnd hmark hdistinct
  · decide
  · decide
  · decide
  · decide
  · simp [Ne.symm hlineEnd]
  · simp [Ne.symm hlineEnd]
  · rw [byNumber, List.mem_append, List.mem_append, not_or, not_or]
    refine ⟨⟨by decide, ?_⟩, by decide⟩
    intro hmem
    obtain ⟨n, -, hdigit⟩ := of_mem_toDigits hmem
    exact Nat.digitChar_ne '\n' (by decide) hdigit.symm

/-! ## Texts -/

/-- Texts that are written alike up to their closing quotes are the same. -/
theorem contents_append_inj
    (h : chars.flatMap escape ++ '"' :: rest = chars'.flatMap escape ++ '"' :: rest') :
    chars = chars' ∧ rest = rest' := by
  -- What is written for a character never looks like a closing quote.
  have hclosed {c : Char} {more left : List Char} : '"' :: left ≠ escape c ++ more := by
    obtain ⟨d, tail, hescape, hd⟩ := exists_escape_eq c
    rw [hescape]
    intro heq
    exact hd (List.cons.inj heq).1.symm
  induction chars generalizing chars' with
  | nil =>
      cases chars' with
      | nil => exact ⟨rfl, (List.cons.inj h).2⟩
      | cons c' chars' =>
          rw [List.flatMap_cons, List.append_assoc] at h
          exact absurd h hclosed
  | cons c chars ih =>
      rw [List.flatMap_cons, List.append_assoc] at h
      cases chars' with
      | nil => exact absurd h.symm hclosed
      | cons c' chars' =>
          rw [List.flatMap_cons, List.append_assoc] at h
          have hread := congrArg first? h
          rw [first?_escape, first?_escape, Option.some.injEq, Prod.mk.injEq] at hread
          obtain ⟨rfl, hmore⟩ := hread
          obtain ⟨rfl, hrest⟩ := ih hmore
          exact ⟨rfl, hrest⟩

/-- What stands between quotes is known from the text, and so is what comes after them. -/
theorem quote_append_inj (h : quote chars ++ rest = quote chars' ++ rest') :
    chars = chars' ∧ rest = rest' := by
  apply contents_append_inj
  simpa [quote] using h

/-- A quoted text stays on its line. -/
theorem lineEnd_notMem_quote (chars : List Char) : '\n' ∉ quote chars := by
  simp only [quote, List.cons_append, List.mem_cons, List.mem_append, List.mem_flatMap, not_or]
  refine ⟨by decide, ?_, by decide, List.not_mem_nil⟩
  rintro ⟨c, -, hc⟩
  exact lineEnd_notMem_escape c hc

end AhoyScan.Quoted
