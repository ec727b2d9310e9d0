import Mathlib.Data.List.TakeWhile
import Mathlib.Tactic.Common

/-!
# Numbers in a text

Where a run of characters of one class ends is known from the text (`append_inj_of_run`), and so is
the number that is written there: integers are written with a sign and decimal digits, and
`hexNumber?` reads the hexadecimal digits of a character's number.
-/

namespace AhoyScan

/-- The number of a hexadecimal digit. -/
def hexDigit? (c : Char) : Option Nat :=
  if c.isDigit then some (c.toNat - '0'.toNat)
  else if 'a' ≤ c ∧ c ≤ 'f' then some (c.toNat - 'a'.toNat + 10)
  else if 'A' ≤ c ∧ c ≤ 'F' then some (c.toNat - 'A'.toNat + 10)
  else none

/-- The number that hexadecimal digits stand for. -/
def hexNumber? (digits : List Char) : Option Nat :=
  digits.foldlM (fun value digit ↦ (hexDigit? digit).map (16 * value + ·)) 0

/-- In a text that begins with two runs of characters of a class, neither of which goes on, the runs
are the same. -/
theorem append_inj_of_run {accepts : Char → Bool} {run run' rest rest' : List Char}
    (hrun : ∀ c ∈ run, accepts c = true) (hrun' : ∀ c ∈ run', accepts c = true)
    (hrest : ∀ c ∈ rest.head?, accepts c = false) (hrest' : ∀ c ∈ rest'.head?, accepts c = false)
    (h : run ++ rest = run' ++ rest') : run = run' ∧ rest = rest' := by
  have hstop {text : List Char} (htext : ∀ c ∈ text.head?, accepts c = false) :
      text.takeWhile accepts = [] := by
    cases text with
    | nil => rfl
    | cons c text => rw [List.takeWhile_cons_of_neg (by simpa using htext c rfl)]
  have htake := congrArg (List.takeWhile accepts) h
  rw [List.takeWhile_append_of_pos hrun, List.takeWhile_append_of_pos hrun', hstop hrest,
    hstop hrest', List.append_nil, List.append_nil] at htake
  subst htake
  exact ⟨rfl, List.append_cancel_left h⟩

/-! ## Digits -/

/-- In a base up to 16 the digits of a number other than 0 do not begin with a 0. -/
theorem head?_toDigits_ne {base n : Nat} (hbase : 1 < base) (hsixteen : base ≤ 16) (h : 0 < n) :
    (Nat.toDigits base n).head? ≠ some '0' := by
  rw [Nat.toDigits_eq_if hbase]
  split_ifs with hsmall
  · have hdigit : ∀ d < 16, 0 < d → Nat.digitChar d ≠ '0' := by decide
    simpa using hdigit n (by omega) h
  · have hfront := head?_toDigits_ne hbase hsixteen
      (Nat.div_pos (Nat.le_of_not_lt hsmall) (Nat.zero_lt_of_lt hbase))
    have hnonempty : Nat.toDigits base (n / base) ≠ [] := Nat.toDigits_ne_nil
    obtain ⟨c, tail, hchars⟩ := List.exists_cons_of_ne_nil hnonempty
    rwa [hchars] at hfront ⊢
termination_by n
decreasing_by exact Nat.div_lt_self h hbase

/-! ## Decimal digits -/

/-- A number is known by its digits. -/
theorem toString_nat_injective {m n : Nat} (h : toString m = toString n) : m = n := by
  have hdigits := congrArg String.toList h
  rw [Nat.toString_eq_repr, Nat.toString_eq_repr, Nat.toList_repr, Nat.toList_repr] at hdigits
  calc
    m = Nat.ofDigitChars 10 (Nat.toDigits 10 m) 0 := Nat.ofDigitChars_ten_toDigits.symm
    _ = Nat.ofDigitChars 10 (Nat.toDigits 10 n) 0 := by rw [hdigits]
    _ = n := Nat.ofDigitChars_ten_toDigits

/-- An integer is written with digits and perhaps a minus sign. -/
theorem mem_toString_int {value : Int} {c : Char} (h : c ∈ (toString value).toList) :
    c = '-' ∨ c.isDigit = true := by
  have hdigit {n : Nat} (hmem : c ∈ n.repr.toList) : c.isDigit = true := by
    rw [Nat.toList_repr] at hmem
    exact Nat.isDigit_of_mem_toDigits (by decide) (by decide) hmem
  rw [Int.toString_eq_repr, Int.repr_eq_if] at h
  split_ifs at h
  · exact .inr (hdigit h)
  · rw [String.toList_append, List.mem_append] at h
    rcases h with hsign | hdigits
    · exact .inl (List.mem_singleton.1 hsign)
    · exact .inr (hdigit hdigits)

/-- An integer is written with at least one character. -/
theorem toString_int_ne_nil (value : Int) : (toString value).toList ≠ [] := by
  rw [Int.toString_eq_repr, Int.repr_eq_if]
  split_ifs
  · rw [Nat.toList_repr]
    exact Nat.toDigits_ne_nil
  · rw [String.toList_append]
    exact List.append_ne_nil_of_left_ne_nil (List.cons_ne_nil _ _) _

/-- An integer is known by its sign and its digits. -/
theorem toString_int_injective {m n : Int} (h : toString m = toString n) : m = n := by
  have hsign (k l : Nat) : toString k ≠ "-" ++ toString l := by
    intro heq
    have hmem : '-' ∈ (toString k).toList := by
      rw [heq, String.toList_append]
      exact List.mem_append_left _ List.mem_cons_self
    rw [Nat.toString_eq_repr, Nat.toList_repr] at hmem
    exact absurd (Nat.isDigit_of_mem_toDigits (by decide) (by decide) hmem) (by decide)
  cases m with
  | ofNat k =>
      cases n with
      | ofNat l => exact congrArg Int.ofNat (toString_nat_injective h)
      | negSucc l => exact absurd h (hsign k (l + 1))
  | negSucc k =>
      cases n with
      | ofNat l => exact absurd h.symm (hsign l (k + 1))
      | negSucc l =>
          have hdigits : toString (k + 1) = toString (l + 1) :=
            (String.append_right_inj "-").1 h
          exact congrArg Int.negSucc (Nat.succ.inj (toString_nat_injective hdigits))

/-! ## Hexadecimal digits -/

/-- The digits of a number in base 16 are hexadecimal digits. -/
theorem of_mem_toDigits {n : Nat} {c : Char} (h : c ∈ Nat.toDigits 16 n) :
    ∃ d < 16, c = d.digitChar := by
  rw [Nat.toDigits_eq_if (by decide)] at h
  split_ifs at h with hsmall
  · exact ⟨n, hsmall, List.mem_singleton.1 h⟩
  · rcases List.mem_append.1 h with hfront | hlast
    · exact of_mem_toDigits hfront
    · exact ⟨n % 16, Nat.mod_lt n (by decide), List.mem_singleton.1 hlast⟩
termination_by n
decreasing_by omega

/-- A hexadecimal digit is read back as its number. -/
theorem hexDigit?_digitChar : ∀ d < 16, hexDigit? d.digitChar = some d := by
  decide

/-- One more digit adds its number to sixteen times the number of those before it. -/
theorem hexNumber?_concat {digits : List Char} {n d : Nat} {c : Char}
    (hdigits : hexNumber? digits = some n) (hc : hexDigit? c = some d) :
    hexNumber? (digits ++ [c]) = some (16 * n + d) := by
  rw [hexNumber?] at hdigits ⊢
  rw [List.foldlM_append, hdigits]
  simp [hc]

/-- The digits of a number in base 16 are read back as the number. -/
theorem hexNumber?_toDigits (n : Nat) : hexNumber? (Nat.toDigits 16 n) = some n := by
  rw [Nat.toDigits_eq_if (by decide)]
  split_ifs with hsmall
  · simp [hexNumber?, hexDigit?_digitChar n hsmall]
  · have hlast := hexDigit?_digitChar (n % 16) (Nat.mod_lt n (by decide))
    rw [hexNumber?_concat (hexNumber?_toDigits (n / 16)) hlast, Nat.div_add_mod]
termination_by n
decreasing_by omega

end AhoyScan
