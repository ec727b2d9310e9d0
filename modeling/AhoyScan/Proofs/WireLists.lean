import AhoyScan.Proofs.Decoding
import AhoyScan.Wire
import Mathlib.Data.List.Forall2
import Mathlib.Data.List.Induction

/-!
# Lists carry their tokens unchanged

`WireList.Carries` says that a reader of a list finds exactly some given tokens. A list is built
from tokens if all of them fit it, and it then carries them (`WireList.ofTokens_carries`);
otherwise there are too many, or the first one that does not fit says why
(`WireList.ofTokens_eq_error_iff`).
-/

namespace AhoyScan

/-- The token can be put into a list: its line is not too large and its text is free of NUL. -/
structure RawToken.Fits (token : RawToken) : Prop where
  line_le : token.line ≤ maxWire
  text_free : '\x00' ∉ token.text.toList

/-- Why the token at this index cannot be put into a list. A line that is too large goes before a
NUL in the text. -/
inductive RawToken.Fault (token : RawToken) (index : Nat) : Rejection → Prop where
  | line : maxWire < token.line → Fault token index (.lineTooLarge index token.line)
  | text : token.line ≤ maxWire → '\x00' ∈ token.text.toList → Fault token index (.nulInText index)

/-- Why no list can be built from the tokens: there are too many, or one of them is the first that
does not fit. -/
inductive Unfit (tokens : List RawToken) : Rejection → Prop where
  | count : maxWire < tokens.length → Unfit tokens (.tooManyTokens tokens.length)
  | token {before after : List RawToken} {token : RawToken} {cause : Rejection} :
      tokens.length ≤ maxWire → tokens = before ++ token :: after →
      (∀ earlier ∈ before, earlier.Fits) → token.Fault before.length cause → Unfit tokens cause

/-- A reader finds the token: its kind, the bytes of its text and so the text, and its line. -/
structure WireToken.Carries (wire : WireToken) (token : RawToken) : Prop where
  kind_eq : wire.kind = token.kind
  content_eq : wire.value.content = Utf8.encode token.text.toList
  text_eq : wire.value.text = token.text
  line_eq : wire.line.toInt = token.line

/-- A reader finds the tokens in their order, and the count is their number. -/
structure WireList.Carries (list : WireList) (tokens : List RawToken) : Prop where
  entries : List.Forall₂ WireToken.Carries list.entries tokens
  count_eq : list.count.toInt = tokens.length

/-! ## One token -/

/-- A number that fits is stored as itself. -/
theorem toInt_ofNat_of_le {n : Nat} (h : n ≤ maxWire) : (Int32.ofNat n).toInt = n :=
  Int32.toInt_ofNat_of_lt (Nat.lt_succ_of_le h)

section Token

variable {token : RawToken} {index : Nat} {cause : Rejection}

/-- A token that does not fit has a fault. -/
theorem RawToken.fits_or_fault (token : RawToken) (index : Nat) :
    token.Fits ∨ ∃ cause, token.Fault index cause := by
  by_cases hline : token.line ≤ maxWire
  · by_cases htext : '\x00' ∈ token.text.toList
    · exact .inr ⟨_, .text hline htext⟩
    · exact .inl ⟨hline, htext⟩
  · exact .inr ⟨_, .line (Nat.lt_of_not_le hline)⟩

/-- A token that fits has a form that carries it, wherever it stands. -/
theorem RawToken.Fits.ofRaw (h : token.Fits) (index : Nat) :
    ∃ wire, WireToken.ofRaw token index = .ok wire ∧ wire.Carries token := by
  obtain ⟨value, hvalue, hcontent, htext⟩ := CString.exists_ofText?_eq h.text_free
  refine ⟨⟨token.kind, value, Int32.ofNat token.line⟩, ?_, rfl, hcontent, htext,
    toInt_ofNat_of_le h.line_le⟩
  rw [WireToken.ofRaw, if_pos h.line_le, hvalue]

/-- A token with a fault has no form, for the reason that the fault is. -/
theorem RawToken.Fault.ofRaw (h : token.Fault index cause) :
    WireToken.ofRaw token index = .error cause := by
  cases h with
  | line hline => rw [WireToken.ofRaw, if_neg (Nat.not_le_of_lt hline)]
  | text hline htext => rw [WireToken.ofRaw, if_pos hline, CString.ofText?_eq, if_pos htext]

end Token

/-! ## All tokens -/

/-- The forms of tokens that are counted from some index on. -/
def wireFrom (index : Nat) (tokens : List RawToken) : Except Rejection (List WireToken) :=
  (tokens.zipIdx index).mapM fun (token, index) ↦ WireToken.ofRaw token index

section Tokens

variable {token : RawToken} {tokens : List RawToken} {cause : Rejection}

/-- The first token is tried before the others. -/
theorem wireFrom_cons (index : Nat) :
    wireFrom index (token :: tokens) = (do
      let wire ← WireToken.ofRaw token index
      let wires ← wireFrom (index + 1) tokens
      pure (wire :: wires)) := by
  rw [wireFrom, List.zipIdx_cons, List.mapM_cons]
  rfl

/-- Tokens that fit have forms that carry them. -/
theorem wireFrom_fits (index : Nat) (h : ∀ token ∈ tokens, token.Fits) :
    ∃ wires, wireFrom index tokens = .ok wires ∧ List.Forall₂ WireToken.Carries wires tokens := by
  induction tokens generalizing index with
  | nil => exact ⟨[], rfl, .nil⟩
  | cons token tokens ih =>
      obtain ⟨wire, hwire, hcarries⟩ := (h token List.mem_cons_self).ofRaw index
      obtain ⟨wires, hwires, hrest⟩ :=
        ih (index + 1) fun other hother ↦ h other (List.mem_cons_of_mem token hother)
      refine ⟨wire :: wires, ?_, .cons hcarries hrest⟩
      rw [wireFrom_cons, hwire, hwires]
      rfl

/-- The first token with a fault prevents the forms of all of them. -/
theorem wireFrom_fault (index : Nat) {before after : List RawToken}
    (hbefore : ∀ earlier ∈ before, earlier.Fits)
    (h : token.Fault (index + before.length) cause) :
    wireFrom index (before ++ token :: after) = .error cause := by
  induction before generalizing index with
  | nil =>
      rw [List.length_nil, Nat.add_zero] at h
      rw [List.nil_append, wireFrom_cons, h.ofRaw]
      rfl
  | cons first before ih =>
      obtain ⟨wire, hwire, -⟩ := (hbefore first List.mem_cons_self).ofRaw index
      have hrest : wireFrom (index + 1) (before ++ token :: after) = .error cause := by
        apply ih
        · exact fun other hother ↦ hbefore other (List.mem_cons_of_mem first hother)
        · rwa [List.length_cons, Nat.add_comm before.length, ← Nat.add_assoc] at h
      rw [List.cons_append, wireFrom_cons, hwire, hrest]
      rfl

/-- Unless all tokens fit, one of them is the first with a fault. -/
theorem fits_or_first_fault (tokens : List RawToken) :
    (∀ token ∈ tokens, token.Fits) ∨
      ∃ before token after cause, tokens = before ++ token :: after ∧
        (∀ earlier ∈ before, earlier.Fits) ∧ token.Fault before.length cause := by
  induction tokens using List.reverseRecOn with
  | nil => exact .inl (by simp)
  | append_singleton tokens last ih =>
      rcases ih with hfits | ⟨before, token, after, cause, rfl, hbefore, hfault⟩
      · rcases last.fits_or_fault tokens.length with hlast | ⟨cause, hfault⟩
        · refine .inl fun token htoken ↦ ?_
          rcases List.mem_append.1 htoken with hmem | hmem
          · exact hfits token hmem
          · rwa [List.mem_singleton.1 hmem]
        · exact .inr ⟨tokens, last, [], cause, rfl, hfits, hfault⟩
      · exact .inr ⟨before, token, after ++ [last], cause, by simp, hbefore, hfault⟩

end Tokens

namespace WireList

variable {tokens : List RawToken} {cause : Rejection}

/-- A list has the forms of the tokens, which are counted from 0, and their number. -/
theorem ofTokens_of_le (hcount : tokens.length ≤ maxWire) :
    ofTokens tokens =
      (wireFrom 0 tokens).map fun wires ↦ ⟨wires, Int32.ofNat tokens.length⟩ := by
  rw [ofTokens, if_pos hcount, wireFrom]
  rfl

/-- A list can be built from tokens that fit it, unless they are too many, and it carries them. -/
theorem ofTokens_carries (hcount : tokens.length ≤ maxWire) (h : ∀ token ∈ tokens, token.Fits) :
    ∃ list, ofTokens tokens = .ok list ∧ list.Carries tokens := by
  obtain ⟨wires, hwires, hcarries⟩ := wireFrom_fits 0 h
  refine ⟨⟨wires, Int32.ofNat tokens.length⟩, ?_, ?_, toInt_ofNat_of_le hcount⟩
  · rw [ofTokens_of_le hcount, hwires]
    rfl
  · have hentries : entries ⟨wires, Int32.ofNat tokens.length⟩ = wires := by
      rw [entries, toInt_ofNat_of_le hcount, Int.toNat_natCast, ← hcarries.length_eq]
      exact List.take_length
    rw [hentries]
    exact hcarries

/-- No list can be built from tokens that do not fit it, for the reason that they do not. -/
theorem ofTokens_unfit (h : Unfit tokens cause) : ofTokens tokens = .error cause := by
  cases h with
  | count hcount => rw [ofTokens, if_neg (Nat.not_le_of_lt hcount)]
  | @token before after token _ hcount hsplit hbefore hfault =>
      have hposition : token.Fault (0 + before.length) cause := by rwa [Nat.zero_add]
      rw [ofTokens_of_le hcount, hsplit, wireFrom_fault 0 hbefore hposition]
      rfl

/-- Either all tokens fit, or there is a reason why not. -/
theorem fits_or_unfit (tokens : List RawToken) :
    (tokens.length ≤ maxWire ∧ ∀ token ∈ tokens, token.Fits) ∨ ∃ cause, Unfit tokens cause := by
  by_cases hcount : tokens.length ≤ maxWire
  · rcases fits_or_first_fault tokens with hfits | ⟨before, token, after, cause, hsplit, hbefore,
      hfault⟩
    · exact .inl ⟨hcount, hfits⟩
    · exact .inr ⟨cause, .token hcount hsplit hbefore hfault⟩
  · exact .inr ⟨_, .count (Nat.lt_of_not_le hcount)⟩

/-- What is built from tokens carries them, and is built only from tokens that fit. -/
theorem ofTokens_eq_ok {list : WireList} (h : ofTokens tokens = .ok list) :
    (tokens.length ≤ maxWire ∧ ∀ token ∈ tokens, token.Fits) ∧ list.Carries tokens := by
  rcases fits_or_unfit tokens with hfits | ⟨cause, hunfit⟩
  · obtain ⟨list', hlist, hcarries⟩ := ofTokens_carries hfits.1 hfits.2
    cases h.symm.trans hlist
    exact ⟨hfits, hcarries⟩
  · cases h.symm.trans (ofTokens_unfit hunfit)

/-- A list cannot be built exactly when the tokens do not fit it, and that is the reason. -/
theorem ofTokens_eq_error_iff : ofTokens tokens = .error cause ↔ Unfit tokens cause := by
  refine ⟨fun h ↦ ?_, ofTokens_unfit⟩
  rcases fits_or_unfit tokens with hfits | ⟨other, hunfit⟩
  · obtain ⟨list, hlist, -⟩ := ofTokens_carries hfits.1 hfits.2
    cases h.symm.trans hlist
  · cases h.symm.trans (ofTokens_unfit hunfit)
    exact hunfit

end WireList

end AhoyScan
