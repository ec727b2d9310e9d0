import AhoyScan.Proofs.Deliveries
import AhoyScan.Proofs.LineNumbers
import AhoyScan.Proofs.SourceTexts
import AhoyScan.Proofs.TokenBounds
import Mathlib.Algebra.Group.Nat.Defs

/-!
# Requests for the tokens of the language

The tokenizer of the language rejects no text, and what it makes of a text without a NUL that is
not too long fits a list (`tokens_fit`). So only a source that is not UTF-8 is refused, and every
other one is answered by its tokens: `request_total`.
-/

namespace AhoyScan

/-! ## The tokens of a text -/

variable (options : Options)

/-- What the tokenizer of the language replies to a text. -/
def languageReply (text : String) : Reply :=
  .ok ((tokens options text.toList).map Token.raw)

/-- The tokens of a text that is not too long are not too many for a list. -/
theorem tokens_length_le_maxWire {text : List Char} (hsize : text.length ≤ 2 ^ 30) :
    (tokens options text).length ≤ maxWire := by
  have haccount := tokens_account options text
  simp only [maxWire]
  omega

/-- Every token of a text without a NUL that is not too long fits a list. -/
theorem tokens_fit {text : List Char} (hsize : text.length ≤ 2 ^ 30) (hfree : '\x00' ∉ text)
    {token : Token} (h : token ∈ tokens options text) : token.raw.Fits := by
  refine ⟨?_, fun hmem ↦ hfree (text_subset options h hmem)⟩
  calc
    token.line ≤ lineAfter text := line_le options h
    _ ≤ 1 + text.length := lineAfter_le text
    _ ≤ maxWire := by
      rw [maxWire]
      omega

/-- The tokens of a source that is not too long are delivered in a list that carries them. -/
theorem delivery_languageReply {source : CString} (hsize : source.content.length ≤ 2 ^ 30)
    {text : String} (h : Utf8.encode text.toList = source.content) :
    ∃ list, (languageReply options text).delivery text = .ok ⟨list, text.utf8ByteSize⟩ ∧
      list.Carries ((tokens options text.toList).map Token.raw) := by
  have hlength : text.toList.length ≤ 2 ^ 30 :=
    (Utf8.length_le_encode text.toList).trans (h ▸ hsize)
  have hfree : '\x00' ∉ text.toList := by
    rw [← Utf8.zero_mem_encode_iff, h]
    exact source.zero_notMem_content
  apply delivery_of_fits
  · rw [List.length_map]
    exact tokens_length_le_maxWire options hlength
  · intro raw hraw
    obtain ⟨token, htoken, rfl⟩ := List.mem_map.1 hraw
    exact tokens_fit options hlength hfree htoken

/-! ## Requests -/

/-- What is delivered of a source is the language's reply to its text. -/
theorem deliver_tokenizer (source : Option CString) :
    Id.run (deliver (tokenizer options) source) =
      (do let text ← sourceText source; (languageReply options text).delivery text) := by
  cases h : sourceText source with
  | error cause =>
      rw [deliver_of_error _ h]
      rfl
  | ok text =>
      rw [deliver_of_ok _ h]
      rfl

/-- A source that is not too long and has a text is answered by the tokens of the text. -/
theorem deliver_wellFormed {source : CString} (hsize : source.content.length ≤ 2 ^ 30)
    {text : String} (h : Utf8.encode text.toList = source.content) :
    ∃ list, Id.run (deliver (tokenizer options) (some source)) = .ok ⟨list, text.utf8ByteSize⟩ ∧
      list.Carries ((tokens options text.toList).map Token.raw) := by
  obtain ⟨list, hdelivery, hcarries⟩ := delivery_languageReply options hsize h
  refine ⟨list, ?_, hcarries⟩
  rw [deliver_tokenizer]
  exact bind_eq_ok_iff.2 ⟨text, sourceText_eq_ok_iff.2 h, hdelivery⟩

/-- What is delivered is the tokens of the text of the source. -/
theorem of_deliver_eq_ok {source : Option CString} {delivery : Delivery}
    (h : Id.run (deliver (tokenizer options) source) = .ok delivery) :
    ∃ text, sourceText source = .ok text ∧ delivery.sourceBytes = text.utf8ByteSize ∧
      delivery.list.Carries ((tokens options text.toList).map Token.raw) := by
  rw [deliver_tokenizer] at h
  obtain ⟨text, hsource, hdelivery⟩ := bind_eq_ok_iff.1 h
  obtain ⟨tokens, hreply, -, hcarries, hbytes⟩ := of_delivery_eq_ok hdelivery
  cases hreply
  exact ⟨text, hsource, hbytes, hcarries⟩

/-- A source is refused because it is no text, or because the tokens of its text do not fit. -/
theorem of_deliver_eq_error {source : Option CString} {cause : Rejection}
    (h : Id.run (deliver (tokenizer options) source) = .error cause) :
    sourceText source = .error cause ∨
      ∃ text, sourceText source = .ok text ∧
        Unfit ((tokens options text.toList).map Token.raw) cause := by
  rw [deliver_tokenizer] at h
  rcases bind_eq_error_iff.1 h with hsource | ⟨text, hsource, hdelivery⟩
  · exact .inl hsource
  · rcases delivery_eq_error_iff.1 hdelivery with hreply | ⟨tokens, hreply, hunfit⟩
    · cases hreply
    · cases hreply
      exact .inr ⟨text, hsource, hunfit⟩

/-- A caller gets what is delivered. -/
theorem request_tokenizer (source : Option CString) :
    Id.run (request (tokenizer options) source) =
      answered (Id.run (deliver (tokenizer options) source)) := by
  rw [request_eq]
  rfl

/-- A text has at most three tokens for every two of its characters, the marks of line structure
included. So a source of up to 1431655765 bytes is never refused for the number of its tokens,
whatever the options are. -/
theorem token_count_linear (options : Options) :
    (∀ text, 2 * (tokens options text).length ≤ 3 * text.length) ∧
      ∀ (source : CString) (count : Nat), source.content.length ≤ 1431655765 →
        Id.run (deliver (tokenizer options) (some source)) ≠ .error (.tooManyTokens count) := by
  refine ⟨tokens_account options, ?_⟩
  intro source count hsize hdeliver
  rcases of_deliver_eq_error options hdeliver with hsource | ⟨text, hsource, hunfit⟩
  · obtain ⟨offset, hcause⟩ := sourceText_eq_error hsource
    cases hcause
  · have htext : text.toList.length ≤ source.content.length := by
      rw [← sourceText_eq_ok_iff.1 hsource]
      exact Utf8.length_le_encode text.toList
    have haccount := tokens_account options text.toList
    cases hunfit with
    | count hcount =>
        rw [List.length_map, maxWire] at hcount
        omega
    | token _ _ _ hfault => cases hfault

/-- A request for the tokens of a source of up to 2^30 bytes is answered by a list if and only if
the source is well-formed UTF-8, and the list then carries the code, the text and the line of every
token of the text that the source encodes. A refusal is always for the encoding, never for the
number of tokens, their lines or their texts. The bytes behind the first NUL have no part in any of
this. -/
theorem request_total (source : CString) (hsize : source.content.length ≤ 2 ^ 30) :
    let outcome (source : CString) := Id.run (request (tokenizer {}) (some source))
    ((outcome source).1.isSome ↔ Utf8.WellFormed source.content) ∧
      (∀ text, Utf8.encode text = source.content →
        ∃ list, (outcome source).1 = some list ∧
          list.Carries ((tokens {} text).map fun token ↦
            ⟨token.kind.code, token.text, token.line⟩)) ∧
      (∀ cause, Id.run (deliver (tokenizer {}) (some source)) = .error cause →
        ∃ offset, cause = .malformedSource offset) ∧
      ∀ other : CString, other.content = source.content → outcome other = outcome source := by
  intro outcome
  have houtcome (source : CString) : outcome source =
      answered (Id.run (deliver (tokenizer {}) (some source))) := request_tokenizer {} _
  have hcarries (text : List Char) (h : Utf8.encode text = source.content) :
      ∃ list, (outcome source).1 = some list ∧ list.Carries ((tokens {} text).map Token.raw) := by
    rw [← String.toList_ofList (l := text)] at h ⊢
    obtain ⟨list, hdeliver, hlist⟩ := deliver_wellFormed {} hsize h
    refine ⟨list, ?_, hlist⟩
    rw [houtcome, hdeliver]
    rfl
  refine ⟨⟨?_, ?_⟩, hcarries, ?_, ?_⟩
  · intro hsome
    obtain ⟨list, hlist⟩ := Option.isSome_iff_exists.1 hsome
    rw [houtcome] at hlist
    obtain ⟨delivery, hdeliver, -⟩ := of_answered_eq_some hlist
    obtain ⟨text, hsource, -⟩ := of_deliver_eq_ok {} hdeliver
    exact exists_sourceText_iff.1 ⟨text, hsource⟩
  · rintro ⟨text, h⟩
    obtain ⟨list, hlist, -⟩ := hcarries text h
    rw [hlist]
    rfl
  · intro cause h
    rcases of_deliver_eq_error {} h with hsource | ⟨text, hsource, -⟩
    · exact sourceText_eq_error hsource
    · obtain ⟨list, hlist, -⟩ := deliver_wellFormed {} hsize (sourceText_eq_ok_iff.1 hsource)
      cases h.symm.trans hlist
  · intro other h
    rw [houtcome, houtcome, deliver_tokenizer, deliver_tokenizer, sourceText_congr h]

/-- A line with one letter of two bytes, which is no name, is answered by its tokens, although what
lies behind the NUL is no UTF-8. -/
theorem request_answers_letter :
    ∃ list, (Id.run (request (tokenizer {})
        (some ⟨[0xC3, 0xA9, 0x0A, 0, 0xFF], by decide⟩))).1 = some list ∧
      list.Carries [⟨0, "é", 1⟩, ⟨3, "\n", 1⟩] := by
  have htriples : (tokens {} ['é', '\n']).map (fun token ↦
      (⟨token.kind.code, token.text, token.line⟩ : RawToken)) =
        [⟨0, "é", 1⟩, ⟨3, "\n", 1⟩] := by decide +kernel
  obtain ⟨list, hlist, hcarries⟩ :=
    (request_total ⟨[0xC3, 0xA9, 0x0A, 0, 0xFF], by decide⟩ (by decide)).2.1 ['é', '\n']
      (by decide)
  exact ⟨list, hlist, htriples ▸ hcarries⟩

end AhoyScan
