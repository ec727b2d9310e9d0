import AhoyScan.Delivery
import AhoyScan.Proofs.Decoding

/-!
# The text of a source

A source that a caller passes in has a text if and only if the bytes before its first NUL are UTF-8
(`exists_sourceText_iff`), and then it is the text of these bytes (`sourceText_eq_ok_iff`).
`sourceText_exact` says besides how far the bytes of any other source can be read, which is what its
rejection reports.
-/

namespace AhoyScan

variable {source : CString}

/-- A source has the text whose bytes are its content. -/
theorem sourceText_eq_ok_iff {text : String} :
    sourceText (some source) = .ok text ↔ Utf8.encode text.toList = source.content := by
  rw [← Utf8.decode_eq_ok_iff, sourceText]
  cases Utf8.decode source.content with
  | error offset => simp
  | ok chars => simp [← String.toList_inj]

/-- A source is refused for no other reason than an encoding that is not UTF-8. -/
theorem sourceText_eq_error {cause : Rejection} (h : sourceText (some source) = .error cause) :
    ∃ offset, cause = .malformedSource offset := by
  rw [sourceText] at h
  split at h
  · cases h
  · cases h
    exact ⟨_, rfl⟩

/-- A source has a text exactly when its content is well-formed. -/
theorem exists_sourceText_iff :
    (∃ text, sourceText (some source) = .ok text) ↔ Utf8.WellFormed source.content := by
  constructor
  · rintro ⟨text, h⟩
    exact ⟨text.toList, sourceText_eq_ok_iff.1 h⟩
  · rintro ⟨chars, h⟩
    exact ⟨String.ofList chars, sourceText_eq_ok_iff.2 (by rwa [String.toList_ofList])⟩

/-- What lies behind the first NUL has no part in the text. -/
theorem sourceText_congr {other : CString} (h : other.content = source.content) :
    sourceText (some other) = sourceText (some source) := by
  rw [sourceText, sourceText, h]

/-- A source whose content is no text is refused for its encoding. The offset is the length of the
longest text in front of it. -/
theorem sourceText_of_malformed (h : ¬ Utf8.WellFormed source.content) :
    ∃ offset, sourceText (some source) = .error (.malformedSource offset) ∧
      offset < source.content.length ∧
      IsGreatest {n | ∃ front, front <+: source.content ∧ Utf8.WellFormed front ∧
        front.length = n} offset := by
  obtain ⟨offset, hdecode, hoffset⟩ := Utf8.decode_of_malformed h
  exact ⟨offset, by rw [sourceText, hdecode], hoffset⟩

/-- A source has the text whose UTF-8 bytes are those before its first NUL, and the text has as many
bytes as these are. Where they are the bytes of no text, the source is refused for its encoding, and
the offset that is reported is the length of the longest text in front of them, which is less than
all of them. So a text without a NUL is the text of its own bytes. -/
theorem sourceText_exact (source : CString) :
    (∀ text : String, Utf8.encode text.toList = source.content →
        sourceText (some source) = .ok text ∧ text.utf8ByteSize = source.content.length) ∧
      (¬ Utf8.WellFormed source.content →
        ∃ offset, sourceText (some source) = .error (.malformedSource offset) ∧
          offset < source.content.length ∧
          IsGreatest {n | ∃ front, front <+: source.content ∧ Utf8.WellFormed front ∧
            front.length = n} offset) ∧
      ∀ text : String, '\x00' ∉ text.toList →
        sourceText (some (.ofBuffer (Utf8.encode text.toList))) = .ok text := by
  refine ⟨?_, sourceText_of_malformed, ?_⟩
  · intro text h
    refine ⟨sourceText_eq_ok_iff.2 h, ?_⟩
    rw [← Utf8.length_encode, h]
  · intro text hfree
    have hzero : 0 ∉ Utf8.encode text.toList := mt Utf8.zero_mem_encode_iff.1 hfree
    exact sourceText_eq_ok_iff.2 (CString.content_ofBuffer hzero).symm

end AhoyScan
