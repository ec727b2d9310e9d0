import AhoyScan.Proofs.Independence

/-!
# The lists that a session holds

Whatever a caller does, the lists in its slots were built from tokens and its error message was
stored from a text. So a list has as many entries as its count says, every entry has a line that is
not negative and a text that its string stores exactly, and a list can be built again from what is
read from it: `held_lists_sound`.
-/

namespace AhoyScan

/-- The string stores its text and nothing more: the text is free of NUL, and the buffer holds the
bytes of the text and one NUL after them. -/
structure CString.IsExact (string : CString) : Prop where
  text_free : '\x00' ∉ string.text.toList
  cells_eq : string.cells = Utf8.encode string.text.toList ++ [0]

/-- The token that a reader finds in a list, as a tokenizer would report it. -/
def WireToken.raw (token : WireToken) : RawToken :=
  ⟨token.kind, token.value.text, token.line.toInt.toNat⟩

/-- The line of a token is not negative and fits its field, and the text is stored exactly. -/
structure WireToken.Sound (token : WireToken) : Prop where
  line_nonneg : 0 ≤ token.line.toInt
  line_le : token.line.toInt ≤ maxWire
  value : token.value.IsExact

/-- The count of a list is the number of its entries, which are all the tokens in its array, and
each of them is sound. -/
structure WireList.Sound (list : WireList) : Prop where
  count_eq : list.count.toInt = list.entries.length
  count_le : list.count.toInt ≤ maxWire
  entries_eq : list.entries = list.tokens
  entry : ∀ entry ∈ list.entries, entry.Sound

/-- The lists of a session were built from tokens, and its error message was stored from a text. -/
structure Session.Sound (session : Session) : Prop where
  built : ∀ name list, session.slots.get? name = some list → list.Built
  stored : ∀ message, session.error = some message → ∃ text, CString.ofText? text = some message

/-! ## Strings and tokens -/

/-- A string that was stored from a text stores it exactly. -/
theorem CString.isExact_of_ofText? {text : String} {string : CString}
    (h : ofText? text = some string) : string.IsExact := by
  rw [ofText?_eq] at h
  split at h
  · cases h
  · rename_i hfree
    cases h
    have htext : (ofBuffer (Utf8.encode text.toList)).text = text :=
      text_eq (content_ofBuffer (mt Utf8.zero_mem_encode_iff.1 hfree))
    refine ⟨?_, ?_⟩
    · rw [htext]
      exact hfree
    · rw [htext]
      rfl

/-- A token that has a form is put into it as a sound one. -/
theorem WireToken.sound_of_ofRaw {token : RawToken} {index : Nat} {wire : WireToken}
    (h : ofRaw token index = .ok wire) : wire.Sound := by
  rw [ofRaw] at h
  split at h
  · rename_i hline
    split at h
    · rename_i value hvalue
      cases h
      have heq : (Int32.ofNat token.line).toInt = token.line := toInt_ofNat_of_le hline
      refine ⟨?_, ?_, CString.isExact_of_ofText? hvalue⟩
      · exact heq ▸ Int.natCast_nonneg token.line
      · exact heq ▸ Int.ofNat_le.2 hline
    · cases h
  · cases h

/-- The forms of tokens are as many as the tokens, and all of them are sound. -/
theorem wireFrom_sound {index : Nat} {tokens : List RawToken} {wires : List WireToken}
    (h : wireFrom index tokens = .ok wires) :
    wires.length = tokens.length ∧ ∀ wire ∈ wires, wire.Sound := by
  induction tokens generalizing index wires with
  | nil =>
      cases h
      exact ⟨rfl, by simp⟩
  | cons token tokens ih =>
      rw [wireFrom_cons] at h
      obtain ⟨wire, hwire, h⟩ := bind_eq_ok_iff.1 h
      obtain ⟨rest, hrest, h⟩ := bind_eq_ok_iff.1 h
      cases h
      obtain ⟨hlength, hsound⟩ := ih hrest
      refine ⟨congrArg Nat.succ hlength, ?_⟩
      intro other hother
      rcases List.mem_cons.1 hother with rfl | hother
      · exact WireToken.sound_of_ofRaw hwire
      · exact hsound other hother

/-- A reader finds the token that the entry carries. -/
theorem WireToken.Carries.raw_eq {wire : WireToken} {token : RawToken} (h : wire.Carries token) :
    wire.raw = token := by
  rw [raw, h.kind_eq, h.text_eq, h.line_eq, Int.toNat_natCast]

/-! ## Lists -/

namespace WireList

variable {list : WireList}

/-- The count of a list that carries tokens says how many entries it has. -/
theorem Built.count_eq (h : list.Built) : list.count.toInt = list.entries.length := by
  obtain ⟨tokens, htokens⟩ := h
  exact (ofTokens_eq_ok htokens).2.count_eq_length

/-- A list that was built from tokens is sound. -/
theorem Built.sound (h : list.Built) : list.Sound := by
  have hcount := h.count_eq
  obtain ⟨tokens, htokens⟩ := h
  obtain ⟨⟨hle, -⟩, hcarries⟩ := ofTokens_eq_ok htokens
  rw [ofTokens_of_le hle] at htokens
  cases hwires : wireFrom 0 tokens with
  | error cause =>
      rw [hwires] at htokens
      cases htokens
  | ok wires =>
      rw [hwires] at htokens
      cases htokens
      obtain ⟨hlength, hsound⟩ := wireFrom_sound hwires
      have hentries : entries ⟨wires, Int32.ofNat tokens.length⟩ = wires := by
        rw [entries, hcarries.count_eq, Int.toNat_natCast, ← hlength]
        exact List.take_length
      refine ⟨hcount, ?_, hentries, ?_⟩
      · rw [hcarries.count_eq]
        exact Int.ofNat_le.2 hle
      · rw [hentries]
        exact hsound

/-- The tokens that are read from a list build the same list again. -/
theorem Built.ofTokens_entries (h : list.Built) :
    ofTokens (list.entries.map WireToken.raw) = .ok list := by
  obtain ⟨tokens, htokens⟩ := h
  have hcarries := (ofTokens_eq_ok htokens).2
  have hread : list.entries.map WireToken.raw = tokens := by
    rw [← List.forall₂_eq_eq_eq, List.forall₂_map_left_iff]
    exact hcarries.entries.imp fun wire token ↦ WireToken.Carries.raw_eq
  rw [hread, htokens]

end WireList

/-! ## Sessions -/

namespace Session

variable {session : Session}

/-- What is stored as an error message was stored from a text. -/
theorem stored_of_writesError {action : Action} {message : CString}
    (haction : action.writesError = true) (h : (action.perform none none).error = some message) :
    ∃ text, CString.ofText? text = some message := by
  cases action with
  | fetchChecked source hasErrorOut =>
      obtain rfl : hasErrorOut = true := haction
      rw [fetchChecked_error] at h
      cases hdeliver : Id.run (deliver (tokenizer {}) source) with
      | ok delivery =>
          rw [hdeliver] at h
          cases h
      | error cause =>
          rw [hdeliver] at h
          exact ⟨cause.message, h⟩
  | setError text => exact ⟨text, h⟩
  | clearError | freeError => cases h
  | _ => cases haction

/-- A step keeps a session sound. -/
theorem Sound.step (h : session.Sound) (step : Step) : (session.step step).Sound := by
  refine ⟨?_, ?_⟩
  · intro name list hlist
    by_cases hslot : step.slot = name
    · subst hslot
      rw [get?_step session step.slot step.action] at hlist
      cases htreatment : step.action.treatment with
      | replaced =>
          obtain ⟨result, hresult⟩ := Action.replaces htreatment
          exact hresult.built list ((hresult.list_eq _ _).symm.trans hlist)
      | kept =>
          exact h.built step.slot list ((Action.perform_kept _ _ htreatment).1.symm.trans hlist)
      | released => cases (Action.perform_released _ _ htreatment).1.symm.trans hlist
    · rw [get?_step_of_ne hslot] at hlist
      exact h.built name list hlist
  · intro message hmessage
    rw [error_step] at hmessage
    split at hmessage
    · rename_i hwrites
      exact stored_of_writesError hwrites hmessage
    · exact h.stored message hmessage

/-- Every session that a run leads to from empty slots is sound. -/
theorem sound_run (steps : List Step) : (run {} steps).2.Sound := by
  refine run_keeps (fun session step h ↦ h.step step) ⟨?_, ?_⟩ steps
  · intro name list h
    cases h
  · intro message h
    cases h

end Session

/-- After any run from empty slots, every list that a slot holds has as many entries as its count
says, which is no more than the count can hold; every entry has a line that is not negative, and a
text without a NUL that its string stores exactly; and from the tokens that are read from the list
an equal list can be built. An error message is a text without a NUL, stored exactly. -/
theorem held_lists_sound (steps : List Step) :
    let session := (Session.run {} steps).2
    (∀ name list, session.slots.get? name = some list →
      list.Sound ∧ WireList.ofTokens (list.entries.map WireToken.raw) = .ok list) ∧
      ∀ message, session.error = some message → message.IsExact := by
  intro session
  have hsession : session.Sound := Session.sound_run steps
  refine ⟨?_, ?_⟩
  · intro name list h
    have hbuilt := hsession.built name list h
    exact ⟨hbuilt.sound, hbuilt.ofTokens_entries⟩
  · intro message h
    obtain ⟨text, htext⟩ := hsession.stored message h
    exact CString.isExact_of_ofText? htext

end AhoyScan
