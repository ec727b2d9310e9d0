import AhoyScan.Proofs.Requests

/-!
# The ways of asking agree

A caller can request the tokens of a source in three ways, which differ in how they report a
rejection, or attempt a delivery without a report. In every session all of them leave the same list
in the slot, and what they report and log is about that list or about the one reason why there is
none: `requests_agree`.
-/

namespace AhoyScan

/-- The ways to request the tokens of a source for a slot. -/
inductive Action.Requests (source : Option CString) : Action → Prop where
  | fetch : Requests source (.fetch source)
  | fetchChecked (hasErrorOut : Bool) : Requests source (.fetchChecked source hasErrorOut)
  | fetchStatus : Requests source (.fetchStatus source true)

/-- The status that reports an outcome. -/
def reportedStatus : Except Rejection Delivery → Status
  | .ok _ => .success
  | .error cause => cause.status

/-- The message that reports an outcome. -/
def reportedMessage : Except Rejection Delivery → Option CString
  | .ok _ => none
  | .error cause => CString.ofText? cause.message

/-! ## Messages -/

/-- A number is written without a NUL. -/
theorem nul_notMem_toDigits (n : Nat) : '\x00' ∉ Nat.toDigits 10 n := by
  intro h
  have hdigit := Nat.isDigit_of_mem_toDigits (by decide) (by decide) h
  revert hdigit
  decide

/-- No message of the library holds a NUL, unless it quotes the reason of a tokenizer. -/
theorem Rejection.nul_notMem_message {cause : Rejection}
    (h : ∀ reason, cause ≠ .tokenizerFailed reason) : '\x00' ∉ cause.message.toList := by
  cases cause with
  | tokenizerFailed reason => exact absurd rfl (h reason)
  | missingSource | malformedSource | nulInText | tooManyTokens | lineTooLarge =>
      -- Fixed words and numbers are all that these messages are made of.
      dsimp only [message]
      simp [toString, nul_notMem_toDigits]

/-- The tokenizer of the language never fails by itself. -/
theorem ne_tokenizerFailed {source : Option CString} {cause : Rejection}
    (h : Id.run (deliver (tokenizer {}) source) = .error cause) (reason : String) :
    cause ≠ .tokenizerFailed reason := by
  rintro rfl
  rcases of_deliver_eq_error {} h with hsource | ⟨text, -, hunfit⟩
  · cases source with
    | none => cases hsource
    | some source =>
        obtain ⟨offset, hoffset⟩ := sourceText_eq_error hsource
        cases hoffset
  · cases hunfit with
    | token _ _ _ hfault => cases hfault

/-! ## Reports -/

/-- A rejection is not reported as a success. -/
theorem reportedStatus_eq_success_iff (outcome : Except Rejection Delivery) :
    reportedStatus outcome = .success ↔ (answered outcome).1.isSome := by
  cases outcome with
  | ok delivery => simp [reportedStatus, answered]
  | error cause => cases cause <;> simp [reportedStatus, Rejection.status, answered]

/-- The message of a rejection is stored in full. -/
theorem exists_reportedMessage_eq {source : Option CString} {cause : Rejection}
    (h : Id.run (deliver (tokenizer {}) source) = .error cause) :
    ∃ message, reportedMessage (Id.run (deliver (tokenizer {}) source)) = some message ∧
      message.content = Utf8.encode cause.message.toList ∧ message.text = cause.message := by
  rw [h]
  exact CString.exists_ofText?_eq (Rejection.nul_notMem_message (ne_tokenizerFailed h))

/-- There is a message exactly if there is a rejection. -/
theorem reportedMessage_eq_none_iff (source : Option CString) :
    reportedMessage (Id.run (deliver (tokenizer {}) source)) = none ↔
      (answered (Id.run (deliver (tokenizer {}) source))).1.isSome := by
  cases h : Id.run (deliver (tokenizer {}) source) with
  | ok delivery => simp [reportedMessage, answered]
  | error cause =>
      obtain ⟨message, hmessage, -⟩ := exists_reportedMessage_eq h
      rw [h] at hmessage
      simp [hmessage, answered]

/-- A reader takes as many tokens as the count says. -/
theorem WireList.Carries.count_eq_length {list : WireList} {tokens : List RawToken}
    (h : list.Carries tokens) : list.count.toInt = list.entries.length := by
  rw [h.count_eq, h.entries.length_eq]

/-- The record of a delivery gives the size of the text and the count of the list. -/
theorem Delivery.record_line {delivery : Delivery} {text : String} {tokens : List RawToken}
    (hbytes : delivery.sourceBytes = text.utf8ByteSize) (h : delivery.list.Carries tokens) :
    delivery.record.line =
      s!"DEBUG: tokenized {text.utf8ByteSize} bytes into {delivery.list.count} tokens" := by
  have hcount : toString delivery.list.count = toString delivery.list.entries.length := by
    show toString delivery.list.count.toInt = _
    rw [h.count_eq_length]
    rfl
  rw [hcount, ← hbytes]
  rfl

/-! ## One action -/

section Perform

variable (source : Option CString) (list : Option WireList) (error : Option CString)

/-- Every request leaves what is delivered in the slot and logs one record about it. -/
theorem Action.Requests.perform {source : Option CString} {action : Action}
    (h : action.Requests source) :
    ((action.perform list error).list, (action.perform list error).log) =
      answered (Id.run (deliver (tokenizer {}) source)) := by
  cases h with
  | fetch => exact request_tokenizer {} source
  | fetchChecked hasErrorOut =>
      simp only [Action.perform, requestChecked]
      cases Id.run (deliver (tokenizer {}) source) <;> rfl
  | fetchStatus =>
      simp only [Action.perform, requestStatus]
      cases Id.run (deliver (tokenizer {}) source) <;> rfl

/-- An attempt leaves what is delivered in the slot. -/
theorem attempt_list :
    ((Action.attempt source {}).perform list error).list =
      (answered (Id.run (deliver (tokenizer {}) source))).1 := by
  rw [Action.perform]
  cases Id.run (deliver (tokenizer {}) source) <;> rfl

/-- A request with a status reports the outcome by its status. -/
theorem fetchStatus_answer :
    ((Action.fetchStatus source true).perform list error).answer =
      .status (reportedStatus (Id.run (deliver (tokenizer {}) source)))
        (answered (Id.run (deliver (tokenizer {}) source))).1 := by
  simp only [Action.perform, requestStatus]
  cases Id.run (deliver (tokenizer {}) source) <;> rfl

/-- A request with a message reports the outcome by its message, whatever message was there. -/
theorem fetchChecked_error :
    ((Action.fetchChecked source true).perform list error).error =
      reportedMessage (Id.run (deliver (tokenizer {}) source)) := by
  simp only [Action.perform, requestChecked]
  cases Id.run (deliver (tokenizer {}) source) <;> rfl

end Perform

/-! ## Every session -/

/-- A slot holds what an action on it leaves there. -/
theorem Session.get?_step (session : Session) (slot : String) (action : Action) :
    (session.step ⟨slot, action⟩).slots.get? slot = (session.effect ⟨slot, action⟩).list :=
  Slots.get?_set_self session.slots slot (session.effect ⟨slot, action⟩).list

/-- A source has one answer, a list with the codes, texts and lines of its tokens or none, which
every request and an attempt leave in the slot that they are made for, whatever the session held
before. A request with a status reports success exactly if there is a list, and so does a request
with a message by a null pointer. If there is none, an attempt reports the reason, the status is the
one of that reason and the message is the whole message of that reason. A request logs one record:
the size of the text and the count of the list, or the message. -/
theorem requests_agree (source : Option CString) :
    ∃ list : Option WireList, ∀ (session : Session) (slot : String),
      let effect (action : Action) := session.effect ⟨slot, action⟩
      let after (action : Action) := session.step ⟨slot, action⟩
      (∀ action, action.Requests source ∨ action = .attempt source {} →
        (after action).slots.get? slot = list) ∧
      (∃ status, (effect (.fetchStatus source true)).answer = .status status list ∧
        (status = .success ↔ list.isSome)) ∧
      ((after (.fetchChecked source true)).error = none ↔ list.isSome) ∧
      (∀ delivered, list = some delivered → ∃ text, sourceText source = .ok text ∧
        delivered.Carries ((tokens {} text.toList).map fun token ↦
          ⟨token.kind.code, token.text, token.line⟩) ∧
        ∀ action, action.Requests source → (effect action).log.map LogRecord.line =
          [s!"DEBUG: tokenized {text.utf8ByteSize} bytes into {delivered.count} tokens"]) ∧
      (list = none → ∃ cause, (effect (.attempt source {})).answer = .rejected cause ∧
        (effect (.fetchStatus source true)).answer = .status cause.status none ∧
        (∃ message, (after (.fetchChecked source true)).error = some message ∧
          message.content = Utf8.encode cause.message.toList ∧ message.text = cause.message) ∧
        ∀ action, action.Requests source → (effect action).log.map LogRecord.line =
          ["WARN: rejected tokenize request: " ++ cause.message]) := by
  refine ⟨(answered (Id.run (deliver (tokenizer {}) source))).1, fun session slot ↦ ?_⟩
  intro effect after
  -- What each step leaves, reports and logs is a function of the one outcome; the outcome itself is
  -- looked at only in the last two parts.
  have hslot (action : Action) (h : action.Requests source ∨ action = .attempt source {}) :
      (after action).slots.get? slot = (answered (Id.run (deliver (tokenizer {}) source))).1 := by
    refine (session.get?_step slot action).trans ?_
    rcases h with h | rfl
    · exact congrArg Prod.fst (h.perform _ _)
    · exact attempt_list source _ _
  have hlog (action : Action) (h : action.Requests source) :
      (effect action).log = (answered (Id.run (deliver (tokenizer {}) source))).2 :=
    congrArg Prod.snd (h.perform _ _)
  have hstatus : (effect (.fetchStatus source true)).answer = _ := fetchStatus_answer source _ _
  have herror : (after (.fetchChecked source true)).error = _ :=
    fetchChecked_error source (session.slots.get? slot) session.error
  have hattempt : effect (.attempt source {}) =
      .ofDelivery session.error (Id.run (deliver (tokenizer {}) source)) := rfl
  refine ⟨hslot, ⟨_, hstatus, reportedStatus_eq_success_iff _⟩, ?_, ?_, ?_⟩
  · rw [herror]
    exact reportedMessage_eq_none_iff source
  · intro list hlist
    obtain ⟨delivery, hdeliver, rfl⟩ := of_answered_eq_some hlist
    obtain ⟨text, hsource, hbytes, hcarries⟩ := of_deliver_eq_ok {} hdeliver
    refine ⟨text, hsource, hcarries, fun action h ↦ ?_⟩
    rw [hlog action h, hdeliver]
    exact congrArg (fun line ↦ [line]) (Delivery.record_line hbytes hcarries)
  · intro hnone
    obtain ⟨cause, hcause⟩ := of_answered_eq_none hnone
    obtain ⟨message, hmessage, hcontent⟩ := exists_reportedMessage_eq hcause
    refine ⟨cause, ?_, ?_, ⟨message, herror.trans hmessage, hcontent⟩, fun action h ↦ ?_⟩
    · rw [hattempt, hcause]
      rfl
    · rw [hstatus, hcause]
      rfl
    · rw [hlog action h, hcause]
      rfl

end AhoyScan
