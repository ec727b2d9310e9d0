import AhoyScan.Proofs.WireLists
import AhoyScan.Session

/-!
# Deliveries are exact or refused as a whole

A source that decodes is given to the tokenizer once, and what the tokenizer replies is delivered
token for token or not at all. `Rejects` lists the reasons for a refusal in the order in which they
take effect. `delivery_exact` says all of this for every source and every reply of a tokenizer.
-/

namespace AhoyScan

/-- Why a source and the tokenizer's reply give no list: the source is no text, or the tokenizer
refuses the text, or its tokens do not fit a list. -/
inductive Rejects (source : Option CString) (reply : Reply) : Rejection → Prop where
  | source {cause : Rejection} : sourceText source = .error cause → Rejects source reply cause
  | reply {text : String} {cause : Rejection} :
      sourceText source = .ok text → reply = .error cause → Rejects source reply cause
  | tokens {text : String} {tokens : List RawToken} {cause : Rejection} :
      sourceText source = .ok text → reply = .ok tokens → Unfit tokens cause →
      Rejects source reply cause

/-- What is delivered of a reply to a text. -/
def Reply.delivery (text : String) : Reply → Except Rejection Delivery
  | .error cause => .error cause
  | .ok tokens => (WireList.ofTokens tokens).map (⟨·, text.utf8ByteSize⟩)

/-- A caller gets the list of a delivery with a record, or no list and a record of why not. -/
def answered : Except Rejection Delivery → Option WireList × List LogRecord
  | .ok delivery => (some delivery.list, [delivery.record])
  | .error cause => (none, [.rejected cause])

/-! ## Stages -/

section Stages

variable {ε α β : Type} {first : Except ε α} {next : α → Except ε β}

/-- Two stages succeed if the first one does and the second one does with its result. -/
theorem bind_eq_ok_iff {result : β} :
    (first >>= next) = .ok result ↔ ∃ value, first = .ok value ∧ next value = .ok result := by
  cases first with
  | error cause => simp [Bind.bind, Except.bind]
  | ok value => simp [Bind.bind, Except.bind]

/-- Of two stages the first one that fails gives the reason. -/
theorem bind_eq_error_iff {cause : ε} :
    (first >>= next) = .error cause ↔
      first = .error cause ∨ ∃ value, first = .ok value ∧ next value = .error cause := by
  cases first with
  | error other => simp [Bind.bind, Except.bind]
  | ok value => simp [Bind.bind, Except.bind]

end Stages

/-! ## One reply -/

section Reply

variable (text : String) {reply : Reply} {tokens : List RawToken} {delivery : Delivery}
  {cause : Rejection}

/-- Tokens that fit a list are delivered in one that carries them. -/
theorem delivery_of_fits (hcount : tokens.length ≤ maxWire) (h : ∀ token ∈ tokens, token.Fits) :
    ∃ list, Reply.delivery text (.ok tokens) = .ok ⟨list, text.utf8ByteSize⟩ ∧
      list.Carries tokens := by
  obtain ⟨list, hlist, hcarries⟩ := WireList.ofTokens_carries hcount h
  refine ⟨list, ?_, hcarries⟩
  rw [Reply.delivery, hlist]
  rfl

variable {text}

/-- Only tokens that fit a list are delivered, and the list carries them. -/
theorem of_delivery_eq_ok (h : reply.delivery text = .ok delivery) :
    ∃ tokens, reply = .ok tokens ∧ (tokens.length ≤ maxWire ∧ ∀ token ∈ tokens, token.Fits) ∧
      delivery.list.Carries tokens ∧ delivery.sourceBytes = text.utf8ByteSize := by
  cases reply with
  | error cause => cases h
  | ok tokens =>
      rw [Reply.delivery] at h
      cases hlist : WireList.ofTokens tokens with
      | error cause =>
          rw [hlist] at h
          cases h
      | ok list =>
          rw [hlist] at h
          cases h
          obtain ⟨hfits, hcarries⟩ := WireList.ofTokens_eq_ok hlist
          exact ⟨tokens, rfl, hfits, hcarries, rfl⟩

/-- Nothing is delivered if the tokenizer refuses the text or its tokens do not fit a list. -/
theorem delivery_eq_error_iff :
    reply.delivery text = .error cause ↔
      reply = .error cause ∨ ∃ tokens, reply = .ok tokens ∧ Unfit tokens cause := by
  cases reply with
  | error other => simp [Reply.delivery]
  | ok tokens =>
      have hmap : Reply.delivery text (.ok tokens) = .error cause ↔
          WireList.ofTokens tokens = .error cause := by
        rw [Reply.delivery]
        cases WireList.ofTokens tokens <;> simp [Except.map]
      rw [hmap, WireList.ofTokens_eq_error_iff]
      simp

end Reply

/-! ## What the caller gets -/

section Answered

variable {outcome : Except Rejection Delivery}

/-- A caller gets a list only if it was delivered. -/
theorem of_answered_eq_some {list : WireList} (h : (answered outcome).1 = some list) :
    ∃ delivery, outcome = .ok delivery ∧ delivery.list = list := by
  cases outcome with
  | error cause => cases h
  | ok delivery => exact ⟨delivery, rfl, Option.some.inj h⟩

/-- A caller gets no list only if the request was rejected. -/
theorem of_answered_eq_none (h : (answered outcome).1 = none) : ∃ cause, outcome = .error cause := by
  cases outcome with
  | error cause => exact ⟨cause, rfl⟩
  | ok delivery => cases h

end Answered

/-! ## The tokenizer and its reply -/

section Deliver

variable {m : Type → Type} [Monad m] (tokenizer : Tokenizer m) {source : Option CString}

/-- A tokenizer is not run on a source that is no text. -/
theorem deliver_of_error {cause : Rejection} (h : sourceText source = .error cause) :
    deliver tokenizer source = pure (.error cause) := by
  rw [deliver, h]

/-- A tokenizer is run on the text of a source, and its reply is delivered. -/
theorem deliver_of_ok {text : String} (h : sourceText source = .ok text) :
    deliver tokenizer source = (do pure (Reply.delivery text (← tokenizer text))) := by
  rw [deliver, h]
  refine congrArg (tokenizer text >>= ·) (funext fun reply ↦ ?_)
  cases reply <;> rfl

/-- A request gives a delivery to its caller. -/
theorem request_eq [LawfulMonad m] :
    request tokenizer source = answered <$> deliver tokenizer source := by
  rw [request, map_eq_pure_bind]
  refine congrArg (deliver tokenizer source >>= ·) (funext fun result ↦ ?_)
  cases result <;> rfl

end Deliver

variable (source : Option CString) (reply : Reply)

/-- The tokenizer is given the text of a source that decodes, and nothing otherwise. -/
theorem deliver_recording :
    Id.run ((deliver reply.recording source).run []) =
      (sourceText source >>= (Reply.delivery · reply), (sourceText source).toOption.toList) := by
  cases h : sourceText source with
  | error cause =>
      rw [deliver_of_error _ h]
      rfl
  | ok text =>
      rw [deliver_of_ok _ h]
      rfl

/-- A request gives the delivery to its caller, and the tokenizer is given the same. -/
theorem request_recording :
    Id.run ((request reply.recording source).run []) =
      (answered (sourceText source >>= (Reply.delivery · reply)),
        (sourceText source).toOption.toList) := by
  have hdeliver := deliver_recording source reply
  rw [request_eq]
  show (answered (Id.run ((deliver reply.recording source).run [])).1,
    (Id.run ((deliver reply.recording source).run [])).2) = _
  rw [hdeliver]

variable {source reply}

/-- There is no delivery exactly when there is a reason for a refusal, and that is the reason. -/
theorem rejects_iff {cause : Rejection} :
    (sourceText source >>= (Reply.delivery · reply)) = .error cause ↔
      Rejects source reply cause := by
  rw [bind_eq_error_iff]
  constructor
  · rintro (hsource | ⟨text, hsource, hdelivery⟩)
    · exact .source hsource
    · rcases delivery_eq_error_iff.1 hdelivery with hreply | ⟨tokens, hreply, hunfit⟩
      · exact .reply hsource hreply
      · exact .tokens hsource hreply hunfit
  · intro h
    cases h with
    | source hsource => exact .inl hsource
    | reply hsource hreply => exact .inr ⟨_, hsource, delivery_eq_error_iff.2 (.inl hreply)⟩
    | tokens hsource hreply hunfit =>
        exact .inr ⟨_, hsource, delivery_eq_error_iff.2 (.inr ⟨_, hreply, hunfit⟩)⟩

/-- A source that decodes and a reply with tokens that fit a list are delivered, and nothing else
is. -/
theorem delivers_iff :
    (∃ delivery, (sourceText source >>= (Reply.delivery · reply)) = .ok delivery) ↔
      (∃ text, sourceText source = .ok text) ∧
        ∃ tokens, reply = .ok tokens ∧ tokens.length ≤ maxWire ∧ ∀ token ∈ tokens, token.Fits := by
  constructor
  · rintro ⟨delivery, h⟩
    obtain ⟨text, hsource, hdelivery⟩ := bind_eq_ok_iff.1 h
    obtain ⟨tokens, hreply, hfits, -⟩ := of_delivery_eq_ok hdelivery
    exact ⟨⟨text, hsource⟩, tokens, hreply, hfits⟩
  · rintro ⟨⟨text, hsource⟩, tokens, rfl, hcount, hfits⟩
    obtain ⟨list, hdelivery, -⟩ := delivery_of_fits text hcount hfits
    exact ⟨⟨list, text.utf8ByteSize⟩, bind_eq_ok_iff.2 ⟨text, hsource, hdelivery⟩⟩

/-- The tokenizer is given the text of a source once if the source decodes, and otherwise is not
run, for an attempt as for a request. There is a delivery if and only if the source decodes, the
reply is tokens, no more than a list can hold, and each of them fits; the list then carries the
tokens of the reply. Otherwise there is no list and the reason is that of the source, or else that
of the reply, or else that there are too many tokens, or else the fault of the first token with
one. A null pointer is no source: the tokenizer is not run, and the reason is that there is none. -/
theorem delivery_exact (source : Option CString) (reply : Reply) :
    let attempt := Id.run ((deliver reply.recording source).run [])
    let request := Id.run ((request reply.recording source).run [])
    (attempt.2 = (sourceText source).toOption.toList ∧ request.2 = attempt.2) ∧
      ((∃ delivery, attempt.1 = .ok delivery) ↔
        (∃ text, sourceText source = .ok text) ∧
          ∃ tokens, reply = .ok tokens ∧ tokens.length ≤ maxWire ∧
            ∀ token ∈ tokens, token.Fits) ∧
      (∀ delivery, attempt.1 = .ok delivery →
        request.1 = (some delivery.list, [delivery.record]) ∧
          ∃ tokens, reply = .ok tokens ∧ delivery.list.Carries tokens) ∧
      (∀ cause, (attempt.1 = .error cause ↔ Rejects source reply cause) ∧
        (attempt.1 = .error cause → request.1 = (none, [.rejected cause]))) ∧
      Id.run ((deliver reply.recording none).run []) = (.error .missingSource, []) ∧
      Id.run ((AhoyScan.request reply.recording none).run []) =
        ((none, [.rejected .missingSource]), []) := by
  intro attempt request
  have hattempt : attempt = _ := deliver_recording source reply
  have hrequest : request = _ := request_recording source reply
  rw [hattempt, hrequest]
  refine ⟨⟨rfl, rfl⟩, delivers_iff, ?_, fun cause ↦ ⟨rejects_iff, ?_⟩,
    deliver_recording none reply, request_recording none reply⟩
  · intro delivery h
    obtain ⟨text, -, hdelivery⟩ := bind_eq_ok_iff.1 h
    obtain ⟨tokens, hreply, -, hcarries, -⟩ := of_delivery_eq_ok hdelivery
    exact ⟨congrArg answered h, tokens, hreply, hcarries⟩
  · intro h
    exact congrArg answered h

end AhoyScan
