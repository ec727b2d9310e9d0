import AhoyScan.Proofs.Agreement

/-!
# What actions do to their slot, and runs of actions

An action does one of three things with the list of its slot: it puts another list or a null
pointer there, it leaves the list where it is, or it releases the list. `Action.treatment` says
which, and there is one lemma about what each of them does. Everything else about runs follows from
these three lemmas and from the one on the error pointer, by one of the two inductions at the end.
-/

namespace AhoyScan

/-- What becomes of the list in the slot that an action is made for. -/
inductive Treatment where
  | replaced
  | kept
  | released
  deriving DecidableEq

/-- What an action does with the list of its slot. A list that is replaced is not released. -/
def Action.treatment : Action → Treatment
  | .fetch _ | .fetchChecked _ _ | .fetchStatus _ true | .fetchFrom _ _ | .attemptFrom _ _
  | .attempt _ _ | .assemble _ => .replaced
  | .fetchStatus _ false | .read | .inspect | .reclaim | .readError | .setError _ | .clearError
  | .freeError | .kindName _ | .initLogging => .kept
  | .drop | .free => .released

/-- Whether an action can write the error pointer. -/
def Action.writesError : Action → Bool
  | .fetchChecked _ hasErrorOut => hasErrorOut
  | .setError _ | .clearError | .freeError => true
  | .fetch _ | .fetchStatus _ _ | .fetchFrom _ _ | .attemptFrom _ _ | .attempt _ _ | .assemble _
  | .read | .inspect | .reclaim | .drop | .free | .readError | .kindName _ | .initLogging => false

/-- The list was built from some tokens. -/
def WireList.Built (list : WireList) : Prop :=
  ∃ tokens, ofTokens tokens = .ok list

/-- The action leaves this result in every slot, which is a list built from tokens or a null
pointer, and reports no release. -/
structure Action.Replaces (action : Action) (result : Option WireList) : Prop where
  list_eq : ∀ list error, (action.perform list error).list = result
  built : ∀ list, result = some list → list.Built
  log : ∀ list error n, .released n ∉ (action.perform list error).log

/-- The steps of a run, each with the session in which it is made. -/
def Session.moments (session : Session) : List Step → List (Session × Step)
  | [] => []
  | first :: rest => (session, first) :: (session.step first).moments rest

/-! ## Lists that replace others -/

/-- What is delivered of a reply was built from tokens. -/
theorem Delivery.built {source : Option CString} {reply : String → Reply} {delivery : Delivery}
    (h : (do let text ← sourceText source; (reply text).delivery text) = .ok delivery) :
    delivery.list.Built := by
  obtain ⟨text, -, hdelivery⟩ := bind_eq_ok_iff.1 h
  cases hreply : reply text with
  | error cause =>
      rw [hreply] at hdelivery
      cases hdelivery
  | ok tokens =>
      rw [hreply, Reply.delivery] at hdelivery
      cases hlist : WireList.ofTokens tokens with
      | error cause =>
          rw [hlist] at hdelivery
          cases hdelivery
      | ok list =>
          rw [hlist] at hdelivery
          cases hdelivery
          exact ⟨tokens, hlist⟩

/-- An action that leaves what is delivered, and reports it or less, replaces the list. -/
theorem Action.replaces_of_answered {action : Action} (source : Option CString)
    (reply : String → Reply) {outcome : Except Rejection Delivery}
    (houtcome : outcome = do let text ← sourceText source; (reply text).delivery text)
    (hlist : ∀ list error, (action.perform list error).list = (answered outcome).1)
    (hlog : ∀ list error, (action.perform list error).log ⊆ (answered outcome).2) :
    action.Replaces (answered outcome).1 := by
  refine ⟨hlist, ?_, ?_⟩
  · intro list h
    obtain ⟨delivery, hdelivery, rfl⟩ := of_answered_eq_some h
    exact Delivery.built (houtcome.symm.trans hdelivery)
  · intro list error n h
    cases outcome with
    | ok delivery => cases List.mem_singleton.1 (hlog list error h)
    | error cause => cases List.mem_singleton.1 (hlog list error h)

/-- A request replaces the list by what is delivered of its source. -/
theorem Action.Requests.replaces {source : Option CString} {action : Action}
    (h : action.Requests source) :
    action.Replaces (answered (Id.run (deliver (tokenizer {}) source))).1 := by
  refine replaces_of_answered source (languageReply {}) (deliver_tokenizer {} source) ?_ ?_
  · intro list error
    exact congrArg Prod.fst (h.perform list error)
  · intro list error
    exact congrArg Prod.snd (h.perform list error) ▸ List.Subset.refl _

/-- A delivery that is only reported to its caller leaves what is delivered, and logs a success. -/
theorem Effect.ofDelivery_eq (error : Option CString) (outcome : Except Rejection Delivery) :
    (Effect.ofDelivery error outcome).list = (answered outcome).1 ∧
      (Effect.ofDelivery error outcome).log ⊆ (answered outcome).2 := by
  cases outcome with
  | ok delivery => exact ⟨rfl, List.Subset.refl _⟩
  | error cause => exact ⟨rfl, List.nil_subset _⟩

/-- What is delivered with a tokenizer that gives a fixed reply. -/
theorem deliver_reply (source : Option CString) (reply : Reply) :
    Id.run (deliver (fun _ ↦ pure reply) source) =
      (do let text ← sourceText source; reply.delivery text) := by
  cases h : sourceText source with
  | error cause =>
      rw [deliver_of_error _ h]
      rfl
  | ok text =>
      rw [deliver_of_ok _ h]
      rfl

variable {action : Action}

/-- An action that replaces the list of its slot leaves the same in every slot. -/
theorem Action.replaces (h : action.treatment = .replaced) : ∃ result, action.Replaces result := by
  cases action with
  | fetch source => exact ⟨_, Requests.fetch.replaces⟩
  | fetchChecked source hasErrorOut => exact ⟨_, (Requests.fetchChecked hasErrorOut).replaces⟩
  | fetchStatus source hasListOut =>
      cases hasListOut with
      | true => exact ⟨_, Requests.fetchStatus.replaces⟩
      | false => cases h
  | fetchFrom source reply =>
      have hrequest := request_recording source reply
      refine ⟨_, replaces_of_answered source (fun _ ↦ reply) rfl ?_ ?_⟩
      · intro list error
        exact congrArg (·.1.1) hrequest
      · intro list error
        exact congrArg (·.1.2) hrequest ▸ List.Subset.refl _
  | attemptFrom source reply =>
      refine ⟨_, replaces_of_answered source (fun _ ↦ reply) (deliver_reply source reply) ?_ ?_⟩
      · intro list error
        exact (Effect.ofDelivery_eq error _).1
      · intro list error
        exact (Effect.ofDelivery_eq error _).2
  | attempt source options =>
      refine ⟨_, replaces_of_answered source (languageReply options)
        (deliver_tokenizer options source) ?_ ?_⟩
      · intro list error
        exact (Effect.ofDelivery_eq error _).1
      · intro list error
        exact (Effect.ofDelivery_eq error _).2
  | assemble tokens =>
      cases hlist : WireList.ofTokens tokens with
      | ok result =>
          refine ⟨some result, ⟨?_, ?_, ?_⟩⟩
          · intro list error
            simp only [perform, hlist]
          · intro list h
            exact ⟨tokens, hlist.trans (congrArg Except.ok (Option.some.inj h))⟩
          · intro list error n
            simp [perform, hlist]
      | error cause =>
          refine ⟨none, ⟨?_, ?_, ?_⟩⟩
          · intro list error
            simp only [perform, hlist]
          · intro list h
            cases h
          · intro list error n
            simp [perform, hlist]
  | _ => cases h

/-! ## Other actions -/

section Perform

variable (list : Option WireList) (error : Option CString)

/-- An action that keeps the list of its slot logs nothing. -/
theorem Action.perform_kept (h : action.treatment = .kept) :
    (action.perform list error).list = list ∧ (action.perform list error).log = [] := by
  cases action with
  | fetchStatus source hasListOut =>
      cases hasListOut with
      | true => cases h
      | false => exact ⟨rfl, rfl⟩
  | read | inspect | reclaim | readError | setError _ | clearError | freeError | kindName _
  | initLogging => exact ⟨rfl, rfl⟩
  | _ => cases h

/-- An action that releases a list leaves a null pointer and reports the release last. -/
theorem Action.perform_released (h : action.treatment = .released) :
    (action.perform list error).list = none ∧
      ∃ before, (∀ n, .released n ∉ before) ∧
        (action.perform list error).log = before ++ list.toList.map WireList.released := by
  cases action with
  | drop => exact ⟨rfl, [], by simp, rfl⟩
  | free =>
      cases list with
      | none => exact ⟨rfl, [], by simp, rfl⟩
      | some list => exact ⟨rfl, [.releasing list.entries.length], by simp, rfl⟩
  | fetchStatus _ hasListOut => cases hasListOut <;> cases h
  | _ => cases h

/-- The list that an action leaves does not depend on the error pointer. -/
theorem Action.perform_list_congr (other : Option CString) :
    (action.perform list error).list = (action.perform list other).list := by
  cases h : action.treatment with
  | replaced =>
      obtain ⟨result, hresult⟩ := Action.replaces h
      rw [hresult.list_eq, hresult.list_eq]
  | kept => rw [(perform_kept list error h).1, (perform_kept list other h).1]
  | released => rw [(perform_released list error h).1, (perform_released list other h).1]

/-- An action either writes the error pointer, whatever its slot and the pointer hold, or leaves
it. -/
theorem Action.perform_error :
    (action.perform list error).error =
      if action.writesError then (action.perform none none).error else error := by
  cases action with
  | fetchChecked source hasErrorOut =>
      cases hasErrorOut <;> simp only [perform, requestChecked] <;>
        cases Id.run (deliver (tokenizer {}) source) <;> rfl
  | attemptFrom source reply =>
      simp only [perform]
      cases Id.run (deliver (fun _ ↦ pure reply) source) <;> rfl
  | attempt source options =>
      simp only [perform]
      cases Id.run (deliver (tokenizer options) source) <;> rfl
  | assemble tokens =>
      simp only [perform]
      cases WireList.ofTokens tokens <;> rfl
  | _ => rfl

end Perform

/-! ## Runs -/

namespace Session

variable {session : Session}

/-- What every step keeps, a run keeps. -/
theorem run_keeps {invariant : Session → Prop}
    (hstep : ∀ session step, invariant session → invariant (session.step step))
    (h : invariant session) (steps : List Step) : invariant (session.run steps).2 := by
  induction steps generalizing session with
  | nil => exact h
  | cons first rest ih => exact ih (hstep session first h)

/-- If a view of a session depends only on the view before each step, and some steps leave it as it
is, then it is the same after a run without these steps. -/
theorem run_filter {α : Type} (view : Session → α) (acts : Step → Bool)
    (hacts : ∀ session other step, view session = view other →
      view (session.step step) = view (other.step step))
    (hleaves : ∀ session step, acts step = false → view (session.step step) = view session)
    {other : Session} (h : view session = view other) (steps : List Step) :
    view (session.run steps).2 = view (other.run (steps.filter acts)).2 := by
  -- The two runs go apart only in what `view` does not show.
  induction steps generalizing session other with
  | nil => exact h
  | cons first rest ih =>
      cases hfirst : acts first with
      | true =>
          rw [List.filter_cons_of_pos hfirst]
          exact ih (hacts session other first h)
      | false =>
          rw [List.filter_cons_of_neg (by simp [hfirst])]
          exact ih ((hleaves session first hfirst).trans h)

/-- Every moment of a run comes after some of its steps. -/
theorem run_of_mem_moments {steps : List Step} {moment : Session × Step}
    (h : moment ∈ session.moments steps) : ∃ before, moment.1 = (session.run before).2 := by
  induction steps generalizing session with
  | nil => cases h
  | cons first rest ih =>
      rcases List.mem_cons.1 h with rfl | h
      · exact ⟨[], rfl⟩
      · obtain ⟨before, hbefore⟩ := ih h
        exact ⟨first :: before, hbefore⟩

/-- What is put into a slot is in no other slot. -/
theorem get?_step_of_ne {step : Step} {name : String} (h : step.slot ≠ name) :
    (session.step step).slots.get? name = session.slots.get? name :=
  Slots.get?_set_of_ne session.slots h.symm (session.effect step).list

end Session

end AhoyScan
