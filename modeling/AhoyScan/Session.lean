import AhoyScan.Delivery
import AhoyScan.Session.Slots

/-!
# Sessions of a C caller

A caller holds token lists in named slots and one pointer to an error message. `Action` is what it
can do with a slot and that pointer, `Action.perform` says what an action leaves in them, what the
caller sees and what is logged, and `Session.step` and `Session.run` carry that out. A list that a
slot holds is not released when the slot is overwritten: only `drop` and `free` release.
-/

namespace AhoyScan

/-- What a tokenizer supplied by the caller answers to every text. -/
abbrev Reply : Type :=
  Except Rejection (List RawToken)

/-- A tokenizer that gives the same answer to every text and keeps the texts it was given. -/
def Reply.recording (reply : Reply) : Tokenizer (StateM (List String)) :=
  fun text ↦ do
    modify (· ++ [text])
    pure reply

/-- What a caller can do with a slot and the error pointer. To `fetch` a list is a `request`, to
`attempt` it is a bare `deliver`, with the language's tokenizer or with one that gives a fixed
reply. `assemble` makes a list of given tokens; `reclaim` takes the list back from the caller and
hands it out again. -/
inductive Action where
  | fetch (source : Option CString)
  | fetchChecked (source : Option CString) (hasErrorOut : Bool)
  | fetchStatus (source : Option CString) (hasListOut : Bool)
  | fetchFrom (source : Option CString) (reply : Reply)
  | attemptFrom (source : Option CString) (reply : Reply)
  | attempt (source : Option CString) (options : Options)
  | assemble (tokens : List RawToken)
  | read
  | inspect
  | reclaim
  | drop
  | free
  | readError
  | setError (message : String)
  | clearError
  | freeError
  | kindName (code : Int32)
  | initLogging

/-- What the caller sees of an action. `none` in place of a list or a message is a null pointer.
Every list has an array, an empty one too, and no two texts share a place. -/
inductive Answer where
  | nothing
  | list (list : Option WireList)
  | rejected (cause : Rejection)
  | checked (list : Option WireList) (error : Option CString)
  | status (status : Status) (list : Option WireList)
  | replied (list : Option WireList) (seen : List String)
  | inspected (count : Int32) (arrayIsNull textsAreDistinct : Bool)
  | owned (length : Nat) (isEmpty : Bool) (count : Int32)
  | dropped
  | message (text : Option CString)
  | name (name : CString)
  deriving DecidableEq

/-- The outcome of an action: what the slot and the error pointer hold after it, what the caller
sees, and what was logged. -/
structure Effect where
  list : Option WireList
  error : Option CString
  answer : Answer
  log : List LogRecord := []
  deriving DecidableEq

/-- The record of releasing a list, with the number of its tokens by its count. -/
def WireList.released (list : WireList) : LogRecord :=
  .released list.count.toInt.toNat

/-- A delivery that reports a rejection to its caller and logs only success. -/
def Effect.ofDelivery (error : Option CString) : Except Rejection Delivery → Effect
  | .ok delivery => ⟨some delivery.list, error, .list (some delivery.list), [delivery.record]⟩
  | .error cause => ⟨none, error, .rejected cause, []⟩

/-- The outcome of an action on a slot that holds `list` while the error pointer is `error`. -/
def Action.perform (list : Option WireList) (error : Option CString) : Action → Effect
  | .fetch source =>
      let (result, log) := Id.run (request (tokenizer {}) source)
      ⟨result, error, .list result, log⟩
  | .fetchChecked source hasErrorOut =>
      let errorOut := if hasErrorOut then .cell error else .absent
      let (result, written, log) := requestChecked source errorOut
      let error := written.contentD error
      ⟨result, error, .checked result error, log⟩
  | .fetchStatus source hasListOut =>
      let listOut := if hasListOut then .cell list else .absent
      let (status, written, log) := requestStatus source listOut
      let list := written.contentD list
      ⟨list, error, .status status list, log⟩
  | .fetchFrom source reply =>
      let ((result, log), seen) := Id.run ((request reply.recording source).run [])
      ⟨result, error, .replied result seen, log⟩
  | .attemptFrom source reply =>
      .ofDelivery error (Id.run (deliver (fun _ ↦ pure reply) source))
  | .attempt source options =>
      .ofDelivery error (Id.run (deliver (tokenizer options) source))
  | .assemble tokens =>
      match WireList.ofTokens tokens with
      | .ok result => ⟨some result, error, .list (some result), []⟩
      | .error cause => ⟨none, error, .rejected cause, []⟩
  | .read => ⟨list, error, .list list, []⟩
  | .inspect => ⟨list, error, list.elim .nothing (.inspected ·.count false true), []⟩
  | .reclaim =>
      ⟨list, error,
        list.elim .nothing fun l ↦ .owned l.entries.length l.entries.isEmpty l.count, []⟩
  | .drop => ⟨none, error, list.elim .nothing fun _ ↦ .dropped, list.toList.map (·.released)⟩
  | .free =>
      ⟨none, error, .nothing,
        list.toList.flatMap fun l ↦ [.releasing l.entries.length, l.released]⟩
  | .readError => ⟨list, error, .message error, []⟩
  | .setError message =>
      let error := ((OutCell.cell error).storeMessage message).contentD error
      ⟨list, error, .message error, []⟩
  | .clearError => ⟨list, (OutCell.cell error).clear.contentD error, .nothing, []⟩
  | .freeError => ⟨list, none, .nothing, []⟩
  | .kindName code => ⟨list, error, .name (Kind.storedName code), []⟩
  | .initLogging => ⟨list, error, .nothing, []⟩

/-- An action on a slot. -/
structure Step where
  slot : String
  action : Action

/-- What a caller holds: its slots and its error pointer. -/
structure Session where
  slots : Slots := {}
  error : Option CString := none

namespace Session

/-- The outcome of a step. -/
def effect (session : Session) (step : Step) : Effect :=
  step.action.perform (session.slots.get? step.slot) session.error

/-- The session after a step. -/
def step (session : Session) (step : Step) : Session :=
  let effect := session.effect step
  ⟨session.slots.set step.slot effect.list, effect.error⟩

/-- The outcomes of a sequence of steps, and the session after the last one. -/
def run (session : Session) : List Step → List Effect × Session
  | [] => ([], session)
  | first :: rest =>
      let (effects, last) := run (session.step first) rest
      (session.effect first :: effects, last)

end Session

end AhoyScan
