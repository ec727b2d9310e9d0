import AhoyScan.Proofs.Runs

/-!
# Slots and the error pointer do not interfere

What a slot holds depends on the steps that are made for it and on nothing else, and the error
pointer depends on the steps that can write it. `runs_independent` compares a run with the runs that
are left when all other steps are taken out.
-/

namespace AhoyScan

namespace Session

variable {session other : Session} {step : Step} {name : String}

/-- What a step leaves in its slot depends on what the slot held before. -/
theorem effect_list_congr (h : session.slots.get? step.slot = other.slots.get? step.slot) :
    (session.effect step).list = (other.effect step).list := by
  rw [effect, effect, h]
  exact Action.perform_list_congr _ _ _

/-- What a slot holds after a step depends on what it held before. -/
theorem get?_step_congr (h : session.slots.get? name = other.slots.get? name) :
    (session.step step).slots.get? name = (other.step step).slots.get? name := by
  by_cases hslot : step.slot = name
  · subst hslot
    rw [get?_step session step.slot step.action, get?_step other step.slot step.action]
    exact effect_list_congr h
  · rw [get?_step_of_ne hslot, get?_step_of_ne hslot, h]

/-- The error pointer after a step. -/
theorem error_step (session : Session) (step : Step) :
    (session.step step).error =
      if step.action.writesError then (step.action.perform none none).error else session.error :=
  Action.perform_error _ _

/-- A step for another slot, or one that keeps the list of its slot, changes nothing about what is
held. -/
theorem get?_step_of_kept (h : step.slot ≠ name ∨ step.action.treatment = .kept) :
    (session.step step).slots.get? name = session.slots.get? name := by
  by_cases hslot : step.slot = name
  · subst hslot
    have hkept := h.resolve_left fun hne ↦ hne rfl
    rw [get?_step session step.slot step.action]
    exact (Action.perform_kept _ _ hkept).1
  · exact get?_step_of_ne hslot

end Session

/-- After any number of the steps of a run, every slot holds the list that it would hold if only the
steps made for it had been made, and the error pointer is what it would be if only the steps that
can write it had been made. What a caller reads from a slot is not changed by a step for another
slot, nor by one that reads, inspects or takes back the list of the slot, nor by a request with a
status that has no cell for a list. -/
theorem runs_independent (session : Session) (steps : List Step) (n : Nat) :
    let after (done : List Step) : Session := (session.run done).2
    let done := steps.take n
    (∀ name, (after done).slots.get? name =
        (after (done.filter (·.slot = name))).slots.get? name) ∧
      (after done).error = (after (done.filter (·.action.writesError))).error ∧
      ∀ step name, step.slot ≠ name ∨ step.action.treatment = .kept →
        (((after done).step step).effect ⟨name, .read⟩).answer =
          ((after done).effect ⟨name, .read⟩).answer := by
  intro after done
  refine ⟨fun name ↦ ?_, ?_, ?_⟩
  · refine Session.run_filter (·.slots.get? name) (·.slot = name) ?_ ?_ rfl done
    · exact fun session other step ↦ Session.get?_step_congr
    · intro session step hstep
      exact Session.get?_step_of_ne (by simpa using hstep)
  · refine Session.run_filter Session.error (·.action.writesError) ?_ ?_ rfl done
    · intro session other step h
      rw [Session.error_step, Session.error_step, h]
    · intro session step hstep
      rw [Session.error_step, hstep]
      rfl
  · intro step name h
    exact congrArg Answer.list (Session.get?_step_of_kept h)

end AhoyScan
