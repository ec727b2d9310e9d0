import AhoyScan.Proofs.HeldLists
import AhoyScan.Proofs.Numerals

/-!
# No list is lost from sight

Every list that a step puts into a slot is later released, or is still held at the end, or was
overwritten without a release, and never two of these. `lists_conserved` says so with numbers: it
counts the lists of each size that came in, the releases that the log reports for this size, the
lists that are still held and those that were overwritten. It also says what the log holds about
each release.
-/

namespace AhoyScan

/-- There is a list with this number of entries. -/
def hasSize (n : Nat) (list : Option WireList) : Bool :=
  list.any (·.entries.length = n)

/-- The number of slots that hold a list with this number of entries. -/
def Slots.countSize (n : Nat) (slots : Slots) : Nat :=
  slots.held.countP fun entry ↦ hasSize n (some entry.2)

/-- The step puts a list of this size into its slot. -/
def Session.stores (n : Nat) (moment : Session × Step) : Bool :=
  moment.2.action.treatment = .replaced && hasSize n (moment.1.effect moment.2).list

/-- The step puts another list or a null pointer where its slot held a list of this size. -/
def Session.overwrites (n : Nat) (moment : Session × Step) : Bool :=
  moment.2.action.treatment = .replaced && hasSize n (moment.1.slots.get? moment.2.slot)

/-! ## Records of releases -/

/-- No other record reads like the one of a release. -/
theorem LogRecord.line_eq_released_iff {record : LogRecord} {n : Nat} :
    record.line = s!"TRACE: released token list with {n} entries" ↔ record = .released n := by
  constructor
  · intro h
    cases record with
    | released m =>
        dsimp only [line] at h
        rw [String.append_left_inj, String.append_right_inj] at h
        rw [toString_nat_injective h]
    | delivered _ _ | releasing _ | rejected _ =>
        -- Their lines begin with another letter.
        have hfirst := congrArg (fun line ↦ line.toList.head?) h
        dsimp only [line] at hfirst
        simp [toString] at hfirst
  · rintro rfl
    rfl

/-- The lines about releases of a size are as many as the records of them. -/
theorem count_released_line (n : Nat) (log : List LogRecord) :
    (log.map LogRecord.line).count s!"TRACE: released token list with {n} entries" =
      log.count (.released n) := by
  rw [List.count_eq_countP, List.countP_map, List.count_eq_countP]
  refine List.countP_congr fun record _ ↦ ?_
  simp only [Function.comp_apply, beq_iff_eq, LogRecord.line_eq_released_iff]

namespace WireList

variable {list : WireList}

/-- A list that was built from tokens is released with the number of its entries. -/
theorem Built.released_eq (h : list.Built) : list.released = .released list.entries.length := by
  rw [released, h.count_eq, Int.toNat_natCast]

/-- The count of a list that was built from tokens reads like the number of its entries. -/
theorem Built.toString_count (h : list.Built) :
    toString list.count = toString list.entries.length := by
  show toString list.count.toInt = _
  rw [h.count_eq]
  rfl

/-- The release of a list that was built from tokens is reported with its count. -/
theorem Built.released_line (h : list.Built) :
    list.released.line = s!"TRACE: released token list with {list.count} entries" := by
  rw [h.released_eq, h.toString_count]
  rfl

/-- That a list built from tokens is about to be released is reported with its count. -/
theorem Built.releasing_line (h : list.Built) :
    (LogRecord.releasing list.entries.length).line =
      s!"DEBUG: releasing token list with {list.count} entries" := by
  rw [h.toString_count]
  rfl

end WireList

/-! ## Slots -/

/-- Without the entry under a name there is one list less of the size of that entry. -/
theorem countP_filter_ne {held : List (String × WireList)} (distinct : (held.map Prod.fst).Nodup)
    (n : Nat) (name : String) :
    ((held.filter (·.1 ≠ name)).countP fun entry ↦ hasSize n (some entry.2)) +
        (if hasSize n (held.lookup name) then 1 else 0) =
      held.countP fun entry ↦ hasSize n (some entry.2) := by
  induction held with
  | nil => rfl
  | cons entry rest ih =>
      obtain ⟨key, list⟩ := entry
      rw [List.map_cons, List.nodup_cons] at distinct
      rw [List.countP_cons]
      by_cases same : key = name
      · subst same
        have hothers : rest.filter (·.1 ≠ key) = rest := by
          rw [List.filter_eq_self]
          intro other hother
          have hmem : other.1 ∈ rest.map Prod.fst := List.mem_map_of_mem hother
          have hne : other.1 ≠ key := ne_of_mem_of_not_mem hmem distinct.1
          simpa using hne
        rw [List.filter_cons_of_neg (by simp), hothers, List.lookup_cons_self]
      · have hlookup : ((key, list) :: rest).lookup name = rest.lookup name := by
          rw [List.lookup_cons, beq_false_of_ne (Ne.symm same)]
        rw [List.filter_cons_of_pos (by simpa using same), List.countP_cons, hlookup,
          ← ih distinct.2]
        exact Nat.add_right_comm _ _ _

/-- What is put under a name comes in, and what was held there goes. -/
theorem Slots.countSize_set (slots : Slots) (n : Nat) (name : String) (list : Option WireList) :
    (slots.set name list).countSize n + (if hasSize n (slots.get? name) then 1 else 0) =
      slots.countSize n + if hasSize n list then 1 else 0 := by
  have hothers := countP_filter_ne slots.distinct n name
  have hset : (slots.set name list).countSize n =
      (if hasSize n list then 1 else 0) +
        (slots.held.filter (·.1 ≠ name)).countP fun entry ↦ hasSize n (some entry.2) := by
    cases list with
    | none => exact (Nat.zero_add _).symm
    | some list => exact (List.countP_cons ..).trans (Nat.add_comm _ _)
  rw [hset, Slots.get?, countSize, Nat.add_assoc, hothers, Nat.add_comm]

/-! ## Steps and runs -/

namespace Session

variable {session : Session}

/-- A step that releases the list of its slot reports this with the size of the list. -/
theorem Sound.count_released (h : session.Sound) {step : Step}
    (hreleased : step.action.treatment = .released) (n : Nat) :
    (session.effect step).log.count (.released n) =
      if hasSize n (session.slots.get? step.slot) then 1 else 0 := by
  obtain ⟨-, before, hbefore, hlog⟩ :=
    Action.perform_released (session.slots.get? step.slot) session.error hreleased
  rw [effect, hlog, List.count_append, List.count_eq_zero.2 (hbefore n), Nat.zero_add]
  cases hget : session.slots.get? step.slot with
  | none => rfl
  | some list =>
      rw [Option.toList_some, List.map_singleton, (h.built _ list hget).released_eq]
      simp [hasSize, List.count_singleton]

/-- What a step brings in and what was held make up what it reports as released, what is held after
it and what it overwrites. -/
theorem Sound.step_conserves (h : session.Sound) (step : Step) (n : Nat) :
    (if stores n (session, step) then 1 else 0) + session.slots.countSize n =
      (session.effect step).log.count (.released n) + (session.step step).slots.countSize n +
        if overwrites n (session, step) then 1 else 0 := by
  have hset := session.slots.countSize_set n step.slot (session.effect step).list
  show _ = _ + (session.slots.set step.slot (session.effect step).list).countSize n + _
  cases htreatment : step.action.treatment with
  | replaced =>
      obtain ⟨result, hresult⟩ := Action.replaces htreatment
      have hlog : (session.effect step).log.count (.released n) = 0 :=
        List.count_eq_zero.2 (hresult.log _ _ n)
      simp only [stores, overwrites, htreatment, decide_true, Bool.true_and, hlog]
      omega
  | kept =>
      have hlist : (session.effect step).list = session.slots.get? step.slot :=
        (Action.perform_kept _ _ htreatment).1
      have hlog : (session.effect step).log = [] := (Action.perform_kept _ _ htreatment).2
      rw [hlist] at hset ⊢
      simp only [stores, overwrites, htreatment, hlog, List.count_nil, reduceCtorEq, decide_false,
        Bool.false_and, Bool.false_eq_true, if_false]
      omega
  | released =>
      have hlist : (session.effect step).list = none :=
        (Action.perform_released _ _ htreatment).1
      have hnone : hasSize n none = false := rfl
      rw [hlist, hnone] at hset
      rw [hlist, h.count_released htreatment]
      simp only [stores, overwrites, htreatment, reduceCtorEq, decide_false, Bool.false_and,
        Bool.false_eq_true, if_false] at hset ⊢
      omega

/-- What a run brings in and what was held make up what it reports as released, what is held at its
end and what it overwrites. -/
theorem Sound.run_conserves (h : session.Sound) (steps : List Step) (n : Nat) :
    (session.moments steps).countP (stores n) + session.slots.countSize n =
      ((session.run steps).1.flatMap Effect.log).count (.released n) +
        (session.run steps).2.slots.countSize n +
          (session.moments steps).countP (overwrites n) := by
  induction steps generalizing session with
  | nil => simp [moments, run]
  | cons first rest ih =>
      have hfirst := h.step_conserves first n
      have hrest := ih (h.step first)
      show ((session, first) :: (session.step first).moments rest).countP _ + _ =
        ((session.effect first).log ++
            ((session.step first).run rest).1.flatMap Effect.log).count _ +
          ((session.step first).run rest).2.slots.countSize n +
            ((session, first) :: (session.step first).moments rest).countP _
      rw [List.countP_cons, List.countP_cons, List.count_append]
      omega

end Session

/-- In every run from empty slots, and for every size, the steps that put a list of this size into
their slot are as many as the releases that the log reports for it, the slots that hold such a list
at the end, and the steps that overwrote one. To free a list is reported by its count before the
release and again with it, to drop it only with the release; the count is the number of its entries.
Without a list nothing is reported, and neither is reading, inspecting or taking back a list. -/
theorem lists_conserved (steps : List Step) :
    let moments := Session.moments {} steps
    let log := ((Session.run {} steps).1.flatMap Effect.log).map LogRecord.line
    (∀ n, moments.countP (Session.stores n) =
      log.count s!"TRACE: released token list with {n} entries" +
        (Session.run {} steps).2.slots.countSize n + moments.countP (Session.overwrites n)) ∧
      ∀ session step, (session, step) ∈ moments →
        let lines := (session.effect step).log.map LogRecord.line
        (∀ list, session.slots.get? step.slot = some list →
          list.count.toInt = list.entries.length ∧
          (step.action = .free →
            lines = [s!"DEBUG: releasing token list with {list.count} entries",
              s!"TRACE: released token list with {list.count} entries"]) ∧
          (step.action = .drop →
            lines = [s!"TRACE: released token list with {list.count} entries"])) ∧
        (session.slots.get? step.slot = none → step.action = .free ∨ step.action = .drop →
          lines = []) ∧
        (step.action = .read ∨ step.action = .inspect ∨ step.action = .reclaim → lines = []) := by
  intro moments log
  refine ⟨fun n ↦ ?_, ?_⟩
  · show _ = (List.map LogRecord.line _).count _ + _ + _
    rw [count_released_line]
    exact (Session.sound_run []).run_conserves steps n
  · intro session step hmoment lines
    obtain ⟨before, hsession⟩ := Session.run_of_mem_moments hmoment
    obtain rfl : session = _ := hsession
    have hsound := Session.sound_run before
    have hlines : lines = (step.action.perform ((Session.run {} before).2.slots.get? step.slot)
        (Session.run {} before).2.error).log.map LogRecord.line := rfl
    refine ⟨?_, ?_, ?_⟩
    · intro list hlist
      have hbuilt := hsound.built step.slot list hlist
      refine ⟨hbuilt.count_eq, ?_, ?_⟩
      · intro haction
        rw [hlines, haction, hlist, ← hbuilt.released_line, ← hbuilt.releasing_line]
        rfl
      · intro haction
        rw [hlines, haction, hlist, ← hbuilt.released_line]
        rfl
    · intro hnone haction
      rw [hlines, hnone]
      rcases haction with haction | haction <;> rw [haction] <;> rfl
    · intro haction
      rw [hlines]
      rcases haction with haction | haction | haction <;> rw [haction] <;> rfl

end AhoyScan
