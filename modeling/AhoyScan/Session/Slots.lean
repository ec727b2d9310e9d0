import AhoyScan.Wire

/-!
# Named slots

A `Slots` holds the token lists that a caller has been handed, each under a name of its own. A
name that holds none stands for a null handle.
-/

namespace AhoyScan

/-- The lists held under distinct names. -/
structure Slots where
  held : List (String × WireList) := []
  distinct : (held.map Prod.fst).Nodup := by simp

namespace Slots

/-- The list held under a name. -/
def get? (slots : Slots) (name : String) : Option WireList :=
  slots.held.lookup name

/-- Hold this list, or none, under a name. -/
def set (slots : Slots) (name : String) (list : Option WireList) : Slots where
  held := (list.map (name, ·)).toList ++ slots.held.filter (·.1 ≠ name)
  distinct := by
    have others : ((slots.held.filter (·.1 ≠ name)).map Prod.fst).Nodup :=
      slots.distinct.sublist (List.filter_sublist.map _)
    cases list with
    | none => exact others
    | some list => exact List.nodup_cons.2 ⟨by simp, others⟩

theorem lookup_filter_ne (held : List (String × WireList)) (name : String) :
    (held.filter (·.1 ≠ name)).lookup name = none := by
  rw [List.lookup_eq_none_iff]
  intro entry member
  have differ : entry.1 ≠ name := by simpa using (List.mem_filter.1 member).2
  exact bne_iff_ne.2 differ.symm

theorem lookup_filter_of_ne (held : List (String × WireList)) {name other : String}
    (differ : other ≠ name) : (held.filter (·.1 ≠ name)).lookup other = held.lookup other := by
  induction held with
  | nil => rfl
  | cons entry rest ih =>
      obtain ⟨key, list⟩ := entry
      by_cases same : key = name
      · subst same
        rw [List.filter_cons_of_neg (by simp), ih, List.lookup_cons, beq_false_of_ne differ]
      · rw [List.filter_cons_of_pos (by simpa using same), List.lookup_cons, List.lookup_cons, ih]

/-- A name holds what was put under it last. -/
@[simp]
theorem get?_set_self (slots : Slots) (name : String) (list : Option WireList) :
    (slots.set name list).get? name = list := by
  cases list with
  | none => exact lookup_filter_ne slots.held name
  | some list => simp [get?, set]

/-- The other names hold what they held before. -/
theorem get?_set_of_ne (slots : Slots) {name other : String} (differ : other ≠ name)
    (list : Option WireList) : (slots.set name list).get? other = slots.get? other := by
  cases list with
  | none => exact lookup_filter_of_ne slots.held differ
  | some list =>
      refine Eq.trans ?_ (lookup_filter_of_ne slots.held differ)
      exact (List.lookup_cons ..).trans (by rw [beq_false_of_ne differ]; rfl)

end Slots

end AhoyScan
