import AhoyScan.Proofs.Lines

/-!
# Nested blocks

`nesting` follows the marks among some kinds of token and gives the number of blocks that are open
after them, unless a mark closes a block that is not open. The marks of every text are properly
nested (`tokens_nested`), because the marks before a line lead from one list of open blocks to
another.
-/

namespace AhoyScan

/-- The number of blocks that are open after a token of this kind. There is none if the token closes
a block where no block is open. -/
def Kind.nest (depth : Nat) : Kind → Option Nat
  | .indent => some (depth + 1)
  | .dedent => if depth = 0 then none else some (depth - 1)
  | _ => some depth

/-- The number of blocks that are open after tokens of these kinds. -/
def nesting (depth : Nat) (kinds : List Kind) : Option Nat :=
  kinds.foldlM Kind.nest depth

/-- How many of some tokens are of a kind. -/
def tally (kind : Kind) (tokens : List Token) : Nat :=
  (tokens.map Token.kind).count kind

/-! ## Following the marks -/

/-- The first kind is followed before the others. -/
theorem nesting_cons (depth : Nat) (kind : Kind) (rest : List Kind) :
    nesting depth (kind :: rest) = (kind.nest depth).bind (nesting · rest) :=
  List.foldlM_cons

/-- The blocks that are open after some kinds are those that the others start from. -/
theorem nesting_append (depth : Nat) (front back : List Kind) :
    nesting depth (front ++ back) = (nesting depth front).bind (nesting · back) :=
  List.foldlM_append

/-- Kinds that are no marks of indentation open and close nothing. -/
theorem nesting_plain (depth : Nat) {kinds : List Kind}
    (h : ∀ kind ∈ kinds, kind ≠ .indent ∧ kind ≠ .dedent) : nesting depth kinds = some depth := by
  induction kinds with
  | nil => rfl
  | cons kind kinds ih =>
      obtain ⟨hindent, hdedent⟩ := h kind List.mem_cons_self
      have hkind : kind.nest depth = some depth := by
        cases kind <;> first | rfl | contradiction
      rw [nesting_cons, hkind]
      exact ih fun other hother ↦ h other (List.mem_cons_of_mem kind hother)

/-- As many DEDENTs as there are blocks to close can be followed. -/
theorem nesting_replicate (n depth : Nat) :
    nesting (n + depth) (List.replicate n .dedent) = some depth := by
  induction n with
  | zero =>
      rw [Nat.zero_add]
      rfl
  | succ n ih =>
      have hclosed : Kind.nest (n + 1 + depth) .dedent = some (n + depth) := by
        rw [Kind.nest, if_neg (by omega)]
        congr 1
        omega
      rw [List.replicate_succ, nesting_cons, hclosed]
      exact ih

/-- One kind that can be followed changes the number of open blocks by what it is. -/
theorem Kind.nest_count {depth next : Nat} {kind : Kind} (h : kind.nest depth = some next) :
    depth + [kind].count .indent = next + [kind].count .dedent := by
  cases kind with
  | indent =>
      cases h
      simp
  | dedent =>
      rw [nest] at h
      split_ifs at h with hdepth
      cases h
      simp
      omega
  | _ =>
      cases h
      simp

/-- The blocks open at the start together with those opened are the blocks open at the end together
with those closed. -/
theorem nesting_count {depth last : Nat} {kinds : List Kind} (h : nesting depth kinds = some last) :
    depth + kinds.count .indent = last + kinds.count .dedent := by
  induction kinds generalizing depth with
  | nil =>
      cases h
      rfl
  | cons kind kinds ih =>
      rw [nesting_cons, Option.bind_eq_some_iff] at h
      obtain ⟨next, hkind, hrest⟩ := h
      have hfirst := Kind.nest_count hkind
      have hcount (mark : Kind) :
          (kind :: kinds).count mark = [kind].count mark + kinds.count mark := by
        rw [← List.singleton_append, List.count_append]
      rw [hcount, hcount]
      have hlast := ih hrest
      omega

/-- What can be followed can be followed up to every point. -/
theorem nesting_begins {depth last : Nat} {kinds front : List Kind}
    (h : nesting depth kinds = some last) (hfront : front <+: kinds) :
    ∃ next, nesting depth front = some next := by
  obtain ⟨back, rfl⟩ := hfront
  rw [nesting_append, Option.bind_eq_some_iff] at h
  obtain ⟨next, hnext, -⟩ := h
  exact ⟨next, hnext⟩

/-! ## The marks of a text -/

variable {options : Options}

/-- The marks before a line lead from the open blocks to those open on the line. -/
theorem reindent_nested (width : Nat) (blocks : List Nat) :
    nesting blocks.length (options.reindent width blocks).1 =
      some (options.reindent width blocks).2.length := by
  rw [Options.reindent]
  split
  · have hlength : blocks.length =
        (blocks.takeWhile (width < ·)).length + (blocks.dropWhile (width < ·)).length := by
      rw [← List.length_append, List.takeWhile_append_dropWhile]
    rw [reindent_eq, nesting_append, hlength, nesting_replicate]
    split <;> rfl
  · rfl

/-- Behind its marks, a line has no tokens of indentation. -/
theorem Group.unmarked (group : Group) :
    ∀ token ∈ group.content ++ group.ending.toList,
      token.kind ≠ .indent ∧ token.kind ≠ .dedent := by
  intro token htoken
  rcases List.mem_append.1 htoken with hcontent | hending
  · have hlayout := group.content_kind token hcontent
    cases hkind : token.kind <;> simp_all [Kind.isLayout]
  · rw [group.ending_kind token (Option.mem_toList.1 hending)]
    simp

/-- The tokens of a line lead where its marks lead. -/
theorem Group.nested (group : Group) (depth : Nat) :
    nesting depth (group.tokens.map Token.kind) = nesting depth (group.marks.map Token.kind) := by
  have hplain : ∀ kind ∈ (group.content ++ group.ending.toList).map Token.kind,
      kind ≠ .indent ∧ kind ≠ .dedent := by
    intro kind hkind
    obtain ⟨token, htoken, rfl⟩ := List.mem_map.1 hkind
    exact group.unmarked token htoken
  -- The marks need not be ones that can be followed.
  rw [tokens, List.append_assoc, List.map_append, nesting_append]
  cases nesting depth (group.marks.map Token.kind) with
  | none => rfl
  | some next => exact nesting_plain next hplain

/-- The groups of some lines lead from the blocks open before them to those open after them. -/
theorem Grouped.nested {blocks last : List Nat} {lines : List (List Segment)} {groups : List Group}
    (h : Grouped options blocks lines groups last) :
    nesting blocks.length ((groups.flatMap Group.tokens).map Token.kind) = some last.length := by
  induction h with
  | nil => rfl
  | cons hmarks _ _ ih =>
      rw [List.flatMap_cons, List.map_append, nesting_append, Group.nested, hmarks,
        reindent_nested]
      exact ih

/-- The marks of a text are properly nested, and all blocks are closed at its end. -/
theorem tokens_nested (options : Options) (text : List Char) :
    nesting 0 ((tokens options text).map Token.kind) = some 0 := by
  obtain ⟨groups, last, ending, hgrouped, -, hending, hlength, htokens⟩ :=
    tokens_grouped options text
  have hgroups := hgrouped.nested
  rw [List.length_nil] at hgroups
  rw [htokens, List.map_append, nesting_append, hgroups, List.map_eq_replicate_iff.2 hending,
    hlength]
  exact nesting_replicate last.length 0

end AhoyScan
