import AhoyScan.Proofs.Nesting
import Mathlib.Data.Finset.Card
import Mathlib.Data.List.Infix

/-!
# The depth of a line

The open blocks are kept as a stack, but which blocks are open on a line depends only on the widths
of the lines up to it: a width is open if it is positive and the least width from some line on
(`suffixMinima`). `Tracks` is this invariant of the stack. `tokens_block_depth` draws from it how
many marks of each kind stand before every line and at the end of a text.
-/

namespace AhoyScan

/-- The least widths from some line on, for each line of a list. -/
def suffixMinima (widths : List Nat) : Finset Nat :=
  (widths.tails.filterMap List.min?).toFinset

/-- The widths of the blocks that lines of some widths leave open. -/
def openWidths (widths : List Nat) : Finset Nat :=
  (suffixMinima widths).filter (0 < ·)

/-- The blocks are those that lines of these widths leave open, the widest first. -/
structure Tracks (widths blocks : List Nat) : Prop where
  descending : blocks.Pairwise (· > ·)
  toFinset_eq : blocks.toFinset = openWidths widths

/-! ## Least widths -/

/-- A width is one of the least when no width from some line on is below it. -/
theorem mem_suffixMinima {width : Nat} {widths : List Nat} :
    width ∈ suffixMinima widths ↔
      ∃ tail, tail <:+ widths ∧ width ∈ tail ∧ ∀ other ∈ tail, width ≤ other := by
  simp [suffixMinima, List.min?_eq_some_iff]

/-- One more line is the least of the lines from it on, and keeps the least widths below its own. -/
theorem mem_suffixMinima_concat {width other : Nat} {widths : List Nat} :
    other ∈ suffixMinima (widths ++ [width]) ↔
      other = width ∨ (other < width ∧ other ∈ suffixMinima widths) := by
  rw [mem_suffixMinima, mem_suffixMinima]
  constructor
  · intro h
    obtain ⟨tail, htail, hmem, hleast⟩ := h
    rcases List.suffix_concat_iff.1 htail with rfl | ⟨tail, rfl, hrest⟩
    · cases hmem
    · have hwidth : other ≤ width := hleast width (by simp)
      by_cases heq : other = width
      · exact .inl heq
      · have hother : other ∈ tail := by simpa [heq] using hmem
        refine .inr ⟨by omega, tail, hrest, hother, ?_⟩
        exact fun b hb ↦ hleast b (List.mem_append_left [width] hb)
  · intro h
    rcases h with rfl | ⟨hlt, tail, htail, hmem, hleast⟩
    · exact ⟨[other], List.suffix_append widths [other], by simp, by simp⟩
    · refine ⟨tail ++ [width], List.suffix_concat_iff.2 (.inr ⟨tail, rfl, htail⟩),
        List.mem_append_left [width] hmem, ?_⟩
      intro b hb
      rcases List.mem_append.1 hb with hb | hb
      · exact hleast b hb
      · rw [List.mem_singleton.1 hb]
        omega

/-! ## Descending blocks -/

section Descending

variable {blocks : List Nat} {width block : Nat}

/-- Closing the blocks wider than a line keeps the others. -/
theorem mem_dropWhile_wider (h : blocks.Pairwise (· > ·)) :
    block ∈ blocks.dropWhile (width < ·) ↔ block ∈ blocks ∧ block ≤ width := by
  induction blocks with
  | nil => simp
  | cons first blocks ih =>
      obtain ⟨hfirst, hrest⟩ := List.pairwise_cons.1 h
      by_cases hwider : width < first
      · rw [List.dropWhile_cons_of_pos (by simpa using hwider), ih hrest, List.mem_cons]
        grind
      · rw [List.dropWhile_cons_of_neg (by simpa using hwider), List.mem_cons]
        grind

/-- The blocks that are closed are those wider than the line. -/
theorem mem_takeWhile_wider (h : blocks.Pairwise (· > ·)) :
    block ∈ blocks.takeWhile (width < ·) ↔ block ∈ blocks ∧ width < block := by
  induction blocks with
  | nil => simp
  | cons first blocks ih =>
      obtain ⟨hfirst, hrest⟩ := List.pairwise_cons.1 h
      by_cases hwider : width < first
      · rw [List.takeWhile_cons_of_pos (by simpa using hwider), List.mem_cons, ih hrest,
          List.mem_cons]
        grind
      · rw [List.takeWhile_cons_of_neg (by simpa using hwider), List.mem_cons]
        grind

/-- A line opens a block unless its width is none or that of an open block. -/
theorem headD_lt_iff (h : blocks.Pairwise (· > ·)) (width : Nat) :
    (blocks.dropWhile (width < ·)).headD 0 < width ↔ width ≠ 0 ∧ width ∉ blocks := by
  have hkept (block : Nat) :
      block ∈ blocks.dropWhile (width < ·) ↔ block ∈ blocks ∧ block ≤ width :=
    mem_dropWhile_wider h
  have hdescending := h.sublist (List.dropWhile_sublist (width < ·))
  have hwidth : width ∈ blocks ↔ width ∈ blocks.dropWhile (width < ·) := by
    rw [hkept]
    simp
  rw [hwidth]
  cases hdrop : blocks.dropWhile (width < ·) with
  | nil =>
      simp
      omega
  | cons first kept =>
      rw [hdrop] at hkept hdescending
      have hfirst := (hkept first).1 List.mem_cons_self
      have hbelow := (List.pairwise_cons.1 hdescending).1
      show first < width ↔ _
      grind

end Descending

/-! ## The blocks that the lines leave open -/

namespace Tracks

variable {widths blocks : List Nat}

/-- Before the first line no block is open. -/
theorem nil : Tracks [] [] :=
  ⟨.nil, rfl⟩

/-- A block is open if its width is positive and the least from some line on. -/
theorem mem_iff (h : Tracks widths blocks) (block : Nat) :
    block ∈ blocks ↔ 0 < block ∧ block ∈ suffixMinima widths := by
  rw [← List.mem_toFinset, h.toFinset_eq, openWidths, Finset.mem_filter, and_comm]

/-- There are as many open blocks as widths of open blocks. -/
theorem length_eq (h : Tracks widths blocks) : blocks.length = (openWidths widths).card := by
  have hnodup : blocks.Nodup := h.descending.imp Nat.ne_of_gt
  rw [← h.toFinset_eq, List.toFinset_card_of_nodup hnodup]

/-- A line opens a block unless its width is none or the least from some earlier line on. -/
theorem opens_iff (h : Tracks widths blocks) (width : Nat) :
    (blocks.dropWhile (width < ·)).headD 0 < width ↔ width ∉ insert 0 (suffixMinima widths) := by
  rw [headD_lt_iff h.descending, h.mem_iff, Finset.mem_insert]
  grind

/-- The blocks that a line closes are as many as the least widths above its own. -/
theorem closed_eq (h : Tracks widths blocks) (width : Nat) :
    (blocks.takeWhile (width < ·)).length =
      ((insert 0 (suffixMinima widths)).filter (width < ·)).card := by
  have hnodup : (blocks.takeWhile (width < ·)).Nodup :=
    (h.descending.imp Nat.ne_of_gt).sublist (List.takeWhile_sublist _)
  rw [← List.toFinset_card_of_nodup hnodup]
  congr 1
  ext block
  rw [List.mem_toFinset, mem_takeWhile_wider h.descending, h.mem_iff, Finset.mem_filter,
    Finset.mem_insert]
  grind

/-- A line leads to the blocks that it and the lines before it leave open. -/
theorem reindent (h : Tracks widths blocks) (width : Nat) :
    Tracks (widths ++ [width]) (reindent width blocks).2 := by
  have hkept := h.descending.sublist (List.dropWhile_sublist (width < ·))
  have hopens := headD_lt_iff h.descending width
  rw [reindent_eq]
  by_cases hopen : (blocks.dropWhile (width < ·)).headD 0 < width
  · simp only [if_pos hopen]
    obtain ⟨hpositive, hnew⟩ := hopens.1 hopen
    refine ⟨List.pairwise_cons.2 ⟨?_, hkept⟩, ?_⟩
    · intro block hblock
      obtain ⟨hmem, hle⟩ := (mem_dropWhile_wider h.descending).1 hblock
      have hne : block ≠ width := fun heq ↦ hnew (heq ▸ hmem)
      omega
    · ext block
      have hblock := h.mem_iff block
      rw [List.mem_toFinset, List.mem_cons, mem_dropWhile_wider h.descending, openWidths,
        Finset.mem_filter, mem_suffixMinima_concat]
      grind
  · simp only [if_neg hopen]
    refine ⟨hkept, ?_⟩
    -- The line is in a block of its own width or in none, so that it adds no width to those open.
    have hold : width = 0 ∨ width ∈ blocks := by
      by_contra hnot
      rw [not_or] at hnot
      exact hopen (hopens.2 hnot)
    ext block
    have hblock := h.mem_iff block
    rw [List.mem_toFinset, mem_dropWhile_wider h.descending, openWidths, Finset.mem_filter,
      mem_suffixMinima_concat]
    grind

/-- A line between two levels closes the wider block and opens one of its own. -/
example : (AhoyScan.reindent 2 [4]).2.toFinset = openWidths [0, 4, 2] := by decide

end Tracks

/-! ## The marks before a line -/

/-- What the marks before a line are, where `front` is the tokens before them and `widths` the
widths of the lines before the line: the blocks that are open behind the marks, when the last of
them opens a block, and how many of them close one. -/
structure Group.Marked (front : List Token) (widths : List Nat) (width : Nat) (group : Group) :
    Prop where
  depth_eq : (tally .indent (front ++ group.marks) : Int) - tally .dedent (front ++ group.marks) =
    (openWidths (widths ++ [width])).card
  opens_iff : (front ++ group.marks).getLast?.map Token.kind = some .indent ↔
    width ∉ insert 0 (suffixMinima widths)
  closed_eq : tally .dedent group.marks =
    ((insert 0 (suffixMinima widths)).filter (width < ·)).card

/-- The last token of a line is none of indentation. -/
theorem Group.getLast?_tokens_ne (group : Group) (front : List Token) :
    (front ++ group.tokens).getLast?.map Token.kind ≠ some .indent := by
  have hbody : group.content ++ group.ending.toList ≠ [] := by
    simp [group.content_ne_nil]
  rw [tokens, List.append_assoc, ← List.append_assoc, List.getLast?_append_of_ne_nil _ hbody,
    List.getLast?_eq_some_getLast hbody, Option.map_some, ne_eq, Option.some.injEq]
  exact (group.unmarked _ (List.getLast_mem hbody)).1

/-- The lines before a line do not end with the opening of a block. -/
theorem getLast?_groups_ne (groups : List Group) :
    (groups.flatMap Group.tokens).getLast?.map Token.kind ≠ some .indent := by
  rcases List.eq_nil_or_concat groups with rfl | ⟨front, group, rfl⟩
  · simp
  · rw [List.concat_eq_append, List.flatMap_append, List.flatMap_singleton]
    exact group.getLast?_tokens_ne _

/-- The last token before the content of a line opens a block exactly when a mark of the line
does. -/
theorem Group.getLast?_marks_iff (group : Group) {front : List Token}
    (hfront : front.getLast?.map Token.kind ≠ some .indent) :
    (front ++ group.marks).getLast?.map Token.kind = some .indent ↔
      .indent ∈ group.marks.map Token.kind := by
  have hclosing : .indent ∉ group.closing.map Token.kind := by
    intro hmem
    obtain ⟨token, htoken, hkind⟩ := List.mem_map.1 hmem
    rw [group.closing_kind token htoken] at hkind
    cases hkind
  rw [marks]
  cases hopening : group.opening with
  | some token =>
      have hkind := group.opening_kind token hopening
      simp [← List.append_assoc, hkind]
  | none =>
      rw [Option.toList_none, List.append_nil, iff_false_right hclosing]
      -- Without a mark that opens a block the last token is one that closes a block, or there is
      -- no mark at all and it is the last token of the line before.
      rcases List.eq_nil_or_concat group.closing with hnil | ⟨closing, token, hconcat⟩
      · rw [hnil, List.append_nil]
        exact hfront
      · have hkind := group.closing_kind token (by simp [hconcat])
        simp [hconcat, ← List.append_assoc, hkind]

section Marked

variable {options : Options}

/-- The groups before the group of a line are those of the lines before it, and its marks are those
for the blocks that these leave open. -/
theorem Grouped.split {blocks last : List Nat} {front rest : List (List Segment)}
    {line : List Segment} {earlier later : List Group} {group : Group}
    (h : Grouped options blocks (front ++ line :: rest) (earlier ++ group :: later) last)
    (hlength : front.length = earlier.length) :
    ∃ between, Grouped options blocks front earlier between ∧
      group.marks.map Token.kind =
        (options.reindent (indentWidth options.tabWidth line) between).1 := by
  induction front generalizing blocks earlier with
  | nil =>
      obtain rfl := List.eq_nil_of_length_eq_zero hlength.symm
      cases h with
      | cons hmarks _ _ => exact ⟨blocks, .nil blocks, hmarks⟩
  | cons first front ih =>
      cases earlier with
      | nil => cases hlength
      | cons previous earlier =>
          cases h with
          | cons hmarks hstands hrest =>
              obtain ⟨between, hfront, hline⟩ := ih hrest (Nat.succ.inj hlength)
              exact ⟨between, .cons hmarks hstands hfront, hline⟩

/-- The groups of lines have the contents of the lines. -/
theorem Grouped.contents {blocks last : List Nat} {lines : List (List Segment)}
    {groups : List Group} (h : Grouped options blocks lines groups last) :
    List.Forall₂ (fun line group ↦ List.Forall₂ Lexeme.StandsFor (lexemesOf line) group.content)
      lines groups := by
  induction h with
  | nil => exact .nil
  | cons _ hstands _ ih => exact .cons hstands ih

/-- Lines that follow others lead from the blocks those leave open to the blocks all of them leave
open. -/
theorem Grouped.tracks {blocks last widths : List Nat} {lines : List (List Segment)}
    {groups : List Group} (h : Grouped options blocks lines groups last)
    (hon : options.indentation = true) (htracks : Tracks widths blocks) :
    Tracks (widths ++ lines.map (indentWidth options.tabWidth)) last := by
  -- `widths` takes up the widths of the lines that the blocks have gone through.
  induction h generalizing widths with
  | nil =>
      rw [List.map_nil, List.append_nil]
      exact htracks
  | @cons blocks last line lines group groups _ _ _ ih =>
      rw [List.map_cons, ← List.singleton_append, ← List.append_assoc]
      apply ih
      rw [Options.reindent, if_pos hon]
      exact htracks.reindent (indentWidth options.tabWidth line)

/-- The marks before a line are those that the widths of the lines up to it ask for. -/
theorem Grouped.marked {last : List Nat} {front rest : List (List Segment)}
    {line : List Segment} {earlier later : List Group} {group : Group}
    (h : Grouped options [] (front ++ line :: rest) (earlier ++ group :: later) last)
    (hon : options.indentation = true) (hlength : front.length = earlier.length) :
    group.Marked (earlier.flatMap Group.tokens) (front.map (indentWidth options.tabWidth))
      (indentWidth options.tabWidth line) := by
  obtain ⟨between, hfront, hmarks⟩ := h.split hlength
  have htracks : Tracks (front.map (indentWidth options.tabWidth)) between :=
    hfront.tracks hon .nil
  have hnested : nesting 0 ((earlier.flatMap Group.tokens ++ group.marks).map Token.kind) =
      some (options.reindent (indentWidth options.tabWidth line) between).2.length := by
    have hearlier := hfront.nested
    rw [List.length_nil] at hearlier
    rw [List.map_append, nesting_append, hearlier, hmarks]
    exact reindent_nested (indentWidth options.tabWidth line) between
  rw [Options.reindent, if_pos hon] at hmarks hnested
  constructor
  · have hcount := nesting_count hnested
    have hlast := (htracks.reindent (indentWidth options.tabWidth line)).length_eq
    show (((earlier.flatMap Group.tokens ++ group.marks).map Token.kind).count .indent : Int) -
      ((earlier.flatMap Group.tokens ++ group.marks).map Token.kind).count .dedent = _
    omega
  · rw [group.getLast?_marks_iff (getLast?_groups_ne earlier), hmarks, reindent_eq,
      ← htracks.opens_iff]
    split <;> simp_all
  · show (group.marks.map Token.kind).count .dedent = _
    rw [hmarks, reindent_eq, ← htracks.closed_eq, List.count_append, List.count_replicate_self]
    split <;> simp

end Marked

/-- Which blocks are open before and behind the marks of every line, and how many are closed at the
end of a text, follows from the widths of its lines alone. The blocks open on a line are as many as
the positive widths that are the least from some line on up to it; a line opens a block unless its
width is zero or the least from some earlier line on; it closes as many blocks as there are such
least widths above its own; and the blocks open on the last line are closed at the end. -/
theorem tokens_block_depth (tabWidth : Nat) (text : List Char) :
    let options : Options := { tabWidth, indentation := true }
    let lines := contentLines (Segment.all text)
    let width := indentWidth tabWidth
    ∃ (groups : List Group) (ending : List Token),
      tokens options text = groups.flatMap Group.tokens ++ ending ∧
      List.Forall₂ (fun line group ↦ List.Forall₂ Lexeme.StandsFor (lexemesOf line) group.content)
        lines groups ∧
      (∀ front line rest earlier group later, lines = front ++ line :: rest →
        groups = earlier ++ group :: later → front.length = earlier.length →
          group.Marked (earlier.flatMap Group.tokens) (front.map width) (width line)) ∧
      (∀ token ∈ ending, token.kind = .dedent) ∧
      ending.length = (openWidths (lines.map width)).card := by
  intro options lines width
  obtain ⟨groups, last, ending, hgrouped, -, hending, hlength, htokens⟩ :=
    tokens_grouped options text
  refine ⟨groups, ending, htokens, hgrouped.contents, ?_, hending, ?_⟩
  · intro front line rest earlier group later hlines hgroups hlength
    have hsplit : Grouped options [] (front ++ line :: rest) (earlier ++ group :: later) last := by
      rw [← hlines, ← hgroups]
      exact hgrouped
    exact hsplit.marked rfl hlength
  · rw [hlength]
    exact (hgrouped.tracks rfl .nil).length_eq

end AhoyScan
