import AhoyScan.Proofs.Locality

/-!
# Texts that go on

What is cut from the front of a text can depend on what follows it only in a few ways. White space
ends everything but white space, comments and what stands between quotes (`Classed.of_space`), and
of what stands between quotes the closing quote is the end (`Classed.quoted_eq`). So a text without
illegal input is cut in the same way when a line end and any text come after it
(`Segment.all_append_lineEnd`) or when blanks do, but for the white space at its end
(`Segment.all_append_blanks`). Illegal input before a line end is cut in the same way too, unless
the text after the line end begins with an apostrophe (`Segment.all_after_lineEnd`).
-/

namespace AhoyScan

open Pattern (Matches)

/-- None of the segments is illegal input. -/
def Legal (segments : List Segment) : Prop :=
  ∀ segment ∈ segments, segment.kind? ≠ some .illegal

/-- The segments are white space and comments only, which stand for no tokens. -/
def Margin (segments : List Segment) : Prop :=
  ∀ segment ∈ segments, segment.kind? = none

/-- Blanks and line ends. -/
def isSpace (c : Char) : Bool :=
  isBlank c || c = '\n'

variable {c d : Char} {rest tail left more : List Char} {kind : Option Kind} {segment : Segment}
  {front back : List Segment}

/-- A first segment is legal if it is no illegal input. -/
theorem legal_cons : Legal (segment :: back) ↔ segment.kind? ≠ some .illegal ∧ Legal back :=
  List.forall_mem_cons

/-- Both parts of legal segments are legal. -/
theorem legal_append : Legal (front ++ back) ↔ Legal front ∧ Legal back :=
  List.forall_mem_append

/-- One segment is a margin if it stands for no token. -/
theorem margin_singleton : Margin [segment] ↔ segment.kind? = none :=
  List.forall_mem_singleton

/-- Both parts of a margin are margins. -/
theorem margin_append : Margin (front ++ back) ↔ Margin front ∧ Margin back :=
  List.forall_mem_append

/-! ## What white space ends -/

/-- White space is a blank or a line end. -/
theorem isSpace_iff : isSpace c = true ↔ isBlank c = true ∨ c = '\n' := by
  simp [isSpace]

/-- White space has no part in names and numbers. -/
theorem isSpace_apart (hc : isSpace c = true) :
    isNameRest c = false ∧ c.isDigit = false ∧ c ≠ '.' := by
  rcases isSpace_iff.1 hc with hblank | rfl
  · rcases isBlank_iff.1 hblank with rfl | rfl | rfl | rfl <;> decide
  · decide

/-- Symbols are written without white space. -/
theorem Symbol.space_notMem (symbol : Symbol) (hd : isSpace d = true) :
    d ∉ symbol.entry.spelling.toList := by
  intro hmem
  have hfree : symbol.entry.spelling.toList.any isSpace = false := by
    cases symbol <;> rfl
  rw [List.any_eq_true.2 ⟨d, hmem, hd⟩] at hfree
  cases hfree

/-- What goes on behind white space begins with a quote or is white space or a comment, and then it
is that already before the white space, which is no line end. -/
theorem Classed.of_space {front back : List Char} (h : Classed kind (c :: (front ++ d :: back)))
    (hd : isSpace d = true) :
    (c = '"' ∨ c = '\'') ∨ d ≠ '\n' ∧ Classed none (c :: front) := by
  have hmem : d ∈ front ++ d :: back := by simp
  obtain ⟨hname, hdigit, hpoint⟩ := isSpace_apart hd
  rw [Classed] at h
  split_ifs at h with hblank hlineEnd hstart hnumber hquote hapostrophe
  · obtain ⟨rfl, hrest⟩ := h
    refine .inr ⟨?_, (classed_blank_iff hblank).2 ⟨rfl, ?_⟩⟩
    · rintro rfl
      exact absurd (hrest '\n' hmem) (by decide)
    · exact fun e he ↦ hrest e (List.mem_append_left _ he)
  · exact absurd h.2 (by simp)
  · rw [h.1 d hmem] at hname
    cases hname
  · -- Digits and a point are all that a number is made of.
    obtain ⟨-, whole, hwhole, hrest⟩ := h
    have hd' : d ∈ whole ∨ d = '.' ∨ d.isDigit = true := by
      rcases hrest with hrest | ⟨e, fraction, he, hfraction, hrest⟩
      · exact .inl (hrest ▸ hmem)
      · rw [hrest, List.mem_append, List.mem_cons, List.mem_cons] at hmem
        rcases hmem with hmem | hmem | rfl | hmem
        · exact .inl hmem
        · exact .inr (.inl hmem)
        · exact .inr (.inr he)
        · exact .inr (.inr (hfraction d hmem))
    rcases hd' with hd' | hd' | hd'
    · rw [hwhole d hd'] at hdigit
      cases hdigit
    · exact absurd hd' hpoint
    · rw [hd'] at hdigit
      cases hdigit
  · exact .inl (.inl hquote)
  · exact .inl (.inr hapostrophe)
  · rcases h with ⟨rfl, rfl, hhead, hnewline⟩ | ⟨symbol, -, hspelling⟩
    · rw [List.mem_append, not_or] at hnewline
      refine .inr ⟨?_, .inl ⟨rfl, rfl, ?_, hnewline.1⟩⟩
      · rintro rfl
        exact hnewline.2 List.mem_cons_self
      · cases front with
        | nil => simp
        | cons e front => exact hhead
    · refine absurd ?_ (symbol.space_notMem hd)
      rw [← hspelling]
      exact List.mem_cons_of_mem c hmem

/-- A string or a character literal ends with its closing quote. -/
theorem Classed.quoted_eq {kind' : Option Kind} (hc : c = '"' ∨ c = '\'')
    (h : Classed kind (c :: tail)) (hmore : Classed kind' (c :: (tail ++ more))) : more = [] := by
  rcases hc with rfl | rfl
  · obtain ⟨-, run, hrun, rfl⟩ := h
    obtain ⟨-, run', hrun', hsplit⟩ := hmore
    -- Both contents are what is read up to the first quote of the same text.
    have hread := Lexeme.contents_append_left hrun ('"' :: more)
    have hread' := Lexeme.contents_append_left hrun' ['"']
    rw [← hsplit, List.append_assoc, List.singleton_append, hread] at hread'
    simpa [Lexeme.contents_quote] using (Prod.ext_iff.1 hread').2
  · obtain ⟨-, ⟨e, -, hbackslash, rfl⟩ | ⟨e, -, rfl⟩⟩ := h
    · obtain ⟨-, ⟨e', -, -, hsplit⟩ | ⟨e', -, hsplit⟩⟩ := hmore
      · simpa using congrArg List.length hsplit
      · cases hsplit
        exact absurd rfl hbackslash
    · obtain ⟨-, ⟨e', -, -, hsplit⟩ | ⟨e', -, hsplit⟩⟩ := hmore
      · simpa using congrArg List.length hsplit
      · simpa using congrArg List.length hsplit

/-! ## Legal input -/

/-- A text that begins a longer one begins its first part or goes beyond it. -/
theorem prefix_append_cases {α : Type} {front back other : List α} (h : other <+: front ++ back) :
    other <+: front ∨ ∃ a after, other = front ++ a :: after ∧ a :: after <+: back := by
  rcases List.prefix_or_prefix_of_prefix h (List.prefix_append front back) with hfront | hbeyond
  · exact .inl hfront
  · obtain ⟨beyond, rfl⟩ := hbeyond
    have hback := (List.prefix_append_right_inj front).1 h
    cases beyond with
    | nil => exact .inl ⟨[], by simp⟩
    | cons a after => exact .inr ⟨a, after, rfl, hback⟩

/-- From a text that can be white space or a comment all is cut off as that. -/
theorem Scanned.whole (h : Scanned c (tail ++ left) segment) (hchars : segment.chars = c :: tail)
    (hnone : Classed none (c :: (tail ++ left))) : left = [] ∧ segment.kind? = none := by
  cases h with
  | unmatched hunmatched => exact absurd hnone (hunmatched none _ List.prefix_rfl)
  | @matched segment tail' htail _ hgreatest hunique =>
      obtain ⟨-, rfl⟩ := List.cons.inj (htail.symm.trans hchars)
      have hlength := hgreatest none (tail' ++ left) List.prefix_rfl hnone
      rw [List.length_append] at hlength
      obtain rfl : left = [] := List.eq_nil_of_length_eq_zero (by omega)
      rw [List.append_nil] at hnone
      rcases hunique none hnone with hkind | ⟨hkind, -⟩
      · exact ⟨rfl, hkind.symm⟩
      · cases hkind

/-- A legal segment is cut in the same way when the text goes on with white space. Only white space
and comments at the end of the text take in the blanks that come after them. -/
theorem Scanned.append (h : Scanned c (tail ++ left) segment) (hchars : segment.chars = c :: tail)
    (hlegal : segment.kind? ≠ some .illegal) (hmore : ∀ d ∈ more.head?, isSpace d = true)
    (hend : left = [] → segment.kind? = none → ∀ d ∈ more.head?, d = '\n') :
    Scanned c (tail ++ (left ++ more)) segment := by
  have hwhole := h.whole hchars
  cases h with
  | unmatched => exact absurd rfl hlegal
  | @matched segment tail' htail hclassed hgreatest hunique =>
      obtain ⟨-, rfl⟩ := List.cons.inj (htail.symm.trans hchars)
      refine .matched htail hclassed ?_ hunique
      intro kind other hother hother_classed
      rw [← List.append_assoc] at hother
      rcases prefix_append_cases hother with hshort | ⟨d, after, rfl, hafter⟩
      · exact hgreatest kind other hshort hother_classed
      · have hhead : d ∈ more.head? := by
          obtain ⟨rest, rfl⟩ := hafter
          rfl
        have hbeyond : tail' ++ left ++ d :: after = tail' ++ (left ++ d :: after) :=
          List.append_assoc ..
        rcases hother_classed.of_space (hmore d hhead) with hquote | ⟨hd, hnone⟩
        · rw [hbeyond] at hother_classed
          exact absurd (hclassed.quoted_eq hquote hother_classed) (by simp)
        · -- The segment takes all of the text before the white space, and is none itself.
          obtain ⟨hleft, hkind⟩ := hwhole hnone
          exact absurd (hend hleft hkind d hhead) hd

namespace Segment

variable {text : List Char}

/-- A legal segment is cut in the same way when the text goes on with white space. -/
theorem first_append_space (h : first c (tail ++ left) = (segment, left))
    (hchars : segment.chars = c :: tail) (hlegal : segment.kind? ≠ some .illegal)
    (hmore : ∀ d ∈ more.head?, isSpace d = true)
    (hend : left = [] → segment.kind? = none → ∀ d ∈ more.head?, d = '\n') :
    first c (tail ++ (left ++ more)) = (segment, left ++ more) := by
  obtain ⟨-, hscanned, hsound⟩ := first_spec h
  exact first_of_scanned (hscanned.append hchars hlegal hmore hend) hchars hsound

/-- Only the empty text has no segments. -/
theorem eq_nil_of_all (h : all text = []) : text = [] := by
  rw [← flatMap_chars_all text, h]
  rfl

/-- A line end is cut off by itself. -/
theorem all_lineEnd_cons (more : List Char) : all ('\n' :: more) = .lineEnd :: all more := by
  rw [all]
  rfl

/-- Legal input before a line end is cut as it is by itself, whatever comes after the line end. -/
theorem all_append_lineEnd (hlegal : Legal (all text)) (more : List Char) :
    all (text ++ '\n' :: more) = all text ++ .lineEnd :: all more := by
  induction hsegments : all text generalizing text with
  | nil =>
      rw [eq_nil_of_all hsegments]
      exact all_lineEnd_cons more
  | cons segment rest ih =>
      obtain ⟨c, tail, left, rfl, hchars, hfirst, hrest⟩ := exists_first_of_all hsegments
      rw [hsegments, legal_cons, ← hrest] at hlegal
      have hcut : first c (tail ++ (left ++ '\n' :: more)) = (segment, left ++ '\n' :: more) := by
        apply first_append_space hfirst hchars hlegal.1
        · rintro d ⟨⟩
          rfl
        · rintro - - d ⟨⟩
          rfl
      rw [List.cons_append, List.append_assoc, all_of_first hcut, ih hlegal.2 hrest]
      rfl

end Segment

/-! ## White space and comments -/

/-- Blanks after white space or a comment are taken in by it. -/
theorem Classed.append_blanks {run : List Char} (h : Classed none (c :: tail))
    (hrun : ∀ d ∈ run, isBlank d = true) : Classed none (c :: (tail ++ run)) := by
  rw [Classed] at h ⊢
  split_ifs at h ⊢ with hblank hlineEnd hstart hnumber hquote hapostrophe
  · refine ⟨rfl, fun d hd ↦ ?_⟩
    rcases List.mem_append.1 hd with hd | hd
    · exact h.2 d hd
    · exact hrun d hd
  · cases h.1
  · rcases h.2 with hkind | ⟨keyword, hkind, -⟩
    · cases hkind
    · cases hkind
  · cases h.1
  · cases h.1
  · cases h.1
  · rcases h with ⟨rfl, -, hhead, hnewline⟩ | ⟨symbol, hkind, -⟩
    · refine .inl ⟨rfl, rfl, ?_, ?_⟩
      · cases tail with
        | nil =>
            intro hquestion
            exact absurd (hrun '?' (List.mem_of_head? hquestion)) (by decide)
        | cons d tail => exact hhead
      · intro hmem
        rcases List.mem_append.1 hmem with hmem | hmem
        · exact hnewline hmem
        · exact absurd (hrun '\n' hmem) (by decide)
    · cases hkind

/-- What is cut off as legal input is a text of its kind. -/
theorem Scanned.classed (h : Scanned c rest segment) (hchars : segment.chars = c :: tail)
    (hlegal : segment.kind? ≠ some .illegal) : Classed segment.kind? (c :: tail) := by
  cases h with
  | unmatched => exact absurd rfl hlegal
  | matched htail hclassed _ _ =>
      rw [← hchars, htail]
      exact hclassed

namespace Segment

/-- A text that can be white space or a comment is one segment. -/
theorem all_of_classed (h : Classed none (c :: rest)) :
    ∃ segment, all (c :: rest) = [segment] ∧ segment.kind? = none := by
  cases hfirst : first c rest with
  | mk segment left =>
      obtain ⟨⟨tail, hchars, rfl⟩, hscanned, -⟩ := first_spec hfirst
      obtain ⟨rfl, hkind⟩ := hscanned.whole hchars h
      exact ⟨segment, by rw [all, hfirst, all], hkind⟩

/-- Blanks are white space. -/
theorem margin_all_blanks {run : List Char} (hrun : ∀ c ∈ run, isBlank c = true) :
    Margin (all run) := by
  cases run with
  | nil =>
      rw [all]
      exact List.forall_mem_nil _
  | cons c run =>
      have hc := hrun c List.mem_cons_self
      obtain ⟨segment, hall, hkind⟩ := all_of_classed ((classed_blank_iff hc).2
        ⟨rfl, fun d hd ↦ hrun d (List.mem_cons_of_mem c hd)⟩)
      rw [hall]
      exact margin_singleton.2 hkind

/-- Blanks are cut off together when no other blank follows them. -/
theorem all_blanks_append {run : List Char} (hrun : ∀ c ∈ run, isBlank c = true)
    (hrest : ∀ d ∈ rest.head?, isBlank d = false) : all (run ++ rest) = all run ++ all rest := by
  cases run with
  | nil => rw [all, List.nil_append, List.nil_append]
  | cons c run =>
      have hc := hrun c List.mem_cons_self
      have hrun' : ∀ d ∈ run, isBlank d = true := fun d hd ↦ hrun d (List.mem_cons_of_mem c hd)
      have hcut {text : List Char} (htext : ∀ d ∈ text.head?, isBlank d = false) :
          first c (run ++ text) = (blanks (c :: run), text) := by
        have htake : text.takeWhile isBlank = [] := by
          cases text with
          | nil => rfl
          | cons d text => simp [htext d rfl]
        have hdrop : text.dropWhile isBlank = text := by
          cases text with
          | nil => rfl
          | cons d text => simp [htext d rfl]
        rw [first, if_pos hc, List.takeWhile_append_of_pos hrun',
          List.dropWhile_append_of_pos hrun', htake, hdrop, List.append_nil]
      have halone : all (c :: run) = [blanks (c :: run)] := by
        have hnil : first c (run ++ []) = (blanks (c :: run), []) := hcut (by simp)
        rw [List.append_nil] at hnil
        rw [all, hnil, all]
      rw [halone, List.cons_append, all_of_first (hcut hrest)]
      rfl

/-- Blanks at the end of a text without illegal input change only white space and comments there. -/
theorem all_append_blanks {run : List Char} (hlegal : Legal (all text))
    (hrun : ∀ c ∈ run, isBlank c = true) :
    ∃ front margin margin', all text = front ++ margin ∧ all (text ++ run) = front ++ margin' ∧
      Margin margin ∧ Margin margin' := by
  induction hsegments : all text generalizing text with
  | nil =>
      have hall : all (text ++ run) = all run := by
        rw [eq_nil_of_all hsegments, List.nil_append]
      exact ⟨[], [], all run, rfl, hall, List.forall_mem_nil _, margin_all_blanks hrun⟩
  | cons segment rest ih =>
      obtain ⟨c, tail, left, rfl, hchars, hfirst, hrest⟩ := exists_first_of_all hsegments
      rw [hsegments, legal_cons, ← hrest] at hlegal
      have hspace : ∀ d ∈ run.head?, isSpace d = true := fun d hd ↦
        isSpace_iff.2 (.inl (hrun d (List.mem_of_head? hd)))
      by_cases hlast : left = [] ∧ segment.kind? = none
      · -- The last segment is white space or a comment, and takes in the blanks.
        obtain ⟨rfl, hkind⟩ := hlast
        obtain rfl : rest = [] := by rw [← hrest, all]
        have hclassed : Classed none (c :: tail) := by
          obtain ⟨-, hscanned, -⟩ := first_spec hfirst
          rw [← hkind]
          exact hscanned.classed hchars hlegal.1
        obtain ⟨segment', hall, hkind'⟩ := all_of_classed (hclassed.append_blanks hrun)
        refine ⟨[], [segment], [segment'], rfl, ?_, margin_singleton.2 hkind,
          margin_singleton.2 hkind'⟩
        rw [List.append_nil, List.cons_append, hall]
        rfl
      · have hcut : first c (tail ++ (left ++ run)) = (segment, left ++ run) := by
          apply first_append_space hfirst hchars hlegal.1 hspace
          intro hleft hkind
          exact absurd ⟨hleft, hkind⟩ hlast
        obtain ⟨front, margin, margin', hfront, hfront', hmargin, hmargin'⟩ := ih hlegal.2 hrest
        refine ⟨segment :: front, margin, margin', by rw [hfront]; rfl, ?_, hmargin, hmargin'⟩
        rw [List.cons_append, List.append_assoc, all_of_first hcut, hfront']
        rfl

end Segment

/-! ## Illegal input before a line end -/

/-- No pattern is one of illegal input. -/
theorem not_classed_illegal {text : List Char} : ¬ Classed (some .illegal) text := by
  intro h
  cases text with
  | nil => cases h
  | cons c rest =>
      rw [Classed] at h
      split_ifs at h <;> simp at h

/-- Contents of a string stop at a quote, at the end of the text, or at a backslash that the end of
the text or of the line follows. -/
theorem Lexeme.contents_stop {text : List Char} (hread : (contents text).1 = [])
    (hquote : text.head? ≠ some '"') :
    text = [] ∨ text = ['\\'] ∨ ∃ more, text = '\\' :: '\n' :: more := by
  fun_cases contents text with
  | case1 => exact .inl rfl
  | case2 => exact .inr (.inl rfl)
  | case3 rest => exact .inr (.inr ⟨rest, rfl⟩)
  | case4 escaped rest hescaped => simp [contents, hescaped] at hread
  | case5 => exact absurd rfl hquote
  | case6 c rest hlast hescape hc => simp_all [contents]

/-- A character literal that goes on behind a line end is the one of the line end. -/
theorem Classed.char_over_lineEnd {front back : List Char}
    (h : Classed kind ('\'' :: (front ++ '\n' :: d :: back))) : d = '\'' := by
  obtain ⟨-, ⟨e, -, -, hsplit⟩ | ⟨e, he, hsplit⟩⟩ := h
  · have hlength := congrArg List.length hsplit
    simp only [List.length_append, List.length_cons, List.length_nil] at hlength
    obtain rfl : front = [] := List.eq_nil_of_length_eq_zero (by omega)
    cases hsplit
    rfl
  · have hlength := congrArg List.length hsplit
    simp only [List.length_append, List.length_cons, List.length_nil] at hlength
    match front with
    | [] => cases hsplit
    | [x] =>
        cases hsplit
        exact absurd rfl he
    | x :: y :: front =>
        simp only [List.length_cons] at hlength
        omega

/-- The string that is not closed ends where it ends when other text comes after a line end behind
it. -/
theorem Lexeme.contents_change {middle after run : List Char} (after' : List Char)
    (hread : contents (run ++ (middle ++ '\n' :: after)) = (run, middle ++ '\n' :: after))
    (hrun : Matches .contents run) (hopen : (middle ++ '\n' :: after).head? ≠ some '"') :
    contents (run ++ (middle ++ '\n' :: after')) = (run, middle ++ '\n' :: after') := by
  rw [contents_append_left hrun, Prod.mk.injEq] at hread ⊢
  have hstop : (contents (middle ++ '\n' :: after)).1 = [] := by simpa using hread.1
  rcases contents_stop hstop hopen with hnil | hlast | ⟨more, hline⟩
  · simp at hnil
  · cases middle with
    | nil => cases hlast
    | cons x middle => simp at hlast
  · match middle with
    | [] => cases hline
    | [x] =>
        cases hline
        exact ⟨by simp [contents], by simp [contents]⟩
    | x :: y :: middle =>
        cases hline
        exact ⟨by simp [contents], by simp [contents]⟩

/-- A string that is not closed is cut in the same way when other text comes after a line end behind
it. -/
theorem unclosed_change {middle after : List Char} (after' : List Char)
    (hlongest : Longest (Matches .contents) (tail ++ (middle ++ '\n' :: after)) tail)
    (hnone : ∀ kind other, other <+: tail ++ (middle ++ '\n' :: after) →
      ¬ Classed kind ('"' :: other)) :
    Scanned '"' (tail ++ (middle ++ '\n' :: after')) (.lexeme ⟨.illegal, '"' :: tail⟩) := by
  have hread : Lexeme.contents (tail ++ (middle ++ '\n' :: after)) =
      (tail, middle ++ '\n' :: after) := by
    have hrun := (Lexeme.contents_longest (tail ++ (middle ++ '\n' :: after))).unique hlongest
    have hsplit := Lexeme.contents_append (tail ++ (middle ++ '\n' :: after))
    rw [hrun] at hsplit
    exact Prod.ext hrun (List.append_cancel_left hsplit)
  have hopen : (middle ++ '\n' :: after).head? ≠ some '"' := by
    intro hquote
    obtain ⟨left, hleft⟩ := List.head?_eq_some_iff.1 hquote
    refine hnone (some .string) (tail ++ ['"']) ?_ ⟨rfl, tail, hlongest.holds, rfl⟩
    rw [hleft]
    exact (List.prefix_append_right_inj tail).2 (List.prefix_append ['"'] left)
  have hstring : (Lexeme.string (tail ++ (middle ++ '\n' :: after'))).1 =
      ⟨.illegal, '"' :: tail⟩ := by
    rw [Lexeme.string, Lexeme.contents_change after' hread hlongest.holds hopen]
    cases middle with
    | nil => rfl
    | cons x middle =>
        have hx : x ≠ '"' := fun hx ↦ hopen (congrArg some hx)
        simp [hx]
  rw [← hstring]
  exact string_scanned

/-- A character that begins nothing is cut off in the same way when other text comes after a line
end behind it, unless this makes a character literal of the line end. -/
theorem single_change {middle after after' : List Char} (hc : c ≠ '"')
    (hnone : ∀ kind other, other <+: middle ++ '\n' :: after → ¬ Classed kind (c :: other))
    (hafter : after'.head? ≠ some '\'') :
    Scanned c (middle ++ '\n' :: after') (.lexeme ⟨.illegal, [c]⟩) := by
  refine .unmatched ?_ ⟨c, _, rfl, if_neg hc ▸ rfl⟩
  intro kind other hother hclassed
  rw [List.append_cons] at hother
  rcases prefix_append_cases hother with hshort | ⟨d, back, rfl, hback⟩
  · refine hnone kind other ?_ hclassed
    rw [List.append_cons]
    exact hshort.trans (List.prefix_append _ after)
  · rw [← List.append_cons] at hclassed
    rcases hclassed.of_space rfl with (hquote | rfl) | ⟨hd, -⟩
    · exact hc hquote
    · obtain ⟨rest, rfl⟩ := hback
      rw [hclassed.char_over_lineEnd] at hafter
      exact hafter rfl
    · exact hd rfl

/-- What is cut off before a line end is cut off in the same way when other text comes after the
line end, unless this text begins with an apostrophe. -/
theorem Scanned.change {middle after after' : List Char}
    (h : Scanned c (tail ++ (middle ++ '\n' :: after)) segment)
    (hchars : segment.chars = c :: tail) (hafter : after'.head? ≠ some '\'') :
    Scanned c (tail ++ (middle ++ '\n' :: after')) segment := by
  by_cases hillegal : segment.kind? = some .illegal
  · cases h with
    | matched _ hclassed => exact absurd (hillegal ▸ hclassed) not_classed_illegal
    | @unmatched chars hnone hunmatched =>
        obtain rfl : chars = c :: tail := hchars
        obtain ⟨_, _, htext, hcut⟩ := hunmatched
        cases htext
        split_ifs at hcut with hquote
        · obtain ⟨run, hlongest, hrun⟩ := hcut
          cases hrun
          exact unclosed_change after' hlongest hnone
        · cases hcut
          exact single_change hquote hnone hafter
  · -- Legal input does not depend on the line end either.
    have hshort : Scanned c (tail ++ middle) segment := by
      refine h.of_prefix hchars ?_ (List.prefix_append tail middle)
      rw [← List.append_assoc]
      exact List.prefix_append _ _
    apply hshort.append hchars hillegal
    · rintro d ⟨⟩
      rfl
    · rintro - - d ⟨⟩
      rfl

namespace Segment

/-- What is cut off before a line end is cut off in the same way when other text comes after the
line end, unless this text begins with an apostrophe. -/
theorem all_after_lineEnd {text after : List Char} {front back : List Segment}
    (h : all text = front ++ .lineEnd :: back) (hafter : after.head? ≠ some '\'') :
    all (front.flatMap chars ++ '\n' :: after) = front ++ .lineEnd :: all after := by
  induction front generalizing text with
  | nil => exact all_lineEnd_cons after
  | cons segment front ih =>
      rw [List.cons_append] at h
      obtain ⟨c, tail, left, rfl, hchars, hfirst, hrest⟩ := exists_first_of_all h
      have hleft : left = front.flatMap chars ++ '\n' :: back.flatMap chars := by
        rw [← flatMap_chars_all left, hrest, List.flatMap_append]
        rfl
      rw [hleft] at hfirst
      obtain ⟨-, hscanned, hsound⟩ := first_spec hfirst
      have hcut := first_of_scanned (hscanned.change hchars hafter) hchars hsound
      rw [List.flatMap_cons, hchars, List.append_assoc, List.cons_append, all_of_first hcut,
        ih hrest]
      rfl

end Segment

end AhoyScan
