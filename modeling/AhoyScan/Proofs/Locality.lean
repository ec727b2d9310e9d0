import AhoyScan.Proofs.Segments

/-!
# Cutting is local

A segment is the longest match at its place, and is cut off in the same way from every shorter text
that still holds it (`Segment.first_of_prefix`). So where one segment of a text ends and the next
begins, the text can be divided: its segments are those of the front (`Segment.all_front`) and those
of the back (`Segment.all_back`), each cut by itself. In the end every segment is the only one of its
own text (`Segment.all_chars`).
-/

namespace AhoyScan

/-! ## Longest matches -/

section Longest

variable {property : List Char → Prop} {text front : List Char}

/-- There is one longest beginning with a property. -/
theorem Longest.unique {other : List Char} (h : Longest property text front)
    (hother : Longest property text other) : front = other := by
  have hle : front.length ≤ other.length := hother.greatest front h.begins h.holds
  have hge : other.length ≤ front.length := h.greatest other hother.begins hother.holds
  exact (List.prefix_of_prefix_length_le h.begins hother.begins hle).eq_of_length_le hge

/-- The longest beginning with a property stays the longest in a shorter text. -/
theorem Longest.of_prefix {shorter : List Char} (h : Longest property text front)
    (hshorter : shorter <+: text) (hfront : front <+: shorter) :
    Longest property shorter front :=
  ⟨hfront, h.holds, fun other hother ↦ h.greatest other (hother.trans hshorter)⟩

end Longest

/-! ## Segments -/

variable {c : Char} {rest : List Char} {segment other : Segment}

/-- What is cut from a text is cut from every beginning of the text that holds it. -/
theorem Scanned.of_prefix {tail shorter : List Char} (h : Scanned c rest segment)
    (hchars : segment.chars = c :: tail) (hshorter : shorter <+: rest) (htail : tail <+: shorter) :
    Scanned c shorter segment := by
  cases h with
  | matched hmatched hclassed hgreatest hunique =>
      exact .matched hmatched hclassed
        (fun kind other hother ↦ hgreatest kind other (hother.trans hshorter)) hunique
  | @unmatched chars hnone hunmatched =>
      obtain rfl : chars = c :: tail := hchars
      refine .unmatched (fun kind other hother ↦ hnone kind other (hother.trans hshorter)) ?_
      obtain ⟨_, _, htext, hunmatched⟩ := hunmatched
      cases htext
      refine ⟨c, shorter, rfl, ?_⟩
      split_ifs at hunmatched ⊢ with hquote
      · obtain ⟨run, hlongest, hrun⟩ := hunmatched
        cases hrun
        exact ⟨tail, hlongest.of_prefix hshorter htail, hquote ▸ rfl⟩
      · exact hunmatched

/-- What is cut from a text has only one extent. -/
theorem Scanned.chars_unique (h : Scanned c rest segment) (hother : Scanned c rest other)
    (hbegins : segment.chars <+: c :: rest) (hbegins' : other.chars <+: c :: rest) :
    segment.chars = other.chars := by
  cases h with
  | @matched segment tail hchars hclassed hgreatest _ =>
      rw [hchars] at hbegins ⊢
      have htail : tail <+: rest := (List.cons_prefix_cons.1 hbegins).2
      cases hother with
      | @matched other tail' hchars' hclassed' hgreatest' _ =>
          rw [hchars'] at hbegins' ⊢
          have htail' : tail' <+: rest := (List.cons_prefix_cons.1 hbegins').2
          have hle := hgreatest' _ tail htail hclassed
          have hge := hgreatest _ tail' htail' hclassed'
          rw [(List.prefix_of_prefix_length_le htail htail' hle).eq_of_length_le hge]
      | unmatched hnone _ => exact absurd hclassed (hnone _ tail htail)
  | @unmatched chars hnone hunmatched =>
      cases hother with
      | @matched other tail hchars hclassed _ _ =>
          rw [hchars] at hbegins'
          exact absurd hclassed (hnone _ tail (List.cons_prefix_cons.1 hbegins').2)
      | @unmatched chars' _ hunmatched' =>
          show chars = chars'
          obtain ⟨_, _, htext, hunmatched⟩ := hunmatched
          obtain ⟨_, _, htext', hunmatched'⟩ := hunmatched'
          cases htext
          cases htext'
          split_ifs at hunmatched hunmatched' with hquote
          · obtain ⟨run, hlongest, rfl⟩ := hunmatched
            obtain ⟨run', hlongest', rfl⟩ := hunmatched'
            rw [hlongest.unique hlongest']
          · rw [hunmatched, hunmatched']

/-- What is cut from a text has only one kind. -/
theorem Scanned.kind_unique (h : Scanned c rest segment) (hother : Scanned c rest other)
    (hbegins : segment.chars <+: c :: rest) (hchars : segment.chars = other.chars) :
    segment.kind? = other.kind? := by
  cases h with
  | @matched segment tail htail hclassed _ hunique =>
      rw [htail] at hbegins hchars
      cases hother with
      | @matched other tail' htail' hclassed' _ hunique' =>
          obtain ⟨-, rfl⟩ := List.cons.inj (hchars.trans htail')
          -- A keyword and a name would each have to take the place of the other.
          rcases hunique' _ hclassed with hsame | ⟨hname, keyword, hkeyword⟩
          · exact hsame
          · rcases hunique _ hclassed' with hsame | ⟨hname', -⟩
            · exact hsame.symm
            · cases hkeyword.symm.trans hname'
      | unmatched hnone _ =>
          exact absurd hclassed (hnone _ tail (List.cons_prefix_cons.1 hbegins).2)
  | @unmatched chars hnone hunmatched =>
      cases hother with
      | @matched other tail htail hclassed _ _ =>
          rw [hchars, htail] at hbegins
          exact absurd hclassed (hnone _ tail (List.cons_prefix_cons.1 hbegins).2)
      | unmatched => rfl

namespace Segment

variable {text left : List Char} {front back : List Segment}

/-- A sound segment is known by its text and its kind. -/
theorem Sound.eq_of_chars {left' : List Char} (h : segment.Sound left) (hother : other.Sound left')
    (hchars : segment.chars = other.chars) (hkind : segment.kind? = other.kind?) :
    segment = other := by
  cases segment with
  | blanks run =>
      cases other with
      | blanks run' => exact congrArg blanks hchars
      | comment run' =>
          obtain ⟨body, rfl, -⟩ := hother
          obtain rfl : run = '?' :: body := hchars
          exact absurd (h.2 '?' List.mem_cons_self) (by decide)
      | lineEnd | lexeme l => cases hkind
  | comment run =>
      cases other with
      | blanks run' =>
          obtain ⟨body, rfl, -⟩ := h
          obtain rfl : '?' :: body = run' := hchars
          exact absurd (hother.2 '?' List.mem_cons_self) (by decide)
      | comment run' => exact congrArg comment hchars
      | lineEnd | lexeme l => cases hkind
  | lineEnd =>
      cases other with
      | blanks run' | comment run' => cases hkind
      | lineEnd => rfl
      | lexeme l =>
          have hplain := Lexeme.Sound.plain hother
          rw [← Option.some.inj hkind] at hplain
          cases hplain
  | lexeme l =>
      cases other with
      | blanks run' | comment run' => cases hkind
      | lineEnd =>
          have hplain := Lexeme.Sound.plain h
          rw [Option.some.inj hkind] at hplain
          cases hplain
      | lexeme l' =>
          obtain ⟨kind, run⟩ := l
          obtain ⟨kind', run'⟩ := l'
          obtain rfl : run = run' := hchars
          obtain rfl : kind = kind' := Option.some.inj hkind
          rfl

/-- From the front of a text only one segment is cut. -/
theorem eq_of_scanned {left' : List Char} (h : Scanned c rest segment)
    (hother : Scanned c rest other) (hsound : segment.Sound left) (hsound' : other.Sound left')
    (hbegins : segment.chars <+: c :: rest) (hbegins' : other.chars <+: c :: rest) :
    segment = other := by
  have hchars : segment.chars = other.chars := h.chars_unique hother hbegins hbegins'
  exact hsound.eq_of_chars hsound' hchars (h.kind_unique hother hbegins hchars)

/-- What the segment at the front of a text and the text after it are. -/
theorem first_spec (h : first c rest = (segment, left)) :
    (∃ tail, segment.chars = c :: tail ∧ rest = tail ++ left) ∧ Scanned c rest segment ∧
      segment.Sound left := by
  have happend := first_append c rest
  have hnonempty := first_chars_ne_nil c rest
  have hscanned := first_scanned c rest
  have hsound := first_sound c rest
  rw [h] at happend hnonempty hscanned hsound
  obtain ⟨d, tail, hchars⟩ := List.exists_cons_of_ne_nil hnonempty
  rw [hchars, List.cons_append, List.cons.injEq] at happend
  obtain ⟨rfl, happend⟩ := happend
  exact ⟨⟨tail, hchars, happend.symm⟩, hscanned, hsound⟩

/-- What can be cut from the front of a text, and is a sound segment, is its first segment. -/
theorem first_of_scanned {tail left' : List Char} (h : Scanned c (tail ++ left) segment)
    (hchars : segment.chars = c :: tail) (hsound : segment.Sound left') :
    first c (tail ++ left) = (segment, left) := by
  have hbegins : segment.chars <+: c :: (tail ++ left) :=
    hchars ▸ List.prefix_append (c :: tail) left
  cases hfirst : first c (tail ++ left) with
  | mk other last =>
      obtain ⟨⟨tail', hchars', hrest⟩, hcut, hsound'⟩ := first_spec hfirst
      have hbegins' : other.chars <+: c :: (tail ++ left) := by
        rw [hchars', hrest]
        exact List.prefix_append (c :: tail') last
      -- Both are longest matches of the text.
      obtain rfl : segment = other := eq_of_scanned h hcut hsound hsound' hbegins hbegins'
      obtain ⟨-, rfl⟩ := List.cons.inj (hchars.symm.trans hchars')
      rw [List.append_cancel_left hrest]

/-- The first segment of a text is the first one of every beginning of the text that holds it. -/
theorem first_of_prefix {tail left' : List Char} (h : first c (tail ++ left) = (segment, left))
    (hchars : segment.chars = c :: tail) (hleft : left' <+: left) :
    first c (tail ++ left') = (segment, left') := by
  obtain ⟨-, hscanned, hsound⟩ := first_spec h
  have hshorter : Scanned c (tail ++ left') segment :=
    hscanned.of_prefix hchars ((List.prefix_append_right_inj tail).2 hleft)
      (List.prefix_append tail left')
  exact first_of_scanned hshorter hchars hsound

/-- A text is its first segment and then the segments of what is left. -/
theorem all_of_first {tail : List Char} (h : first c (tail ++ left) = (segment, left)) :
    all (c :: (tail ++ left)) = segment :: all left := by
  rw [all, h]

/-- The first segment of a text and what is left after it, when the segments of the text are
given. -/
theorem exists_first_of_all {segments : List Segment} (h : all text = segment :: segments) :
    ∃ c tail left, text = c :: (tail ++ left) ∧ segment.chars = c :: tail ∧
      first c (tail ++ left) = (segment, left) ∧ all left = segments := by
  cases text with
  | nil => simp [all] at h
  | cons c rest =>
      rw [all, List.cons.injEq] at h
      obtain ⟨hsegment, hsegments⟩ := h
      have hfirst : first c rest = (segment, (first c rest).2) := Prod.ext hsegment rfl
      obtain ⟨⟨tail, hchars, hrest⟩, -⟩ := first_spec hfirst
      refine ⟨c, tail, (first c rest).2, by rw [← hrest], hchars, ?_, hsegments⟩
      rw [← hrest]
      exact hfirst

/-- The segments of the front of a text that ends with a segment are those of the text. -/
theorem all_front (h : all text = front ++ back) : all (front.flatMap chars) = front := by
  induction front generalizing text with
  | nil =>
      rw [List.flatMap_nil, all]
  | cons segment front ih =>
      rw [List.cons_append] at h
      obtain ⟨c, tail, left, rfl, hchars, hfirst, hrest⟩ := exists_first_of_all h
      have hleft : front.flatMap chars <+: left := by
        rw [← flatMap_chars_all left, hrest, List.flatMap_append]
        exact List.prefix_append _ _
      have hfront := first_of_prefix hfirst hchars hleft
      rw [List.flatMap_cons, hchars, List.cons_append, all_of_first hfront, ih hrest]

/-- The segments of the back of a text that begins with a segment are those of the text. -/
theorem all_back (h : all text = front ++ back) : all (back.flatMap chars) = back := by
  induction front generalizing text with
  | nil =>
      obtain rfl : all text = back := h
      rw [flatMap_chars_all]
  | cons segment front ih =>
      cases text with
      | nil => simp [all] at h
      | cons c rest =>
          rw [all, List.cons_append, List.cons.injEq] at h
          exact ih h.2

/-- Segments in the middle of a text are those that their own text is cut into. -/
theorem all_infix {middle : List Segment} (h : middle <:+: all text) :
    all (middle.flatMap chars) = middle := by
  obtain ⟨front, back, h⟩ := h
  rw [List.append_assoc] at h
  exact all_front (all_back h.symm)

/-- A segment of a text is the only one of its own text. -/
theorem all_chars (h : segment ∈ all text) : all segment.chars = [segment] := by
  obtain ⟨front, back, hsplit⟩ := List.append_of_mem h
  have hpart : [segment] <:+: all text := ⟨front, back, by simp [hsplit]⟩
  have hself := all_infix hpart
  rwa [List.flatMap_singleton] at hself

end Segment

end AhoyScan
