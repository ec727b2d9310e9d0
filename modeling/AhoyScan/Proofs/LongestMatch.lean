import AhoyScan.Proofs.Vocabulary
import Mathlib.Data.List.TakeWhile

/-!
# Cutting takes the longest match

A text is cut without a search: the first character decides what is read, and it is read as far as
it goes. `scan_longest_match` says that this finds, at every place where the cutting of a text
comes by, the longest text in front of it that a pattern of the vocabulary matches, and says what
is cut off where no pattern matches at all.
-/

namespace AhoyScan

open Pattern (Matches)

/-- The kind of token that a segment yields; white space and comments yield none. -/
def Segment.kind? : Segment → Option Kind
  | blanks _ | comment _ => none
  | lineEnd => some .newline
  | lexeme l => some l.kind

/-- A text that some pattern of the vocabulary matches. -/
def Vocabulary (text : List Char) : Prop :=
  ∃ rule ∈ Rule.all, Matches rule.pattern text

/-- A beginning of a text that has a property, and is the longest one that has it. -/
structure Longest (property : List Char → Prop) (text front : List Char) : Prop where
  begins : front <+: text
  holds : property front
  greatest : ∀ other, other <+: text → property other → other.length ≤ front.length

/-- The segment has the kind of a pattern that matches it. Only a keyword is matched by a pattern
of another kind as well, the one for names. -/
structure Segment.KindFits (segment : Segment) : Prop where
  matched : ∃ rule ∈ Rule.all, rule.kind = segment.kind? ∧ Matches rule.pattern segment.chars
  unique : ∀ rule ∈ Rule.all, Matches rule.pattern segment.chars →
    rule.kind = segment.kind? ∨
      rule.kind = some .identifier ∧ ∃ keyword, segment.kind? = some (.keyword keyword)

/-- What is cut from the front of a text where no pattern matches: an unclosed string, which is its
quote and the longest contents after it, or else a single character. -/
def Unmatched (text chars : List Char) : Prop :=
  ∃ c rest, text = c :: rest ∧
    if c = '"' then ∃ run, Longest (Matches .contents) rest run ∧ chars = '"' :: run
    else chars = [c]

/-! ## Contents of a string -/

/-- What is read as contents is contents. -/
theorem Lexeme.contents_matches (text : List Char) : Matches .contents (contents text).1 := by
  fun_induction contents text with
  | case1 => exact .done
  | case2 => exact .done
  | case3 => exact .done
  | case4 escaped rest hescaped run left hrun ih =>
      rw [hrun] at ih
      exact .escaped_contents hescaped ih
  | case5 => exact .done
  | case6 c rest hlast hescape hquote run left hrun ih =>
      rw [hrun] at ih
      refine .plain_contents hquote ?_ ih
      intro hbackslash
      obtain rfl := hbackslash
      cases rest with
      | nil => exact hlast rfl rfl
      | cons escaped rest => exact hescape escaped rest rfl rfl

/-- Contents in front of a text are read before anything of the text. -/
theorem Lexeme.contents_append_left {run : List Char} (hrun : Matches .contents run)
    (rest : List Char) :
    contents (run ++ rest) = (run ++ (contents rest).1, (contents rest).2) := by
  -- An escape takes two characters at once, so this goes by the length of the run.
  rcases hrun.contents_cases with rfl | ⟨c, more, hquote, hbackslash, hmore, rfl⟩ |
    ⟨c, more, hc, hmore, rfl⟩
  · rfl
  · have ih := contents_append_left hmore rest
    simp [contents, hquote, hbackslash, ih]
  · have ih := contents_append_left hmore rest
    simp [contents, hc, ih]
termination_by run.length

/-! ## What each way of reading takes -/

/-- What is cut from the front of the text `c :: rest`: either what a pattern matches, and then no
longer text and no other kind, or what is taken where no pattern matches. -/
inductive Scanned (c : Char) (rest : List Char) : Segment → Prop where
  | matched {segment : Segment} {tail : List Char} (chars : segment.chars = c :: tail)
      (classed : Classed segment.kind? (c :: tail))
      (greatest : ∀ kind other, other <+: rest → Classed kind (c :: other) →
        other.length ≤ tail.length)
      (unique : ∀ kind, Classed kind (c :: tail) →
        kind = segment.kind? ∨
          kind = some .identifier ∧ ∃ keyword, segment.kind? = some (.keyword keyword)) :
      Scanned c rest segment
  | unmatched {chars : List Char}
      (none : ∀ kind other, other <+: rest → ¬ Classed kind (c :: other))
      (unmatched : Unmatched (c :: rest) chars) : Scanned c rest (.lexeme ⟨.illegal, chars⟩)

/-- No beginning of a text that is made of characters of a class is longer than the one taken. -/
theorem length_le_takeWhile {accepts : Char → Bool} {front text : List Char}
    (hbegins : front <+: text) (hfront : ∀ c ∈ front, accepts c = true) :
    front.length ≤ (text.takeWhile accepts).length := by
  obtain ⟨back, rfl⟩ := hbegins
  rw [List.takeWhile_append_of_pos hfront, List.length_append]
  exact Nat.le_add_right _ _

variable {c : Char} {rest : List Char}

/-- A run of blanks is the longest one. -/
theorem blanks_scanned (hc : isBlank c = true) :
    Scanned c rest (.blanks (c :: rest.takeWhile isBlank)) := by
  refine .matched rfl ((classed_blank_iff hc).2 ⟨rfl, fun _ ↦ List.mem_takeWhile_imp⟩) ?_ ?_
  · intro kind other hother hclassed
    exact length_le_takeWhile hother ((classed_blank_iff hc).1 hclassed).2
  · intro kind hclassed
    exact .inl ((classed_blank_iff hc).1 hclassed).1

/-- A line end is matched by itself alone. -/
theorem lineEnd_scanned : Scanned '\n' rest .lineEnd := by
  refine .matched rfl ⟨rfl, rfl⟩ ?_ ?_
  · intro kind other _ hclassed
    obtain ⟨-, rfl⟩ : kind = some .newline ∧ other = [] := hclassed
    exact Nat.le_refl _
  · intro kind hclassed
    exact .inl hclassed.1

/-- The only symbols that begin with a question mark are written with two. -/
theorem Symbol.eq_ternary {symbol : Symbol} {tail : List Char}
    (h : '?' :: tail = symbol.entry.spelling.toList) : tail = ['?'] := by
  cases symbol <;> simp [Symbol.entry] at h
  exact h

/-- A comment runs as far as its line. -/
theorem comment_scanned (hhead : rest.head? ≠ some '?') :
    Scanned '?' rest (.comment ('?' :: rest.takeWhile (· ≠ '\n'))) := by
  have hfirst {tail : List Char} (htail : tail <+: rest) : tail.head? ≠ some '?' := by
    intro hquestion
    obtain ⟨back, rfl⟩ := htail
    cases tail with
    | nil => cases hquestion
    | cons d tail => exact hhead hquestion
  refine .matched rfl (.inl ⟨rfl, rfl, hfirst (List.takeWhile_prefix _), ?_⟩) ?_ ?_
  · intro hmem
    simpa using List.mem_takeWhile_imp hmem
  · intro kind other hother hclassed
    rcases hclassed with ⟨-, -, -, hnewline⟩ | ⟨symbol, -, hspelling⟩
    · refine length_le_takeWhile hother fun d hd ↦ ?_
      simpa using ne_of_mem_of_not_mem hd hnewline
    · obtain rfl := Symbol.eq_ternary hspelling
      exact absurd rfl (hfirst hother)
  · intro kind hclassed
    rcases hclassed with ⟨-, rfl, -, -⟩ | ⟨symbol, -, hspelling⟩
    · exact .inl rfl
    · have htail := Symbol.eq_ternary hspelling
      exact absurd (by rw [htail]; rfl) (hfirst (List.takeWhile_prefix _))

/-- The keyword found for a spelling is the one with this spelling. -/
theorem Keyword.ofSpelling?_eq_some_iff {chars : List Char} {keyword : Keyword} :
    ofSpelling? chars = some keyword ↔ chars = keyword.entry.spelling.toList := by
  constructor
  · intro h
    have hspelling := List.find?_some h
    rw [of_decide_eq_true hspelling, String.toList_ofList]
  · intro h
    obtain rfl := h
    cases keyword <;> decide

/-- The symbol found for a spelling is the one with this spelling. -/
theorem Symbol.ofSpelling?_eq_some_iff {chars : List Char} {symbol : Symbol} :
    ofSpelling? chars = some symbol ↔ chars = symbol.entry.spelling.toList := by
  constructor
  · intro h
    have hspelling := List.find?_some h
    rw [of_decide_eq_true hspelling, String.toList_ofList]
  · intro h
    obtain rfl := h
    cases symbol <;> decide

/-- A character that begins a name also continues one. -/
theorem isNameRest_of_isNameStart (hc : isNameStart c = true) : isNameRest c = true := by
  simp only [isNameStart, isNameRest, Char.isAlphanum, Bool.or_eq_true] at hc ⊢
  exact hc.elim (fun h ↦ .inl (.inl h)) .inr

/-- A word is the longest one, and a keyword if it is written like one. -/
theorem word_scanned (hc : isNameStart c = true) :
    Scanned c rest (.lexeme (Lexeme.word (c :: rest)).1) := by
  have hword : (c :: rest).takeWhile isNameRest = c :: rest.takeWhile isNameRest :=
    List.takeWhile_cons_of_pos (isNameRest_of_isNameStart hc)
  have hrest : ∀ d ∈ rest.takeWhile isNameRest, isNameRest d = true :=
    fun _ ↦ List.mem_takeWhile_imp
  refine .matched hword ((classed_name_iff hc).2 ⟨hrest, ?_⟩) ?_ ?_
  · simp only [Lexeme.word, Segment.kind?, hword]
    cases hkeyword : Keyword.ofSpelling? (c :: rest.takeWhile isNameRest) with
    | none => exact .inl rfl
    | some keyword => exact .inr ⟨keyword, rfl, Keyword.ofSpelling?_eq_some_iff.1 hkeyword⟩
  · intro kind other hother hclassed
    exact length_le_takeWhile hother ((classed_name_iff hc).1 hclassed).1
  · intro kind hclassed
    simp only [Lexeme.word, Segment.kind?, hword]
    rcases ((classed_name_iff hc).1 hclassed).2 with rfl | ⟨keyword, rfl, hspelling⟩
    · cases Keyword.ofSpelling? (c :: rest.takeWhile isNameRest) with
      | none => exact .inl rfl
      | some keyword => exact .inr ⟨rfl, keyword, rfl⟩
    · rw [Keyword.ofSpelling?_eq_some_iff.2 hspelling]
      exact .inl rfl

/-- The digits of a text that come before a point are split off at the point. -/
theorem digits_before_point {front : List Char} (hfront : ∀ e ∈ front, e.isDigit = true)
    (back : List Char) :
    (front ++ '.' :: back).takeWhile Char.isDigit = front ∧
      (front ++ '.' :: back).dropWhile Char.isDigit = '.' :: back := by
  constructor
  · rw [List.takeWhile_append_of_pos hfront]
    simp
  · rw [List.dropWhile_append_of_pos hfront]
    simp

/-- Digits and a point at the beginning of a text fix where its first digits end. -/
theorem digits_end_at_point {front back text : List Char}
    (hfront : ∀ e ∈ front, e.isDigit = true) (hbegins : front ++ '.' :: back <+: text) :
    text.takeWhile Char.isDigit = front ∧
      ∃ left, text.dropWhile Char.isDigit = '.' :: (back ++ left) := by
  obtain ⟨left, rfl⟩ := hbegins
  rw [List.append_assoc, List.cons_append]
  obtain ⟨htake, hdrop⟩ := digits_before_point hfront (back ++ left)
  exact ⟨htake, left, hdrop⟩

/-- Digits with a point and more digits after them are read as one number. -/
theorem Lexeme.number_decimal {d : Char} {front back : List Char}
    (hc : c.isDigit = true) (hfront : ∀ e ∈ front, e.isDigit = true) (hd : d.isDigit = true) :
    (number (c :: (front ++ '.' :: d :: back))).1 =
      ⟨.number, c :: (front ++ '.' :: d :: back.takeWhile Char.isDigit)⟩ := by
  obtain ⟨htake, hdrop⟩ := digits_before_point hfront (d :: back)
  simp [number, hc, htake, hdrop, hd]

/-- Digits without a point and a digit after them are a number by themselves. -/
theorem Lexeme.number_whole (hc : c.isDigit = true)
    (hrest : ∀ d back, rest.dropWhile Char.isDigit = '.' :: d :: back → d.isDigit = false) :
    (number (c :: rest)).1 = ⟨.number, c :: rest.takeWhile Char.isDigit⟩ := by
  have htake := List.takeWhile_cons_of_pos (l := rest) hc
  have hdrop := List.dropWhile_cons_of_pos (l := rest) hc
  unfold number
  rw [htake, hdrop]
  split
  · rename_i d back hpoint
    rw [hrest d back hpoint]
    rfl
  · rfl

/-- A number is the longest one. -/
theorem number_scanned (hc : c.isDigit = true) :
    Scanned c rest (.lexeme (Lexeme.number (c :: rest)).1) := by
  have hunique {chars : List Char} (kind : Option Kind) (hclassed : Classed kind (c :: chars)) :
      kind = some .number := ((classed_digit_iff hc).1 hclassed).1
  have hdigits : ∀ e ∈ rest.takeWhile Char.isDigit, e.isDigit = true :=
    fun _ ↦ List.mem_takeWhile_imp
  by_cases hpoint : ∃ d back, rest.dropWhile Char.isDigit = '.' :: d :: back ∧ d.isDigit = true
  · obtain ⟨d, back, hdrop, hd⟩ := hpoint
    have hrest : rest.takeWhile Char.isDigit ++ '.' :: d :: back = rest := by
      rw [← hdrop, List.takeWhile_append_dropWhile]
    rw [← hrest, Lexeme.number_decimal hc hdigits hd, hrest]
    refine .matched rfl ((classed_digit_iff hc).2 ⟨rfl, _, hdigits, .inr ?_⟩) ?_ ?_
    · exact ⟨d, back.takeWhile Char.isDigit, hd, fun _ ↦ List.mem_takeWhile_imp, rfl⟩
    · intro kind other hother hclassed
      obtain ⟨-, front, hfront, rfl | ⟨e, more, -, hmore, rfl⟩⟩ := (classed_digit_iff hc).1 hclassed
      · have hle := length_le_takeWhile hother hfront
        rw [List.length_append]
        omega
      · -- Both have their point after the same digits, so what follows it begins alike
        obtain ⟨htake, left, hsame⟩ := digits_end_at_point hfront hother
        rw [hdrop] at hsame
        obtain ⟨rfl, rfl⟩ : d = e ∧ back = more ++ left := by simpa using hsame
        have hle := length_le_takeWhile (List.prefix_append more left) hmore
        simp only [htake, List.length_append, List.length_cons]
        omega
    · exact fun kind hclassed ↦ .inl (hunique kind hclassed)
  · rw [Lexeme.number_whole hc]
    · refine .matched rfl ((classed_digit_iff hc).2 ⟨rfl, _, hdigits, .inl rfl⟩) ?_ ?_
      · intro kind other hother hclassed
        obtain ⟨-, front, hfront, rfl | ⟨e, more, he, -, rfl⟩⟩ := (classed_digit_iff hc).1 hclassed
        · exact length_le_takeWhile hother hfront
        · obtain ⟨-, left, hdrop⟩ := digits_end_at_point hfront hother
          exact absurd ⟨e, more ++ left, hdrop, he⟩ hpoint
      · exact fun kind hclassed ↦ .inl (hunique kind hclassed)
    · intro d back hdrop
      rw [Bool.eq_false_iff]
      exact fun hd ↦ hpoint ⟨d, back, hdrop, hd⟩

/-- A quote ends the contents of a string. -/
theorem Lexeme.contents_quote (text : List Char) : contents ('"' :: text) = ([], '"' :: text) := by
  simp [contents]

/-- Contents of a string at the beginning of a text are no longer than what is read as such. -/
theorem Lexeme.contents_longest (text : List Char) :
    Longest (Matches .contents) text (contents text).1 := by
  refine ⟨⟨_, contents_append text⟩, contents_matches text, ?_⟩
  intro other hother hrun
  obtain ⟨left, rfl⟩ := hother
  rw [contents_append_left hrun, List.length_append]
  exact Nat.le_add_right _ _

/-- If a closed string begins a text, then its contents are what is read as such. -/
theorem Lexeme.contents_closed {kind : Option Kind} {other : List Char} (hother : other <+: rest)
    (hclassed : Classed kind ('"' :: other)) :
    ∃ run left, contents rest = (run, '"' :: left) ∧ other = run ++ ['"'] := by
  obtain ⟨-, run, hrun, rfl⟩ := hclassed
  obtain ⟨left, rfl⟩ := hother
  refine ⟨run, left, ?_, rfl⟩
  rw [List.append_assoc, contents_append_left hrun, List.singleton_append, contents_quote,
    List.append_nil]

/-- A closed string ends at the first quote that ends its contents; an unclosed one is cut off
after the longest contents. -/
theorem string_scanned : Scanned '"' rest (.lexeme (Lexeme.string rest).1) := by
  have hlongest := Lexeme.contents_longest rest
  unfold Lexeme.string
  split
  · rename_i run left hread
    rw [hread] at hlongest
    have hchars : '"' :: run ++ ['"'] = '"' :: (run ++ ['"']) := rfl
    refine .matched hchars ⟨rfl, run, hlongest.holds, rfl⟩ ?_ ?_
    · intro kind other hother hclassed
      obtain ⟨run', left', hread', rfl⟩ := Lexeme.contents_closed hother hclassed
      rw [hread, Prod.mk.injEq] at hread'
      rw [hread'.1]
    · exact fun kind hclassed ↦ .inl hclassed.1
  · rename_i run left hopen hread
    rw [hread] at hlongest
    -- A closed string at this place would have the same contents and a quote behind them.
    refine .unmatched ?_ ⟨'"', rest, rfl, ?_⟩
    · intro kind other hother hclassed
      obtain ⟨run', left', hread', -⟩ := Lexeme.contents_closed hother hclassed
      rw [hread, Prod.mk.injEq] at hread'
      exact hopen left' hread'.2
    · rw [if_pos rfl]
      exact ⟨run, hlongest, rfl⟩

/-- If a character literal begins a text, then so do the characters of one of its two forms. -/
theorem char_candidate {kind : Option Kind} {other : List Char} (hother : other <+: rest)
    (hclassed : Classed kind ('\'' :: other)) :
    kind = some .char ∧ ∃ d left,
      (d ≠ '\'' ∧ d ≠ '\\' ∧ other = [d, '\''] ∧ rest = d :: '\'' :: left) ∨
        (d ≠ '\n' ∧ other = ['\\', d, '\''] ∧ rest = '\\' :: d :: '\'' :: left) := by
  obtain ⟨left, rfl⟩ := hother
  obtain ⟨hkind, ⟨d, hquote, hbackslash, rfl⟩ | ⟨d, hd, rfl⟩⟩ := hclassed
  · exact ⟨hkind, d, left, .inl ⟨hquote, hbackslash, rfl, rfl⟩⟩
  · exact ⟨hkind, d, left, .inr ⟨hd, rfl, rfl⟩⟩

/-- A character literal is read where one begins, and a lone apostrophe where none does. -/
theorem char_scanned : Scanned '\'' rest (.lexeme (Lexeme.char rest).1) := by
  have halone : Unmatched ('\'' :: rest) ['\''] := ⟨'\'', rest, rfl, rfl⟩
  fun_cases Lexeme.char rest with
  | case1 rest =>
      refine .unmatched ?_ halone
      intro kind other hother hclassed
      obtain ⟨-, d, left, ⟨-, -, -, hrest⟩ | ⟨hd, -, hrest⟩⟩ := char_candidate hother hclassed
      · cases hrest
      · cases hrest
        exact hd rfl
  | case2 escaped rest hescaped =>
      refine .matched rfl ⟨rfl, .inr ⟨escaped, hescaped, rfl⟩⟩ ?_ (fun _ hclassed ↦ .inl hclassed.1)
      intro kind other hother hclassed
      obtain ⟨-, d, left, ⟨-, -, rfl, -⟩ | ⟨-, rfl, -⟩⟩ := char_candidate hother hclassed <;> simp
  | case3 c rest hescape hc =>
      refine .unmatched ?_ halone
      intro kind other hother hclassed
      obtain ⟨-, d, left, ⟨hquote, hbackslash, -, hrest⟩ | ⟨-, -, hrest⟩⟩ :=
        char_candidate hother hclassed
      · cases hrest
        exact hc.elim hquote hbackslash
      · cases hrest
        exact hescape left rfl rfl
  | case4 c rest hescape hc =>
      rw [not_or] at hc
      refine .matched rfl ⟨rfl, .inl ⟨c, hc.1, hc.2, rfl⟩⟩ ?_ (fun _ hclassed ↦ .inl hclassed.1)
      intro kind other hother hclassed
      obtain ⟨-, d, left, ⟨-, -, rfl, -⟩ | ⟨-, -, hrest⟩⟩ := char_candidate hother hclassed
      · simp
      · cases hrest
        exact absurd rfl hc.2
  | case5 rest hescape hplain =>
      refine .unmatched ?_ halone
      intro kind other hother hclassed
      obtain ⟨-, d, left, ⟨-, -, -, hrest⟩ | ⟨-, -, hrest⟩⟩ := char_candidate hother hclassed
      · exact hplain d left hrest
      · exact hescape d left hrest

/-- A symbol is written with one character or two. -/
theorem Symbol.spelling_length_le (symbol : Symbol) : symbol.entry.spelling.toList.length ≤ 2 := by
  cases symbol <;> decide

/-- The first character of what is neither a word nor a number nor quoted, nor begins a comment. -/
structure Mark (c : Char) (rest : List Char) : Prop where
  blank : isBlank c = false
  lineEnd : c ≠ '\n'
  name : isNameStart c = false
  digit : c.isDigit = false
  quote : c ≠ '"'
  apostrophe : c ≠ '\''
  question : c = '?' → rest.head? = some '?'

/-- What begins with a mark and is matched is a symbol, or the question mark of a comment before
another question mark. -/
theorem Mark.candidate {kind : Option Kind} {other : List Char} (h : Mark c rest)
    (hother : other <+: rest) (hclassed : Classed kind (c :: other)) :
    (c = '?' ∧ rest.head? = some '?' ∧ other = []) ∨
      ∃ symbol : Symbol, kind = some (.symbol symbol) ∧
        c :: other = symbol.entry.spelling.toList := by
  rw [Classed, if_neg (by simp [h.blank]), if_neg h.lineEnd, if_neg (by simp [h.name]),
    if_neg (by simp [h.digit]), if_neg h.quote, if_neg h.apostrophe] at hclassed
  rcases hclassed with ⟨hc, -, hhead, -⟩ | hsymbol
  · refine .inl ⟨hc, h.question hc, ?_⟩
    cases other with
    | nil => rfl
    | cons d other =>
        obtain ⟨left, rfl⟩ := hother
        exact absurd (h.question hc) hhead
  · exact .inr hsymbol

/-- A mark with which no symbol of two characters begins is matched only as a symbol by itself. -/
theorem Mark.single_candidate {kind : Option Kind} {other : List Char} (h : Mark c rest)
    (hpair : ∀ second left, rest = second :: left → Symbol.ofSpelling? [c, second] = none)
    (hother : other <+: rest) (hclassed : Classed kind (c :: other)) :
    other = [] ∧ ∃ symbol : Symbol,
      kind = some (.symbol symbol) ∧ Symbol.ofSpelling? [c] = some symbol := by
  rcases h.candidate hother hclassed with ⟨rfl, hhead, -⟩ | ⟨symbol, hkind, hspelling⟩
  · obtain ⟨left, rfl⟩ := List.head?_eq_some_iff.1 hhead
    cases hpair '?' left rfl
  · match other with
    | [] => exact ⟨rfl, symbol, hkind, Symbol.ofSpelling?_eq_some_iff.2 hspelling⟩
    | [second] =>
        obtain ⟨left, hleft⟩ := hother
        have hnone := hpair second left hleft.symm
        rw [Symbol.ofSpelling?_eq_some_iff.2 hspelling] at hnone
        cases hnone
    | second :: third :: more =>
        have hlength := symbol.spelling_length_le
        rw [← hspelling] at hlength
        simp at hlength

/-- A mark is read by itself where no symbol of two characters begins. -/
theorem Mark.single_scanned (h : Mark c rest)
    (hpair : ∀ second left, rest = second :: left → Symbol.ofSpelling? [c, second] = none) :
    Scanned c rest (.lexeme (Lexeme.single c)) := by
  cases hsymbol : Symbol.ofSpelling? [c] with
  | none =>
      simp only [Lexeme.single, hsymbol, Option.elim_none]
      refine .unmatched ?_ ⟨c, rest, rfl, ?_⟩
      · intro kind other hother hclassed
        obtain ⟨-, symbol, -, hsome⟩ := h.single_candidate hpair hother hclassed
        rw [hsymbol] at hsome
        cases hsome
      · rw [if_neg h.quote]
  | some symbol =>
      simp only [Lexeme.single, hsymbol, Option.elim_some]
      have hspelling := Symbol.ofSpelling?_eq_some_iff.1 hsymbol
      have hclassed := symbol.classed
      rw [← hspelling] at hclassed
      refine .matched rfl hclassed ?_ ?_
      · intro kind other hother hclassed
        rw [(h.single_candidate hpair hother hclassed).1]
      · intro kind hclassed
        obtain ⟨-, other, rfl, hother⟩ := h.single_candidate hpair List.nil_prefix hclassed
        rw [hsymbol] at hother
        cases hother
        exact .inl rfl

/-- A symbol of two characters is read where one begins. -/
theorem Mark.pair_scanned {second : Char} {symbol : Symbol} (h : Mark c (second :: rest))
    (hsymbol : Symbol.ofSpelling? [c, second] = some symbol) :
    Scanned c (second :: rest) (.lexeme ⟨.symbol symbol, [c, second]⟩) := by
  have hspelling := Symbol.ofSpelling?_eq_some_iff.1 hsymbol
  have hclassed := symbol.classed
  rw [← hspelling] at hclassed
  refine .matched rfl hclassed ?_ ?_
  · intro kind other hother hclassed
    rcases h.candidate hother hclassed with ⟨-, -, rfl⟩ | ⟨symbol', -, hspelling'⟩
    · simp
    · have hlength := symbol'.spelling_length_le
      rw [← hspelling'] at hlength
      simpa using hlength
  · intro kind hclassed
    have hother : [second] <+: second :: rest := List.prefix_append [second] rest
    rcases h.candidate hother hclassed with ⟨-, -, hnil⟩ | ⟨symbol', rfl, hspelling'⟩
    · cases hnil
    · rw [Symbol.ofSpelling?_eq_some_iff.2 hspelling'] at hsymbol
      cases hsymbol
      exact .inl rfl

/-- A mark is read as the longest symbol that it begins, or by itself. -/
theorem Mark.symbol_scanned (h : Mark c rest) :
    Scanned c rest (.lexeme (Lexeme.symbol c rest).1) := by
  fun_cases Lexeme.symbol c rest with
  | case1 =>
      refine h.single_scanned ?_
      intro second left hrest
      cases hrest
  | case2 second rest symbol hsymbol => exact h.pair_scanned hsymbol
  | case3 second rest hsymbol =>
      refine h.single_scanned ?_
      intro second' left hrest
      cases hrest
      exact hsymbol

/-- What is cut from the front of a text is the longest match, or what is taken where there is
none. -/
theorem Segment.first_scanned (c : Char) (rest : List Char) :
    Scanned c rest (first c rest).1 := by
  unfold first
  split_ifs with hblank hnewline hcomment
  · exact blanks_scanned hblank
  · subst hnewline
    exact lineEnd_scanned
  · obtain ⟨rfl, hhead⟩ := hcomment
    exact comment_scanned hhead
  · show Scanned c rest (.lexeme (Lexeme.first c rest).1)
    unfold Lexeme.first
    split_ifs with hname hdigit hquote hapostrophe
    · exact word_scanned hname
    · exact number_scanned hdigit
    · subst hquote
      exact string_scanned
    · subst hapostrophe
      exact char_scanned
    · refine Mark.symbol_scanned ⟨by simpa using hblank, hnewline, by simpa using hname,
        by simpa using hdigit, hquote, hapostrophe, ?_⟩
      intro hc
      by_contra hhead
      exact hcomment ⟨hc, hhead⟩

/-! ## The whole vocabulary -/

/-- A text is matched by some pattern exactly when it is classed under some kind. -/
theorem vocabulary_iff {text : List Char} : Vocabulary text ↔ ∃ kind, Classed kind text := by
  constructor
  · intro h
    obtain ⟨rule, hrule, h⟩ := h
    exact ⟨rule.kind, Rule.classed hrule h⟩
  · intro h
    obtain ⟨kind, h⟩ := h
    obtain ⟨rule, hrule, -, hmatches⟩ := h.rule
    exact ⟨rule, hrule, hmatches⟩

/-- A matched beginning of a text that is not empty begins with its first character. -/
theorem Vocabulary.of_begins {front : List Char} (h : Vocabulary front)
    (hbegins : front <+: c :: rest) :
    ∃ kind other, front = c :: other ∧ other <+: rest ∧ Classed kind (c :: other) := by
  obtain ⟨kind, hclassed⟩ := vocabulary_iff.1 h
  rcases List.prefix_cons_iff.1 hbegins with rfl | ⟨other, rfl, hother⟩
  · cases hclassed
  · exact ⟨kind, other, rfl, hother, hclassed⟩

/-- Wherever a pattern matches, the longest match is cut off. -/
theorem Scanned.longest {segment : Segment} (h : Scanned c rest segment)
    (hbegins : segment.chars <+: c :: rest)
    (hmatch : ∃ front, front <+: c :: rest ∧ Vocabulary front) :
    Longest Vocabulary (c :: rest) segment.chars ∧ segment.KindFits := by
  cases h with
  | @matched segment tail hchars hclassed hgreatest hunique =>
      rw [← hchars] at hclassed hunique
      refine ⟨⟨hbegins, vocabulary_iff.2 ⟨_, hclassed⟩, ?_⟩, ⟨hclassed.rule, ?_⟩⟩
      · intro front hfront hvocabulary
        obtain ⟨kind, other, rfl, hother, hclassed⟩ := hvocabulary.of_begins hfront
        rw [hchars]
        exact Nat.succ_le_succ (hgreatest kind other hother hclassed)
      · intro rule hrule hmatches
        exact hunique rule.kind (Rule.classed hrule hmatches)
  | unmatched hnone hunmatched =>
      obtain ⟨front, hfront, hvocabulary⟩ := hmatch
      obtain ⟨kind, other, rfl, hother, hclassed⟩ := hvocabulary.of_begins hfront
      exact absurd hclassed (hnone kind other hother)

/-- Where no pattern matches, illegal input is cut off. -/
theorem Scanned.illegal {segment : Segment} (h : Scanned c rest segment)
    (hbegins : segment.chars <+: c :: rest)
    (hnone : ∀ front, front <+: c :: rest → ¬ Vocabulary front) :
    ∃ chars, segment = .lexeme ⟨.illegal, chars⟩ ∧ Unmatched (c :: rest) chars := by
  cases h with
  | matched hchars hclassed hgreatest hunique =>
      rw [← hchars] at hclassed
      exact absurd (vocabulary_iff.2 ⟨_, hclassed⟩) (hnone _ hbegins)
  | @unmatched chars _ hunmatched => exact ⟨chars, rfl, hunmatched⟩

/-- A text is cut into segments from its front to its end. Where a pattern of the vocabulary matches
a beginning of what is left, the longest such beginning is cut off, and its segment has the kind of
the pattern; a keyword is not taken for a name. Where no pattern matches, illegal input is cut off:
an unclosed string with all of its contents, or one character. -/
theorem scan_longest_match (text : List Char) :
    (Segment.all text).flatMap Segment.chars = text ∧
      ∀ before segment after, Segment.all text = before ++ segment :: after →
        let left := segment.chars ++ after.flatMap Segment.chars
        ((∃ front, front <+: left ∧ Vocabulary front) →
          Longest Vocabulary left segment.chars ∧ segment.KindFits) ∧
        ((∀ front, front <+: left → ¬ Vocabulary front) →
          ∃ chars, segment = .lexeme ⟨.illegal, chars⟩ ∧ Unmatched left chars) := by
  refine ⟨Segment.flatMap_chars_all text, ?_⟩
  intro before segment after hcut left
  obtain ⟨c, rest, hleft, hfirst⟩ := Segment.first_of_all hcut
  have hscanned := Segment.first_scanned c rest
  have hbegins : segment.chars <+: left := ⟨after.flatMap Segment.chars, rfl⟩
  rw [hfirst] at hscanned
  rw [show left = c :: rest from hleft] at hbegins ⊢
  exact ⟨hscanned.longest hbegins, hscanned.illegal hbegins⟩

end AhoyScan
