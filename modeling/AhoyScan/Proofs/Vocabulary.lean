import AhoyScan.Pattern
import Mathlib.Tactic.Common

/-!
# What the patterns of the vocabulary stand for

The texts of an expression are worked out from its parts, and with them the texts of every rule.
`Classed` says what a text can stand for by its first character. This is exactly what the rules
give: what a rule matches is classed under the kind of the rule (`Rule.classed`), and what is
classed under a kind is matched by a rule of that kind (`Classed.rule`).
-/

namespace AhoyScan

namespace Pattern

/-- The empty expression stands for the empty text. -/
@[simp] theorem matches_empty_iff {text : List Char} : Matches .empty text ↔ text = [] := by
  constructor
  · intro h
    cases h
    rfl
  · intro h
    obtain rfl := h
    exact .empty

/-- A class of characters stands for the texts of one of them. -/
@[simp] theorem matches_one_iff {accepts : Char → Bool} {text : List Char} :
    Matches (.one accepts) text ↔ ∃ c, accepts c = true ∧ text = [c] := by
  constructor
  · intro h
    cases h with
    | one hc => exact ⟨_, hc, rfl⟩
  · intro h
    obtain ⟨c, hc, rfl⟩ := h
    exact .one hc

/-- A sequence stands for a text of its first part followed by one of its second. -/
@[simp] theorem matches_seq_iff {first second : Pattern} {text : List Char} :
    Matches (.seq first second) text ↔
      ∃ front back, Matches first front ∧ Matches second back ∧ text = front ++ back := by
  constructor
  · intro h
    cases h with
    | seq hfront hback => exact ⟨_, _, hfront, hback, rfl⟩
  · intro h
    obtain ⟨front, back, hfront, hback, rfl⟩ := h
    exact .seq hfront hback

/-- A choice stands for the texts of both of its sides. -/
@[simp] theorem matches_either_iff {left right : Pattern} {text : List Char} :
    Matches (.either left right) text ↔ Matches left text ∨ Matches right text := by
  constructor
  · intro h
    cases h with
    | left h => exact .inl h
    | right h => exact .inr h
  · intro h
    rcases h with h | h
    · exact .left h
    · exact .right h

/-- One given character stands for itself. -/
@[simp] theorem matches_this_iff {c : Char} {text : List Char} :
    Matches (this c) text ↔ text = [c] := by
  simp [this]

/-- A repeated class of characters stands for the texts made of such characters. -/
@[simp] theorem matches_many_one_iff {accepts : Char → Bool} {text : List Char} :
    Matches (.many (.one accepts)) text ↔ ∀ c ∈ text, accepts c = true := by
  constructor
  · intro h
    -- The induction is on the derivation, and `pattern` is the repetition in all of it.
    generalize hpattern : Pattern.many (.one accepts) = pattern at h
    induction h with
    | done => simp
    | more hitem _ _ ih =>
        cases hpattern
        obtain ⟨c, hc, rfl⟩ := matches_one_iff.1 hitem
        intro d hd
        rcases List.mem_cons.1 hd with rfl | hd
        · exact hc
        · exact ih rfl d hd
    | _ => cases hpattern
  · intro h
    induction text with
    | nil => exact .done
    | cons c text ih =>
        have hrest : Matches (.many (.one accepts)) text :=
          ih fun d hd ↦ h d (List.mem_cons_of_mem c hd)
        exact .more (.one (h c List.mem_cons_self)) hrest

/-- A spelling stands for its own characters and nothing else. -/
@[simp] theorem matches_spelling_iff {word : String} {text : List Char} :
    Matches (spelling word) text ↔ text = word.toList := by
  unfold spelling
  induction word.toList generalizing text with
  | nil => simp
  | cons c rest ih => simp [ih]

/-- Contents of a string are nothing, or a plain character or an escape before other contents. -/
theorem Matches.contents_cases {text : List Char} (h : Matches contents text) :
    text = [] ∨
      (∃ c run, c ≠ '"' ∧ c ≠ '\\' ∧ Matches contents run ∧ text = c :: run) ∨
      ∃ c run, c ≠ '\n' ∧ Matches contents run ∧ text = '\\' :: c :: run := by
  cases h with
  | done => exact .inl rfl
  | @more _ front run hitem hrun =>
      rcases matches_either_iff.1 hitem with hplain | hescape
      · obtain ⟨c, hc, rfl⟩ := matches_one_iff.1 hplain
        simp only [Bool.and_eq_true, decide_eq_true_eq] at hc
        exact .inr (.inl ⟨c, run, hc.1, hc.2, hrun, rfl⟩)
      · simp only [escape, matches_seq_iff, matches_this_iff, matches_one_iff] at hescape
        obtain ⟨_, _, rfl, ⟨c, hc, rfl⟩, rfl⟩ := hescape
        exact .inr (.inr ⟨c, run, by simpa using hc, hrun, rfl⟩)

/-- A plain character before contents makes contents. -/
theorem Matches.plain_contents {c : Char} {run : List Char} (hquote : c ≠ '"')
    (hbackslash : c ≠ '\\') (hrun : Matches contents run) : Matches contents (c :: run) :=
  .more (.left (.one (by simp [hquote, hbackslash]))) hrun

/-- An escape before contents makes contents. -/
theorem Matches.escaped_contents {c : Char} {run : List Char} (hc : c ≠ '\n')
    (hrun : Matches contents run) : Matches contents ('\\' :: c :: run) :=
  have hescape : Matches escape ['\\', c] := .seq (.one (by simp)) (.one (by simpa using hc))
  .more (.right hescape) hrun

/-- A class of characters, once or more, stands for a character of the class and more of them. -/
@[simp] theorem matches_several_one_iff {accepts : Char → Bool} {text : List Char} :
    Matches (several (.one accepts)) text ↔
      ∃ c rest, accepts c = true ∧ (∀ d ∈ rest, accepts d = true) ∧ text = c :: rest := by
  simp only [several, matches_seq_iff, matches_one_iff, matches_many_one_iff]
  constructor
  · intro h
    obtain ⟨_, rest, ⟨c, hc, rfl⟩, hrest, rfl⟩ := h
    exact ⟨c, rest, hc, hrest, rfl⟩
  · intro h
    obtain ⟨c, rest, hc, hrest, rfl⟩ := h
    exact ⟨[c], rest, ⟨c, hc, rfl⟩, hrest, rfl⟩

/-- A comment is a question mark and then a text without line ends that begins with no other. -/
theorem matches_comment_iff {text : List Char} :
    Matches comment text ↔
      ∃ rest, rest.head? ≠ some '?' ∧ '\n' ∉ rest ∧ text = '?' :: rest := by
  simp only [comment, matches_seq_iff, matches_either_iff, matches_this_iff, matches_empty_iff,
    matches_one_iff, matches_many_one_iff, Bool.and_eq_true, decide_eq_true_eq]
  constructor
  · intro h
    obtain ⟨_, body, rfl, hbody, rfl⟩ := h
    rcases hbody with rfl | ⟨_, line, ⟨c, ⟨hquestion, hnewline⟩, rfl⟩, hline, rfl⟩
    · exact ⟨[], by simp, by simp, rfl⟩
    · refine ⟨c :: line, by simpa using hquestion, ?_, rfl⟩
      intro hmem
      rcases List.mem_cons.1 hmem with rfl | hmem
      · exact hnewline rfl
      · exact hline _ hmem rfl
  · intro h
    obtain ⟨rest, hhead, hnewline, rfl⟩ := h
    refine ⟨['?'], rest, rfl, ?_, rfl⟩
    cases rest with
    | nil => exact .inl rfl
    | cons c line =>
        rw [List.mem_cons, not_or] at hnewline
        refine .inr ⟨[c], line, ⟨c, ⟨by simpa using hhead, Ne.symm hnewline.1⟩, rfl⟩, ?_, rfl⟩
        rintro d hd rfl
        exact hnewline.2 hd

/-- A name is a character that begins one and characters that continue it. -/
theorem matches_identifier_iff {text : List Char} :
    Matches identifier text ↔
      ∃ c rest, isNameStart c = true ∧ (∀ d ∈ rest, isNameRest d = true) ∧ text = c :: rest := by
  simp only [identifier, matches_seq_iff, matches_one_iff, matches_many_one_iff]
  constructor
  · intro h
    obtain ⟨_, rest, ⟨c, hc, rfl⟩, hrest, rfl⟩ := h
    exact ⟨c, rest, hc, hrest, rfl⟩
  · intro h
    obtain ⟨c, rest, hc, hrest, rfl⟩ := h
    exact ⟨[c], rest, ⟨c, hc, rfl⟩, hrest, rfl⟩

/-- A number is digits, or digits on both sides of a point. -/
theorem matches_number_iff {text : List Char} :
    Matches number text ↔
      ∃ c rest, c.isDigit = true ∧ (∀ d ∈ rest, d.isDigit = true) ∧
        (text = c :: rest ∨ ∃ d more, d.isDigit = true ∧ (∀ e ∈ more, e.isDigit = true) ∧
          text = c :: (rest ++ '.' :: d :: more)) := by
  simp only [number, matches_seq_iff, matches_either_iff, matches_this_iff, matches_empty_iff,
    matches_several_one_iff]
  constructor
  · intro h
    obtain ⟨_, _, ⟨c, rest, hc, hrest, rfl⟩, hpoint, rfl⟩ := h
    rcases hpoint with rfl | ⟨_, _, rfl, ⟨d, more, hd, hmore, rfl⟩, rfl⟩
    · exact ⟨c, rest, hc, hrest, .inl (List.append_nil _)⟩
    · exact ⟨c, rest, hc, hrest, .inr ⟨d, more, hd, hmore, rfl⟩⟩
  · intro h
    obtain ⟨c, rest, hc, hrest, hpoint⟩ := h
    rcases hpoint with rfl | ⟨d, more, hd, hmore, rfl⟩
    · exact ⟨c :: rest, [], ⟨c, rest, hc, hrest, rfl⟩, .inl rfl, (List.append_nil _).symm⟩
    · exact ⟨c :: rest, '.' :: d :: more, ⟨c, rest, hc, hrest, rfl⟩,
        .inr ⟨['.'], d :: more, rfl, ⟨d, more, hd, hmore, rfl⟩, rfl⟩, rfl⟩

/-- A string is contents between double quotes. -/
theorem matches_string_iff {text : List Char} :
    Matches string text ↔ ∃ run, Matches contents run ∧ text = '"' :: (run ++ ['"']) := by
  simp only [string, matches_seq_iff, matches_this_iff]
  constructor
  · intro h
    obtain ⟨_, _, rfl, ⟨run, _, hrun, rfl, rfl⟩, rfl⟩ := h
    exact ⟨run, hrun, rfl⟩
  · intro h
    obtain ⟨run, hrun, rfl⟩ := h
    exact ⟨['"'], run ++ ['"'], rfl, ⟨run, ['"'], hrun, rfl, rfl⟩, rfl⟩

/-- A character literal is one plain character or one escape between apostrophes. -/
theorem matches_char_iff {text : List Char} :
    Matches char text ↔
      (∃ c, c ≠ '\'' ∧ c ≠ '\\' ∧ text = ['\'', c, '\'']) ∨
        ∃ c, c ≠ '\n' ∧ text = ['\'', '\\', c, '\''] := by
  simp only [char, escape, matches_seq_iff, matches_either_iff, matches_this_iff, matches_one_iff,
    Bool.and_eq_true, decide_eq_true_eq]
  constructor
  · intro h
    obtain ⟨_, _, rfl, ⟨inner, _, hinner, rfl, rfl⟩, rfl⟩ := h
    rcases hinner with ⟨c, ⟨hquote, hbackslash⟩, rfl⟩ | ⟨_, _, rfl, ⟨c, hc, rfl⟩, rfl⟩
    · exact .inl ⟨c, hquote, hbackslash, rfl⟩
    · exact .inr ⟨c, hc, rfl⟩
  · intro h
    rcases h with ⟨c, hquote, hbackslash, rfl⟩ | ⟨c, hc, rfl⟩
    · exact ⟨['\''], [c, '\''], rfl,
        ⟨[c], ['\''], .inl ⟨c, ⟨hquote, hbackslash⟩, rfl⟩, rfl, rfl⟩, rfl⟩
    · exact ⟨['\''], ['\\', c, '\''], rfl,
        ⟨['\\', c], ['\''], .inr ⟨['\\'], [c], rfl, ⟨c, hc, rfl⟩, rfl⟩, rfl, rfl⟩, rfl⟩

end Pattern

open Pattern (Matches)

/-- What a text can stand for, decided by its first character in the way of a person who reads it:
the kind of token, or none for white space and comments. -/
def Classed (kind : Option Kind) : List Char → Prop
  | [] => False
  | c :: rest =>
      if isBlank c then kind = none ∧ ∀ d ∈ rest, isBlank d = true
      else if c = '\n' then kind = some .newline ∧ rest = []
      else if isNameStart c then
        (∀ d ∈ rest, isNameRest d = true) ∧
          (kind = some .identifier ∨ ∃ keyword : Keyword,
            kind = some (.keyword keyword) ∧ c :: rest = keyword.entry.spelling.toList)
      else if c.isDigit then
        kind = some .number ∧ ∃ front, (∀ d ∈ front, d.isDigit = true) ∧
          (rest = front ∨ ∃ d back, d.isDigit = true ∧ (∀ e ∈ back, e.isDigit = true) ∧
            rest = front ++ '.' :: d :: back)
      else if c = '"' then kind = some .string ∧ ∃ run, Matches .contents run ∧ rest = run ++ ['"']
      else if c = '\'' then
        kind = some .char ∧
          ((∃ d, d ≠ '\'' ∧ d ≠ '\\' ∧ rest = [d, '\'']) ∨ ∃ d, d ≠ '\n' ∧ rest = ['\\', d, '\''])
      else
        (c = '?' ∧ kind = none ∧ rest.head? ≠ some '?' ∧ '\n' ∉ rest) ∨
          ∃ symbol : Symbol, kind = some (.symbol symbol) ∧
            c :: rest = symbol.entry.spelling.toList

/-- Blanks are four characters. -/
theorem isBlank_iff {c : Char} :
    isBlank c = true ↔ c = ' ' ∨ c = '\t' ∨ c = '\x0c' ∨ c = '\r' := by
  simp only [isBlank, Bool.or_eq_true, decide_eq_true_eq, or_assoc]

/-- A digit begins no name. -/
theorem not_isNameStart_of_isDigit {c : Char} (h : c.isDigit = true) : isNameStart c = false := by
  have hdigits : ∀ n < 58, 48 ≤ n → isNameStart (Char.ofNat n) = false := by decide
  obtain ⟨hlow, hhigh⟩ := Char.isDigit_iff_toNat.1 h
  rw [← Char.ofNat_toNat c]
  exact hdigits c.toNat (Nat.lt_succ_of_le hhigh) hlow

/-- A character that begins a name begins nothing else. -/
theorem nameStart_apart {c : Char} (h : isNameStart c = true) :
    isBlank c = false ∧ c ≠ '\n' ∧ c.isDigit = false := by
  refine ⟨?_, ?_, ?_⟩
  · rw [Bool.eq_false_iff]
    intro hblank
    rcases isBlank_iff.1 hblank with rfl | rfl | rfl | rfl <;> exact absurd h (by decide)
  · intro hnewline
    obtain rfl := hnewline
    exact absurd h (by decide)
  · rw [Bool.eq_false_iff]
    intro hdigit
    rw [not_isNameStart_of_isDigit hdigit] at h
    cases h

/-- A digit begins nothing but a number. -/
theorem digit_apart {c : Char} (h : c.isDigit = true) :
    isBlank c = false ∧ c ≠ '\n' ∧ isNameStart c = false := by
  refine ⟨?_, ?_, not_isNameStart_of_isDigit h⟩
  · rw [Bool.eq_false_iff]
    intro hblank
    rcases isBlank_iff.1 hblank with rfl | rfl | rfl | rfl <;> exact absurd h (by decide)
  · intro hnewline
    obtain rfl := hnewline
    exact absurd h (by decide)

variable {kind : Option Kind} {c : Char} {rest : List Char}

/-- A blank begins nothing but blanks. -/
theorem classed_blank_iff (hc : isBlank c = true) :
    Classed kind (c :: rest) ↔ kind = none ∧ ∀ d ∈ rest, isBlank d = true := by
  rw [Classed, if_pos hc]

/-- A letter or an underscore begins a name or a keyword. -/
theorem classed_name_iff (hc : isNameStart c = true) :
    Classed kind (c :: rest) ↔
      (∀ d ∈ rest, isNameRest d = true) ∧
        (kind = some .identifier ∨ ∃ keyword : Keyword,
          kind = some (.keyword keyword) ∧ c :: rest = keyword.entry.spelling.toList) := by
  obtain ⟨hblank, hnewline, -⟩ := nameStart_apart hc
  rw [Classed, if_neg (by simp [hblank]), if_neg hnewline, if_pos hc]

/-- A digit begins a number. -/
theorem classed_digit_iff (hc : c.isDigit = true) :
    Classed kind (c :: rest) ↔
      kind = some .number ∧ ∃ front, (∀ d ∈ front, d.isDigit = true) ∧
        (rest = front ∨ ∃ d back, d.isDigit = true ∧ (∀ e ∈ back, e.isDigit = true) ∧
          rest = front ++ '.' :: d :: back) := by
  obtain ⟨hblank, hnewline, hname⟩ := digit_apart hc
  rw [Classed, if_neg (by simp [hblank]), if_neg hnewline, if_neg (by simp [hname]), if_pos hc]

/-- The table of the symbols leaves none out. -/
theorem Symbol.mem_all (symbol : Symbol) : symbol ∈ all := by
  cases symbol <;> decide

/-- The table of the keywords leaves none out. -/
theorem Keyword.mem_all (keyword : Keyword) : keyword ∈ all := by
  cases keyword <;> decide

/-- The list of the kinds leaves none out. -/
theorem Kind.mem_all (kind : Kind) : kind ∈ all := by
  cases kind with
  | symbol symbol => simp [all, Symbol.mem_all]
  | keyword keyword =>
      have hkeyword := keyword.mem_all
      rw [Keyword.all, List.mem_append] at hkeyword
      simpa [all] using hkeyword
  | _ => simp [all]

/-- The rules of the vocabulary are the seven for runs, names and literals, one for every symbol
and one for every keyword. -/
theorem Rule.mem_all_iff {rule : Rule} :
    rule ∈ Rule.all ↔
      rule = ⟨none, .blanks⟩ ∨ rule = ⟨none, .comment⟩ ∨ rule = ⟨some .newline, .this '\n'⟩ ∨
        rule = ⟨some .identifier, .identifier⟩ ∨ rule = ⟨some .number, .number⟩ ∨
        rule = ⟨some .string, .string⟩ ∨ rule = ⟨some .char, .char⟩ ∨
        (∃ symbol : Symbol, rule = ⟨some (.symbol symbol), .spelling symbol.entry.spelling⟩) ∨
        ∃ keyword : Keyword,
          rule = ⟨some (.keyword keyword), .spelling keyword.entry.spelling⟩ := by
  simp only [Rule.all, List.mem_append, List.mem_cons, List.not_mem_nil, or_false, List.mem_map,
    Symbol.mem_all, Keyword.mem_all, true_and, or_assoc, eq_comm]

/-- The spelling of a symbol is classed under the symbol. -/
theorem Symbol.classed (symbol : Symbol) :
    Classed (some (.symbol symbol)) symbol.entry.spelling.toList := by
  cases symbol <;> exact .inr ⟨_, rfl, rfl⟩

/-- The spelling of a keyword is classed under the keyword. -/
theorem Keyword.classed (keyword : Keyword) :
    Classed (some (.keyword keyword)) keyword.entry.spelling.toList := by
  cases keyword <;> exact ⟨List.all_eq_true.1 rfl, .inr ⟨_, rfl, rfl⟩⟩

/-- A text that a rule of a kind matches is classed under that kind. -/
theorem Rule.classed {rule : Rule} {text : List Char} (hrule : rule ∈ Rule.all)
    (h : Matches rule.pattern text) : Classed rule.kind text := by
  rcases Rule.mem_all_iff.1 hrule with rfl | rfl | rfl | rfl | rfl | rfl | rfl |
    ⟨symbol, rfl⟩ | ⟨keyword, rfl⟩
  · obtain ⟨c, rest, hc, hrest, rfl⟩ := Pattern.matches_several_one_iff.1 h
    exact (classed_blank_iff hc).2 ⟨rfl, hrest⟩
  · obtain ⟨rest, hhead, hnewline, rfl⟩ := Pattern.matches_comment_iff.1 h
    exact .inl ⟨rfl, rfl, hhead, hnewline⟩
  · obtain rfl := Pattern.matches_this_iff.1 h
    exact ⟨rfl, rfl⟩
  · obtain ⟨c, rest, hc, hrest, rfl⟩ := Pattern.matches_identifier_iff.1 h
    exact (classed_name_iff hc).2 ⟨hrest, .inl rfl⟩
  · obtain ⟨c, front, hc, hfront, hnumber⟩ := Pattern.matches_number_iff.1 h
    rcases hnumber with rfl | ⟨d, back, hd, hback, rfl⟩
    · exact (classed_digit_iff hc).2 ⟨rfl, front, hfront, .inl rfl⟩
    · exact (classed_digit_iff hc).2 ⟨rfl, front, hfront, .inr ⟨d, back, hd, hback, rfl⟩⟩
  · obtain ⟨run, hrun, rfl⟩ := Pattern.matches_string_iff.1 h
    exact ⟨rfl, run, hrun, rfl⟩
  · rcases Pattern.matches_char_iff.1 h with ⟨c, hquote, hbackslash, rfl⟩ | ⟨c, hc, rfl⟩
    · exact ⟨rfl, .inl ⟨c, hquote, hbackslash, rfl⟩⟩
    · exact ⟨rfl, .inr ⟨c, hc, rfl⟩⟩
  · obtain rfl := Pattern.matches_spelling_iff.1 h
    exact symbol.classed
  · obtain rfl := Pattern.matches_spelling_iff.1 h
    exact keyword.classed

/-- A text classed under a kind is matched by a rule of that kind. -/
theorem Classed.rule {text : List Char} (h : Classed kind text) :
    ∃ rule ∈ Rule.all, rule.kind = kind ∧ Matches rule.pattern text := by
  cases text with
  | nil => cases h
  | cons c rest =>
      rw [Classed] at h
      split_ifs at h with hblank hnewline hname hdigit hquote hapostrophe
      · exact ⟨⟨none, .blanks⟩, Rule.mem_all_iff.2 (by simp), h.1.symm,
          Pattern.matches_several_one_iff.2 ⟨c, rest, hblank, h.2, rfl⟩⟩
      · obtain ⟨rfl, rfl⟩ := h
        exact ⟨⟨some .newline, .this '\n'⟩, Rule.mem_all_iff.2 (by simp), rfl,
          Pattern.matches_this_iff.2 (by rw [hnewline])⟩
      · obtain ⟨hrest, rfl | ⟨keyword, rfl, hspelling⟩⟩ := h
        · exact ⟨⟨some .identifier, .identifier⟩, Rule.mem_all_iff.2 (by simp), rfl,
            Pattern.matches_identifier_iff.2 ⟨c, rest, hname, hrest, rfl⟩⟩
        · exact ⟨⟨some (.keyword keyword), .spelling keyword.entry.spelling⟩,
            Rule.mem_all_iff.2 (by simp), rfl, Pattern.matches_spelling_iff.2 hspelling⟩
      · obtain ⟨rfl, front, hfront, hrest⟩ := h
        refine ⟨⟨some .number, .number⟩, Rule.mem_all_iff.2 (by simp), rfl,
          Pattern.matches_number_iff.2 ⟨c, front, hdigit, hfront, ?_⟩⟩
        rcases hrest with rfl | ⟨d, back, hd, hback, rfl⟩
        · exact .inl rfl
        · exact .inr ⟨d, back, hd, hback, rfl⟩
      · obtain ⟨rfl, run, hrun, rfl⟩ := h
        exact ⟨⟨some .string, .string⟩, Rule.mem_all_iff.2 (by simp), rfl,
          Pattern.matches_string_iff.2 ⟨run, hrun, by rw [hquote]⟩⟩
      · obtain ⟨rfl, hrest⟩ := h
        refine ⟨⟨some .char, .char⟩, Rule.mem_all_iff.2 (by simp), rfl,
          Pattern.matches_char_iff.2 ?_⟩
        rcases hrest with ⟨d, hquote, hbackslash, rfl⟩ | ⟨d, hd, rfl⟩
        · exact .inl ⟨d, hquote, hbackslash, by rw [hapostrophe]⟩
        · exact .inr ⟨d, hd, by rw [hapostrophe]⟩
      · rcases h with ⟨rfl, rfl, hhead, hnewline⟩ | ⟨symbol, rfl, hspelling⟩
        · exact ⟨⟨none, .comment⟩, Rule.mem_all_iff.2 (by simp), rfl,
            Pattern.matches_comment_iff.2 ⟨rest, hhead, hnewline, rfl⟩⟩
        · exact ⟨⟨some (.symbol symbol), .spelling symbol.entry.spelling⟩,
            Rule.mem_all_iff.2 (by simp), rfl, Pattern.matches_spelling_iff.2 hspelling⟩

end AhoyScan
