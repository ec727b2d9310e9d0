import AhoyScan.Proofs.Dumps
import AhoyScan.Proofs.Extension

/-!
# A check is an exact verdict

A check looks for illegal input among the records of a file's tokens, and finds the places of the
text where no pattern of the vocabulary matches: `Unrecognized` says what such a place is, without
any options. `read_illegal` says that the tokens of illegal input are those places with their lines,
and `check_exact` that the outcome of a check is a function of them.
-/

namespace AhoyScan

/-- Cutting the text comes to the place after `before`, no pattern of the vocabulary matches any
beginning of what is left there, and `piece` is cut off. -/
def Unrecognized (text before piece : List Char) : Prop :=
  ∃ front segment back, Segment.all text = front ++ segment :: back ∧
    front.flatMap Segment.chars = before ∧ segment.chars = piece ∧
    ∀ beginning, beginning <+: piece ++ back.flatMap Segment.chars → ¬ Vocabulary beginning

/-- The pieces of illegal input among segments, each with the text before it; `before` is the text
before all of them. -/
def Segment.illegals (before : List Char) : List Segment → List (List Char × List Char)
  | [] => []
  | segment :: rest =>
      let others := illegals (before ++ segment.chars) rest
      if segment.kind? = some .illegal then (before, segment.chars) :: others else others

/-- The token is one of illegal input. -/
def Token.isIllegal (token : Token) : Bool :=
  token.kind = .illegal

/-! ## Places without a match -/

/-- Illegal input is what is cut off where no pattern matches, and nothing else. -/
theorem Scanned.illegal_iff {c : Char} {rest : List Char} {segment : Segment}
    (h : Scanned c rest segment) (hbegins : segment.chars <+: c :: rest) :
    segment.kind? = some .illegal ↔
      ∀ beginning, beginning <+: c :: rest → ¬ Vocabulary beginning := by
  constructor
  · intro hkind beginning hbeginning hvocabulary
    obtain ⟨-, hfits⟩ := h.longest hbegins ⟨beginning, hbeginning, hvocabulary⟩
    obtain ⟨rule, hrule, hruleKind, hmatches⟩ := hfits.matched
    have hclassed := Rule.classed hrule hmatches
    rw [hruleKind, hkind] at hclassed
    exact not_classed_illegal hclassed
  · intro hnone
    obtain ⟨chars, rfl, -⟩ := h.illegal hbegins hnone
    rfl

namespace Segment

variable {text before : List Char} {segments : List Segment}

/-- The pieces of illegal input among segments, by their places. -/
theorem mem_illegals_iff {place piece : List Char} :
    (place, piece) ∈ illegals before segments ↔
      ∃ front segment back, segments = front ++ segment :: back ∧
        before ++ front.flatMap chars = place ∧ segment.chars = piece ∧
        segment.kind? = some .illegal := by
  induction segments generalizing before with
  | nil => simp [illegals]
  | cons first rest ih =>
      have hrest : (place, piece) ∈ illegals (before ++ first.chars) rest ↔
          ∃ front segment back, rest = front ++ segment :: back ∧
            before ++ (first :: front).flatMap chars = place ∧ segment.chars = piece ∧
            segment.kind? = some .illegal := by
        rw [ih]
        simp only [List.flatMap_cons, List.append_assoc]
      have hmem : (place, piece) ∈ illegals before (first :: rest) ↔
          (first.kind? = some .illegal ∧ before = place ∧ first.chars = piece) ∨
            (place, piece) ∈ illegals (before ++ first.chars) rest := by
        rw [illegals]
        split_ifs with hkind
        · simp [hkind, eq_comm]
        · simp [hkind]
      rw [hmem, hrest]
      constructor
      · rintro (⟨hkind, hplace, hpiece⟩ | ⟨front, segment, back, rfl, hfound⟩)
        · exact ⟨[], first, rest, rfl, by simpa using hplace, hpiece, hkind⟩
        · exact ⟨first :: front, segment, back, rfl, hfound⟩
      · rintro ⟨front, segment, back, hsplit, hplace, hpiece, hkind⟩
        cases front with
        | nil =>
            cases hsplit
            exact .inl ⟨hkind, by simpa using hplace, hpiece⟩
        | cons other front =>
            cases hsplit
            exact .inr ⟨front, segment, back, rfl, hplace, hpiece, hkind⟩

/-- The pieces of illegal input of a text are what is cut off where no pattern matches. -/
theorem mem_illegals_all_iff {place piece : List Char} :
    (place, piece) ∈ illegals [] (all text) ↔ Unrecognized text place piece := by
  rw [mem_illegals_iff, Unrecognized]
  refine exists_congr fun front ↦ exists_congr fun segment ↦ exists_congr fun back ↦
    and_congr_right fun hsplit ↦ ?_
  rw [List.nil_append]
  refine and_congr_right fun _ ↦ and_congr_right fun hpiece ↦ ?_
  obtain ⟨c, rest, hleft, hfirst⟩ := first_of_all hsplit
  have hscanned := first_scanned c rest
  rw [hfirst] at hscanned
  rw [← hpiece, hleft]
  exact hscanned.illegal_iff (hleft ▸ List.prefix_append _ _)

/-- The pieces of illegal input come in the order of their places, one at each of these. -/
theorem illegals_ordered (hnonempty : ∀ segment ∈ segments, segment.chars ≠ []) :
    (illegals before segments).Pairwise fun one other ↦ one.1.length < other.1.length := by
  induction segments generalizing before with
  | nil => exact .nil
  | cons first rest ih =>
      have hrest : (illegals (before ++ first.chars) rest).Pairwise fun one other ↦
          one.1.length < other.1.length :=
        ih fun segment hsegment ↦ hnonempty segment (List.mem_cons_of_mem first hsegment)
      rw [illegals]
      split_ifs with hkind
      · refine .cons ?_ hrest
        rintro ⟨place, piece⟩ hmem
        obtain ⟨front, -, -, -, rfl, -⟩ := mem_illegals_iff.1 hmem
        have hpositive := List.length_pos_iff.2 (hnonempty first List.mem_cons_self)
        simp only [List.length_append]
        omega
      · exact hrest

end Segment

/-! ## Tokens of illegal input -/

namespace Layout

variable (options : Options) {layout : Layout} {segment : Segment}

/-- A segment has a token of illegal input only if it is a piece of it, and then one with the whole
piece for its text. -/
theorem step_illegal :
    (layout.step options segment).1.filter Token.isIllegal =
      if segment.kind? = some .illegal then
        [⟨.illegal, String.ofList segment.chars, layout.line⟩]
      else [] := by
  cases segment with
  | blanks chars | comment chars => rfl
  | lineEnd =>
      rw [step]
      cases layout.lead <;> rfl
  | lexeme l =>
      have hmarks : (layout.enter options).1.filter Token.isIllegal = [] := by
        rw [List.filter_eq_nil_iff]
        intro mark hmark
        rcases (layout.enter_marks options hmark).1 with hkind | hkind <;>
          simp [Token.isIllegal, hkind]
      rw [step, List.filter_append, hmarks, List.nil_append]
      obtain ⟨kind, chars⟩ := l
      cases kind <;> rfl

/-- The tokens of illegal input that are read are the pieces of it, with their lines. -/
theorem read_illegal {before : List Char} {segments : List Segment} (hcut : WellCut segments)
    (hline : layout.line = lineAfter before) :
    (layout.read options segments).1.filter Token.isIllegal =
      (Segment.illegals before segments).map fun (place, piece) ↦
        ⟨.illegal, String.ofList piece, lineAfter place⟩ := by
  induction segments generalizing layout before with
  | nil => rfl
  | cons segment rest ih =>
      rw [wellCut_cons] at hcut
      have hnext : (layout.step options segment).2.line = lineAfter (before ++ segment.chars) := by
        rw [step_line options hcut.1, hline, lineAfter_append]
      rw [read_cons, List.filter_append, step_illegal, ih hcut.2 hnext, Segment.illegals]
      split_ifs with hkind
      · rw [List.map_cons, hline]
        rfl
      · rfl

end Layout

/-- The tokens of illegal input of a text are the pieces of it under all options. -/
theorem tokens_illegal (options : Options) (text : List Char) :
    (tokens options text).filter Token.isIllegal =
      (Segment.illegals [] (Segment.all text)).map fun (place, piece) ↦
        ⟨.illegal, String.ofList piece, lineAfter place⟩ := by
  have hclose (layout : Layout) : layout.close.filter Token.isIllegal = [] := by
    rw [List.filter_eq_nil_iff]
    intro token htoken
    obtain ⟨block, -, rfl⟩ := List.mem_map.1 htoken
    simp [Token.isIllegal]
  rw [tokens_eq, List.filter_append, hclose, List.append_nil]
  exact Layout.read_illegal options (wellCut_all text) rfl

/-! ## Reports -/

/-- The line that reports a piece of illegal input on this line. -/
def reportLine (path : String) (line : Nat) (piece : String) : String :=
  errorLine (path ++ s!":{line}: unrecognized input " ++ Quoted.text piece)

/-- The outcome of a check that has found these pieces of illegal input with their lines. -/
def verdict (path : String) (found : List (Nat × String)) : Outcome :=
  if found.isEmpty then ⟨0, "success: No errors found\n", ""⟩
  else
    ⟨1, "", String.join (found.map fun (line, piece) ↦ reportLine path line piece) ++
      errorLine s!"Lexical analysis failed ({found.length} unrecognized tokens)"⟩

/-- The code of illegal input belongs to no other kind. -/
theorem Kind.code_eq_illegal_iff {kind : Kind} :
    kind.code = Kind.illegal.code ↔ kind = .illegal := by
  constructor
  · intro h
    cases kind with
    | illegal => rfl
    | symbol symbol => cases symbol <;> cases h
    | keyword keyword => cases keyword <;> cases h
    | _ => cases h
  · rintro rfl
    rfl

/-- A record is reported as the token that it carries. -/
theorem WireToken.Carries.illegalLine {wire : WireToken} {token : RawToken}
    (h : wire.Carries token) (path : String) :
    illegalLine path wire.record = reportLine path token.line token.text := by
  rw [AhoyScan.illegalLine, reportLine]
  simp only [record, h.text_eq, h.line_eq]
  rfl

/-- The records of tokens with the code of illegal input are reported as these tokens. -/
theorem reports_of_carried (path : String) {wires : List WireToken} {tokens : List RawToken}
    (h : List.Forall₂ WireToken.Carries wires tokens) :
    ((wires.map WireToken.record).filter (·.kind = Kind.illegal.code)).map (illegalLine path) =
      (tokens.filter (·.kind = Kind.illegal.code)).map
        fun token ↦ reportLine path token.line token.text := by
  induction h with
  | nil => rfl
  | @cons wire token wires tokens hcarries hrest ih =>
      have hkind : wire.record.kind = token.kind := hcarries.kind_eq
      rw [List.map_cons, List.filter_cons, List.filter_cons, hkind]
      split_ifs with hillegal
      · rw [List.map_cons, List.map_cons, ih, hcarries.illegalLine]
      · exact ih

/-- A check of the records of some tokens finds those with the code of illegal input. -/
theorem check_carried {list : WireList} {tokens : List RawToken} (h : list.Carries tokens)
    (path : String) :
    check path list.records =
      verdict path ((tokens.filter (·.kind = Kind.illegal.code)).map fun token ↦
        (token.line, token.text)) := by
  have hreports := reports_of_carried path h.entries
  have hempty := congrArg List.isEmpty hreports
  have hlength := congrArg List.length hreports
  rw [List.isEmpty_map, List.isEmpty_map] at hempty
  rw [List.length_map, List.length_map] at hlength
  rw [check, verdict, WireList.records, hempty, hlength, hreports, List.isEmpty_map, List.map_map,
    List.length_map]
  rfl

/-- A request for a check is answered by a check of the records of the file. -/
theorem Request.perform_check {path : String} {options : Options} {content : List UInt8}
    {records : List Record} (h : recordsOf path options content = .ok records) :
    perform ⟨.check, path, options⟩ (.ok content) = check path records := by
  simp only [perform, h]

/-- A check of a file with this text finds the pieces of illegal input of the text, under all
options. -/
theorem perform_check_text {path : String} (options : Options) {text : List Char}
    (hfree : 0 ∉ Utf8.encode text) (hsize : (Utf8.encode text).length ≤ 2 ^ 30) :
    Request.perform ⟨.check, path, options⟩ (.ok (Utf8.encode text)) =
      verdict path ((Segment.illegals [] (Segment.all text)).map
        fun (place, piece) ↦ (lineAfter place, String.ofList piece)) := by
  obtain ⟨delivery, -, hcarries, hrecords⟩ := recordsOf_of_text path options hfree hsize rfl
  have hillegal : ((tokens options text).map Token.raw).filter (·.kind = Kind.illegal.code) =
      ((tokens options text).filter Token.isIllegal).map Token.raw := by
    rw [List.filter_map]
    refine congrArg (List.map Token.raw) (List.filter_congr fun token _ ↦ ?_)
    simp only [Function.comp_apply, Token.raw, Token.isIllegal, Kind.code_eq_illegal_iff]
  rw [Request.perform_check hrecords, check_carried hcarries, hillegal, tokens_illegal, List.map_map, List.map_map]
  rfl

/-- A check can be asked for under all options with a tab width of 64 bits. Of a file of up to 2^30
bytes that holds a text without a NUL it finds the places that the cutting of the text comes to and
where no pattern matches, which are the places of the tokens of illegal input under all options. The
outcome is the same under all of them: success if there is no such place; otherwise a failure, with
one report for each place, in their order, that names its line and what was cut off there, and with
the number of the reports. -/
theorem check_exact (path : String) (text : List Char) (hfree : 0 ∉ Utf8.encode text)
    (hsize : (Utf8.encode text).length ≤ 2 ^ 30) :
    (∀ options : Options, options.tabWidth < UInt64.size → path ≠ "" →
        Request.ofArguments (Request.arguments ⟨.check, path, options⟩) =
          .ok ⟨.check, path, options⟩) ∧
      ∃ (pieces : List (List Char × List Char)) (outcome : Outcome),
        (∀ (options : Options) (arguments : List String)
            (readFile : String → Id (Except ReadFailure (List UInt8))),
          Request.ofArguments arguments = .ok ⟨.check, path, options⟩ →
          readFile path = .ok (Utf8.encode text) →
          Id.run (run readFile arguments) = outcome) ∧
        (∀ place piece, (place, piece) ∈ pieces ↔ Unrecognized text place piece) ∧
        (pieces.Pairwise fun one other ↦ one.1.length < other.1.length) ∧
        (∀ options, (tokens options text).filter (·.kind = .illegal) =
          pieces.map fun (place, piece) ↦ ⟨.illegal, String.ofList piece, lineAfter place⟩) ∧
        ((¬ ∃ place piece, Unrecognized text place piece) →
          outcome = ⟨0, "success: No errors found\n", ""⟩) ∧
        ((∃ place piece, Unrecognized text place piece) →
          outcome = ⟨1, "",
            String.join (pieces.map fun (place, piece) ↦
              reportLine path (lineAfter place) (String.ofList piece)) ++
            errorLine s!"Lexical analysis failed ({pieces.length} unrecognized tokens)"⟩) := by
  refine ⟨fun options hwidth hpath ↦ Request.ofArguments_arguments hwidth hpath,
    Segment.illegals [] (Segment.all text),
    verdict path ((Segment.illegals [] (Segment.all text)).map
      fun (place, piece) ↦ (lineAfter place, String.ofList piece)), ?_⟩
  have hmem (place piece : List Char) :
      (place, piece) ∈ Segment.illegals [] (Segment.all text) ↔ Unrecognized text place piece :=
    Segment.mem_illegals_all_iff
  have hempty : (Segment.illegals [] (Segment.all text)).isEmpty ↔
      ¬ ∃ place piece, Unrecognized text place piece := by
    rw [List.isEmpty_iff, List.eq_nil_iff_forall_not_mem]
    simp only [← hmem, not_exists, Prod.forall]
  refine ⟨?_, hmem, ?_, fun options ↦ tokens_illegal options text, ?_, ?_⟩
  · intro options arguments readFile hrequest hread
    rw [run_of_request hrequest hread]
    exact perform_check_text options hfree hsize
  · refine Segment.illegals_ordered fun segment hsegment ↦ ?_
    obtain ⟨front, back, hsplit⟩ := List.append_of_mem hsegment
    obtain ⟨c, rest, -, hfirst⟩ := Segment.first_of_all hsplit
    have hnonempty := Segment.first_chars_ne_nil c rest
    rwa [hfirst] at hnonempty
  · intro hnone
    rw [verdict, List.isEmpty_map, if_pos (hempty.2 hnone)]
  · intro hsome
    rw [verdict, List.isEmpty_map, if_neg (mt hempty.1 (not_not.2 hsome)), List.map_map,
      List.length_map]
    rfl

/-- Two characters that are no symbols are reported on their lines, in the same way under the
default options and without indentation. -/
theorem check_exact_marks :
    (0 ∉ Utf8.encode "a @\n\t#".toList ∧ (Utf8.encode "a @\n\t#".toList).length ≤ 2 ^ 30) ∧
      [["check", "t"], ["check", "--tab-width=8", "--no-indentation", "t"]].map
          (fun arguments ↦ Id.run (run (fun _ ↦ pure (.ok (Utf8.encode "a @\n\t#".toList)))
            arguments)) =
        List.replicate 2 ⟨1, "", "error: t:1: unrecognized input \"@\"\n" ++
          "error: t:2: unrecognized input \"#\"\n" ++
          "error: Lexical analysis failed (2 unrecognized tokens)\n"⟩ := by
  have hfree : 0 ∉ Utf8.encode "a @\n\t#".toList := by decide +kernel
  have hsize : (Utf8.encode "a @\n\t#".toList).length ≤ 2 ^ 30 := by decide +kernel
  obtain ⟨-, pieces, outcome, hrun, hmem, -, htokens, -, hfailure⟩ :=
    check_exact "t" "a @\n\t#".toList hfree hsize
  have hpieces : (pieces.map fun (place, piece) ↦
      (⟨.illegal, String.ofList piece, lineAfter place⟩ : Token)) =
        [⟨.illegal, "@", 1⟩, ⟨.illegal, "#", 2⟩] := by
    rw [← htokens {}]
    decide +kernel
  have hlength : pieces.length = 2 := by simpa using congrArg List.length hpieces
  have hsome : ∃ place piece, Unrecognized "a @\n\t#".toList place piece := by
    obtain ⟨⟨place, piece⟩, hfirst⟩ := List.exists_mem_of_length_pos (hlength ▸ Nat.zero_lt_two)
    exact ⟨place, piece, (hmem place piece).1 hfirst⟩
  have hreports : (pieces.map fun (place, piece) ↦
      reportLine "t" (lineAfter place) (String.ofList piece)) =
        [reportLine "t" 1 "@", reportLine "t" 2 "#"] := by
    have h := congrArg (List.map fun token ↦ reportLine "t" token.line token.text) hpieces
    rwa [List.map_map] at h
  have houtcome : outcome = ⟨1, "", "error: t:1: unrecognized input \"@\"\n" ++
      "error: t:2: unrecognized input \"#\"\n" ++
      "error: Lexical analysis failed (2 unrecognized tokens)\n"⟩ := by
    rw [hfailure hsome, hreports, hlength]
    decide +kernel
  refine ⟨⟨hfree, hsize⟩, ?_⟩
  rw [List.map_cons, List.map_singleton, hrun {} _ _ rfl rfl, hrun ⟨8, false⟩ _ _ rfl rfl, houtcome]
  rfl

end AhoyScan
