import AhoyScan.Proofs.Agreement
import AhoyScan.Proofs.CommandLines
import AhoyScan.Proofs.Listings

/-!
# A dump shows what callers get

The program lists what a C caller reads from the list of the file's tokens, and nothing else
(`recordsOf_of_text`, `shows_dump`). It fails where the caller would be refused, with the message
that the caller would get, and besides where the file holds a NUL, behind which a caller's source
would end. `dump_exact` is the complete account of a dump.
-/

namespace AhoyScan

/-! ## The records of a file -/

section Records

variable (path : String) (options : Options)

/-- A file with a NUL is refused for the first one, whatever else is wrong with it. -/
theorem recordsOf_of_zero {front back : List UInt8} (h : 0 ∉ front) :
    recordsOf path options (front ++ 0 :: back) = .error (.containsNul path front.length) := by
  rw [recordsOf, CString.ofBytes_eq_error h]

variable {content : List UInt8}

/-- A file without a NUL is refused if its bytes are refused as a source. -/
theorem recordsOf_of_error {cause : Rejection} (h : 0 ∉ content)
    (hdeliver : Id.run (deliver (tokenizer options) (some (CString.ofBuffer content))) =
      .error cause) :
    recordsOf path options content = .error (.rejected path cause) := by
  simp only [recordsOf, CString.ofBytes_eq_ok h, hdeliver]

/-- A file without a NUL has the records of the list that is delivered for its bytes. -/
theorem recordsOf_of_ok {delivery : Delivery} (h : 0 ∉ content)
    (hdeliver : Id.run (deliver (tokenizer options) (some (CString.ofBuffer content))) =
      .ok delivery) :
    recordsOf path options content = .ok delivery.list.records := by
  simp only [recordsOf, CString.ofBytes_eq_ok h, hdeliver]

/-- A file that holds a text without a NUL, and is not too long, has the records of a list that
carries the tokens of the text. -/
theorem recordsOf_of_text (h : 0 ∉ content) (hsize : content.length ≤ 2 ^ 30) {text : List Char}
    (htext : Utf8.encode text = content) :
    ∃ delivery, Id.run (deliver (tokenizer options) (some (CString.ofBuffer content))) =
        .ok delivery ∧
      delivery.list.Carries ((tokens options text).map Token.raw) ∧
      recordsOf path options content = .ok delivery.list.records := by
  have hcontent := CString.content_ofBuffer h
  rw [← hcontent, ← String.toList_ofList (l := text)] at htext
  obtain ⟨list, hdeliver, hcarries⟩ := deliver_wellFormed options (hcontent.symm ▸ hsize) htext
  rw [String.toList_ofList] at hcarries
  exact ⟨_, hdeliver, hcarries, recordsOf_of_ok path options h hdeliver⟩

/-- Under all options a source that is no text is refused with the same message, which is the one
that a caller gets. -/
theorem deliver_of_malformed {source : CString} (h : ¬ Utf8.WellFormed source.content) :
    ∃ (offset : Nat) (message : CString),
      Id.run (deliver (tokenizer options) (some source)) = .error (.malformedSource offset) ∧
        (requestChecked (some source) (.cell none)).1 = none ∧
        (requestChecked (some source) (.cell none)).2.1 = .cell (some message) ∧
        message.content = Utf8.encode (Rejection.malformedSource offset).message.toList := by
  obtain ⟨offset, hsource, -⟩ := sourceText_of_malformed h
  have hdeliver (options : Options) :
      Id.run (deliver (tokenizer options) (some source)) = .error (.malformedSource offset) :=
    deliver_of_error (m := Id) _ hsource
  obtain ⟨message, hmessage, hcontent, -⟩ := exists_reportedMessage_eq (hdeliver {})
  rw [hdeliver] at hmessage
  refine ⟨offset, message, hdeliver options, ?_, ?_, hcontent⟩
  · rw [requestChecked, hdeliver]
  · rw [requestChecked, hdeliver]
    exact congrArg OutCell.cell hmessage

end Records

/-! ## Runs -/

section Run

variable {request : Request} {content : List UInt8}

/-- A command line that makes a request is carried out on what is read from its file. -/
theorem run_of_request {arguments : List String}
    {readFile : String → Id (Except ReadFailure (List UInt8))}
    (hrequest : Request.ofArguments arguments = .ok request)
    (hread : readFile request.path = .ok content) :
    Id.run (run readFile arguments) = request.perform (.ok content) := by
  rw [run, hrequest]
  exact congrArg request.perform hread

/-- Every request fails on a file that has no records, with the reason why it has none. -/
theorem Request.perform_of_error {failure : Failure}
    (h : recordsOf request.path request.options content = .error failure) :
    request.perform (.ok content) = ⟨1, "", errorLine failure.message⟩ := by
  simp only [perform, h]

/-- A request for a dump shows the records of the file. -/
theorem Request.perform_dump {format : Format} {path : String} {options : Options}
    {records : List Record} (h : recordsOf path options content = .ok records) :
    perform ⟨.dump format, path, options⟩ (.ok content) = dump format records := by
  simp only [perform, h]

end Run

/-- A request for a dump can be made by a command line if its tab width fits 64 bits and its path is
not empty, and every command line that makes it has this effect on a file of up to 2^30 bytes. If
the file holds a 0, the program fails and says where the first one is, even if the file is no UTF-8
either. Otherwise, if the file is not well-formed, it fails with the message that a caller with
these bytes as a source gets. Otherwise it succeeds and shows records that are copies of the entries
of the list that is delivered for these bytes under the same options, in their order and with their
number; under the default options this is the list that a caller gets. Without entries, the listing
is the empty one. -/
theorem dump_exact (format : Format) (path : String) (options : Options) :
    let request : Request := ⟨.dump format, path, options⟩
    (options.tabWidth < UInt64.size → path ≠ "" →
        Request.ofArguments request.arguments = .ok request) ∧
      ∃ shownPath, Quoted.Shows path shownPath ∧
        ∀ (arguments : List String) (readFile : String → Id (Except ReadFailure (List UInt8)))
          (content : List UInt8),
          Request.ofArguments arguments = .ok request → readFile path = .ok content →
          content.length ≤ 2 ^ 30 →
          let outcome := Id.run (run readFile arguments)
          let source := CString.ofBuffer content
          (∀ front back, content = front ++ 0 :: back → 0 ∉ front →
            outcome = ⟨1, "", "error: " ++ ("Source file contains a NUL byte: " ++ shownPath ++
              s!": nul byte found in provided data at position: {front.length}") ++ "\n"⟩) ∧
          (0 ∉ content → ¬ Utf8.WellFormed content →
            ∃ (message : CString) (offset : Nat),
              let cause := s!"source is not valid UTF-8 (first invalid byte at offset {offset})"
              (requestChecked (some source) (.cell none)).1 = none ∧
                (requestChecked (some source) (.cell none)).2.1 = .cell (some message) ∧
                message.content = Utf8.encode cause.toList ∧
                outcome = ⟨1, "", "error: " ++ ("Failed to tokenize " ++ shownPath ++ ": " ++
                  cause) ++ "\n"⟩) ∧
          (0 ∉ content → ∀ text, Utf8.encode text = content →
            ∃ (delivery : Delivery) (records : List Record),
              Id.run (deliver (tokenizer options) (some source)) = .ok delivery ∧
                delivery.list.Carries ((tokens options text).map fun token ↦
                  ⟨token.kind.code, token.text, token.line⟩) ∧
                (options = {} →
                  (Id.run (AhoyScan.request (tokenizer {}) (some source))).1 =
                    some delivery.list) ∧
                List.Forall₂ Record.Copies records delivery.list.entries ∧
                delivery.list.count.toInt = records.length ∧
                outcome.exit = 0 ∧ outcome.stderr = "" ∧ format.Shows records outcome.stdout ∧
                (records = [] → outcome.stdout = format.emptyListing)) := by
  intro request
  refine ⟨fun hwidth hpath ↦ Request.ofArguments_arguments hwidth hpath,
    Quoted.text path, Quoted.shows_text path, ?_⟩
  intro arguments readFile content hrequest hread hsize outcome source
  have hrun : outcome = request.perform (.ok content) := run_of_request hrequest hread
  refine ⟨?_, ?_, ?_⟩
  · rintro front back rfl hfront
    rw [hrun, Request.perform_of_error (recordsOf_of_zero path options hfront)]
    rfl
  · intro hfree hmalformed
    rw [← CString.content_ofBuffer hfree] at hmalformed
    obtain ⟨offset, message, hdeliver, hlist, hmessage, hcontent⟩ :=
      deliver_of_malformed options hmalformed
    refine ⟨message, offset, hlist, hmessage, hcontent, ?_⟩
    rw [hrun, Request.perform_of_error (recordsOf_of_error path options hfree hdeliver)]
    rfl
  · intro hfree text htext
    obtain ⟨delivery, hdeliver, hcarries, hrecords⟩ :=
      recordsOf_of_text path options hfree hsize htext
    obtain ⟨shown, hshown, hshows, hempty⟩ := shows_dump format delivery.list.records
    have houtcome : outcome = ⟨0, shown, ""⟩ := by
      rw [hrun, Request.perform_dump hrecords, hshown]
    refine ⟨delivery, delivery.list.records, hdeliver, hcarries, ?_, hcarries.copies, ?_, ?_⟩
    · rintro rfl
      rw [request_tokenizer, hdeliver]
      rfl
    · rw [hcarries.count_eq_length, WireList.records, List.length_map]
    · rw [houtcome]
      exact ⟨rfl, rfl, hshows, hempty⟩

/-- A string with an accent that is a character of its own: the accent is written by its number in a
table and as it is in a document. A 0 is reported before the byte in front of it, which is no
UTF-8. -/
theorem dump_exact_accent :
    let content : List UInt8 := [0x22, 0x65, 0xCC, 0x81, 0x22, 0x0A]
    let triples : List RawToken := [⟨6, "e\u0301", 1⟩, ⟨3, "\n", 1⟩]
    let table := "=== Tokens (2) ===\n" ++
      "   0: STRING               6  line 1    \"e\\u\x7b301\x7d\"\n" ++
      "   1: NEWLINE              3  line 1    \"\\n\"\n"
    let document := "[\n" ++
      "  \x7b\n    \"kind\": 6,\n    \"kind_name\": \"STRING\",\n" ++
      "    \"text\": \"e\u0301\",\n    \"line\": 1\n  \x7d,\n" ++
      "  \x7b\n    \"kind\": 3,\n    \"kind_name\": \"NEWLINE\",\n" ++
      "    \"text\": \"\\n\",\n    \"line\": 1\n  \x7d\n]\n"
    let refusal := "error: Source file contains a NUL byte: \"a\": " ++
      "nul byte found in provided data at position: 1\n"
    (Id.run (run (fun _ ↦ pure (.ok content)) ["dump", "a"]) = ⟨0, table, ""⟩ ∧
        ∃ (list : WireList) (records : List Record), list.Carries triples ∧
          List.Forall₂ Record.Copies records list.entries ∧ Format.text.Shows records table) ∧
      (Id.run (run (fun _ ↦ pure (.ok content)) ["dump", "--format=json", "a"]) =
          ⟨0, document, ""⟩ ∧
        ∃ (list : WireList) (records : List Record), list.Carries triples ∧
          List.Forall₂ Record.Copies records list.entries ∧ Format.json.Shows records document) ∧
      Id.run (run (fun _ ↦ pure (.ok [0xFF, 0])) ["dump", "a"]) = ⟨1, "", refusal⟩ ∧
        ∃ shownPath, Quoted.Shows "a" shownPath ∧
          refusal = "error: " ++ ("Source file contains a NUL byte: " ++ shownPath ++
            ": nul byte found in provided data at position: 1") ++ "\n" := by
  intro content triples table document refusal
  have htriples : (tokens {} ['"', 'e', '\u0301', '"', '\n']).map (fun token ↦
      (⟨token.kind.code, token.text, token.line⟩ : RawToken)) = triples := by decide +kernel
  have htable : Id.run (run (fun _ ↦ pure (.ok content)) ["dump", "a"]) = ⟨0, table, ""⟩ := by
    decide +kernel
  have hdocument : Id.run (run (fun _ ↦ pure (.ok content)) ["dump", "--format=json", "a"]) =
      ⟨0, document, ""⟩ := by decide +kernel
  have hrefusal : Id.run (run (fun _ ↦ pure (.ok [0xFF, 0])) ["dump", "a"]) =
      ⟨1, "", refusal⟩ := by decide +kernel
  obtain ⟨-, shownPath, hpath, htext⟩ := dump_exact .text "a" {}
  obtain ⟨-, _, -, hjson⟩ := dump_exact .json "a" {}
  obtain ⟨-, -, hlisted⟩ := htext ["dump", "a"] (fun _ ↦ pure (.ok content)) content rfl rfl
    (by decide)
  obtain ⟨-, -, hlisted'⟩ := hjson ["dump", "--format=json", "a"] (fun _ ↦ pure (.ok content))
    content rfl rfl (by decide)
  obtain ⟨hnul, -, -⟩ := htext ["dump", "a"] (fun _ ↦ pure (.ok [0xFF, 0])) [0xFF, 0] rfl rfl
    (by decide)
  obtain ⟨delivery, records, -, hcarries, -, hcopies, -, -, -, hshows, -⟩ :=
    hlisted (by decide) ['"', 'e', '\u0301', '"', '\n'] (by decide)
  obtain ⟨delivery', records', -, hcarries', -, hcopies', -, -, -, hshows', -⟩ :=
    hlisted' (by decide) ['"', 'e', '\u0301', '"', '\n'] (by decide)
  rw [htriples] at hcarries hcarries'
  rw [htable] at hshows
  rw [hdocument] at hshows'
  refine ⟨⟨htable, delivery.list, records, hcarries, hcopies, hshows⟩,
    ⟨hdocument, delivery'.list, records', hcarries', hcopies', hshows'⟩,
    hrefusal, shownPath, hpath, ?_⟩
  have hspelled := hrefusal.symm.trans (hnul [0xFF] [] rfl (by decide))
  exact congrArg Outcome.stderr hspelled

end AhoyScan
