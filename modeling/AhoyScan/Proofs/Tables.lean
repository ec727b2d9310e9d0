import AhoyScan.Proofs.Dumps
import AhoyScan.Proofs.QuotedTexts

/-!
# Tables lose nothing

The columns of a table are filled up with spaces and give way to wider entries, so that there is no
fixed place where an entry begins. Still each entry can be read off its row: a name or a number
holds no space, and a quoted text ends with its quote. `Record.row_append_inj` says this of a row
with others behind it, `Listing.table_injective` of whole tables, and `dump_text_lossless` of what
the program prints. No row goes on for more than its line.
-/

namespace AhoyScan

/-- The name in the record is that of its kind. -/
def Record.Labeled (record : Record) : Prop :=
  record.kindName = Kind.label record.kind

/-- The characters of a row before the line end. -/
def Record.rowChars (index : Nat) (record : Record) : List Char :=
  (alignRight 4 (toString index)).toList ++ ':' :: ' ' ::
    ((alignLeft 18 record.kindName).toList ++ ' ' ::
      ((alignRight 3 (toString record.kind.toInt)).toList ++ ' ' :: ("\x20line ".toList ++
        ((alignLeft 4 (toString record.line.toInt)).toList ++ ' ' ::
          Quoted.quote record.text.toList))))

/-! ## Columns -/

section Columns

variable {width : Nat} {text text' : String} {rest rest' : List Char}

/-- A text without spaces is known from the left end of its column, and so is what follows. -/
theorem alignLeft_append_inj (htext : ' ' ∉ text.toList) (htext' : ' ' ∉ text'.toList)
    (h : (alignLeft width text).toList ++ ' ' :: rest =
      (alignLeft width text').toList ++ ' ' :: rest') :
    text = text' ∧ rest = rest' := by
  have hspaces (n : Nat) (more : List Char) :
      ∀ c ∈ (List.replicate n ' ' ++ ' ' :: more).head?, decide (c ≠ ' ') = false := by
    cases n <;> simp [List.replicate_succ]
  have hword {text : String} (htext : ' ' ∉ text.toList) :
      ∀ c ∈ text.toList, decide (c ≠ ' ') = true :=
    fun c hc ↦ decide_eq_true (ne_of_mem_of_not_mem hc htext)
  simp only [alignLeft, String.toList_append, String.toList_ofList, List.append_assoc] at h
  obtain ⟨hsame, hmore⟩ := append_inj_of_run (hword htext) (hword htext') (hspaces _ _)
    (hspaces _ _) h
  obtain rfl := String.toList_inj.1 hsame
  exact ⟨rfl, (List.cons.inj (List.append_cancel_left hmore)).2⟩

/-- A text without spaces that is not empty is known from the right end of its column, and so is
what follows. -/
theorem alignRight_append_inj (htext : ' ' ∉ text.toList) (htext' : ' ' ∉ text'.toList)
    (hnonempty : text.toList ≠ []) (hnonempty' : text'.toList ≠ [])
    (h : (alignRight width text).toList ++ ' ' :: rest =
      (alignRight width text').toList ++ ' ' :: rest') :
    text = text' ∧ rest = rest' := by
  have hspaces (n : Nat) : ∀ c ∈ List.replicate n ' ', decide (c = ' ') = true :=
    fun c hc ↦ decide_eq_true (List.eq_of_mem_replicate hc)
  have hword {text : String} (htext : ' ' ∉ text.toList) :
      ∀ c ∈ text.toList, decide (c ≠ ' ') = true :=
    fun c hc ↦ decide_eq_true (ne_of_mem_of_not_mem hc htext)
  have hfirst {text : String} (htext : ' ' ∉ text.toList) (hnonempty : text.toList ≠ [])
      (more : List Char) : ∀ c ∈ (text.toList ++ more).head?, decide (c = ' ') = false := by
    obtain ⟨d, tail, hchars⟩ := List.exists_cons_of_ne_nil hnonempty
    have hd : d ≠ ' ' := ne_of_mem_of_not_mem (hchars ▸ List.mem_cons_self) htext
    simp [hchars, hd]
  simp only [alignRight, String.toList_append, String.toList_ofList, List.append_assoc] at h
  obtain ⟨-, hmore⟩ := append_inj_of_run (hspaces _) (hspaces _) (hfirst htext hnonempty _)
    (hfirst htext' hnonempty' _) h
  obtain ⟨hsame, hrest⟩ := append_inj_of_run (hword htext) (hword htext') (by simp) (by simp) hmore
  exact ⟨String.toList_inj.1 hsame, (List.cons.inj hrest).2⟩

/-- Filling a column up adds only spaces. -/
theorem mem_alignLeft {c : Char} (h : c ∈ (alignLeft width text).toList) :
    c ∈ text.toList ∨ c = ' ' := by
  simp only [alignLeft, String.toList_append, String.toList_ofList, List.mem_append] at h
  exact h.imp_right List.eq_of_mem_replicate

/-- Filling a column up adds only spaces. -/
theorem mem_alignRight {c : Char} (h : c ∈ (alignRight width text).toList) :
    c ∈ text.toList ∨ c = ' ' := by
  simp only [alignRight, String.toList_append, String.toList_ofList, List.mem_append] at h
  exact h.symm.imp_right List.eq_of_mem_replicate

end Columns

/-! ## Entries -/

/-- The names of kinds are single words. -/
theorem Kind.label_word (code : Int32) :
    ∀ c ∈ (label code).toList, c ≠ ' ' ∧ c ≠ '\n' := by
  have hname (kind : Kind) : kind.name.toList.all (fun c ↦ c ≠ ' ' && c ≠ '\n') = true := by
    cases kind with
    | symbol symbol => cases symbol <;> rfl
    | keyword keyword => cases keyword <;> rfl
    | _ => rfl
  have hlabel : (label code).toList.all (fun c ↦ c ≠ ' ' && c ≠ '\n') = true := by
    rw [label]
    cases ofCode? code with
    | none => rfl
    | some kind => exact hname kind
  intro c hc
  simpa using List.all_eq_true.1 hlabel c hc

/-- Integers are single words. -/
theorem toString_int_word (value : Int) : ∀ c ∈ (toString value).toList, c ≠ ' ' ∧ c ≠ '\n' := by
  intro c hc
  rcases mem_toString_int hc with rfl | hdigit
  · decide
  · constructor <;> rintro rfl <;> cases hdigit

namespace Record

variable {record record' : Record} {index : Nat} {rest rest' : List Char}

/-- The name of a kind is a single word. -/
theorem Labeled.word (h : record.Labeled) :
    ∀ c ∈ record.kindName.toList, c ≠ ' ' ∧ c ≠ '\n' := by
  rw [h]
  exact Kind.label_word record.kind

/-- A row is its characters and a line end. -/
theorem row_toList (index : Nat) (record : Record) :
    (record.row index).toList = record.rowChars index ++ ['\n'] := by
  simp [row, rowChars, Quoted.text]

/-- The records of rows that look alike are the same, and so is what comes after the rows. -/
theorem row_append_inj (hlabel : record.Labeled) (hlabel' : record'.Labeled)
    (h : (record.row index).toList ++ rest = (record'.row index).toList ++ rest') :
    record = record' ∧ rest = rest' := by
  have hname {record : Record} (hlabel : record.Labeled) : ' ' ∉ record.kindName.toList :=
    fun hspace ↦ (hlabel.word ' ' hspace).1 rfl
  have hnumber (value : Int) : ' ' ∉ (toString value).toList :=
    fun hspace ↦ (toString_int_word value ' ' hspace).1 rfl
  have hnumber_inj {value value' : Int32} (h : toString value.toInt = toString value'.toInt) :
      value = value' :=
    Int32.toInt_inj.1 (toString_int_injective h)
  -- The columns are read one after the other, each from what the one before it leaves.
  simp only [row_toList, rowChars, List.append_assoc, List.cons_append, List.append_cancel_left_eq,
    List.cons.injEq, true_and] at h
  obtain ⟨hkindName, hafterName⟩ := alignLeft_append_inj (hname hlabel) (hname hlabel') h
  obtain ⟨hkind, hafterKind⟩ := alignRight_append_inj (hnumber _) (hnumber _)
    (toString_int_ne_nil _) (toString_int_ne_nil _) hafterName
  obtain ⟨hline, hafterLine⟩ := alignLeft_append_inj (hnumber _) (hnumber _)
    (List.append_cancel_left hafterKind)
  obtain ⟨htext, hafterText⟩ := Quoted.quote_append_inj hafterLine
  refine ⟨?_, (List.cons.inj hafterText).2⟩
  cases record
  cases record'
  simp only [mk.injEq]
  exact ⟨hnumber_inj hkind, hkindName, String.toList_inj.1 htext, hnumber_inj hline⟩

/-- A row takes one line. -/
theorem lineEnd_notMem_rowChars (hlabel : record.Labeled) : '\n' ∉ record.rowChars index := by
  have hnumber (value : Int) : '\n' ∉ (toString value).toList :=
    fun hmem ↦ (toString_int_word value '\n' hmem).2 rfl
  have hname : '\n' ∉ record.kindName.toList := fun hmem ↦ (hlabel.word '\n' hmem).2 rfl
  have hleft {width : Nat} {text : String} (h : '\n' ∉ text.toList) :
      '\n' ∉ (alignLeft width text).toList := fun hmem ↦ (mem_alignLeft hmem).elim h (by decide)
  have hright {width : Nat} {text : String} (h : '\n' ∉ text.toList) :
      '\n' ∉ (alignRight width text).toList := fun hmem ↦ (mem_alignRight hmem).elim h (by decide)
  simp only [rowChars, List.mem_append, List.mem_cons, not_or]
  exact ⟨hright (hnumber index), by decide, by decide, hleft hname, by decide, hright (hnumber _),
    by decide, by decide, hleft (hnumber _), by decide, Quoted.lineEnd_notMem_quote _⟩

end Record

/-! ## Tables -/

namespace Listing

variable {records records' : List Record}

/-- The records of rows that look alike are the same, wherever their numbers begin. -/
theorem rows_injective (start : Nat) (hlabels : ∀ record ∈ records, record.Labeled)
    (hlabels' : ∀ record ∈ records', record.Labeled)
    (h : (records.mapIdx fun index record ↦ (record.row (start + index)).toList).flatten =
      (records'.mapIdx fun index record ↦ (record.row (start + index)).toList).flatten) :
    records = records' := by
  -- The rows after the first one are those of the other records, with numbers from the next one on.
  have hrow (index : Nat) (record : Record) : (record.row index).toList ≠ [] := by
    simp [Record.row_toList]
  induction records generalizing start records' with
  | nil =>
      cases records' with
      | nil => rfl
      | cons record' records' => simp [List.mapIdx_cons, hrow] at h
  | cons record records ih =>
      cases records' with
      | nil => simp [List.mapIdx_cons, hrow] at h
      | cons record' records' =>
          simp only [List.mapIdx_cons, List.flatten_cons, Nat.add_zero] at h
          obtain ⟨rfl, hrest⟩ := Record.row_append_inj (hlabels _ List.mem_cons_self)
            (hlabels' _ List.mem_cons_self) h
          simp only [Nat.add_right_comm _ _ 1, ← Nat.add_assoc] at hrest
          rw [ih (start + 1) (fun other hother ↦ hlabels other (List.mem_cons_of_mem _ hother))
            (fun other hother ↦ hlabels' other (List.mem_cons_of_mem _ hother)) hrest]

/-- The line above the rows of a table. -/
def header (records : List Record) : List Char :=
  (s!"=== Tokens ({records.length}) ===").toList

/-- The line above the rows is one line. -/
theorem lineEnd_notMem_header (records : List Record) : '\n' ∉ header records := by
  have hnumber : '\n' ∉ (toString records.length).toList :=
    fun hmem ↦ (toString_int_word records.length '\n' hmem).2 rfl
  simp only [header, String.toList_append, List.mem_append, not_or]
  exact ⟨⟨by decide, hnumber⟩, by decide⟩

/-- A table is the line above its rows and the rows. -/
theorem table_toList (records : List Record) :
    (table records).toList = header records ++ '\n' ::
      (records.mapIdx fun index record ↦ (record.row index).toList).flatten := by
  have hend : (") ===\n" : String) = ") ===" ++ "\n" := rfl
  have hrows : (records.mapIdx fun index record ↦ record.row index).map String.toList =
      records.mapIdx fun index record ↦ (record.row index).toList := by
    apply List.ext_getElem <;> simp
  rw [table, String.toList_append, String.toList_join, List.flatMap_def, hrows]
  simp only [header, toString, hend, String.toList_append, List.append_assoc]
  rfl

/-- The records of a table are known from what is printed. -/
theorem table_injective (hlabels : ∀ record ∈ records, record.Labeled)
    (hlabels' : ∀ record ∈ records', record.Labeled) (h : table records = table records') :
    records = records' := by
  have hheader (records : List Record) : ∀ c ∈ header records, decide (c ≠ '\n') = true :=
    fun c hc ↦ decide_eq_true (ne_of_mem_of_not_mem hc (lineEnd_notMem_header records))
  have hchars := congrArg String.toList h
  rw [table_toList, table_toList] at hchars
  obtain ⟨-, hrows⟩ := append_inj_of_run (hheader _) (hheader _) (by simp) (by simp) hchars
  apply rows_injective 0 hlabels hlabels'
  simpa only [Nat.zero_add] using (List.cons.inj hrows).2

/-- Lines with line ends behind them are split at these, with nothing behind the last one. -/
theorem splitOn_lines {lines : List (List Char)} (h : ∀ line ∈ lines, '\n' ∉ line) :
    (lines.map (· ++ ['\n'])).flatten.splitOn '\n' = lines ++ [[]] := by
  induction lines with
  | nil => simp
  | cons line lines ih =>
      rw [List.map_cons, List.flatten_cons, List.append_assoc, List.singleton_append,
        List.splitOn_append_cons_self_of_not_mem (h line List.mem_cons_self),
        ih fun other hother ↦ h other (List.mem_cons_of_mem line hother)]
      rfl

/-- A table has a line above its rows and one line for each row. -/
theorem splitOn_table (hlabels : ∀ record ∈ records, record.Labeled) :
    ∃ lines, lines.map (· ++ ['\n']) =
        (records.mapIdx fun index record ↦ (record.row index).toList) ∧
      (table records).toList.splitOn '\n' = header records :: lines ++ [[]] := by
  have hlines : (records.mapIdx fun index record ↦ record.rowChars index).map (· ++ ['\n']) =
      records.mapIdx fun index record ↦ (record.row index).toList := by
    apply List.ext_getElem <;> simp [Record.row_toList]
  refine ⟨_, hlines, ?_⟩
  rw [table_toList, List.splitOn_append_cons_self_of_not_mem (lineEnd_notMem_header records),
    ← hlines, splitOn_lines]
  · rfl
  · intro line hline
    obtain ⟨index, hindex, rfl⟩ := List.mem_mapIdx.1 hline
    exact Record.lineEnd_notMem_rowChars (hlabels _ (List.getElem_mem hindex))

end Listing

/-! ## Runs -/

section Run

variable {path : String} {options : Options} {arguments : List String}
  {readFile : String → Id (Except ReadFailure (List UInt8))}

/-- The records of a file have the names of their kinds. -/
theorem recordsOf_labeled {content : List UInt8} {records : List Record}
    (h : recordsOf path options content = .ok records) : ∀ record ∈ records, record.Labeled := by
  have hlist (list : WireList) : ∀ record ∈ list.records, record.Labeled := by
    intro record hrecord
    obtain ⟨wire, -, rfl⟩ := List.mem_map.1 hrecord
    rfl
  rw [recordsOf] at h
  split at h
  · cases h
  · split at h
    · cases h
    · cases h
      exact hlist _

/-- A dump that succeeds has read the file and prints the listing of its records. -/
theorem dump_of_exit {format : Format}
    (hrequest : Request.ofArguments arguments = .ok ⟨.dump format, path, options⟩)
    (hexit : (Id.run (run readFile arguments)).exit = 0) :
    ∃ content records, readFile path = .ok content ∧
      recordsOf path options content = .ok records ∧
      Id.run (run readFile arguments) = dump format records := by
  have hrun : Id.run (run readFile arguments) =
      Request.perform ⟨.dump format, path, options⟩ (readFile path) := by
    rw [run, hrequest]
    rfl
  rw [hrun] at hexit ⊢
  cases hread : readFile path with
  | error cause =>
      rw [hread] at hexit
      cases hexit
  | ok content =>
      rw [hread] at hexit
      cases hrecords : recordsOf path options content with
      | error failure =>
          rw [Request.perform_of_error hrecords] at hexit
          cases hexit
      | ok records => exact ⟨content, records, rfl, hrecords, Request.perform_dump hrecords⟩

/-- Two dumps in the form of a table that succeed, of any files under any options, print the same
only if the records of the files are the same, with the same kinds, names, texts and lines in the
same order. What is printed is a line with the number of the records and then one line for each of
them, whatever its text is. -/
theorem dump_text_lossless {arguments' : List String}
    {readFile' : String → Id (Except ReadFailure (List UInt8))} {path' : String}
    {options' : Options}
    (hrequest : Request.ofArguments arguments = .ok ⟨.dump .text, path, options⟩)
    (hrequest' : Request.ofArguments arguments' = .ok ⟨.dump .text, path', options'⟩)
    (hexit : (Id.run (run readFile arguments)).exit = 0)
    (hexit' : (Id.run (run readFile' arguments')).exit = 0) :
    ∃ content content' records records',
      readFile path = .ok content ∧ recordsOf path options content = .ok records ∧
      readFile' path' = .ok content' ∧ recordsOf path' options' content' = .ok records' ∧
      ((Id.run (run readFile arguments)).stdout = (Id.run (run readFile' arguments')).stdout →
        records = records') ∧
      ∃ lines, lines.map (· ++ ['\n']) =
          (records.mapIdx fun index record ↦ (record.row index).toList) ∧
        (Id.run (run readFile arguments)).stdout.toList.splitOn '\n' =
          (s!"=== Tokens ({records.length}) ===").toList :: lines ++ [[]] := by
  obtain ⟨content, records, hread, hrecords, hrun⟩ := dump_of_exit hrequest hexit
  obtain ⟨content', records', hread', hrecords', hrun'⟩ := dump_of_exit hrequest' hexit'
  refine ⟨content, content', records, records', hread, hrecords, hread', hrecords', ?_, ?_⟩
  · intro hstdout
    rw [hrun, hrun'] at hstdout
    exact Listing.table_injective (recordsOf_labeled hrecords) (recordsOf_labeled hrecords')
      hstdout
  · rw [hrun]
    exact Listing.splitOn_table (recordsOf_labeled hrecords)

/-- A letter is listed in the same way with and without indentation, so its record is the same. -/
theorem dump_text_lossless_letter :
    let readFile : String → Id (Except ReadFailure (List UInt8)) := fun _ ↦ pure (.ok [0x61])
    let outcome := Id.run (run readFile ["dump", "a"])
    let outcome' := Id.run (run readFile ["dump", "--tab-width=8", "--no-indentation", "a"])
    outcome.exit = 0 ∧ outcome'.exit = 0 ∧
      ∃ records, recordsOf "a" {} [0x61] = .ok records ∧
        recordsOf "a" ⟨8, false⟩ [0x61] = .ok records ∧
        ∃ lines, lines.map (· ++ ['\n']) =
            (records.mapIdx fun index record ↦ (record.row index).toList) ∧
          outcome.stdout.toList.splitOn '\n' =
            (s!"=== Tokens ({records.length}) ===").toList :: lines ++ [[]] := by
  intro readFile outcome outcome'
  have hrequest : Request.ofArguments ["dump", "a"] = .ok ⟨.dump .text, "a", {}⟩ := rfl
  have hrequest' : Request.ofArguments ["dump", "--tab-width=8", "--no-indentation", "a"] =
      .ok ⟨.dump .text, "a", ⟨8, false⟩⟩ := rfl
  have hexit : outcome.exit = 0 := by decide +kernel
  have hexit' : outcome'.exit = 0 := by decide +kernel
  have hstdout : outcome.stdout = outcome'.stdout := by decide +kernel
  obtain ⟨content, content', records, records', hread, hrecords, hread', hrecords', hsame,
    hlines⟩ := dump_text_lossless hrequest hrequest' hexit hexit'
  obtain rfl : [0x61] = content := Except.ok.inj hread
  obtain rfl : [0x61] = content' := Except.ok.inj hread'
  exact ⟨hexit, hexit', records, hrecords, hsame hstdout ▸ hrecords', hlines⟩

end Run

end AhoyScan
