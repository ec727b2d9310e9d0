import AhoyScan.Command
import Mathlib.Tactic.Common

/-!
# Command lines for every request

Whatever is to be done with a file under whatever options, there is a command line that asks for
it: `Request.arguments` writes one, and it is read back as the same request
(`Request.ofArguments_arguments`).
-/

namespace AhoyScan

/-- The name by which a form is asked for. -/
def Format.name : Format → String
  | .text => "text"
  | .json => "json"

/-- The command of a task, with the form of the listing if the task is to list. -/
def Task.arguments : Task → List String
  | .dump format => ["dump", "--format", format.name]
  | .check => ["check"]

/-- Options in full: the tab width, and a flag if indentation is not to be reported. -/
def Options.arguments (options : Options) : List String :=
  "--tab-width" :: toString options.tabWidth ::
    if options.indentation then [] else ["--no-indentation"]

/-- A command line that makes the request. Its path stands behind a separator, so that a path that
looks like a flag is no flag. -/
def Request.arguments (request : Request) : List String :=
  request.task.arguments ++ request.options.arguments ++ ["--", request.path]

/-! ## Numbers -/

/-- A number that fits 64 bits is read back from its digits. -/
theorem columnCount?_toString {n : Nat} (h : n < UInt64.size) :
    columnCount? (toString n) = some n := by
  have hdigits : ∀ c ∈ Nat.toDigits 10 n, c.isDigit = true := fun c ↦
    Nat.isDigit_of_mem_toDigits (by decide) (by decide)
  have hplus : ∀ rest, Nat.toDigits 10 n ≠ '+' :: rest := by
    intro rest heq
    exact absurd (hdigits '+' (heq ▸ List.mem_cons_self)) (by decide)
  have hempty : (Nat.toDigits 10 n).isEmpty = false := by
    simp [Nat.toDigits_ne_nil]
  have hall : (Nat.toDigits 10 n).all Char.isDigit = true := List.all_eq_true.2 hdigits
  have hvalue : (Nat.toDigits 10 n).foldl
      (fun value digit ↦ 10 * value + (digit.toNat - '0'.toNat)) 0 = n :=
    Nat.ofDigitChars_eq_foldl.symm.trans Nat.ofDigitChars_ten_toDigits
  rw [columnCount?, Nat.toString_eq_repr, Nat.toList_repr]
  split
  · rename_i rest heq
    exact absurd heq (hplus rest)
  · simp only [hempty, hall, hvalue, h, Bool.not_true, Bool.or_self, Bool.false_eq_true, if_false,
      if_true]

/-- A number is an ordinary word. -/
theorem Argument.ofString_toString (n : Nat) : ofString (toString n) = .word (toString n) := by
  have hdash : ∀ rest, (toString n).toList ≠ '-' :: rest := by
    intro rest heq
    rw [Nat.toString_eq_repr, Nat.toList_repr] at heq
    have hdigit := Nat.isDigit_of_mem_toDigits (by decide) (by decide)
      (heq ▸ List.mem_cons_self : '-' ∈ Nat.toDigits 10 n)
    exact absurd hdigit (by decide)
  rw [ofString]
  split
  · rename_i heq
    exact absurd heq (hdash _)
  · rename_i heq
    exact absurd heq (hdash _)
  · rename_i heq
    exact absurd heq (hdash _)
  · rfl

/-! ## Reading settings -/

namespace Settings

variable {hasFormat : Bool} {settings next : Settings} {rest : List String}
  {argument value name : String}

/-- A flag that takes a value reads it from the next argument. -/
theorem read_option {set : Settings → String → Except Ending Settings}
    (hform : Argument.ofString argument = .long name none)
    (hflag : flag? hasFormat name = some (.option set))
    (hvalue : Argument.ofString value = .word value) (hset : set settings value = .ok next) :
    settings.read hasFormat (argument :: value :: rest) = next.read hasFormat rest := by
  simp only [read, hform, hflag, hvalue, hset]
  rfl

/-- A flag that stands for itself is read alone. -/
theorem read_switch {set : Settings → Except Ending Settings}
    (hform : Argument.ofString argument = .long name none)
    (hflag : flag? hasFormat name = some (.switch set)) (hset : set settings = .ok next) :
    settings.read hasFormat (argument :: rest) = next.read hasFormat rest := by
  simp only [read, hform, hflag, hset]
  rfl

/-- After a separator there are only paths. -/
theorem read_separator (hform : Argument.ofString argument = .separator) :
    settings.read hasFormat (argument :: rest) = rest.foldlM setPath settings := by
  simp only [read, hform]

/-- Options and a path behind them are read back after a command, and after a format if there is
one. -/
theorem read_options (format : Option Format) {options : Options} {path : String}
    (hwidth : options.tabWidth < UInt64.size) (hpath : path ≠ "") :
    ({ format } : Settings).read hasFormat (options.arguments ++ ["--", path]) =
      .ok { tabWidth := some options.tabWidth, noIndentation := !options.indentation, format,
            path := some path } := by
  have hwidthForm : Argument.ofString "--tab-width" = .long "tab-width" none := rfl
  have hindentationForm : Argument.ofString "--no-indentation" = .long "no-indentation" none := rfl
  have hseparatorForm : Argument.ofString "--" = .separator := rfl
  have hset : ({ format } : Settings).setTabWidth (toString options.tabWidth) =
      .ok { tabWidth := some options.tabWidth, format } := by
    rw [setTabWidth, columnCount?_toString hwidth]
    rfl
  have hend (settings : Settings) (h : settings.path = none) :
      settings.read hasFormat ["--", path] = .ok { settings with path := some path } := by
    rw [read_separator hseparatorForm]
    simp [setPath, h, hpath]
  rw [Options.arguments, List.cons_append, List.cons_append,
    read_option hwidthForm rfl (Argument.ofString_toString _) hset]
  cases options.indentation with
  | false => exact (read_switch hindentationForm rfl rfl).trans (hend _ rfl)
  | true => exact hend _ rfl

/-- Settings with options and a path make a request with these. -/
theorem request_eq (format : Option Format) (options : Options) (path : String)
    (task : Option Format → Task) :
    ({ tabWidth := some options.tabWidth, noIndentation := !options.indentation, format,
       path := some path } : Settings).request task = .ok ⟨task format, path, options⟩ := by
  simp [request]

end Settings

/-- A request is read back from the command line that makes it. -/
theorem Request.ofArguments_arguments {request : Request}
    (hwidth : request.options.tabWidth < UInt64.size) (hpath : request.path ≠ "") :
    ofArguments request.arguments = .ok request := by
  obtain ⟨task, path, options⟩ := request
  cases task with
  | check =>
      have hread : Settings.read false {} (options.arguments ++ ["--", path]) = _ :=
        Settings.read_options none hwidth hpath
      have hcommand (rest : List String) : ofArguments ("check" :: rest) =
          Settings.read false {} rest >>= fun settings ↦ settings.request fun _ ↦ .check := rfl
      rw [arguments, Task.arguments, List.append_assoc, List.singleton_append, hcommand, hread]
      exact Settings.request_eq none options path fun _ ↦ .check
  | dump format =>
      have hcommand (rest : List String) : ofArguments ("dump" :: rest) =
          Settings.read true {} rest >>=
            fun settings ↦ settings.request fun format ↦ .dump (format.getD .text) := rfl
      have hformatForm : Argument.ofString "--format" = .long "format" none := rfl
      have hnameForm : Argument.ofString format.name = .word format.name := by
        cases format <;> rfl
      have hset : Settings.setFormat {} format.name = .ok { format := some format } := by
        cases format <;> rfl
      have hread : Settings.read true {}
          ("--format" :: format.name :: (options.arguments ++ ["--", path])) = _ :=
        (Settings.read_option hformatForm rfl hnameForm hset).trans
          (Settings.read_options (some format) hwidth hpath)
      rw [arguments, Task.arguments, List.append_assoc]
      simp only [List.cons_append, List.nil_append]
      rw [hcommand, hread]
      exact Settings.request_eq (some format) options path fun format ↦ .dump (format.getD .text)

end AhoyScan
