import AhoyScan.Token

/-!
# Command lines

`Request.ofArguments` reads the arguments of a command line: what to do with which file under
which options. A command line that asks for the version or for help, or that cannot be understood,
ends there instead, as `Ending` says.
-/

namespace AhoyScan

/-- The forms of a token listing. -/
inductive Format where
  | text
  | json
  deriving DecidableEq, Repr

/-- What is done with a file: its tokens are listed, or it is checked for illegal input. -/
inductive Task where
  | dump (format : Format)
  | check
  deriving DecidableEq, Repr

/-- What a command line asks for. -/
structure Request where
  task : Task
  path : String
  options : Options
  deriving DecidableEq, Repr

/-- Why a command line cannot be understood. -/
inductive Misuse where
  | noCommand
  | unknownCommand (name : String)
  | unknownFlag (name : String)
  | repeatedFlag (name : String)
  | unneededValue (name : String)
  | missingValue (name : String)
  | badValue (name value : String)
  | noInput
  | emptyInput
  | extraInput (path : String)
  deriving DecidableEq, Repr

/-- The message for people. -/
def Misuse.message : Misuse → String
  | .noCommand => "a command is required: dump or check"
  | .unknownCommand name => s!"unrecognized command {name}"
  | .unknownFlag name => s!"unexpected argument {name}"
  | .repeatedFlag name => s!"the argument {name} cannot be used multiple times"
  | .unneededValue name => s!"the argument {name} takes no value"
  | .missingValue name => s!"a value is required for {name}"
  | .badValue name value => s!"invalid value {value} for {name}"
  | .noInput => "an input file is required"
  | .emptyInput => "the path of the input file is empty"
  | .extraInput path => s!"unexpected argument {path}"

/-- How a command line ends that asks for no work on a file. -/
inductive Ending where
  | version
  | help
  | misuse (cause : Misuse)
  deriving DecidableEq, Repr

/-- An argument by its form. A long flag may carry a value after an equals sign; a dash alone is
an ordinary word. -/
inductive Argument where
  | word (text : String)
  | separator
  | long (name : String) (value : Option String)
  | short (flags : List Char)
  deriving DecidableEq, Repr

/-- The form of an argument. -/
def Argument.ofString (argument : String) : Argument :=
  match argument.toList with
  | ['-', '-'] => .separator
  | '-' :: '-' :: body =>
      .long (String.ofList (body.takeWhile (· ≠ '=')))
        (match body.dropWhile (· ≠ '=') with
        | [] => none
        | _ :: value => some (String.ofList value))
  | '-' :: flag :: flags => .short (flag :: flags)
  | _ => .word argument

/-- A number of columns: decimal digits, with or without a plus sign in front, that make a number
of 64 bits. -/
def columnCount? (text : String) : Option Nat :=
  let digits :=
    match text.toList with
    | '+' :: rest => rest
    | chars => chars
  if digits.isEmpty || !digits.all Char.isDigit then none
  else
    let value := digits.foldl (fun value digit ↦ 10 * value + (digit.toNat - '0'.toNat)) 0
    if value < UInt64.size then some value else none

/-- The form of a listing by its name. -/
def Format.ofName? : String → Option Format
  | "text" => some .text
  | "json" => some .json
  | _ => none

/-- What the arguments after a command have said so far. -/
structure Settings where
  verbose : Bool := false
  noIndentation : Bool := false
  tabWidth : Option Nat := none
  format : Option Format := none
  path : Option String := none

namespace Settings

/-- The program works the same way when it is verbose. -/
def setVerbose (settings : Settings) : Except Ending Settings :=
  if settings.verbose then .error (.misuse (.repeatedFlag "--verbose"))
  else .ok { settings with verbose := true }

/-- Changes of indentation are not to be reported. -/
def setNoIndentation (settings : Settings) : Except Ending Settings :=
  if settings.noIndentation then .error (.misuse (.repeatedFlag "--no-indentation"))
  else .ok { settings with noIndentation := true }

/-- Set the columns that a tab counts for. -/
def setTabWidth (settings : Settings) (value : String) : Except Ending Settings :=
  if settings.tabWidth.isSome then .error (.misuse (.repeatedFlag "--tab-width"))
  else
    match columnCount? value with
    | some width => .ok { settings with tabWidth := some width }
    | none => .error (.misuse (.badValue "--tab-width" value))

/-- Set the form of the listing. -/
def setFormat (settings : Settings) (value : String) : Except Ending Settings :=
  if settings.format.isSome then .error (.misuse (.repeatedFlag "--format"))
  else
    match Format.ofName? value with
    | some format => .ok { settings with format := some format }
    | none => .error (.misuse (.badValue "--format" value))

/-- Set the input file, of which there is one. -/
def setPath (settings : Settings) (path : String) : Except Ending Settings :=
  if settings.path.isSome then .error (.misuse (.extraInput path))
  else if path = "" then .error (.misuse .emptyInput)
  else .ok { settings with path := some path }

/-- Short flags may share a dash. -/
def setShort (settings : Settings) : List Char → Except Ending Settings
  | [] => .ok settings
  | 'v' :: flags => do (← settings.setVerbose).setShort flags
  | 'h' :: _ => .error .help
  | flag :: _ => .error (.misuse (.unknownFlag (String.ofList ['-', flag])))

/-- A long flag: one that stands for itself or one that takes a value. -/
inductive Flag where
  | switch (set : Settings → Except Ending Settings)
  | option (set : Settings → String → Except Ending Settings)

/-- The long flags after a command. Only a command that lists tokens has a format. -/
def flag? (hasFormat : Bool) : String → Option Flag
  | "verbose" => some (.switch setVerbose)
  | "no-indentation" => some (.switch setNoIndentation)
  | "help" => some (.switch fun _ ↦ .error .help)
  | "tab-width" => some (.option setTabWidth)
  | "format" => if hasFormat then some (.option setFormat) else none
  | _ => none

/-- Read the arguments after a command. The value of a flag is joined to it by an equals sign or is
the next argument, which must then be a word; after a separator there are only words. -/
def read (hasFormat : Bool) (settings : Settings) : List String → Except Ending Settings
  | [] => .ok settings
  | argument :: rest =>
      match Argument.ofString argument with
      | .separator => rest.foldlM setPath settings
      | .word text => do (← settings.setPath text).read hasFormat rest
      | .short flags => do (← settings.setShort flags).read hasFormat rest
      | .long name value =>
          match flag? hasFormat name, value with
          | none, _ => .error (.misuse (.unknownFlag name))
          | some (.switch set), none => do (← set settings).read hasFormat rest
          | some (.switch _), some _ => .error (.misuse (.unneededValue name))
          | some (.option set), some value => do (← set settings value).read hasFormat rest
          | some (.option set), none =>
              match rest with
              | [] => .error (.misuse (.missingValue name))
              | next :: rest =>
                  match Argument.ofString next with
                  | .word value => do (← set settings value).read hasFormat rest
                  | _ => .error (.misuse (.missingValue name))

/-- The request that the settings of a command make. -/
def request (settings : Settings) (task : Option Format → Task) : Except Ending Request :=
  match settings.path with
  | none => .error (.misuse .noInput)
  | some path =>
      .ok ⟨task settings.format, path,
        ⟨settings.tabWidth.getD 4, !settings.noIndentation⟩⟩

end Settings

namespace Request

/-- Read the short flags in front of a command; `verbose` says whether one was that already. -/
def readShort (verbose : Bool) : List Char → Except Ending Bool
  | [] => .ok verbose
  | 'v' :: flags =>
      if verbose then .error (.misuse (.repeatedFlag "--verbose")) else readShort true flags
  | 'V' :: _ => .error .version
  | 'h' :: _ => .error .help
  | flag :: _ => .error (.misuse (.unknownFlag (String.ofList ['-', flag])))

/-- Read a command line from the flags in front of its command on. -/
def read (verbose : Bool) : List String → Except Ending Request
  | [] => .error (.misuse .noCommand)
  | argument :: rest =>
      match Argument.ofString argument with
      | .word "dump" => do
          (← Settings.read true {} rest).request fun format ↦ .dump (format.getD .text)
      | .word "check" => do (← Settings.read false {} rest).request fun _ ↦ .check
      | .word "help" => .error .help
      | .word name => .error (.misuse (.unknownCommand name))
      | .separator => .error (.misuse .noCommand)
      | .short flags => do read (← readShort verbose flags) rest
      | .long "verbose" none =>
          if verbose then .error (.misuse (.repeatedFlag "--verbose")) else read true rest
      | .long "version" none => .error .version
      | .long "help" none => .error .help
      | .long name _ => .error (.misuse (.unknownFlag name))

/-- What the arguments of a command line ask for. -/
def ofArguments (arguments : List String) : Except Ending Request :=
  read false arguments

end Request

end AhoyScan
