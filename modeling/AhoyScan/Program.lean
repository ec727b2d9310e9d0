import AhoyScan.Command
import AhoyScan.Delivery
import AhoyScan.Folder
import AhoyScan.Listing

/-!
# The program

`run` carries out a command line: it reads the file, takes the file's tokens across the boundary
to C callers and lists them, or checks them for illegal input.
-/

namespace AhoyScan

/-- What a program leaves behind: its exit code and what it has written. -/
structure Outcome where
  exit : UInt8
  stdout : String := ""
  stderr : String := ""
  deriving DecidableEq, Repr

/-- Why a request could not be carried out. -/
inductive Failure where
  | unreadable (path : String) (cause : ReadFailure)
  | containsNul (path : String) (position : Nat)
  | rejected (path : String) (cause : Rejection)
  | illegalInput (count : Nat)
  deriving DecidableEq, Repr

/-- The failure in words, with its cause. -/
def Failure.message : Failure → String
  | .unreadable path cause =>
      "Failed to read source file: " ++ Quoted.text path ++ ": " ++ cause.message
  | .containsNul path position =>
      "Source file contains a NUL byte: " ++ Quoted.text path ++
        s!": nul byte found in provided data at position: {position}"
  | .rejected path cause => "Failed to tokenize " ++ Quoted.text path ++ ": " ++ cause.message
  | .illegalInput count => s!"Lexical analysis failed ({count} unrecognized tokens)"

/-- A line that reports an error. -/
def errorLine (message : String) : String :=
  "error: " ++ message ++ "\n"

/-- The records of a file's tokens, as a C caller would read them. A file with a NUL in it is
refused, for the boundary would see only what is before it. -/
def recordsOf (path : String) (options : Options) (content : List UInt8) :
    Except Failure (List Record) :=
  match CString.ofBytes content with
  | .error position => .error (.containsNul path position)
  | .ok source =>
      match Id.run (deliver (tokenizer options) (some source)) with
      | .error cause => .error (.rejected path cause)
      | .ok delivery => .ok delivery.list.records

/-- The listing of a file's tokens. -/
def dump (format : Format) (records : List Record) : Outcome :=
  match format with
  | .text => ⟨0, Listing.table records, ""⟩
  | .json => ⟨0, Listing.document records, ""⟩

/-- The line that reports a record of illegal input. -/
def illegalLine (path : String) (record : Record) : String :=
  errorLine (path ++ s!":{record.line.toInt}: unrecognized input " ++ Quoted.text record.text)

/-- A line for each piece of illegal input and one for their number, or a line of success. -/
def check (path : String) (records : List Record) : Outcome :=
  let illegal := records.filter (·.kind = Kind.illegal.code)
  if illegal.isEmpty then ⟨0, "success: No errors found\n", ""⟩
  else
    ⟨1, "", String.join (illegal.map (illegalLine path)) ++
      errorLine (Failure.illegalInput illegal.length).message⟩

/-- Carry out a request on what was read from its file. -/
def Request.perform (request : Request) (content : Except ReadFailure (List UInt8)) : Outcome :=
  let records : Except Failure (List Record) :=
    match content with
    | .error cause => .error (.unreadable request.path cause)
    | .ok content => recordsOf request.path request.options content
  match records, request.task with
  | .error failure, _ => ⟨1, "", errorLine failure.message⟩
  | .ok records, .dump format => dump format records
  | .ok records, .check => check request.path records

/-- How the program is called. -/
def usage : String :=
  "Usage: ahoy-tokens [-v] dump [--format text|json] [--tab-width N] [--no-indentation] INPUT\n" ++
  "       ahoy-tokens [-v] check [--tab-width N] [--no-indentation] INPUT\n" ++
  "       ahoy-tokens --version\n"

/-- What the program leaves behind when there is no work on a file. -/
def Ending.outcome : Ending → Outcome
  | .version => ⟨0, "ahoy-tokens 0.1.0\n", ""⟩
  | .help => ⟨0, usage, ""⟩
  | .misuse cause => ⟨2, "", errorLine cause.message ++ usage⟩

/-- Carry out a command line with the means to read a file. -/
def run {m : Type → Type} [Monad m] (readFile : String → m (Except ReadFailure (List UInt8)))
    (arguments : List String) : m Outcome := do
  match Request.ofArguments arguments with
  | .error ending => pure ending.outcome
  | .ok request => pure (request.perform (← readFile request.path))

end AhoyScan
