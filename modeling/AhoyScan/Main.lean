import AhoyScan.Program

/-!
# The command line
-/

namespace AhoyScan

/-- The failures that have words of their own here. -/
def ReadFailure.known : List ReadFailure :=
  [missing, ⟨"Permission denied", 13⟩, notDirectory, isDirectory, nameTooLong,
    ⟨"Too many levels of symbolic links", 40⟩]

/-- A failure by the system's number for it, which may be given with a minus sign, and the system's
words for failures that have none here. -/
def ReadFailure.ofNumber (code : UInt32) (details : String) : ReadFailure :=
  let number := (Int32.ofNat code.toNat).toInt.natAbs
  (known.find? (·.code = number)).getD ⟨details, number⟩

/-- The failure that an error of the system reports. -/
def ReadFailure.ofError : IO.Error → ReadFailure
  | .noFileOrDirectory _ code details
  | .inappropriateType _ code details
  | .permissionDenied _ code details
  | .invalidArgument _ code details
  | .resourceExhausted _ code details
  | .otherError code details => ofNumber code details
  | error => ⟨toString error, 0⟩

/-- Read a file of the system. -/
def readFile (path : String) : IO (Except ReadFailure (List UInt8)) := do
  match ← (IO.FS.readBinFile path).toBaseIO with
  | .ok content => pure (.ok content.toList)
  | .error error => pure (.error (.ofError error))

end AhoyScan

/-- Carry out the command line of the process. -/
def main (arguments : List String) : IO UInt32 := do
  let outcome ← AhoyScan.run AhoyScan.readFile arguments
  (← IO.getStdout).putStr outcome.stdout
  (← IO.getStderr).putStr outcome.stderr
  pure outcome.exit.toUInt32
