/-!
# Files in a folder

A folder in memory, read by path like the working folder of a program: `.` and empty components
stay where they are, `..` goes up, and nothing is known of what lies outside but that the folders
above exist. `ReadFailure` is why a path has no content.
-/

namespace AhoyScan

/-- Why a file was not read: the system's words and number for it. -/
structure ReadFailure where
  reason : String
  code : Nat
  deriving DecidableEq, Repr

namespace ReadFailure

/-- Nothing has the name. -/
def missing : ReadFailure := ⟨"No such file or directory", 2⟩

/-- A component that is not the last one names a file. -/
def notDirectory : ReadFailure := ⟨"Not a directory", 20⟩

/-- The path leads to a folder. -/
def isDirectory : ReadFailure := ⟨"Is a directory", 21⟩

/-- A component, or the whole path, has too many bytes. -/
def nameTooLong : ReadFailure := ⟨"File name too long", 36⟩

/-- The failure in words. -/
def message (failure : ReadFailure) : String :=
  s!"{failure.reason} (os error {failure.code})"

end ReadFailure

/-- The files of a folder and of the folders in it: the components of each path, and the
content. -/
structure Folder where
  files : List (List String × List UInt8)

namespace Folder

/-- The longest name that a component of a path may have, in bytes. -/
def maxName : Nat := 255

/-- The longest path, in bytes. -/
def maxPath : Nat := 4095

/-- The components of a path. -/
def components (path : String) : List String :=
  path.splitOn "/"

/-- The folder with these files, given by their paths. -/
def ofFiles (files : List (String × List UInt8)) : Folder :=
  ⟨files.map fun (path, content) ↦ (components path, content)⟩

/-- Follow components outside of the folder: nothing but folders above it is found there. -/
def readOutside : List String → ReadFailure
  | [] => .isDirectory
  | name :: rest =>
      if name = "" ∨ name = "." ∨ name = ".." then readOutside rest
      else if maxName < name.utf8ByteSize then .nameTooLong
      else .missing

/-- Follow components from the folder at `place`. -/
def readFrom (folder : Folder) : List String → List String → Except ReadFailure (List UInt8)
  | _, [] => .error .isDirectory
  | place, name :: rest =>
      if name = "" ∨ name = "." then readFrom folder place rest
      else if name = ".." then
        if place.isEmpty then .error (readOutside rest)
        else readFrom folder place.dropLast rest
      else if maxName < name.utf8ByteSize then .error .nameTooLong
      else
        let path := place ++ [name]
        match folder.files.lookup path with
        | some content => if rest.isEmpty then .ok content else .error .notDirectory
        | none =>
            if folder.files.any fun file ↦ path.isPrefixOf file.1 then readFrom folder path rest
            else .error .missing

/-- The content of the file at a path. -/
def read (folder : Folder) (path : String) : Except ReadFailure (List UInt8) :=
  if maxPath < path.utf8ByteSize then .error .nameTooLong
  else if path.startsWith "/" then .error (readOutside (components path))
  else folder.readFrom [] (components path)

end Folder

end AhoyScan
