/-!
Why an operation on files fails.
-/

namespace Letterpress.Files

inductive Failure where
  | notFound
  | isADirectory
  | notADirectory
  | alreadyExists
  /-- The content is no text. -/
  | invalidData
  /-- A name or a path is too long. -/
  | invalidFilename
  /-- A path holds a character that no file system accepts. -/
  | invalidInput
  | directoryNotEmpty
  deriving DecidableEq, Repr

def Failure.kind : Failure → String
  | .notFound => "NotFound"
  | .isADirectory => "IsADirectory"
  | .notADirectory => "NotADirectory"
  | .alreadyExists => "AlreadyExists"
  | .invalidData => "InvalidData"
  | .invalidFilename => "InvalidFilename"
  | .invalidInput => "InvalidInput"
  | .directoryNotEmpty => "DirectoryNotEmpty"

def Failure.description : Failure → String
  | .notFound => "No such file or directory"
  | .isADirectory => "Is a directory"
  | .notADirectory => "Not a directory"
  | .alreadyExists => "File exists"
  | .invalidData => "stream did not contain valid UTF-8"
  | .invalidFilename => "File name too long"
  | .invalidInput => "file name contained an unexpected NUL byte"
  | .directoryNotEmpty => "Directory not empty"

/-- The operating system's number for a failure; failures that are found without asking
the operating system have none. -/
def Failure.code? : Failure → Option Nat
  | .notFound => some 2
  | .isADirectory => some 21
  | .notADirectory => some 20
  | .alreadyExists => some 17
  | .invalidData => none
  | .invalidFilename => some 36
  | .invalidInput => none
  | .directoryNotEmpty => some 39

def Failure.message (failure : Failure) : String :=
  match failure.code? with
  | some code => s!"{failure.description} (os error {code})"
  | none => failure.description

end Letterpress.Files
