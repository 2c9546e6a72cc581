/-!
# Input and output errors

An error of a sink or of the disk has a kind, by which a caller decides what to do, and a message
for people. The errors the library raises itself are the constants of this module; a sink may bring
errors of its own.
-/

namespace JavaResources

/-- What went wrong, as far as a caller can act on it. -/
inductive IoError.Kind where
  | notFound
  | alreadyExists
  | notADirectory
  | isADirectory
  | invalidFilename
  | invalidInput
  | invalidData
  | writeZero
  | storageFull
  | brokenPipe
  | permissionDenied
  | wouldBlock
  | timedOut
  | other
  deriving DecidableEq, Repr

/-- An input or output error: its kind, and its message. -/
structure IoError where
  kind : IoError.Kind
  message : String
  deriving DecidableEq, Repr

namespace IoError

/-- A component of the path does not exist. -/
def notFound : IoError :=
  ⟨.notFound, "No such file or directory (os error 2)"⟩

/-- Something already has the name that was to be created. -/
def alreadyExists : IoError :=
  ⟨.alreadyExists, "File exists (os error 17)"⟩

/-- A path goes on below something that is not a directory. -/
def notADirectory : IoError :=
  ⟨.notADirectory, "Not a directory (os error 20)"⟩

/-- A directory stands where a file is needed. -/
def isADirectory : IoError :=
  ⟨.isADirectory, "Is a directory (os error 21)"⟩

/-- A path or one of its components is longer than the file system allows. -/
def nameTooLong : IoError :=
  ⟨.invalidFilename, "File name too long (os error 36)"⟩

/-- A path holds the character NUL, which no file name can. -/
def nulInPath : IoError :=
  ⟨.invalidInput, "file name contained an unexpected NUL byte"⟩

/-- The bytes of a file are not UTF-8, so they are no text. -/
def notUtf8 : IoError :=
  ⟨.invalidData, "stream did not contain valid UTF-8"⟩

/-- A sink reported success without taking a byte of a non-empty buffer. -/
def writeZero : IoError :=
  ⟨.writeZero, "failed to write whole buffer"⟩

end IoError

end JavaResources
