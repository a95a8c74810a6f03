/-!
# Failures of files

Why a path cannot be read or written.
-/

namespace HomeHub

inductive FileError where
  | notFound
  | isADirectory
  | notADirectory
  | alreadyExists
  /-- The bytes are no text. -/
  | invalidData
  /-- The path holds a NUL. -/
  | invalidInput
  | nameTooLong
  | permissionDenied
  | other
  deriving DecidableEq

def FileError.message : FileError → String
  | .notFound => "no such file or directory"
  | .isADirectory => "is a directory"
  | .notADirectory => "not a directory"
  | .alreadyExists => "file exists"
  | .invalidData => "stream did not contain valid UTF-8"
  | .invalidInput => "file name contained a NUL"
  | .nameTooLong => "file name too long"
  | .permissionDenied => "permission denied"
  | .other => "file operation failed"

end HomeHub
