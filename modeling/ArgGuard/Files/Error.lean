import ArgGuard.Text.Basic

/-!
# File errors

The reasons for which an operation on files fails, with the words that report them.
-/

namespace ArgGuard

/-- Why an operation on files fails. -/
inductive FileError where
  /-- Nothing is there. -/
  | notFound
  /-- Something is there already. -/
  | alreadyExists
  /-- A path leads through something that is no directory. -/
  | notDirectory
  /-- A directory stands where a file is needed. -/
  | isDirectory
  /-- A path or one of its names is too long. -/
  | nameTooLong
  /-- A path holds a null character. -/
  | nullInPath
  /-- A content is not UTF-8 text. -/
  | notUtf8
  /-- Any other reason, in the system's words. -/
  | other (reason : Text)
  deriving DecidableEq, Repr

/-- The words that report a file error. -/
def FileError.message : FileError → Text
  | notFound => "No such file or directory (os error 2)"
  | alreadyExists => "File exists (os error 17)"
  | notDirectory => "Not a directory (os error 20)"
  | isDirectory => "Is a directory (os error 21)"
  | nameTooLong => "File name too long (os error 36)"
  | nullInPath => "file name contained an unexpected NUL byte"
  | notUtf8 => "stream did not contain valid UTF-8"
  | other reason => reason

end ArgGuard
