/-!
# WikiPress.Files.Error

The ways an operation on files fails, with the operating system's words for them.
-/

namespace WikiPress.Files

/-- Why an operation on files failed. -/
inductive FileError
  | noSuchFile
  | permissionDenied
  | busy
  | alreadyExists
  | notADirectory
  | isADirectory
  | nameTooLong
  | tooManyLinks
  /-- The path has a character no path can have. -/
  | unusablePath
  /-- The file's bytes are no text. -/
  | notText
  /-- Only regular files can be copied. -/
  | notRegular
  deriving DecidableEq, Repr

/-- What is said about a failure. -/
def FileError.message : FileError → String
  | .noSuchFile => "No such file or directory (os error 2)"
  | .permissionDenied => "Permission denied (os error 13)"
  | .busy => "Device or resource busy (os error 16)"
  | .alreadyExists => "File exists (os error 17)"
  | .notADirectory => "Not a directory (os error 20)"
  | .isADirectory => "Is a directory (os error 21)"
  | .nameTooLong => "File name too long (os error 36)"
  | .tooManyLinks => "Too many levels of symbolic links (os error 40)"
  | .unusablePath => "file name contained an unexpected NUL byte"
  | .notText => "stream did not contain valid UTF-8"
  | .notRegular => "the source path is neither a regular file nor a symlink to a regular file"

end WikiPress.Files
