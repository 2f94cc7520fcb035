/-!
# File errors

Why a file or a directory cannot be used, as the system says it.
-/

set_option autoImplicit false

namespace BerRecords

inductive FileError where
  | notFound
  | found
  | notDirectory
  | isDirectory
  | nameTooLong
  | nulInName
  | notText
  | other (text : String)
  deriving DecidableEq, Repr

def FileError.text : FileError → String
  | notFound => "No such file or directory (os error 2)"
  | found => "File exists (os error 17)"
  | notDirectory => "Not a directory (os error 20)"
  | isDirectory => "Is a directory (os error 21)"
  | nameTooLong => "File name too long (os error 36)"
  | nulInName => "file name contained an unexpected NUL byte"
  | notText => "stream did not contain valid UTF-8"
  | other text => text

structure ListingError where
  directory : String
  cause : FileError
  deriving DecidableEq, Repr

end BerRecords
