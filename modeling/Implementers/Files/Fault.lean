namespace Implementers

/-!
# Faults of file access

Why a path could not be followed, listed or read.
-/

/-- Why a file or a directory could not be reached or read. -/
inductive FileFault where
  | notFound
  | notDirectory
  | isDirectory
  | tooManyLinks
  | nameTooLong
  | nulInName
  | undecodable
  | linkLoop
  | other (message : String)
  deriving Repr, DecidableEq

namespace FileFault

/-- The wording of a fault. -/
def message : FileFault → String
  | notFound => "No such file or directory (os error 2)"
  | notDirectory => "Not a directory (os error 20)"
  | isDirectory => "Is a directory (os error 21)"
  | tooManyLinks => "Too many levels of symbolic links (os error 40)"
  | nameTooLong => "File name too long (os error 36)"
  | nulInName => "file name contained an unexpected NUL byte"
  | undecodable => "stream did not contain valid UTF-8"
  | linkLoop => "filesystem loop detected"
  | other message => message

end FileFault

end Implementers
