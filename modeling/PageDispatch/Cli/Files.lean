/-!
This module contains the files that the program may read.
-/

namespace PageDispatch
namespace Cli

inductive FileError where
  | missing
  /-- Something on the way to the file is no directory. -/
  | notDirectory
  | isDirectory
  | longName
  | notText
  | other (message : String)
  deriving DecidableEq, Repr

namespace FileError

def message : FileError → String
  | missing => "No such file or directory (os error 2)"
  | notDirectory => "Not a directory (os error 20)"
  | isDirectory => "Is a directory (os error 21)"
  | longName => "File name too long (os error 36)"
  | notText => "stream did not contain valid UTF-8"
  | other message => message

end FileError

abbrev Files := String → Except FileError String

end Cli
end PageDispatch
