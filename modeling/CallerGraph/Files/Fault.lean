/-!
# What can go wrong with a file
-/

namespace CallerGraph

/-- Why an operation on a file or a directory failed. -/
inductive Fault where
  | missing
  | alreadyExists
  | notDirectory
  | isDirectory
  | nameTooLong
  /-- The content is not text in UTF-8. -/
  | notText
  /-- The name holds the character NUL. -/
  | nulInName
  | other (message : String)
deriving DecidableEq, Repr, Inhabited

namespace Fault

/-- The wording of a fault. -/
def message : Fault → String
  | missing => "No such file or directory (os error 2)"
  | alreadyExists => "File exists (os error 17)"
  | notDirectory => "Not a directory (os error 20)"
  | isDirectory => "Is a directory (os error 21)"
  | nameTooLong => "File name too long (os error 36)"
  | notText => "stream did not contain valid UTF-8"
  | nulInName => "file name contained an unexpected NUL byte"
  | other message => message

end Fault

end CallerGraph
