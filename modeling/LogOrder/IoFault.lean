/-!
# Failures of files and streams

What can go wrong with a file or a stream, by cause. The wording names the number by which the
operating system knows the cause.
-/

namespace LogOrder

/-- Why a file or stream cannot be used any further. -/
inductive IoFault where
  /-- There is no such file. -/
  | notFound
  /-- A name on the way to the file is that of something else than a directory. -/
  | notDirectory
  /-- The name is that of a directory. -/
  | isDirectory
  /-- A name is longer than any file's. -/
  | nameTooLong
  /-- Nobody reads what is written. -/
  | brokenPipe
  /-- The bytes are not UTF-8. -/
  | notUtf8
  /-- A cause in the words of whoever runs the stream. -/
  | other (text : String)
deriving DecidableEq, Repr

/-- The wording of a cause. -/
def IoFault.message : IoFault → String
  | .notFound => "No such file or directory (os error 2)"
  | .notDirectory => "Not a directory (os error 20)"
  | .isDirectory => "Is a directory (os error 21)"
  | .nameTooLong => "File name too long (os error 36)"
  | .brokenPipe => "Broken pipe (os error 32)"
  | .notUtf8 => "stream did not contain valid UTF-8"
  | .other text => text

end LogOrder
