import ProjectOrder.Files.FilePath

/-!
# File systems

The operations on files that the program needs, and the ways in which they fail. The operations are
those of a monad, so one definition of the program serves a computer's files and models of them.
-/

namespace ProjectOrder

/-- Why an operation on files fails. -/
inductive IoFault where
  | notFound
  | permissionDenied
  | alreadyExists
  | notADirectory
  | isADirectory
  | resourceBusy
  | interrupted
  /-- A path holds a null character. -/
  | invalidInput
  /-- A path, or a name in it, is too long. -/
  | invalidFilename
  | other
deriving DecidableEq, Repr

/-- The wording of the system, with its number for the fault. -/
def IoFault.message : IoFault → String
  | notFound => "No such file or directory (os error 2)"
  | permissionDenied => "Permission denied (os error 13)"
  | alreadyExists => "File exists (os error 17)"
  | notADirectory => "Not a directory (os error 20)"
  | isADirectory => "Is a directory (os error 21)"
  | resourceBusy => "Device or resource busy (os error 16)"
  | interrupted => "Interrupted system call (os error 4)"
  | invalidInput => "file name contained an unexpected NUL byte"
  | invalidFilename => "File name too long (os error 36)"
  | other => "other error"

/-- A monad with operations on files. -/
class FileSystem (m : Type → Type) where
  /-- The content of a file. -/
  read : FilePath → m (Except IoFault ByteArray)
  /-- Give a file a content. -/
  write : FilePath → ByteArray → m (Except IoFault Unit)
  /-- Give a file a content so that a reader sees either the old one or the new one. -/
  replace : FilePath → ByteArray → m (Except IoFault Unit)
  /-- Whether there is anything at a path. -/
  present : FilePath → m Bool
  /-- Whether there is a directory at a path. -/
  isDirectory : FilePath → m Bool
  /-- Make a directory and those it lies in. -/
  createDirectories : FilePath → m (Except IoFault Unit)
  /-- The files under a path whose extension is in a list, whatever its letter case. -/
  findFiles : FilePath → List String → m (Except IoFault (List FilePath))

namespace FileSystem

/-- Whether the extension of a path is in a list, without regard to the case of ASCII letters. -/
def hasExtension (extensions : List String) (p : FilePath) : Bool :=
  match p.extension? with
  | some e => extensions.any fun x => x.toList.map Char.toLower = e.toList.map Char.toLower
  | none => false

end FileSystem

end ProjectOrder
