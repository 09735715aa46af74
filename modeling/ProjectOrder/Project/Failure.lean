import ProjectOrder.Document.Parser
import ProjectOrder.Document.Printer
import ProjectOrder.Files.FileSystem
import ProjectOrder.Settings.Fault

/-!
# Failures

Why a file, or a whole command, is not processed. Every failure is of one of five kinds; the kind
leads its wording and decides the exit status.
-/

namespace ProjectOrder

/-- The kinds of failure. -/
inductive FailureKind where
  | notFound
  | malformedInput
  | io
  | config
  | serialization
deriving DecidableEq, Repr

namespace FailureKind

/-- How bad a kind is, beside the others. -/
def rank : FailureKind → Nat
  | notFound => 0
  | malformedInput => 1
  | io => 2
  | config => 3
  | serialization => 4

/-- The worse of two kinds. -/
def worse (a b : FailureKind) : FailureKind :=
  if a.rank < b.rank then b else a

/-- What the wording begins with. -/
def lead : FailureKind → String
  | notFound => "file not found: "
  | malformedInput => "malformed input: "
  | io => "operation failed: "
  | config => "config error: "
  | serialization => "cannot serialize document: "

/-- The wording of a failure of this kind. -/
def describe (kind : FailureKind) (detail : String) : String :=
  kind.lead ++ detail

/-- The exit status. -/
def exitStatus : FailureKind → Nat
  | notFound => 66
  | malformedInput => 65
  | io => 74
  | config => 78
  | serialization => 70

end FailureKind

/-- Why a file is not processed. -/
inductive Failure where
  | notFound (path : FilePath)
  | malformed (fault : ParseFault)
  | unwritable (fault : WriteFault)
  /-- The output could not be read back. -/
  | outputMalformed (fault : ParseFault)
  /-- The output has other entries than the input; how many there are of each. -/
  | entriesChanged (before after : Nat)
  /-- An operation on files failed for another reason than a missing file. -/
  | operation (action : String) (path : FilePath)
  | settings (fault : SettingsFault)
deriving DecidableEq, Repr

namespace Failure

/-- The kind of a failure. -/
def kind : Failure → FailureKind
  | notFound _ => .notFound
  | malformed _ => .malformedInput
  | unwritable _ | outputMalformed _ | entriesChanged .. => .serialization
  | operation .. => .io
  | settings _ => .config

/-- The wording without the lead of the kind. -/
def detail : Failure → String
  | notFound path => path.text
  | malformed fault => fault.message
  | unwritable fault => fault.message
  | outputMalformed fault =>
    "output does not parse back: " ++ FailureKind.malformedInput.describe fault.message
  | entriesChanged before after =>
    s!"entry set changed during sort ({before} entries before, {after} after)"
  | operation action path => s!"{action}: {path.text}"
  | settings fault => fault.message

/-- The wording of a failure. -/
def message (f : Failure) : String :=
  f.kind.describe f.detail

/-- The failure that a fault of an operation on a path amounts to. -/
def ofIo (action : String) (path : FilePath) : IoFault → Failure
  | .notFound => notFound path
  | _ => operation action path

end Failure

end ProjectOrder
