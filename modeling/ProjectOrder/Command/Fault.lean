import ProjectOrder.Project.Failure

/-!
# Faults of commands

Why a command ends without success. The wording says what the user can mend; the exit status tells
scripts which kind of fault it was.
-/

namespace ProjectOrder

/-- Why a command ends without success. -/
inductive CommandFault where
  /-- The command fails as a whole. -/
  | failure (failure : Failure)
  /-- An operation on the settings file fails. -/
  | io (context : String)
  /-- The arguments can be read but not carried out. -/
  | invalidArguments (reason : String)
  /-- The command is asked for something that it does not do. -/
  | usage (reason : String)
  /-- Some files failed, the worst of them in this way. What each failed of has been told
  already. -/
  | files (failed : Nat) (worst : FailureKind)
  /-- A check found this many files out of order. -/
  | unsorted (count : Nat)
deriving DecidableEq, Repr

namespace CommandFault

/-- The wording of the fault. -/
def message : CommandFault → String
  | failure f => f.message
  | io context => "I/O error: " ++ context
  | invalidArguments reason => "invalid arguments: " ++ reason
  | usage reason => reason
  | files failed _ => s!"{failed} file(s) could not be processed"
  | unsorted count => s!"{count} file(s) out of order"

/-- The exit status of the fault. -/
def exitStatus : CommandFault → Nat
  | failure f => f.kind.exitStatus
  | io _ => FailureKind.io.exitStatus
  | invalidArguments _ | usage _ => 64
  | files _ worst => worst.exitStatus
  | unsorted _ => 1

end CommandFault

end ProjectOrder
