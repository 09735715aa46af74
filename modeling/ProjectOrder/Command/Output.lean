import ProjectOrder.Command.Fault

/-!
# Output of commands

What a command prints, line by line, and how it ends. Results and faults go to streams of their own.
-/

namespace ProjectOrder

/-- A line of output, on the stream for results or on the one for faults. -/
inductive Line where
  | result (text : String)
  | fault (text : String)
deriving DecidableEq, Repr

namespace Line

/-- Something is as it should be. -/
def passed (text : String) : Line :=
  result ("✓ " ++ text)

/-- Something is not as it should be. -/
def failed (text : String) : Line :=
  result ("✗ " ++ text)

/-- Something unremarkable. -/
def remark (text : String) : Line :=
  result ("  " ++ text)

/-- Something named by a label. -/
def labelled (label text : String) : Line :=
  result (label ++ ": " ++ text)

/-- Something went wrong. -/
def error (text : String) : Line :=
  fault ("error: " ++ text)

/-- Something may be missed. -/
def warning (text : String) : Line :=
  fault ("Warning: " ++ text)

/-- The text of a line for results. -/
def result? : Line → Option String
  | result text => some text
  | fault _ => none

/-- The text of a line for faults. -/
def fault? : Line → Option String
  | result _ => none
  | fault text => some text

end Line

/-- What a command prints and how it ends. -/
structure Output where
  lines : List Line
  /-- Why the command ends without success. -/
  fault : Option CommandFault
deriving DecidableEq, Repr

namespace Output

/-- Nothing is printed, and the command fails. -/
def failed (fault : CommandFault) : Output := ⟨[], some fault⟩

/-- The lines are printed, and the command succeeds. -/
def succeeded (lines : List Line) : Output := ⟨lines, none⟩

/-- All that is printed on the stream for results. -/
def results (o : Output) : String :=
  String.join ((o.lines.filterMap Line.result?).map (· ++ "\n"))

/-- All that is printed on the stream for faults, short of the fault that ends the command. -/
def faults (o : Output) : String :=
  String.join ((o.lines.filterMap Line.fault?).map (· ++ "\n"))

/-- The exit status. -/
def exitStatus (o : Output) : Nat :=
  match o.fault with
  | some fault => fault.exitStatus
  | none => 0

end Output

end ProjectOrder
