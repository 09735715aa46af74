import ProjectOrder.Text.Blank

/-!
# Case order

The one free choice in the order of entries: which of two spellings that differ only in letter case
comes first.
-/

namespace ProjectOrder

/-- How names that differ only in letter case are told apart. -/
inductive CaseOrder where
  /-- `A.cpp` before `a.cpp`. -/
  | upperFirst
  /-- `a.cpp` before `A.cpp`. -/
  | lowerFirst
deriving DecidableEq, Repr

namespace CaseOrder

/-- Uppercase first is the default. -/
instance : Inhabited CaseOrder := ⟨upperFirst⟩

/-- The name of a case order in settings and on the command line. -/
def name : CaseOrder → String
  | upperFirst => "upper_first"
  | lowerFirst => "lower_first"

/-- The case order of exactly this name. -/
def ofName? (s : String) : Option CaseOrder :=
  if s = "upper_first" then some upperFirst
  else if s = "lower_first" then some lowerFirst
  else none

/-- The spelling in which a name is looked up: no blanks around it, ASCII letters lowercase, and
`_` for `-`. -/
def normalize (s : String) : String :=
  String.ofList ((Text.strip Text.isBlank s.toList).map fun c =>
    if c = '-' then '_' else c.toLower)

/-- A text that names no case order, in its normalized spelling. -/
structure Unknown where
  text : String
deriving DecidableEq, Repr

/-- The wording of the error. -/
def Unknown.message (e : Unknown) : String :=
  s!"invalid case order '{e.text}' (expected upper_first or lower_first)"

/-- Read a case order, generous about blanks, letter case and dashes. -/
def parse (s : String) : Except Unknown CaseOrder :=
  match ofName? (normalize s) with
  | some order => .ok order
  | none => .error ⟨normalize s⟩

end CaseOrder

end ProjectOrder
