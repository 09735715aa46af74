/-!
# File paths

Paths as texts, and the components that they are made of. Two paths are the same if their components
are: repeated separators, and `.` anywhere but in front, make no difference. Paths are ordered
component by component.
-/

namespace ProjectOrder

/-- A path as it is written. -/
structure FilePath where
  text : String
deriving DecidableEq, Repr

namespace FilePath

/-- A part of a path. -/
inductive Component where
  /-- The separator that an absolute path begins with. -/
  | root
  /-- A `.` in front. -/
  | current
  /-- A `..`. -/
  | parent
  | name (chars : List Char)
deriving DecidableEq, Repr

/-- The pieces between separators, empty ones included; there is always one. -/
def split : List Char → List (List Char)
  | [] => [[]]
  | c :: cs => if c = '/' then [] :: split cs else (split cs).modifyHead (c :: ·)

/-- The text of some pieces with separators between them. -/
def joined (pieces : List (List Char)) : String :=
  String.ofList (List.intercalate ['/'] pieces)

/-- Whether a path is counted from the root. -/
def isAbsolute (p : FilePath) : Bool :=
  p.text.toList.head? = some '/'

/-- What a piece that is not in front contributes. -/
def Component.ofPiece? (piece : List Char) : Option Component :=
  if piece = [] ∨ piece = ['.'] then none
  else if piece = ['.', '.'] then some .parent
  else some (.name piece)

/-- The components of a path. -/
def components (p : FilePath) : List Component :=
  match split p.text.toList with
  | [] => []
  | front :: rest =>
    let first :=
      if front = ['.'] then some .current
      else if p.isAbsolute then some .root
      else Component.ofPiece? front
    first.toList ++ rest.filterMap Component.ofPiece?

/-- Whether two paths have the same components. -/
def same (p q : FilePath) : Bool :=
  p.components = q.components

/-- The place of a component's kind in the order. -/
def Component.rank : Component → Nat
  | root => 0
  | current => 1
  | parent => 2
  | name _ => 3

/-- The order of components: by kind, and names by their characters. -/
def Component.compare (a b : Component) : Ordering :=
  match a, b with
  | name s, name t => s.compareLex Ord.compare t
  | a, b => Ord.compare a.rank b.rank

/-- The order of paths. -/
def compare (p q : FilePath) : Ordering :=
  p.components.compareLex Component.compare q.components

/-- The last component, if it is a name. -/
def fileName? (p : FilePath) : Option String :=
  match p.components.getLast? with
  | some (.name s) => some (String.ofList s)
  | _ => none

/-- What follows the last dot of the file name. A dot in front does not count. -/
def extension? (p : FilePath) : Option String :=
  p.fileName?.bind fun name =>
    let reversed := name.toList.reverse
    let after := reversed.takeWhile (· ≠ '.')
    match reversed.dropWhile (· ≠ '.') with
    | '.' :: _ :: _ => some (String.ofList after.reverse)
    | _ => none

/-- Pieces in reverse, without those at the end that add nothing. The front piece stays. -/
def dropIdle : List (List Char) → List (List Char)
  | piece :: next :: rest =>
    if piece = [] ∨ piece = ['.'] then dropIdle (next :: rest) else piece :: next :: rest
  | pieces => pieces

/-- The path without its last component. The root and the empty path have no parent. -/
def parent? (p : FilePath) : Option FilePath :=
  match dropIdle (split p.text.toList).reverse with
  | [] | [[]] => none
  | _ :: before =>
    match dropIdle before with
    | [[]] => some ⟨"/"⟩
    | pieces => some ⟨joined pieces.reverse⟩

/-- A path inside a directory. An absolute path is taken alone. -/
def join (dir : FilePath) (name : String) : FilePath :=
  if isAbsolute ⟨name⟩ ∨ dir.text = "" then ⟨name⟩
  else if dir.text.toList.getLast? = some '/' then ⟨dir.text ++ name⟩
  else ⟨dir.text ++ "/" ++ name⟩

end FilePath

end ProjectOrder
