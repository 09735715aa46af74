import ProjectOrder.Files.FileSystem

/-!
# Directory trees

A file system of directories and files without permissions or links: what the program meets when it
runs on a computer, down to the fault of each path. A path is walked from the root or from the
current directory, one piece after the other; a piece can only be taken from a directory, also an
empty one, so a path to a file must not end in a separator. At files that are apart a tree acts as a
`Disk`, which leaves all this open (`Tree.mirrors_toDisk`).
-/

namespace ProjectOrder

/-- A place in a tree: the names from the root down. -/
abbrev Location := List String

/-- A tree of directories and files. The root is always a directory. -/
structure Tree where
  directories : List Location
  files : List (Location × ByteArray)
  /-- The directory from which paths that are not absolute are counted. -/
  current : Location

namespace Tree

/-- What can stand at a place. -/
inductive Occupant where
  | directory
  | file (content : ByteArray)

/-- What stands at a place. -/
def at? (t : Tree) (l : Location) : Option Occupant :=
  if l = [] ∨ l ∈ t.directories then some .directory
  else (t.files.lookup l).map .file

/-- The place one piece further from a directory. -/
def enter (l : Location) (piece : List Char) : Location :=
  if piece = [] ∨ piece = ['.'] then l
  else if piece = ['.', '.'] then l.dropLast
  else l ++ [String.ofList piece]

/-- The longest name that a directory can hold, in bytes. -/
def nameLimit : Nat := 255

/-- A path is shorter than this, in bytes. -/
def pathLimit : Nat := 4096

/-- Whether a piece is too long for a name. -/
def isOverlong (piece : List Char) : Bool :=
  (String.ofList piece).utf8ByteSize > nameLimit

/-- The fault, if any, of a path that leads nowhere in any tree. -/
def pathFault? (p : FilePath) : Option IoFault :=
  if p.text.toList.contains '\x00' then some .invalidInput
  else if p.text = "" then some .notFound
  else if p.text.utf8ByteSize ≥ pathLimit then some .invalidFilename
  else none

/-- Walk on from a place. All but the last place on the way must be directories, and the last must
be there. -/
def walk (t : Tree) (l : Location) : List (List Char) → Except IoFault Location
  | [] =>
    match t.at? l with
    | some _ => .ok l
    | none => .error .notFound
  | piece :: rest =>
    match t.at? l with
    | some .directory =>
      if isOverlong piece then .error .invalidFilename else walk t (enter l piece) rest
    | some (.file _) => .error .notADirectory
    | none => .error .notFound

/-- Where a path is counted from. -/
def origin (t : Tree) (p : FilePath) : Location :=
  if p.isAbsolute then [] else t.current

/-- The place that a path leads to. -/
def resolve (t : Tree) (p : FilePath) : Except IoFault Location :=
  match pathFault? p with
  | some fault => .error fault
  | none => t.walk (t.origin p) (FilePath.split p.text.toList)

/-- Whether a path ends in a separator. -/
def isOpenEnded (p : FilePath) : Bool :=
  p.text.toList.getLast? = some '/'

/-- The directory that holds the end of a path, and the last piece. Separators at the end do not
count. -/
def resolveParent (t : Tree) (p : FilePath) : Except IoFault (Location × List Char) :=
  match pathFault? p with
  | some fault => .error fault
  | none =>
    let pieces := FilePath.split (p.text.toList.reverse.dropWhile (· = '/')).reverse
    match t.walk (t.origin p) pieces.dropLast with
    | .error fault => .error fault
    | .ok l =>
      match t.at? l, pieces.getLast? with
      | some .directory, some last =>
        if isOverlong last then .error .invalidFilename else .ok (l, last)
      | some (.file _), _ => .error .notADirectory
      | _, _ => .error .notFound

/-- A piece that leads to no new name. -/
def isIdle (piece : List Char) : Bool :=
  piece = [] || piece = ['.'] || piece = ['.', '.']

/-- The content of a file. -/
def read (t : Tree) (p : FilePath) : Except IoFault ByteArray :=
  match t.resolve p with
  | .error fault => .error fault
  | .ok l =>
    match t.at? l with
    | some (.file content) => .ok content
    | some .directory => .error .isADirectory
    | none => .error .notFound

/-- Whether a path leads anywhere. -/
def present (t : Tree) (p : FilePath) : Bool :=
  (t.resolve p).toBool

/-- Whether a path leads to a directory. -/
def isDirectory (t : Tree) (p : FilePath) : Bool :=
  match t.resolve p with
  | .error _ => false
  | .ok l =>
    match t.at? l with
    | some .directory => true
    | _ => false

/-- The tree with a file at a place. -/
def put (t : Tree) (l : Location) (content : ByteArray) : Tree :=
  { t with files := (l, content) :: t.files.filter (·.1 ≠ l) }

/-- The tree with a content written to a file, which is made if it is not there. -/
def write (t : Tree) (p : FilePath) (content : ByteArray) : Except IoFault Tree :=
  match t.resolveParent p with
  | .error fault => .error fault
  | .ok (l, last) =>
    if isIdle last ∨ isOpenEnded p then .error .isADirectory
    else
      match t.at? (enter l last) with
      | some .directory => .error .isADirectory
      | _ => .ok (t.put (enter l last) content)

/-- The directory beside a file, as its path is written. -/
def beside (p : FilePath) : FilePath :=
  match p.parent? with
  | some dir => if dir.text = "" then ⟨"."⟩ else dir
  | none => ⟨"."⟩

/-- The place that a content is moved to. A new file is made beside the old one first, so its
directory must be there before the path itself is looked at. -/
def target (t : Tree) (p : FilePath) : Except IoFault Location :=
  match t.resolve (beside p) with
  | .error fault => .error fault
  | .ok l =>
    match t.at? l with
    | some .directory =>
      match t.resolveParent p with
      | .error fault => .error fault
      | .ok (l, last) =>
        if isIdle last then .error .resourceBusy
        else if isOpenEnded p then .error .notADirectory
        else
          match t.at? (enter l last) with
          | some .directory => .error .isADirectory
          | _ => .ok (enter l last)
    | _ => .error .notADirectory

/-- The tree with a content moved into place. -/
def replace (t : Tree) (p : FilePath) (content : ByteArray) : Except IoFault Tree :=
  (t.target p).map (t.put · content)

/-- The tree with one more directory. -/
def createDirectory (t : Tree) (p : FilePath) : Except IoFault Tree :=
  match t.resolve p with
  | .ok _ => .error .alreadyExists
  | .error _ =>
    match t.resolveParent p with
    | .error fault => .error fault
    | .ok (l, last) =>
      if (t.at? (enter l last)).isSome then .error .alreadyExists
      else .ok { t with directories := enter l last :: t.directories }

/-- The tree with a directory and all that it lies in, given how many levels may be missing. A level
that is a directory already is no fault. -/
def createUpTo (levels : Nat) (t : Tree) (p : FilePath) : Except IoFault Tree :=
  let settle (t : Tree) (fault : IoFault) : Except IoFault Tree :=
    if t.isDirectory p then .ok t else .error fault
  if p.text = "" then .ok t
  else
    match t.createDirectory p with
    | .ok t => .ok t
    | .error .notFound =>
      match levels, p.parent? with
      | levels + 1, some parent =>
        match createUpTo levels t parent with
        | .error fault => .error fault
        | .ok t =>
          match t.createDirectory p with
          | .ok t => .ok t
          | .error fault => settle t fault
      | _, _ => .error .other
    | .error fault => settle t fault

/-- The tree with a directory and all that it lies in. -/
def createDirectories (t : Tree) (p : FilePath) : Except IoFault Tree :=
  createUpTo p.components.length t p

/-- The paths of the files under a path: the path itself if it is a file, and otherwise the path
with the names on the way to each file. -/
def filesUnder (t : Tree) (p : FilePath) : Except IoFault (List FilePath) :=
  match t.resolve p with
  | .error fault => .error fault
  | .ok l =>
    match t.at? l with
    | some .directory =>
      .ok (t.files.filterMap fun (place, _) =>
        if l.isPrefixOf place then some ((place.drop l.length).foldl FilePath.join p) else none)
    | some (.file _) => .ok [p]
    | none => .error .notFound

/-- A change of the tree as a step of the state. A fault leaves the tree as it is. -/
def step (change : Tree → Except IoFault Tree) : StateM Tree (Except IoFault Unit) :=
  fun t =>
    match change t with
    | .ok t' => (.ok (), t')
    | .error fault => (.error fault, t)

/-- The operations on a tree. -/
instance : FileSystem (StateM Tree) where
  read p := fun t => (t.read p, t)
  write p content := step (·.write p content)
  replace p content := step (·.replace p content)
  present p := fun t => (t.present p, t)
  isDirectory p := fun t => (t.isDirectory p, t)
  createDirectories p := step (·.createDirectories p)
  findFiles p extensions := fun t =>
    ((t.filesUnder p).map (·.filter (FileSystem.hasExtension extensions)), t)

end Tree

end ProjectOrder
