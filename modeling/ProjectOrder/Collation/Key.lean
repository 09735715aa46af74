import ProjectOrder.Document.Entry
import ProjectOrder.Collation.Compare

/-!
# The order of siblings

Entries of one child list are ordered by kind, then by name without regard to case, then by the
spelling of the name, then by the whole identifier in the same two ways. The name of a file is the
last segment of its path and the name of a folder is the list of its segments, so a folder is
followed by its subfolders.
-/

namespace ProjectOrder

/-- Whether a character separates the segments of an identifier. -/
def isSeparator (c : Char) : Bool :=
  c == '\\' || c == '/'

/-- The pieces between separators, empty ones included; there is always one. -/
def pieces : List Char → List (List Char)
  | [] => [[]]
  | c :: cs => if isSeparator c then [] :: pieces cs else (pieces cs).modifyHead (c :: ·)

/-- The segments of an identifier: its pieces that are not empty. -/
def segments (identifier : String) : List (List Char) :=
  (pieces identifier.toList).filter (· ≠ [])

/-- What an entry is ordered by. -/
structure Key where
  kind : EntryKind
  identifier : String
deriving DecidableEq, Repr

/-- The key of an entry. The enclosing folder plays no part in it. -/
def Entry.key (e : Entry) : Key := ⟨e.kind, e.identifier⟩

namespace Key

/-- The segments that make up the name: all of a folder's, the last of a file's. -/
def name (k : Key) : List (List Char) :=
  match k.kind with
  | .folder => segments k.identifier
  | .file => (segments k.identifier).getLast?.toList

/-- The order of two keys under a case order. -/
def compare (order : CaseOrder) (a b : Key) : Ordering :=
  (Ord.compare a.kind.rank b.kind.rank).then <|
  (a.name.compareLex compareFolded b.name).then <|
  (a.name.compareLex (compareCased order) b.name).then <|
  (compareFolded a.identifier.toList b.identifier.toList).then <|
  compareCased order a.identifier.toList b.identifier.toList

/-- Whether a key may stand before another. -/
def le (order : CaseOrder) (a b : Key) : Bool :=
  (compare order a b).isLE

/-- The keys in order; equal keys keep their relative order. -/
def sort (order : CaseOrder) (keys : List Key) : List Key :=
  keys.mergeSort (le order)

end Key

end ProjectOrder
