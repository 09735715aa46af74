/-!
# Entries

What a project document lists: folders and the files filed under them.
-/

namespace ProjectOrder

/-- The two kinds of entry. -/
inductive EntryKind where
  | folder
  | file
deriving DecidableEq, Repr

/-- Folders come before files. -/
def EntryKind.rank : EntryKind → Nat
  | .folder => 0
  | .file => 1

/-- Different kinds of entry have different ranks. -/
theorem EntryKind.rank_inj {j k : EntryKind} (h : j.rank = k.rank) : j = k := by
  cases j <;> cases k <;> simp_all [rank]

/-- A folder or file reference of a document. -/
structure Entry where
  kind : EntryKind
  /-- The path of a file or the name of a folder, with its references resolved. -/
  identifier : String
  /-- The enclosing folder by name, where the document records one. -/
  folder : Option String
deriving DecidableEq, Repr

namespace Entry

/-- The order in which entries are listed to be compared: by kind, identifier and folder, those
without a folder first. -/
def compare (a b : Entry) : Ordering :=
  (Ord.compare a.kind.rank b.kind.rank).then <|
  (Ord.compare a.identifier b.identifier).then <|
  Ord.compare a.folder b.folder

/-- All of some entries, in an order that does not tell where they stood. -/
def inventory (es : List Entry) : List Entry :=
  es.mergeSort fun a b => (compare a b).isLE

end Entry

end ProjectOrder
