/-!
# Tables

The values of a TOML document and the tables that its statements build up. A table may be named in
several ways, and how it came about decides what may still be added to it: each table is opened by
one header at most, and dotted keys add only to tables that dotted keys made.
-/

namespace ProjectOrder.Toml

/-- How a table came about. -/
inductive Origin where
  /-- By a header of its own, or as the whole document. -/
  | header
  /-- As part of the path in a header. -/
  | implied
  /-- As part of a dotted key. -/
  | dotted
  /-- Written out as a value; nothing can be added. -/
  | inline
deriving DecidableEq, Repr

/-- A value. Floats and moments in time are kept as they are written. -/
inductive Item where
  | string (s : String)
  | boolean (b : Bool)
  | integer (n : Int)
  | float (text : String)
  | moment (text : String)
  | array (items : List Item)
  | table (origin : Origin) (entries : List (String × Item))
  /-- The tables of a repeated header. -/
  | tables (elements : List (List (String × Item)))
deriving Repr

/-- The entries of a table, in the order in which they were made. -/
abbrev Entries := List (String × Item)

namespace Entries

/-- The entries with the item of a key replaced, or added at the end. -/
def set (es : Entries) (key : String) (item : Item) : Entries :=
  match es with
  | [] => [(key, item)]
  | e :: es => if e.1 = key then (key, item) :: es else e :: set es key item

/-- Change the table at the end of a path, making the tables on the way. With `dotted` the path is
that of a dotted key and otherwise that of a header. -/
def descend (dotted : Bool) (change : Origin → Entries → Option Entries) (origin : Origin)
    (es : Entries) : List String → Option Entries
  | [] => change origin es
  | key :: path =>
    match es.lookup key with
    | none =>
      let made := if dotted then Origin.dotted else .implied
      (descend dotted change made [] path).map fun inner => set es key (.table made inner)
    | some (.table inner entries) =>
      if inner = .inline ∨ (dotted ∧ inner = .header) then none
      else (descend dotted change inner entries path).map fun new => set es key (.table inner new)
    | some (.tables elements) =>
      match elements.reverse with
      | last :: before =>
        (descend dotted change .header last path).map fun new =>
          set es key (.tables (new :: before).reverse)
      | [] => none
    | some _ => none

/-- Add a pair, whose key may be dotted. The path before the last key must end at a table of dotted
keys, if there is one. -/
def addPair (es : Entries) (path : List String) (item : Item) : Option Entries :=
  match path.getLast? with
  | none => none
  | some key =>
    descend true (fun origin inner =>
      if origin = .dotted ↔ path.length = 1 then none
      else if (inner.lookup key).isSome then none
      else some (set inner key item)) .header es path.dropLast

/-- Open the table of a header. -/
def openTable (es : Entries) (path : List String) : Option Entries :=
  match path.getLast? with
  | none => none
  | some key =>
    descend false (fun _ inner =>
      match inner.lookup key with
      | none => some (set inner key (.table .header []))
      | some (.table .implied entries) => some (set inner key (.table .header entries))
      | some _ => none) .header es path.dropLast

/-- Open one more table of a repeated header. -/
def openRepeated (es : Entries) (path : List String) : Option Entries :=
  match path.getLast? with
  | none => none
  | some key =>
    descend false (fun _ inner =>
      match inner.lookup key with
      | none => some (set inner key (.tables [[]]))
      | some (.tables elements) => some (set inner key (.tables (elements ++ [[]])))
      | some _ => none) .header es path.dropLast

end Entries

/-- A statement of a document. -/
inductive Statement where
  | header (path : List String)
  | element (path : List String)
  | pair (path : List String) (item : Item)
deriving Repr

/-- The document so far, and the path of the table that pairs are added to. -/
structure Build where
  entries : Entries
  current : List String

/-- Take in one statement. -/
def Build.step (b : Build) : Statement → Option Build
  | .header path => (b.entries.openTable path).map fun es => ⟨es, path⟩
  | .element path => (b.entries.openRepeated path).map fun es => ⟨es, path⟩
  | .pair path item =>
    (Entries.descend false (fun _ inner => Entries.addPair inner path item) .header b.entries
      b.current).map fun es => { b with entries := es }

/-- The top-level table of a document. -/
def ofStatements (statements : List Statement) : Option Entries :=
  (statements.foldlM Build.step ⟨[], []⟩).map (·.entries)

end ProjectOrder.Toml
