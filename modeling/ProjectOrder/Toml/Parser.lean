import ProjectOrder.Toml.Number
import ProjectOrder.Toml.Quoted
import ProjectOrder.Toml.Table

/-!
# Reading TOML

A document is a sequence of lines, each of them empty, a header or a pair. `parse?` answers its
top-level table, or `none` if the text is no document.
-/

namespace ProjectOrder.Toml

open Quoted (isBlank afterNewline?)

/-- How deep values may be nested, and how many keys a dotted key may have, is less than this. -/
def nestingLimit : Nat := 80

/-- A character of a key without quotes. -/
def isBareKeyChar (c : Char) : Bool :=
  c.isAlphanum || c = '_' || c = '-'

/-- A key without dots, and the text after it. -/
def simpleKey? (cs : List Char) : Option (String × List Char) :=
  match cs with
  | [] => none
  | c :: _ =>
    if c = '"' ∨ c = '\'' then
      (Quoted.line? cs).map fun (key, rest) => (String.ofList key, rest)
    else
      let key := cs.takeWhile isBareKeyChar
      if key = [] then none else some (String.ofList key, cs.dropWhile isBareKeyChar)

/-- A key with its dots, blanks around them, and the text after it. -/
def dottedKey? : Nat → List Char → Option (List String × List Char)
  | 0, _ => none
  | fuel + 1, cs => do
    let (key, rest) ← simpleKey? (cs.dropWhile isBlank)
    match rest.dropWhile isBlank with
    | '.' :: rest =>
      let (keys, rest) ← dottedKey? fuel rest
      return (key :: keys, rest)
    | rest => return ([key], rest)

/-- A key of a pair or a header, and the text after it. -/
def key? (cs : List Char) : Option (List String × List Char) :=
  (dottedKey? (cs.length + 1) cs).filter (·.1.length < nestingLimit)

/-- The text after a comment, if there is one: up to the end of the line. -/
def skipComment : List Char → List Char
  | '#' :: cs => cs.dropWhile Quoted.isPlain
  | cs => cs

/-- The text after blanks, comments and line ends. -/
def skipLines : Nat → List Char → List Char
  | 0, cs => cs
  | fuel + 1, cs =>
    let cs := skipComment (cs.dropWhile isBlank)
    match afterNewline? cs with
    | some cs => skipLines fuel cs
    | none => cs

/-- The text after what may stand between the items of an array. -/
def skipGap (cs : List Char) : List Char :=
  skipLines (cs.length + 1) cs

/-- The item of a scalar. -/
def Item.ofScalar : Number.Scalar → Item
  | .integer n => .integer n
  | .float text => .float text
  | .moment text => .moment text

mutual

/-- A value and the text after it. -/
def value? (fuel nesting : Nat) (cs : List Char) : Option (Item × List Char) :=
  match fuel with
  | 0 => none
  | fuel + 1 =>
    match cs with
    | '"' :: _ | '\'' :: _ =>
      (Quoted.string? cs).map fun (s, rest) => (.string (String.ofList s), rest)
    | 't' :: 'r' :: 'u' :: 'e' :: rest => some (.boolean true, rest)
    | 'f' :: 'a' :: 'l' :: 's' :: 'e' :: rest => some (.boolean false, rest)
    | '[' :: rest =>
      if nesting + 1 < nestingLimit then
        (items? fuel (nesting + 1) (skipGap rest)).map fun (items, rest) => (.array items, rest)
      else none
    | '\x7b' :: rest =>
      if nesting + 1 < nestingLimit then
        match rest.dropWhile isBlank with
        | '\x7d' :: rest => some (.table .inline [], rest)
        | rest =>
          (pairs? fuel (nesting + 1) [] rest).map fun (entries, rest) =>
            (.table .inline entries, rest)
      else none
    | cs => (Number.scalar? cs).map fun (s, rest) => (.ofScalar s, rest)

/-- The items of an array up to its closing bracket, and the text after it. -/
def items? (fuel nesting : Nat) (cs : List Char) : Option (List Item × List Char) :=
  match fuel with
  | 0 => none
  | fuel + 1 =>
    match cs with
    | ']' :: rest => some ([], rest)
    | cs => do
      let (item, rest) ← value? fuel nesting cs
      match skipGap rest with
      | ']' :: rest => return ([item], rest)
      | ',' :: rest =>
        let (items, rest) ← items? fuel nesting (skipGap rest)
        return (item :: items, rest)
      | _ => none

/-- The pairs of an inline table up to its closing brace, and the text after it. -/
def pairs? (fuel nesting : Nat) (entries : Entries) (cs : List Char) :
    Option (Entries × List Char) :=
  match fuel with
  | 0 => none
  | fuel + 1 => do
    let (path, rest) ← key? cs
    let rest ← Number.expect? '=' rest
    let (item, rest) ← value? fuel nesting (rest.dropWhile isBlank)
    let entries ← entries.addPair path item
    match rest.dropWhile isBlank with
    | '\x7d' :: rest => return (entries, rest)
    | ',' :: rest => pairs? fuel nesting entries rest
    | _ => none

end

/-- The text after the end of a line, which may hold a comment and may be that of the document. -/
def afterLine? (cs : List Char) : Option (List Char) :=
  match skipComment (cs.dropWhile isBlank) with
  | [] => some []
  | cs => afterNewline? cs

/-- A header, given the text after its opening brackets, and the text after its line. -/
def header? (closing : List Char) (cs : List Char) : Option (List String × List Char) := do
  let (path, rest) ← key? cs
  if closing.isPrefixOf rest then
    return (path, ← afterLine? (rest.drop closing.length))
  else none

/-- A line that is not empty: its statement, and the text after it. -/
def statement? (cs : List Char) : Option (Statement × List Char) :=
  match cs with
  | '[' :: '[' :: cs => (header? [']', ']'] cs).map fun (path, rest) => (.element path, rest)
  | '[' :: cs => (header? [']'] cs).map fun (path, rest) => (.header path, rest)
  | cs => do
    let (path, rest) ← key? cs
    let rest ← Number.expect? '=' rest
    let rest := rest.dropWhile isBlank
    let (item, rest) ← value? (rest.length + 1) 0 rest
    return (.pair path item, ← afterLine? rest)

/-- The statements of a text. -/
def statements? : Nat → List Char → Option (List Statement)
  | 0, _ => none
  | fuel + 1, cs =>
    match skipGap cs with
    | [] => some []
    | cs => do
      let (s, rest) ← statement? cs
      return s :: (← statements? fuel rest)

/-- The top-level table of a document. A byte order mark in front does not count. -/
def parse? (text : String) : Option Entries :=
  let cs := text.toList
  let cs := if cs.head? = some '\uFEFF' then cs.tail else cs
  (statements? (cs.length + 1) cs).bind ofStatements

end ProjectOrder.Toml
