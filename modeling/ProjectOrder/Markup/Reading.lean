import ProjectOrder.Markup.Token

/-!
# Reading markup

A text is read token by token until it ends or a fault stops the reading; the tokens before the
fault are kept. Besides what a single token shows, reading checks that every end tag names the
element that is open.
-/

namespace ProjectOrder.Markup

/-- What stops the reading of a text. -/
inductive ReadFault where
  | token (fault : TokenFault)
  /-- An end tag that names another element than the open one. -/
  | mismatchedClose (expected found : List Char)
  /-- An end tag with no element open. -/
  | unmatchedClose (found : List Char)
deriving DecidableEq, Repr

/-- The wording of the fault. -/
def ReadFault.message : ReadFault → String
  | token fault => fault.message
  | mismatchedClose expected found =>
    "ill-formed document: expected `</" ++ String.ofList expected ++ ">`, but `</" ++
      String.ofList found ++ ">` was found"
  | unmatchedClose found =>
    "ill-formed document: close tag `</" ++ String.ofList found ++ ">` does not match any open tag"

/-- The names of the open elements after a token, innermost first. -/
def Token.nest (names : List (List Char)) : Token → Except ReadFault (List (List Char))
  | openTag content => .ok (tagName content :: names)
  | closeTag found =>
    match names with
    | [] => .error (.unmatchedClose found)
    | expected :: names =>
      if found = expected then .ok names else .error (.mismatchedClose expected found)
  | emptyTag _ | leaf _ _ => .ok names

/-- The tokens of a text up to its end or to the first fault. -/
structure Reading where
  tokens : List Token
  fault : Option ReadFault
deriving DecidableEq, Repr

namespace Reading

/-- The reading of a text inside elements of the given names. -/
def within (names : List (List Char)) (cs : List Char) : Reading :=
  match cs with
  | [] => ⟨[], none⟩
  | c :: cs =>
    match _h : Token.next? c cs with
    | .error fault => ⟨[], some (.token fault)⟩
    | .ok (t, rest) =>
      match t.nest names with
      | .error fault => ⟨[], some fault⟩
      | .ok names =>
        let r := within names rest
        ⟨t :: r.tokens, r.fault⟩
termination_by cs.length
decreasing_by exact Token.length_rest_of_next? _h

/-- The byte order mark. -/
def byteOrderMark : Char := '\uFEFF'

/-- A text without a byte order mark in front. -/
def withoutMark (cs : List Char) : List Char :=
  if cs.head? = some byteOrderMark then cs.tail else cs

/-- The reading of a whole text. A byte order mark in front is not part of it. -/
def ofText (cs : List Char) : Reading :=
  within [] (withoutMark cs)

end Reading

end ProjectOrder.Markup
