import ProjectOrder.Markup.Delimiter

/-!
# Tokens

Markup text as a sequence of tags and leaves. `Token.next?` cuts the first token off a text; it
judges delimiters only, so names, attributes and references are left as they are written.
-/

namespace ProjectOrder.Markup

/-- The kinds of text that stand beside tags. -/
inductive LeafKind where
  /-- Character data, with its references unresolved. -/
  | text
  | comment
  /-- A section of literal character data. -/
  | cdata
  /-- The declaration of version and encoding. -/
  | declaration
  /-- A processing instruction. -/
  | instruction
  /-- A document type declaration. -/
  | doctype
deriving DecidableEq, Repr

/-- A piece of markup, without its delimiters. -/
inductive Token where
  /-- A start tag: all between `<` and `>`. -/
  | openTag (content : List Char)
  /-- A tag closed in itself: all between `<` and `/>`. -/
  | emptyTag (content : List Char)
  /-- An end tag: the name, without the space after it. -/
  | closeTag (name : List Char)
  /-- Anything that is not a tag. -/
  | leaf (kind : LeafKind) (text : List Char)
deriving DecidableEq, Repr

/-- Why no token can be cut off a text, or why a comment or type declaration is refused. -/
inductive TokenFault where
  | tagNotClosed
  | commentNotClosed
  | cdataNotClosed
  | doctypeNotClosed
  | instructionNotClosed
  | unknownMarkup
  | doubleHyphen
  | doctypeWithoutName
deriving DecidableEq, Repr

/-- The wording of the fault. -/
def TokenFault.message : TokenFault → String
  | tagNotClosed => "syntax error: tag not closed: `>` not found before end of input"
  | commentNotClosed => "syntax error: comment not closed: `-->` not found before end of input"
  | cdataNotClosed => "syntax error: CDATA not closed: `]]>` not found before end of input"
  | doctypeNotClosed => "syntax error: DOCTYPE not closed: `>` not found before end of input"
  | instructionNotClosed =>
    "syntax error: processing instruction or xml declaration not closed: " ++
      "`?>` not found before end of input"
  | unknownMarkup => "syntax error: unknown or missed symbol in markup"
  | doubleHyphen => "ill-formed document: forbidden string `--` was found in a comment"
  | doctypeWithoutName =>
    "ill-formed document: `<!DOCTYPE>` declaration does not contain a name of a document type"

namespace Token

/-- The name in a tag: all before the first space. -/
def tagName (content : List Char) : List Char :=
  content.takeWhile fun c => !isSpace c

/-- The name in an end tag. Space after it is dropped, but a tag of nothing but space is its own
name. -/
def closingName (content : List Char) : List Char :=
  if content.all isSpace then content
  else (content.reverse.dropWhile isSpace).reverse

/-- The token of a tag that is no end tag: one with a final `/` is closed in itself. -/
def ofTag (content : List Char) : Token :=
  if content.getLast? = some '/' then emptyTag content.dropLast else openTag content

/-- Whether a comment may have this text: it must not hold `--` nor end in `-`. -/
def isCommentText (text : List Char) : Bool :=
  (cut? ['-', '-'] (text ++ ['-'])).isNone

/-- The kind of an instruction, by its content. -/
def instructionKind (content : List Char) : LeafKind :=
  match after? ['x', 'm', 'l'] content with
  | some [] => .declaration
  | some (c :: _) => if isSpace c then .declaration else .instruction
  | none => .instruction

/-- The text after a type declaration's keyword, in any case of letters. -/
def afterDoctype? (cs : List Char) : Option (List Char) :=
  if (cs.take 7).map Char.toUpper = ['D', 'O', 'C', 'T', 'Y', 'P', 'E'] then some (cs.drop 7)
  else none

/-- The token that begins with `<!`, given the text after these two characters. -/
def nextBang? (cs : List Char) : Except TokenFault (Token × List Char) :=
  match cs with
  | '[' :: _ =>
    match (after? ['[', 'C', 'D', 'A', 'T', 'A', '['] cs).bind (cut? [']', ']', '>']) with
    | some (text, rest) => .ok (leaf .cdata text, rest)
    | none => .error .cdataNotClosed
  | '-' :: _ =>
    match (after? ['-', '-'] cs).bind (cut? ['-', '-', '>']) with
    | some (text, rest) =>
      if isCommentText text then .ok (leaf .comment text, rest) else .error .doubleHyphen
    | none => .error .commentNotClosed
  | 'D' :: _ | 'd' :: _ =>
    match (afterDoctype? cs).bind (cutBalanced? 0) with
    | some (text, rest) =>
      if text.all isSpace then .error .doctypeWithoutName
      else .ok (leaf .doctype (text.dropWhile isSpace), rest)
    | none => .error .doctypeNotClosed
  | _ => .error .unknownMarkup

/-- The token that begins with `<`, given the text after this character. -/
def nextMarkup? (cs : List Char) : Except TokenFault (Token × List Char) :=
  match cs with
  | '!' :: cs => nextBang? cs
  | '?' :: '>' :: _ => .error .instructionNotClosed
  | '?' :: cs =>
    match cut? ['?', '>'] cs with
    | some (content, rest) => .ok (leaf (instructionKind content) content, rest)
    | none => .error .instructionNotClosed
  | '/' :: cs =>
    match cutTag? none cs with
    | some (content, rest) => .ok (closeTag (closingName content), rest)
    | none => .error .tagNotClosed
  | cs =>
    match cutTag? none cs with
    | some (content, rest) => .ok (ofTag content, rest)
    | none => .error .tagNotClosed

/-- The first token of a text that is not empty, given its first character, and what follows it. -/
def next? (c : Char) (cs : List Char) : Except TokenFault (Token × List Char) :=
  if c = '<' then nextMarkup? cs
  else .ok (leaf .text (c :: cs.takeWhile (· ≠ '<')), cs.dropWhile (· ≠ '<'))

/-- What is left after markup that begins with `<!` is no longer than the text. -/
theorem length_rest_of_nextBang? {cs rest : List Char} {t : Token}
    (h : nextBang? cs = .ok (t, rest)) : rest.length ≤ cs.length := by
  have cut {start stop text : List Char}
      (hc : (after? start cs).bind (cut? stop) = some (text, rest)) : rest.length ≤ cs.length := by
    obtain ⟨body, hb, hc⟩ := Option.bind_eq_some_iff.1 hc
    simp [after?_eq_some_iff.1 hb, cut?_eq_append hc]
    omega
  unfold nextBang? at h
  split at h
  · split at h <;> cases h
    exact cut ‹_›
  · split at h
    · split at h <;> cases h
      exact cut ‹_›
    · cases h
  all_goals try
    split at h
    · split at h <;> cases h
      obtain ⟨body, hb, hc⟩ := Option.bind_eq_some_iff.1 ‹_›
      have hlen := congrArg List.length (cutBalanced?_eq_append hc)
      unfold afterDoctype? at hb
      split at hb <;> cases hb
      simp only [List.length_drop, List.length_append, List.length_cons] at hlen ⊢
      omega
    · cases h
  cases h

/-- What is left after markup that begins with `<` is no longer than the text. -/
theorem length_rest_of_nextMarkup? {cs rest : List Char} {t : Token}
    (h : nextMarkup? cs = .ok (t, rest)) : rest.length ≤ cs.length := by
  have tag {cs content : List Char} (hc : cutTag? none cs = some (content, rest)) :
      rest.length ≤ cs.length := by
    simp [cutTag?_eq_append hc]
    omega
  unfold nextMarkup? at h
  split at h
  · exact Nat.le_succ_of_le (length_rest_of_nextBang? h)
  · cases h
  · split at h <;> cases h
    simp [cut?_eq_append ‹_›]
    omega
  · split at h <;> cases h
    exact Nat.le_succ_of_le (tag ‹_›)
  · split at h <;> cases h
    exact tag ‹_›

/-- A token takes up some of the text. -/
theorem length_rest_of_next? {c : Char} {cs rest : List Char} {t : Token}
    (h : next? c cs = .ok (t, rest)) : rest.length < (c :: cs).length := by
  unfold next? at h
  split at h
  · exact Nat.lt_succ_of_le (length_rest_of_nextMarkup? h)
  · cases h
    exact Nat.lt_succ_of_le (List.dropWhile_suffix _).length_le

end Token

end ProjectOrder.Markup
