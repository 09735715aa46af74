/-!
# Quoted strings

The four forms of a string: between one or three double quotes with escapes, and between one or
three single quotes without. `write` chooses the plainest form that can hold a text.
-/

namespace ProjectOrder.Toml.Quoted

/-- A character that may stand in a string as it is: no control but the tab. -/
def isPlain (c : Char) : Bool :=
  c = '\t' || (0x20 ≤ c.toNat && c.toNat ≠ 0x7F)

/-- A space or tab. -/
def isBlank (c : Char) : Bool :=
  c = ' ' || c = '\t'

/-- The text after a line end. -/
def afterNewline? : List Char → Option (List Char)
  | '\n' :: cs => some cs
  | '\r' :: '\n' :: cs => some cs
  | _ => none

/-- The value of a hexadecimal digit. -/
def hexDigit? (c : Char) : Option Nat :=
  if c.isDigit then some (c.toNat - '0'.toNat)
  else if 'a' ≤ c ∧ c ≤ 'f' then some (c.toNat - 'a'.toNat + 10)
  else if 'A' ≤ c ∧ c ≤ 'F' then some (c.toNat - 'A'.toNat + 10)
  else none

/-- The character of a code point in a number of hexadecimal digits, and the text after them. -/
def codePoint? (digits : Nat) (cs : List Char) : Option (Char × List Char) := do
  let ds := cs.take digits
  if ds.length ≠ digits then none
  let n ← ds.foldlM (fun n c => (hexDigit? c).map (n * 16 + ·)) 0
  if n.isValidChar then some (Char.ofNat n, cs.drop digits) else none

/-- The character of an escape, given the text after the backslash, and the text after the
escape. -/
def escape? : List Char → Option (Char × List Char)
  | 'b' :: cs => some ('\x08', cs)
  | 't' :: cs => some ('\t', cs)
  | 'n' :: cs => some ('\n', cs)
  | 'f' :: cs => some ('\x0C', cs)
  | 'r' :: cs => some ('\r', cs)
  | '"' :: cs => some ('"', cs)
  | '\\' :: cs => some ('\\', cs)
  | 'u' :: cs => codePoint? 4 cs
  | 'U' :: cs => codePoint? 8 cs
  | _ => none

/-- The text after a line continuation, given the text after the backslash: blanks to the end of the
line, and all white space after it. -/
def continuation? (cs : List Char) : Option (List Char) :=
  match afterNewline? (cs.dropWhile isBlank) with
  | none => none
  | some cs => some (skip cs)
where
  /-- The text after white space and line ends. -/
  skip : List Char → List Char
    | [] => []
    | '\r' :: '\n' :: cs => skip cs
    | c :: cs => if isBlank c || c = '\n' then skip cs else c :: cs

/-- A string of one line, given the text after its opening quote, and the text after its closing
quote. -/
def single? (quote : Char) : Nat → List Char → Option (List Char × List Char)
  | fuel + 1, c :: cs =>
    if c = quote then some ([], cs)
    else if c = '\\' ∧ quote = '"' then do
      let (e, cs) ← escape? cs
      let (s, rest) ← single? quote fuel cs
      return (e :: s, rest)
    else if isPlain c then do
      let (s, rest) ← single? quote fuel cs
      return (c :: s, rest)
    else none
  | _, _ => none

/-- A string of several lines, given the text after its opening quotes, and the text after its
closing quotes. Up to two quotes before the closing ones belong to the string, and line ends are
read as line feeds. -/
def multi? (quote : Char) : Nat → List Char → Option (List Char × List Char)
  | fuel + 1, c :: cs =>
    if c = quote then
      let run := (c :: cs).takeWhile (· = quote)
      let rest := (c :: cs).dropWhile (· = quote)
      if run.length < 3 then do
        let (s, rest) ← multi? quote fuel rest
        return (run ++ s, rest)
      else
        let inner := min (run.length - 3) 2
        some (run.take inner, run.drop (inner + 3) ++ rest)
    else if c = '\\' ∧ quote = '"' then
      match continuation? cs with
      | some cs => multi? quote fuel cs
      | none => do
        let (e, cs) ← escape? cs
        let (s, rest) ← multi? quote fuel cs
        return (e :: s, rest)
    else
      match afterNewline? (c :: cs) with
      | some cs => do
        let (s, rest) ← multi? quote fuel cs
        return ('\n' :: s, rest)
      | none =>
        if isPlain c then do
          let (s, rest) ← multi? quote fuel cs
          return (c :: s, rest)
        else none
  | _, _ => none

/-- A string of several lines, whose first line end does not count if it stands in front. -/
def block? (quote : Char) (cs : List Char) : Option (List Char × List Char) :=
  let body := (afterNewline? cs).getD cs
  multi? quote (body.length + 1) body

/-- A string of any form, and the text after it. -/
def string? : List Char → Option (List Char × List Char)
  | '"' :: '"' :: '"' :: cs => block? '"' cs
  | '\'' :: '\'' :: '\'' :: cs => block? '\'' cs
  | '"' :: cs => single? '"' (cs.length + 1) cs
  | '\'' :: cs => single? '\'' (cs.length + 1) cs
  | _ => none

/-- A string of one line in either kind of quotes, as a key may be written. -/
def line? : List Char → Option (List Char × List Char)
  | '"' :: cs => single? '"' (cs.length + 1) cs
  | '\'' :: cs => single? '\'' (cs.length + 1) cs
  | _ => none

/-! ## Writing -/

/-- The forms in which a string can be written. -/
inductive Form where
  | basic
  | literal
  | basicBlock
  | literalBlock
deriving DecidableEq, Repr

/-- A control character other than tab and line feed. -/
def isControl (c : Char) : Bool :=
  (c.toNat < 0x20 && c ≠ '\t' && c ≠ '\n') || c.toNat = 0x7F

/-- The length of the longest run of a character. -/
def longestRun (x : Char) (current : Nat) : List Char → Nat
  | [] => current
  | c :: cs =>
    if c = x then longestRun x (current + 1) cs else max current (longestRun x 0 cs)

/-- The first of the forms that fits. -/
def Form.ofText (s : List Char) : Form :=
  let controls := s.any isControl
  let newline := s.contains '\n'
  let backslash := s.contains '\\'
  if !backslash && !s.contains '"' && !newline && !controls then basic
  else if !s.contains '\'' && !newline && !controls then literal
  else if !backslash && !controls && longestRun '"' 0 s < 3 then basicBlock
  else if !controls && longestRun '\'' 0 s < 3 then literalBlock
  else if newline then basicBlock
  else basic

/-- A digit of a number in base sixteen. -/
def upperHex (n : Nat) : Char :=
  (Nat.digitChar n).toUpper

/-- An escape of four hexadecimal digits. -/
def pointEscape (c : Char) : List Char :=
  ['\\', 'u', '0', '0', upperHex (c.toNat / 16), upperHex (c.toNat % 16)]

/-- The characters of a text between double quotes. In a block, line feeds stay and only every third
quote of a run is escaped; `quotes` counts those just before. -/
def escaped (isBlock : Bool) (quotes : Nat) : List Char → List Char
  | [] => []
  | c :: cs =>
    if c = '"' then
      if !isBlock || quotes = 2 then '\\' :: '"' :: escaped isBlock 0 cs
      else '"' :: escaped isBlock (quotes + 1) cs
    else
      let shown :=
        if c = '\\' then ['\\', '\\']
        else if c = '\x08' then ['\\', 'b']
        else if c = '\t' then ['\\', 't']
        else if c = '\x0C' then ['\\', 'f']
        else if c = '\r' then ['\\', 'r']
        else if c = '\n' then if isBlock then ['\n'] else ['\\', 'n']
        else if isControl c then pointEscape c
        else [c]
      shown ++ escaped isBlock 0 cs

/-- A text between its quotes in a form. A block begins on a line of its own if it has line
feeds. -/
def writeAs (form : Form) (s : List Char) : List Char :=
  let lead := if s.contains '\n' then ['\n'] else []
  match form with
  | .basic => '"' :: (escaped false 0 s ++ ['"'])
  | .literal => '\'' :: (s ++ ['\''])
  | .basicBlock => ['"', '"', '"'] ++ lead ++ escaped true 0 s ++ ['"', '"', '"']
  | .literalBlock => ['\'', '\'', '\''] ++ lead ++ s ++ ['\'', '\'', '\'']

/-- A text as a quoted string. -/
def write (s : String) : String :=
  String.ofList (writeAs (.ofText s.toList) s.toList)

end ProjectOrder.Toml.Quoted
