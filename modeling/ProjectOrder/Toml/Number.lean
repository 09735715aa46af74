/-!
# Numbers and moments

The unquoted values that begin with a digit or a sign: integers of 64 bits, floats, and dates and
times. `scalar?` reads the longest of them at the front of a text.
-/

namespace ProjectOrder.Toml.Number

/-- What an unquoted value is. -/
inductive Scalar where
  | integer (n : Int)
  | float (text : String)
  | moment (text : String)
deriving DecidableEq, Repr

/-- Digits in a base with single underscores between them, and the text after them. -/
def digits? (isDigit : Char → Bool) : List Char → Option (List Char × List Char)
  | [] => none
  | c :: cs =>
    if isDigit c then
      match cs with
      | '_' :: rest => (digits? isDigit rest).map fun (ds, rest) => (c :: ds, rest)
      | cs =>
        match digits? isDigit cs with
        | some (ds, rest) => some (c :: ds, rest)
        | none => some ([c], cs)
    else none

/-- The value of a digit in a base up to sixteen. -/
def digitValue (c : Char) : Nat :=
  if c.isDigit then c.toNat - '0'.toNat else c.toLower.toNat - 'a'.toNat + 10

/-- The number that digits write in a base. -/
def value (base : Nat) (ds : List Char) : Nat :=
  ds.foldl (fun n c => n * base + digitValue c) 0

/-- A decimal number without superfluous zeros. -/
def decimal? : List Char → Option (List Char × List Char)
  | '0' :: cs => some (['0'], cs)
  | cs => digits? Char.isDigit cs

/-- A sign, if there is one. -/
def sign : List Char → Option Char × List Char
  | '+' :: cs => (some '+', cs)
  | '-' :: cs => (some '-', cs)
  | cs => (none, cs)

/-- An exponent: its sign and digits. -/
def exponent? (cs : List Char) : Option ((Bool × List Char) × List Char) :=
  match cs with
  | c :: cs =>
    if c = 'e' ∨ c = 'E' then
      let (s, cs) := sign cs
      (digits? Char.isDigit cs).map fun (ds, rest) => ((s == some '-', ds), rest)
    else none
  | [] => none

/-- Whether a decimal number is too large for a float of 64 bits, which holds all that rounds to
less than the 1024th power of two. -/
def overflows (whole fraction : List Char) (negative : Bool) (exponent : List Char) : Bool :=
  let mantissa := value 10 (whole ++ fraction)
  let e : Int := (if negative then -1 else 1) * (value 10 exponent : Int) - fraction.length
  let bound := Nat.pow 2 1024 - Nat.pow 2 970
  if mantissa = 0 then false
  else if e > 400 then true
  else if e ≥ 0 then bound ≤ mantissa * Nat.pow 10 e.toNat
  else if -e > (whole.length + fraction.length : Int) then false
  else bound * Nat.pow 10 (-e).toNat ≤ mantissa

/-- A float: a number with a fraction or an exponent, or one of the special values. -/
def float? (cs : List Char) : Option (Scalar × List Char) :=
  let (s, body) := sign cs
  let taken (rest : List Char) : String := String.ofList (cs.take (cs.length - rest.length))
  match body with
  | 'i' :: 'n' :: 'f' :: rest => some (.float (taken rest), rest)
  | 'n' :: 'a' :: 'n' :: rest => some (.float (taken rest), rest)
  | _ => do
    let (whole, rest) ← decimal? body
    let finish (fraction : List Char) (negative : Bool) (exponent rest : List Char) :
        Option (Scalar × List Char) :=
      if s ≠ some '-' ∧ overflows whole fraction negative exponent then none
      else some (.float (taken rest), rest)
    match rest with
    | '.' :: rest =>
      let (fraction, rest) ← digits? Char.isDigit rest
      match exponent? rest with
      | some ((negative, exponent), rest) => finish fraction negative exponent rest
      | none => finish fraction false [] rest
    | rest =>
      let ((negative, exponent), rest) ← exponent? rest
      finish [] negative exponent rest

/-- An integer of 64 bits with a sign. -/
def bounded? (n : Int) : Option Scalar :=
  if Int64.minValue.toInt ≤ n ∧ n ≤ Int64.maxValue.toInt then some (.integer n) else none

/-- Whether a character is a digit in base sixteen. -/
def isHexDigit (c : Char) : Bool :=
  c.isDigit || ('a' ≤ c && c ≤ 'f') || ('A' ≤ c && c ≤ 'F')

/-- An integer. -/
def integer? (cs : List Char) : Option (Scalar × List Char) :=
  let based (base : Nat) (isDigit : Char → Bool) (cs : List Char) :
      Option (Scalar × List Char) := do
    let (ds, rest) ← digits? isDigit cs
    return (← bounded? (value base ds), rest)
  match cs with
  | '0' :: 'x' :: cs => based 16 isHexDigit cs
  | '0' :: 'o' :: cs => based 8 (fun c => '0' ≤ c && c ≤ '7') cs
  | '0' :: 'b' :: cs => based 2 (fun c => c = '0' || c = '1') cs
  | cs => do
    let (s, body) := sign cs
    let (ds, rest) ← decimal? body
    let n : Int := value 10 ds
    return (← bounded? (if s = some '-' then -n else n), rest)

/-- A number of exactly so many digits, within bounds. -/
def fixed? (count lo hi : Nat) (cs : List Char) : Option (Nat × List Char) :=
  let ds := cs.take count
  let n := value 10 ds
  if ds.length = count ∧ ds.all Char.isDigit ∧ lo ≤ n ∧ n ≤ hi then some (n, cs.drop count)
  else none

/-- The text after a given character. -/
def expect? (c : Char) : List Char → Option (List Char)
  | d :: cs => if d = c then some cs else none
  | [] => none

/-- The number of days in a month. -/
def daysIn (year month : Nat) : Nat :=
  if month = 2 then
    if year % 4 = 0 ∧ (year % 100 ≠ 0 ∨ year % 400 = 0) then 29 else 28
  else if month ∈ [4, 6, 9, 11] then 30
  else 31

/-- The text after a date. -/
def afterDate? (cs : List Char) : Option (List Char) := do
  let (year, cs) ← fixed? 4 0 9999 cs
  let cs ← expect? '-' cs
  let (month, cs) ← fixed? 2 1 12 cs
  let cs ← expect? '-' cs
  let (_, cs) ← fixed? 2 1 (daysIn year month) cs
  return cs

/-- The text after a time of day. The last second of a day may be a leap second. -/
def afterTime? (cs : List Char) : Option (List Char) := do
  let (_, cs) ← fixed? 2 0 23 cs
  let cs ← expect? ':' cs
  let (_, cs) ← fixed? 2 0 59 cs
  let cs ← expect? ':' cs
  let (_, cs) ← fixed? 2 0 60 cs
  match cs with
  | '.' :: c :: rest => if c.isDigit then some (rest.dropWhile Char.isDigit) else some cs
  | cs => some cs

/-- The text after an offset from universal time. -/
def afterOffset? : List Char → Option (List Char)
  | [] => none
  | c :: cs =>
    if c = 'Z' ∨ c = 'z' then some cs
    else if c = '+' ∨ c = '-' then do
      let (_, cs) ← fixed? 2 0 23 cs
      let cs ← expect? ':' cs
      let (_, cs) ← fixed? 2 0 59 cs
      return cs
    else none

/-- A date, a time, or a date with a time and perhaps an offset. -/
def moment? (cs : List Char) : Option (Scalar × List Char) :=
  let taken (rest : List Char) : Scalar × List Char :=
    (.moment (String.ofList (cs.take (cs.length - rest.length))), rest)
  match afterDate? cs with
  | none => (afterTime? cs).map taken
  | some rest =>
    match rest with
    | c :: more =>
      if c = 'T' ∨ c = 't' ∨ c = ' ' then
        match afterTime? more with
        | some rest => some (taken ((afterOffset? rest).getD rest))
        | none => some (taken rest)
      else some (taken rest)
    | [] => some (taken rest)

/-- An unquoted number or moment, and the text after it. -/
def scalar? (cs : List Char) : Option (Scalar × List Char) :=
  (moment? cs).or ((float? cs).or (integer? cs))

end ProjectOrder.Toml.Number
