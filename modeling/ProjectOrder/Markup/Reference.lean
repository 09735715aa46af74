import ProjectOrder.Markup.Delimiter

/-!
# References

The references to characters that may stand for a character in text and in attribute values: `&lt;`
and its four siblings, and code points in decimal or hexadecimal digits. `resolve` answers the text
with all its references resolved, or the text itself where any of them cannot be.
-/

namespace ProjectOrder.Markup.Reference

/-- The characters that have a name. -/
def named? (name : List Char) : Option Char :=
  match String.ofList name with
  | "lt" => some '<'
  | "gt" => some '>'
  | "amp" => some '&'
  | "apos" => some '\''
  | "quot" => some '"'
  | _ => none

/-- The value of a digit in a base up to sixteen. -/
def digit? (base : Nat) (c : Char) : Option Nat :=
  let value :=
    if c.isDigit then some (c.toNat - '0'.toNat)
    else if 'a' ≤ c ∧ c ≤ 'f' then some (c.toNat - 'a'.toNat + 10)
    else if 'A' ≤ c ∧ c ≤ 'F' then some (c.toNat - 'A'.toNat + 10)
    else none
  value.filter (· < base)

/-- The number written by digits in a base; there must be a digit. -/
def number? (base : Nat) (digits : List Char) : Option Nat :=
  if digits = [] then none
  else digits.foldlM (fun n c => (digit? base c).map (n * base + ·)) 0

/-- The character of a code point, if there is one other than NUL. -/
def point? (n : Nat) : Option Char :=
  if n ≠ 0 ∧ n.isValidChar then some (Char.ofNat n) else none

/-- The character that a reference stands for, given the text between `&` and `;`. -/
def character? : List Char → Option Char
  | '#' :: 'x' :: digits => (number? 16 digits).bind point?
  | '#' :: digits => (number? 10 digits).bind point?
  | name => named? name

/-- The text with its references resolved, if all of them can be. A reference runs from `&` to the
next `;`, and no other `&` may stand between. -/
def resolve? (cs : List Char) : Option (List Char) :=
  match cs with
  | [] => some []
  | c :: cs =>
    if c = '&' then
      match _h : cut? [';'] cs with
      | none => none
      | some (body, rest) =>
        if '&' ∈ body then none
        else do
          let r ← character? body
          let rest ← resolve? rest
          return r :: rest
    else (resolve? cs).map (c :: ·)
termination_by cs.length
decreasing_by
  · have := congrArg List.length (cut?_eq_append _h)
    simp only [List.length_append, List.length_cons] at this ⊢
    omega
  · simp

/-- The text with its references resolved, or as it is where one cannot be. -/
def resolve (s : String) : String :=
  match resolve? s.toList with
  | some cs => String.ofList cs
  | none => s

end ProjectOrder.Markup.Reference
