/-!
# Faults in UTF-8

Where a byte sequence stops being UTF-8, and the text that remains when every faulty part is
replaced by one mark.
-/

namespace ProjectOrder.Text.Utf8

/-- The first place where bytes are not UTF-8. -/
structure Fault where
  index : Nat
  /-- The length of the faulty part; `none` if the bytes end within a character. -/
  length : Option Nat
deriving DecidableEq, Repr

/-- The wording of the fault. -/
def Fault.message (f : Fault) : String :=
  match f.length with
  | some n => s!"invalid utf-8 sequence of {n} bytes from index {f.index}"
  | none => s!"incomplete utf-8 byte sequence from index {f.index}"

/-- The ranges of the bytes that must follow a first byte; `none` if no character begins with it. -/
def followers? (b : UInt8) : Option (List (UInt8 × UInt8)) :=
  let any : UInt8 × UInt8 := (0x80, 0xBF)
  if b < 0x80 then some []
  else if b < 0xC2 then none
  else if b < 0xE0 then some [any]
  else if b = 0xE0 then some [(0xA0, 0xBF), any]
  else if b = 0xED then some [(0x80, 0x9F), any]
  else if b < 0xF0 then some [any, any]
  else if b = 0xF0 then some [(0x90, 0xBF), any, any]
  else if b < 0xF4 then some [any, any, any]
  else if b = 0xF4 then some [(0x80, 0x8F), any, any]
  else none

/-- How many of the bytes lie in their ranges before the first that does not. -/
def matching : List (UInt8 × UInt8) → List UInt8 → Nat
  | (lo, hi) :: ranges, b :: bs => if lo ≤ b ∧ b ≤ hi then matching ranges bs + 1 else 0
  | _, _ => 0

/-- The length of the character at the front of some bytes, or of the faulty part there. -/
def front (b : UInt8) (bs : List UInt8) : Except (Option Nat) Nat :=
  match followers? b with
  | none => .error (some 1)
  | some ranges =>
    let n := matching ranges bs
    if n = ranges.length then .ok (n + 1)
    else if n = bs.length then .error none
    else .error (some (n + 1))

/-- The first fault in bytes that begin at an index. `skip` bytes belong to a character that has
been seen. -/
def firstFault (index skip : Nat) : List UInt8 → Option Fault
  | [] => none
  | b :: bs =>
    match skip with
    | skip + 1 => firstFault (index + 1) skip bs
    | 0 =>
      match front b bs with
      | .ok n => firstFault (index + 1) (n - 1) bs
      | .error length => some ⟨index, length⟩

/-- The characters of some bytes with U+FFFD for each faulty part. `skip` bytes belong to a part
that has been seen. -/
def lossyFrom (skip : Nat) : List UInt8 → List Char
  | [] => []
  | b :: bs =>
    match skip with
    | skip + 1 => lossyFrom skip bs
    | 0 =>
      match front b bs with
      | .ok n =>
        match String.fromUTF8? ⟨(b :: bs.take (n - 1)).toArray⟩ with
        | some s => s.toList ++ lossyFrom (n - 1) bs
        | none => '\uFFFD' :: lossyFrom (n - 1) bs
      | .error (some n) => '\uFFFD' :: lossyFrom (n - 1) bs
      | .error none => ['\uFFFD']

/-- The text of some bytes with U+FFFD for each faulty part. -/
def lossy (bs : List UInt8) : String :=
  String.ofList (lossyFrom 0 bs)

end ProjectOrder.Text.Utf8
