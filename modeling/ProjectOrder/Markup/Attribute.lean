import ProjectOrder.Markup.Delimiter

/-!
# Attributes

The list of keys and quoted values that follows the name in a tag. Faults name the position where
they are seen, counted from the start of the tag in a unit that the caller chooses.
-/

namespace ProjectOrder.Markup

/-- An attribute as it is written, with the references of its value unresolved. -/
structure Attribute where
  key : String
  value : String
deriving DecidableEq, Repr

/-- What is wrong with an attribute list, and where. -/
inductive AttributeFault where
  | missingEquals (position : Nat)
  | missingValue (position : Nat)
  | unquotedValue (position : Nat)
  | missingQuote (position : Nat) (quote : Char)
  | duplicate (position previous : Nat)
deriving DecidableEq, Repr

/-- The wording of the fault. -/
def AttributeFault.message : AttributeFault → String
  | missingEquals p => s!"position {p}: attribute key must be directly followed by `=` or space"
  | missingValue p => s!"position {p}: `=` must be followed by an attribute value"
  | unquotedValue p => s!"position {p}: attribute value must be enclosed in `\"` or `'`"
  | missingQuote p quote => s!"position {p}: missing closing quote `{quote}` in attribute value"
  | duplicate p previous =>
    s!"position {p}: duplicated attribute, previous declaration at position {previous}"

namespace Attribute

/-- The attributes of a tag up to the end of the list or the first fault. -/
structure Listing where
  attributes : List Attribute
  fault : Option AttributeFault
deriving DecidableEq, Repr

/-- How positions and repeated keys are dealt with in one attribute list. -/
structure Context where
  /-- The position of what is left of the tag. -/
  position : List Char → Nat
  /-- Whether a repeated key is a fault. -/
  distinct : Bool

/-- A key and the text from its `=` on. A key is one character, whatever it is, and all that follows
up to a space or `=`. -/
def key? (ctx : Context) (c : Char) (cs : List Char) :
    Except AttributeFault (List Char × List Char) :=
  let key := c :: cs.takeWhile fun c => !(c == '=' || isSpace c)
  let rest := (cs.dropWhile fun c => !(c == '=' || isSpace c)).dropWhile isSpace
  match rest with
  | '=' :: rest => .ok (key, rest)
  | rest => .error (.missingEquals (ctx.position rest))

/-- A quoted value and the text after it. -/
def value? (ctx : Context) (cs : List Char) : Except AttributeFault (List Char × List Char) :=
  match cs.dropWhile isSpace with
  | [] => .error (.missingValue (ctx.position []))
  | q :: rest =>
    if q = '"' || q = '\'' then
      match cut? [q] rest with
      | some (value, rest) => .ok (value, rest)
      | none => .error (.missingQuote (ctx.position []) q)
    else .error (.unquotedValue (ctx.position (q :: rest)))

/-- What is left after reading a key is no longer than the text. -/
theorem length_rest_of_key? {ctx : Context} {c : Char} {cs key rest : List Char}
    (h : key? ctx c cs = .ok (key, rest)) : rest.length ≤ cs.length := by
  unfold key? at h
  simp only at h
  split at h <;> cases h
  rename_i hrest
  have hs : (List.dropWhile isSpace (cs.dropWhile fun c => !(c == '=' || isSpace c))).length ≤
      cs.length :=
    ((List.dropWhile_suffix _).trans (List.dropWhile_suffix _)).length_le
  rw [hrest, List.length_cons] at hs
  omega

/-- What is left after reading a value is no longer than the text. -/
theorem length_rest_of_value? {ctx : Context} {cs value rest : List Char}
    (h : value? ctx cs = .ok (value, rest)) : rest.length ≤ cs.length := by
  unfold value? at h
  have hs : (cs.dropWhile isSpace).length ≤ cs.length := (List.dropWhile_suffix _).length_le
  split at h
  · cases h
  · rename_i hd
    rw [hd, List.length_cons] at hs
    split at h
    · split at h <;> cases h
      rename_i hc
      have := congrArg List.length (cut?_eq_append hc)
      simp only [List.length_append] at this
      omega
    · cases h

/-- The attributes in what is left of a tag, given the keys before it with their positions. -/
def listFrom (ctx : Context) (seen : List (List Char × Nat)) (cs : List Char) : Listing :=
  match _hcs : cs.dropWhile isSpace with
  | [] => ⟨[], none⟩
  | c :: rest =>
    match _hkey : key? ctx c rest with
    | .error fault => ⟨[], some fault⟩
    | .ok (key, afterKey) =>
      let position := ctx.position (c :: rest)
      match if ctx.distinct then seen.lookup key else none with
      | some previous => ⟨[], some (.duplicate position previous)⟩
      | none =>
        match _hvalue : value? ctx afterKey with
        | .error fault => ⟨[], some fault⟩
        | .ok (value, rest) =>
          let l := listFrom ctx (seen ++ [(key, position)]) rest
          ⟨⟨String.ofList key, String.ofList value⟩ :: l.attributes, l.fault⟩
termination_by cs.length
decreasing_by
  have hs : (cs.dropWhile isSpace).length ≤ cs.length := (List.dropWhile_suffix _).length_le
  rw [_hcs, List.length_cons] at hs
  have := length_rest_of_key? _hkey
  have := length_rest_of_value? _hvalue
  omega

/-- The measure of a text in a unit of width per character. -/
def measure (width : Char → Nat) (cs : List Char) : Nat :=
  cs.foldl (fun n c => n + width c) 0

/-- The attributes of a tag: all that follows its name. -/
def ofTag (width : Char → Nat) (distinct : Bool) (content : List Char) : Listing :=
  listFrom ⟨fun rest => measure width content - measure width rest, distinct⟩ []
    (content.dropWhile fun c => !isSpace c)

end Attribute

end ProjectOrder.Markup
