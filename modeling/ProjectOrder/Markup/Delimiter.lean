/-!
# Delimiters

The cuts by which markup falls into pieces: at spaces, at a fixed delimiter, and at the `>` that
ends a tag. `cut?_eq_append` says that a cut loses nothing.
-/

namespace ProjectOrder.Markup

/-- The four characters that separate the parts of a tag. -/
def isSpace (c : Char) : Bool :=
  c == ' ' || c == '\t' || c == '\n' || c == '\r'

/-- What follows a given beginning, if the text has it. -/
def after? (start : List Char) (cs : List Char) : Option (List Char) :=
  match start, cs with
  | [], cs => some cs
  | _ :: _, [] => none
  | s :: start, c :: cs => if c = s then after? start cs else none

/-- The text before the first occurrence of a delimiter, and the text after it. -/
def cut? (stop : List Char) (cs : List Char) : Option (List Char × List Char) :=
  match after? stop cs, cs with
  | some rest, _ => some ([], rest)
  | none, [] => none
  | none, c :: cs => (cut? stop cs).map fun (before, rest) => (c :: before, rest)

/-- The text before the `>` that ends a tag, and the text after it. A `>` between quotes does not
end the tag; `quote` is the quotation mark still open. -/
def cutTag? (quote : Option Char) : List Char → Option (List Char × List Char)
  | [] => none
  | c :: cs =>
    match quote with
    | some q =>
      (cutTag? (if c = q then none else some q) cs).map fun (tag, rest) => (c :: tag, rest)
    | none =>
      if c = '>' then some ([], cs)
      else (cutTag? (if c = '"' || c = '\'' then some c else none) cs).map
        fun (tag, rest) => (c :: tag, rest)

/-- The text before the `>` that ends a type declaration, and the text after it. Each `<` inside
has a `>` of its own; `depth` counts those still missing. -/
def cutBalanced? (depth : Nat) : List Char → Option (List Char × List Char)
  | [] => none
  | c :: cs =>
    if c = '>' then
      match depth with
      | 0 => some ([], cs)
      | depth + 1 => (cutBalanced? depth cs).map fun (text, rest) => (c :: text, rest)
    else
      (cutBalanced? (if c = '<' then depth + 1 else depth) cs).map
        fun (text, rest) => (c :: text, rest)

/-- What is left after a start is the text without the start. -/
theorem after?_eq_some_iff {start cs rest : List Char} :
    after? start cs = some rest ↔ cs = start ++ rest := by
  induction start generalizing cs with
  | nil => simp [after?]
  | cons s start ih =>
    cases cs with
    | nil => simp [after?]
    | cons c cs =>
      by_cases h : c = s
      · simp [after?, h, ih]
      · simp [after?, h]

/-- A cut at a delimiter splits the text into what is before the delimiter, the delimiter and the
rest. -/
theorem cut?_eq_append {stop cs before rest : List Char}
    (h : cut? stop cs = some (before, rest)) : cs = before ++ stop ++ rest := by
  induction cs generalizing before with
  | nil =>
    unfold cut? at h
    cases hs : after? stop [] with
    | none => simp [hs] at h
    | some r =>
      simp only [hs, Option.some.injEq, Prod.mk.injEq] at h
      obtain ⟨rfl, rfl⟩ := h
      simpa using after?_eq_some_iff.1 hs
  | cons c cs ih =>
    unfold cut? at h
    cases hs : after? stop (c :: cs) with
    | none =>
      simp only [hs, Option.map_eq_some_iff, Prod.exists, Prod.mk.injEq] at h
      obtain ⟨b, r, hc, rfl, rfl⟩ := h
      simp [ih hc]
    | some r =>
      simp only [hs, Option.some.injEq, Prod.mk.injEq] at h
      obtain ⟨rfl, rfl⟩ := h
      simpa using after?_eq_some_iff.1 hs

/-- A cut at the end of a tag splits the text into the tag, its `>` and the rest. -/
theorem cutTag?_eq_append {quote : Option Char} {cs tag rest : List Char}
    (h : cutTag? quote cs = some (tag, rest)) : cs = tag ++ '>' :: rest := by
  induction cs generalizing quote tag with
  | nil => simp [cutTag?] at h
  | cons c cs ih =>
    unfold cutTag? at h
    cases quote with
    | some q =>
      simp only [Option.map_eq_some_iff, Prod.exists, Prod.mk.injEq] at h
      obtain ⟨t, r, hc, rfl, rfl⟩ := h
      simp [ih hc]
    | none =>
      by_cases hgt : c = '>'
      · simp only [hgt, if_true, Option.some.injEq, Prod.mk.injEq] at h
        obtain ⟨rfl, rfl⟩ := h
        simp [hgt]
      · simp only [hgt, if_false, Option.map_eq_some_iff, Prod.exists, Prod.mk.injEq] at h
        obtain ⟨t, r, hc, rfl, rfl⟩ := h
        simp [ih hc]

/-- A cut at the end of a type declaration splits the text into the declaration, its `>` and the
rest. -/
theorem cutBalanced?_eq_append {depth : Nat} {cs text rest : List Char}
    (h : cutBalanced? depth cs = some (text, rest)) : cs = text ++ '>' :: rest := by
  induction cs generalizing depth text with
  | nil => simp [cutBalanced?] at h
  | cons c cs ih =>
    unfold cutBalanced? at h
    by_cases hgt : c = '>'
    · cases depth with
      | zero =>
        simp only [hgt, if_true, Option.some.injEq, Prod.mk.injEq] at h
        obtain ⟨rfl, rfl⟩ := h
        simp [hgt]
      | succ depth =>
        simp only [hgt, if_true, Option.map_eq_some_iff, Prod.exists, Prod.mk.injEq] at h
        obtain ⟨t, r, hc, rfl, rfl⟩ := h
        simp [ih hc, hgt]
    · simp only [hgt, if_false, Option.map_eq_some_iff, Prod.exists, Prod.mk.injEq] at h
      obtain ⟨t, r, hc, rfl, rfl⟩ := h
      simp [ih hc]

end ProjectOrder.Markup
