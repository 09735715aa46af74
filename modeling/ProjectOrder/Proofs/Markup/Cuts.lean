import ProjectOrder.Markup.Token

/-!
# Cuts and what follows them

A cut depends on the text before its delimiter and on nothing after it: `cut?_eq_some_iff` for a
fixed delimiter, `cutTag?_eq_some_iff` for a tag and `cutBalanced?_eq_some_iff` for a type
declaration.
-/

namespace ProjectOrder.Markup

variable {stop start before content rest cs : List Char}

/-! ## Fixed delimiters -/

/-- What comes after a start does not depend on the text further on. -/
theorem after?_append (h : after? start cs = some rest) (tail : List Char) :
    after? start (cs ++ tail) = some (rest ++ tail) := by
  rw [after?_eq_some_iff] at h ⊢
  rw [h, List.append_assoc]

/-- A text that is no shorter than a beginning shows by itself whether it has that beginning. -/
theorem after?_append_eq_none (h : after? start cs = none) (hlength : start.length ≤ cs.length)
    (tail : List Char) : after? start (cs ++ tail) = none := by
  rw [Option.eq_none_iff_forall_ne_some]
  intro rest hrest
  rw [after?_eq_some_iff] at hrest
  obtain ⟨left, hleft⟩ := List.prefix_of_prefix_length_le
    (List.prefix_append start rest) (hrest ▸ List.prefix_append cs tail) hlength
  rw [after?_eq_some_iff.2 hleft.symm] at h
  cases h

/-- A text that begins with the delimiter is cut at once. -/
theorem cut?_cons_of_after? {c : Char} (h : after? stop (c :: cs) = some rest) :
    cut? stop (c :: cs) = some ([], rest) := by
  simp [cut?, h]

/-- A text that does not begin with the delimiter is cut further on. -/
theorem cut?_cons_of_not_after? {c : Char} (h : after? stop (c :: cs) = none) :
    cut? stop (c :: cs) = (cut? stop cs).map fun p => (c :: p.1, p.2) := by
  simp [cut?, h]

/-- The first occurrence of a delimiter does not move when more text follows. -/
theorem cut?_append (h : cut? stop cs = some (before, rest)) (tail : List Char) :
    cut? stop (cs ++ tail) = some (before, rest ++ tail) := by
  induction cs generalizing before with
  | nil =>
      obtain ⟨rfl, rfl, rfl⟩ : before = [] ∧ stop = [] ∧ rest = [] := by
        simpa [and_assoc] using (cut?_eq_append h).symm
      cases tail <;> simp [cut?, after?]
  | cons c cs ih =>
      cases hstart : after? stop (c :: cs) with
      | some found =>
          obtain ⟨rfl, rfl⟩ : [] = before ∧ found = rest := by
            simpa [cut?_cons_of_after? hstart] using h
          exact cut?_cons_of_after? (after?_append hstart tail)
      | none =>
          -- the delimiter occurs later, so what there is of the text is long enough to hold it
          have hlength : stop.length ≤ (c :: cs).length := by
            simp only [cut?_eq_append h, List.length_append]
            omega
          simp only [cut?_cons_of_not_after? hstart, Option.map_eq_some_iff, Prod.exists,
            Prod.mk.injEq] at h
          obtain ⟨b, r, hcut, rfl, rfl⟩ := h
          have hnone : after? stop (c :: (cs ++ tail)) = none :=
            after?_append_eq_none hstart hlength tail
          rw [List.cons_append, cut?_cons_of_not_after? hnone, ih hcut]
          rfl

/-- A text that ends in the delimiter can be cut. -/
theorem cut?_isSome_append (stop before : List Char) : (cut? stop (before ++ stop)).isSome := by
  induction before with
  | nil =>
      unfold cut?
      simp [after?_eq_some_iff.2 (List.append_nil stop).symm]
  | cons c before ih =>
      unfold cut?
      rw [List.cons_append]
      cases after? stop (c :: (before ++ stop)) with
      | some rest => rfl
      | none => simpa using ih

/-- A delimiter can be cut at in the texts that hold it. -/
theorem cut?_eq_none_iff : cut? stop cs = none ↔ ¬ stop <:+: cs := by
  constructor
  · rintro hnone ⟨before, rest, rfl⟩
    obtain ⟨p, hp⟩ := Option.isSome_iff_exists.1 (cut?_isSome_append stop before)
    rw [cut?_append hp rest] at hnone
    cases hnone
  · intro hinfix
    rw [Option.eq_none_iff_forall_ne_some]
    rintro ⟨before, rest⟩ hcut
    exact hinfix ⟨before, rest, (cut?_eq_append hcut).symm⟩

/-- `Closes stop text` says that a delimiter written after a text occurs there first. -/
def Closes (stop text : List Char) : Prop :=
  cut? stop (text ++ stop) = some (text, [])

/-- A cut depends on the text before the delimiter and on nothing after it. -/
theorem cut?_eq_some_iff :
    cut? stop cs = some (before, rest) ↔ cs = before ++ stop ++ rest ∧ Closes stop before := by
  constructor
  · intro h
    have happend := cut?_eq_append h
    obtain ⟨⟨b, r⟩, hfirst⟩ := Option.isSome_iff_exists.1 (cut?_isSome_append stop before)
    have hcut := cut?_append hfirst rest
    rw [← happend, h, Option.some.injEq, Prod.mk.injEq] at hcut
    obtain ⟨rfl, hrest⟩ := hcut
    obtain rfl : r = [] := by simpa using hrest
    exact ⟨happend, hfirst⟩
  · rintro ⟨rfl, hcloses⟩
    simpa using cut?_append hcloses rest

/-- A text that a delimiter closes does not hold the delimiter. -/
theorem Closes.cut?_eq_none (hstop : stop ≠ []) (h : Closes stop before) :
    cut? stop before = none := by
  cases hcut : cut? stop before with
  | none => rfl
  | some p =>
      have happend := cut?_append hcut stop
      rw [h, Option.some.injEq, Prod.mk.injEq] at happend
      simp [hstop] at happend

/-- A delimiter that holds its last character nowhere else closes every text that does not hold
it. -/
theorem closes_concat_iff {c : Char} (hc : c ∉ start) :
    Closes (start ++ [c]) content ↔ ¬ start ++ [c] <:+: content := by
  constructor
  · intro h
    exact cut?_eq_none_iff.1 (h.cut?_eq_none (by simp))
  · intro hinfix
    obtain ⟨⟨before, rest⟩, hcut⟩ :=
      Option.isSome_iff_exists.1 (cut?_isSome_append (start ++ [c]) content)
    have happend := cut?_eq_append hcut
    rcases List.eq_nil_or_concat rest with rfl | ⟨rest, d, rfl⟩
    · rw [List.append_nil, List.append_cancel_right_eq] at happend
      rwa [happend] at hcut ⊢
    -- an earlier delimiter would end in the text or in the beginning of the delimiter after it
    · exfalso
      have hearly : content ++ start = before ++ (start ++ [c]) ++ rest := by
        have hlast : content ++ start ++ [c] = before ++ (start ++ [c]) ++ rest ++ [d] := by
          simpa using happend
        exact (List.append_inj' hlast rfl).1
      rcases List.append_eq_append_iff.1 hearly with ⟨inside, hbefore, hstart⟩ | ⟨after, rfl, -⟩
      · rcases List.eq_nil_or_concat inside with rfl | ⟨inside, e, rfl⟩
        · exact hinfix ⟨before, [], by simpa using hbefore⟩
        · have hlast : before ++ start ++ [c] = content ++ inside ++ [e] := by simpa using hbefore
          have hce : c = e := by simpa using (List.append_inj' hlast rfl).2
          exact hc (by simp [hstart, hce])
      · exact hinfix ⟨before, after, rfl⟩

/-! ## Cuts with a state -/

/-- `Scans cut inside ends next` says that `cut` goes through a text with a state, which changes by
`next`, up to the first `>` at which the state ends, and that `inside` tells the texts it goes
through. -/
structure Scans {σ : Type} (cut : σ → List Char → Option (List Char × List Char))
    (inside : σ → List Char → Bool) (ends : σ → Char → Bool) (next : σ → Char → σ) : Prop where
  cut_nil : ∀ s, cut s [] = none
  cut_cons : ∀ s c cs, cut s (c :: cs) =
    if ends s c then some ([], cs) else (cut (next s c) cs).map fun p => (c :: p.1, p.2)
  inside_nil : ∀ s, inside s [] = ends s '>'
  inside_cons : ∀ s c cs, inside s (c :: cs) = (!ends s c && inside (next s c) cs)
  eq_of_ends : ∀ s c, ends s c → c = '>'

/-- A cut with a state depends on the text before the `>` at which it ends and on nothing after
it. -/
theorem Scans.eq_some_iff {σ : Type} {cut : σ → List Char → Option (List Char × List Char)}
    {inside : σ → List Char → Bool} {ends : σ → Char → Bool} {next : σ → Char → σ} {s : σ}
    (h : Scans cut inside ends next) :
    cut s cs = some (content, rest) ↔ cs = content ++ '>' :: rest ∧ inside s content := by
  induction cs generalizing s content with
  | nil => simp [h.cut_nil]
  | cons c cs ih =>
      rw [h.cut_cons]
      by_cases hend : ends s c
      · obtain rfl := h.eq_of_ends s c hend
        cases content with
        | nil => simp [h.inside_nil, hend]
        | cons d content =>
            -- a character at which the state ends is not inside
            simp only [if_pos hend, h.inside_cons]
            grind
      · rw [if_neg hend, Option.map_eq_some_iff]
        cases content with
        | nil =>
            simp only [h.inside_nil]
            grind
        | cons d content =>
            rw [h.inside_cons]
            constructor
            · rintro ⟨⟨t, r⟩, hcut, heq⟩
              cases heq
              obtain ⟨rfl, hinside⟩ := ih.1 hcut
              exact ⟨rfl, by simp [hend, hinside]⟩
            · rintro ⟨heq, hinside⟩
              obtain ⟨rfl, rfl⟩ := List.cons.inj heq
              rw [Bool.and_eq_true] at hinside
              exact ⟨(content, rest), ih.2 ⟨rfl, hinside.2⟩, rfl⟩

/-! ## Tags -/

/-- The quotation mark open after one more character of a tag. -/
def quoteAfter (quote : Option Char) (c : Char) : Option Char :=
  match quote with
  | some q => if c = q then none else some q
  | none => if c = '"' || c = '\'' then some c else none

/-- Whether a text is the inside of a tag, with `quote` the quotation mark open before it: it holds
no `>` outside quotes and leaves no quotation mark open. -/
def isTagText (quote : Option Char) : List Char → Bool
  | [] => quote.isNone
  | c :: cs => (quote.isSome || c != '>') && isTagText (quoteAfter quote c) cs

/-- Cutting a tag is such a scan, with the open quotation mark as its state. -/
theorem scans_cutTag? :
    Scans cutTag? isTagText (fun quote c => quote.isNone && c == '>') quoteAfter where
  cut_nil := fun _ => rfl
  cut_cons := fun quote c cs => by cases quote <;> simp [cutTag?, quoteAfter]
  inside_nil := fun quote => by cases quote <;> rfl
  inside_cons := fun quote c cs => by cases quote <;> simp [isTagText, bne]
  eq_of_ends := fun quote c => by simp

/-- A tag is cut off where its inside ends. -/
theorem cutTag?_eq_some_iff {quote : Option Char} :
    cutTag? quote cs = some (content, rest) ↔
      cs = content ++ '>' :: rest ∧ isTagText quote content :=
  scans_cutTag?.eq_some_iff

/-- A mark that is no quotation mark changes nothing in a tag's quotes. -/
theorem quoteAfter_of_isSpace {quote : Option Char} {c : Char} (hc : isSpace c)
    (hquote : quote = none ∨ quote = some '"' ∨ quote = some '\'') :
    quoteAfter quote c = quote := by
  have hmarks : c ≠ '"' ∧ c ≠ '\'' := by
    constructor <;> rintro rfl <;> simp [isSpace] at hc
  rcases hquote with rfl | rfl | rfl <;> simp [quoteAfter, hmarks]

/-- The state behind a character is no quotation mark or one of the two. -/
theorem quoteAfter_cases {quote : Option Char} (c : Char)
    (hquote : quote = none ∨ quote = some '"' ∨ quote = some '\'') :
    quoteAfter quote c = none ∨ quoteAfter quote c = some '"' ∨
      quoteAfter quote c = some '\'' := by
  rcases hquote with rfl | rfl | rfl <;> unfold quoteAfter <;> grind

/-- The inside of a tag stays one without the space at its end. -/
theorem isTagText_of_append_space {quote : Option Char} {spaces : List Char}
    (hquote : quote = none ∨ quote = some '"' ∨ quote = some '\'')
    (hspaces : spaces.all isSpace) (h : isTagText quote (content ++ spaces)) :
    isTagText quote content := by
  induction content generalizing quote with
  | nil =>
      induction spaces with
      | nil => exact h
      | cons c spaces ih =>
          simp only [List.all_cons, Bool.and_eq_true] at hspaces
          simp only [List.nil_append, isTagText, quoteAfter_of_isSpace hspaces.1 hquote,
            Bool.and_eq_true] at h
          exact ih hspaces.2 h.2
  | cons c content ih =>
      simp only [List.cons_append, isTagText, Bool.and_eq_true] at h ⊢
      exact ⟨h.1, ih (quoteAfter_cases c hquote) h.2⟩

/-! ## Type declarations -/

/-- Whether a text is the rest of a type declaration in which `depth` marks `>` are missing: each
`<` in it has a `>` of its own. -/
def isBalanced (depth : Nat) : List Char → Bool
  | [] => depth == 0
  | c :: cs =>
    if c = '>' then
      match depth with
      | 0 => false
      | depth + 1 => isBalanced depth cs
    else isBalanced (if c = '<' then depth + 1 else depth) cs

/-- How many marks `>` are missing after one more character of a type declaration. -/
def depthAfter (depth : Nat) (c : Char) : Nat :=
  if c = '>' then depth - 1 else if c = '<' then depth + 1 else depth

/-- Cutting a type declaration is such a scan, with the depth of brackets as its state. -/
theorem scans_cutBalanced? :
    Scans cutBalanced? isBalanced (fun depth c => depth == 0 && c == '>') depthAfter where
  cut_nil := fun _ => rfl
  cut_cons := fun depth c cs => by
    by_cases hgt : c = '>'
    · cases depth <;> simp [cutBalanced?, depthAfter, hgt]
    · simp [cutBalanced?, depthAfter, hgt]
  inside_nil := fun depth => by simp [isBalanced]
  inside_cons := fun depth c cs => by
    by_cases hgt : c = '>'
    · cases depth <;> simp [isBalanced, depthAfter, hgt]
    · simp [isBalanced, depthAfter, hgt]
  eq_of_ends := fun depth c => by simp

/-- A type declaration is cut off where its marks are balanced. -/
theorem cutBalanced?_eq_some_iff {depth : Nat} :
    cutBalanced? depth cs = some (content, rest) ↔
      cs = content ++ '>' :: rest ∧ isBalanced depth content :=
  scans_cutBalanced?.eq_some_iff

/-- Space in front does not count in a type declaration. -/
theorem isBalanced_dropWhile {depth : Nat} :
    isBalanced depth (content.dropWhile isSpace) = isBalanced depth content := by
  induction content with
  | nil => rfl
  | cons c content ih =>
      by_cases hc : isSpace c
      · have hmarks : c ≠ '>' ∧ c ≠ '<' := by
          constructor <;> rintro rfl <;> simp [isSpace] at hc
        rw [List.dropWhile_cons_of_pos hc, ih]
        simp [isBalanced, hmarks]
      · rw [List.dropWhile_cons_of_neg hc]

end ProjectOrder.Markup
