import ProjectOrder.Toml.Quoted
import Mathlib.Data.List.TakeWhile

/-!
# Quoted strings read back

A text that is written as a quoted string is read back as it was: `string?_writeAs`, for every form
that fits the text, and `Form.fits_ofText`, that the chosen form does. Between the two stands
`Spelled`, which says how the characters of a text may stand between quotes, whoever writes them;
reading is proved from it by induction.
-/

namespace ProjectOrder.Toml.Quoted

variable {isBlock : Bool} {quote c : Char} {quotes fuel : Nat} {s w cs rest : List Char}

/-! ## Characters up to a place -/

/-- A run of characters is taken as a whole if what follows it begins otherwise. -/
theorem takeWhile_append_of_head? {p : Char → Bool} (hcs : ∀ c ∈ cs, p c)
    (hrest : ∀ c ∈ rest.head?, p c = false) : (cs ++ rest).takeWhile p = cs := by
  rw [List.takeWhile_append_of_pos hcs]
  cases rest with
  | nil => simp
  | cons c rest => simp [hrest c rfl]

/-- A run of characters is dropped as a whole if what follows it begins otherwise. -/
theorem dropWhile_append_of_head? {p : Char → Bool} (hcs : ∀ c ∈ cs, p c)
    (hrest : ∀ c ∈ rest.head?, p c = false) : (cs ++ rest).dropWhile p = rest := by
  rw [List.dropWhile_append_of_pos hcs]
  cases rest with
  | nil => rfl
  | cons c rest => simp [hrest c rfl]

/-! ## Spelling -/

/-- What may stand for a character that is no quote of a block. -/
inductive Shows (isBlock : Bool) (quote : Char) : Char → List Char → Prop where
  | plain {c : Char} :
      c ≠ quote → ¬ (c = '\\' ∧ quote = '"') → isPlain c → Shows isBlock quote c [c]
  | lineFeed : isBlock → quote ≠ '\n' → Shows isBlock quote '\n' ['\n']
  | escape {c : Char} {e : List Char} :
      quote = '"' → (∀ tail, escape? (e ++ tail) = some (c, tail)) →
      Shows isBlock quote c ('\\' :: e)

/-- How a text may stand between quotes, given the number of quotes just before. In a block there
may be two quotes in a row, but no third one. -/
inductive Spelled (isBlock : Bool) (quote : Char) : Nat → List Char → List Char → Prop where
  | nil {quotes : Nat} : Spelled isBlock quote quotes [] []
  | shows {quotes : Nat} {c : Char} {s w cs : List Char} :
      Shows isBlock quote c w → Spelled isBlock quote 0 s cs →
      Spelled isBlock quote quotes (c :: s) (w ++ cs)
  | quote {quotes : Nat} {s cs : List Char} :
      isBlock → quotes < 2 → Spelled isBlock quote (quotes + 1) s cs →
      Spelled isBlock quote quotes (quote :: s) (quote :: cs)

/-- What stands for a character begins with something else than a quote. -/
theorem Shows.exists_cons (h : Shows isBlock quote c w) : ∃ x tail, w = x :: tail ∧ x ≠ quote := by
  cases h with
  | plain hquote => exact ⟨_, _, rfl, hquote⟩
  | lineFeed _ hquote => exact ⟨_, _, rfl, hquote.symm⟩
  | escape hquote =>
      subst hquote
      exact ⟨_, _, rfl, by decide⟩

/-- On one line there are no quotes but the last. -/
theorem Spelled.head?_ne (h : Spelled false quote quotes s cs) : cs.head? ≠ some quote := by
  cases h with
  | nil => simp
  | shows hc =>
      obtain ⟨x, tail, rfl, hx⟩ := hc.exists_cons
      simpa using hx
  | quote hblock => cases hblock

/-! ## Reading one line -/

/-- The step of reading on one line. -/
theorem Shows.single? (hc : Shows false quote c w)
    (h : Quoted.single? quote fuel cs = some (s, rest)) :
    Quoted.single? quote (fuel + 1) (w ++ cs) = some (c :: s, rest) := by
  cases hc with
  | plain hquote hescape hplain =>
      rw [List.singleton_append, Quoted.single?, if_neg hquote, if_neg hescape, if_pos hplain, h]
      rfl
  | lineFeed hblock => cases hblock
  | escape hquote he =>
      subst hquote
      rw [List.cons_append, Quoted.single?, if_neg (by decide), if_pos ⟨rfl, rfl⟩, he]
      simp only [Option.bind_eq_bind, Option.bind_some, h]
      rfl

/-- A text spelled on one line between quotes is read up to the quote that closes it. -/
theorem Spelled.single? (h : Spelled false quote quotes s cs) (hfuel : cs.length < fuel) :
    Quoted.single? quote fuel (cs ++ quote :: rest) = some (s, rest) := by
  induction h generalizing fuel with
  | nil =>
      obtain ⟨fuel, rfl⟩ := Nat.exists_eq_add_one.2 hfuel
      rw [List.nil_append, Quoted.single?, if_pos rfl]
  | shows hc _ ih =>
      obtain ⟨x, tail, rfl, -⟩ := hc.exists_cons
      rw [List.length_append, List.length_cons] at hfuel
      obtain ⟨fuel, rfl⟩ := Nat.exists_eq_add_one.2 (Nat.zero_lt_of_lt hfuel)
      rw [List.append_assoc]
      exact hc.single? (ih (by omega))
  | quote hblock => cases hblock

/-! ## Reading a block -/

/-- A plain character is no part of a line end. -/
theorem afterNewline?_cons_of_isPlain (h : isPlain c) : afterNewline? (c :: cs) = none := by
  unfold afterNewline?
  split
  · simp_all [isPlain]
  · simp_all [isPlain]
  · rfl

/-- An escape is not taken for the continuation of a line. -/
theorem continuation?_eq_none (h : escape? cs = some (c, rest)) : continuation? cs = none := by
  unfold escape? at h
  split at h <;> first | rfl | cases h

/-- The step of reading in a block. -/
theorem Shows.multi? (hc : Shows true quote c w)
    (h : Quoted.multi? quote fuel cs = some (s, rest)) :
    Quoted.multi? quote (fuel + 1) (w ++ cs) = some (c :: s, rest) := by
  cases hc with
  | plain hquote hescape hplain =>
      rw [List.singleton_append, Quoted.multi?, if_neg hquote, if_neg hescape,
        afterNewline?_cons_of_isPlain hplain]
      simp only [if_pos hplain, h]
      rfl
  | lineFeed _ hquote =>
      rw [List.singleton_append, Quoted.multi?, if_neg hquote.symm,
        if_neg (fun hescape => by cases hescape.1)]
      simp only [afterNewline?, h]
      rfl
  | escape hquote he =>
      subst hquote
      rw [List.cons_append, Quoted.multi?, if_neg (by decide), if_pos ⟨rfl, rfl⟩,
        continuation?_eq_none (he cs)]
      simp only [he, Option.bind_eq_bind, Option.bind_some, h]
      rfl

/-- Reading a block at a run of quotes: up to two of them are part of the text, and more of them end
it. -/
theorem multi?_replicate (hcs : cs.head? ≠ some quote) :
    multi? quote (fuel + 1) (List.replicate (quotes + 1) quote ++ cs) =
      if quotes + 1 < 3 then
        (multi? quote fuel cs).bind fun (s, rest) =>
          some (List.replicate (quotes + 1) quote ++ s, rest)
      else
        some ((List.replicate (quotes + 1) quote).take (min (quotes - 2) 2),
          (List.replicate (quotes + 1) quote).drop (min (quotes - 2) 2 + 3) ++ cs) := by
  have hhead : ∀ c ∈ cs.head?, decide (c = quote) = false := by
    rintro c hc
    rw [Option.mem_def] at hc
    simpa [hc] using hcs
  have hrun : ∀ c ∈ List.replicate (quotes + 1) quote, decide (c = quote) = true := by
    simp
  have htake := takeWhile_append_of_head? hrun hhead
  have hdrop := dropWhile_append_of_head? hrun hhead
  rw [List.replicate_succ, List.cons_append] at htake hdrop ⊢
  rw [multi?, if_pos rfl, htake, hdrop]
  dsimp only
  rw [List.length_cons, List.length_replicate]
  rfl

/-- A block is read to its closing quotes, wherever in a run of quotes its reading begins. -/
theorem Spelled.multi? (h : Spelled true quote quotes s cs) (hquotes : quotes ≤ 2)
    (hrest : rest.head? ≠ some quote) (hfuel : quotes + cs.length < fuel) :
    Quoted.multi? quote fuel
        (List.replicate quotes quote ++ (cs ++ quote :: quote :: quote :: rest)) =
      some (List.replicate quotes quote ++ s, rest) := by
  -- quotes just before stay in front, as the closing ones may go on the same run
  induction h generalizing fuel with
  | @nil quotes =>
      have hclosing : List.replicate quotes quote ++ ([] ++ quote :: quote :: quote :: rest) =
          List.replicate (quotes + 2 + 1) quote ++ rest := by
        change _ ++ (List.replicate 3 quote ++ rest) = _
        rw [← List.append_assoc, List.replicate_append_replicate]
      obtain ⟨fuel, rfl⟩ := Nat.exists_eq_add_one.2 (Nat.zero_lt_of_lt hfuel)
      have hinner : min (quotes + 2 - 2) 2 = quotes := by omega
      rw [hclosing, multi?_replicate hrest, if_neg (by omega), hinner, List.take_replicate,
        List.drop_replicate, List.append_nil, Nat.min_eq_left (by omega), Nat.sub_self]
      rfl
  | @shows quotes c s w cs hc _ ih =>
      obtain ⟨x, tail, rfl, hx⟩ := hc.exists_cons
      simp only [List.replicate_zero, List.nil_append] at ih
      rw [List.length_append, List.length_cons] at hfuel
      rw [List.append_assoc]
      cases quotes with
      | zero =>
          obtain ⟨fuel, rfl⟩ := Nat.exists_eq_add_one.2 (Nat.zero_lt_of_lt hfuel)
          exact hc.multi? (ih (Nat.zero_le 2) (by omega))
      | succ quotes =>
          -- the run ends here, and is read in one step
          obtain ⟨fuel, rfl⟩ : ∃ k, fuel = k + 1 + 1 := ⟨fuel - 2, by omega⟩
          have htail : Quoted.multi? quote (fuel + 1) _ = _ :=
            hc.multi? (ih (Nat.zero_le 2) (by omega))
          rw [multi?_replicate (by simpa using hx), if_pos (by omega), htail]
          rfl
  | @quote quotes s cs _ hlt _ ih =>
      have hshift (l : List Char) :
          List.replicate quotes quote ++ quote :: l = List.replicate (quotes + 1) quote ++ l := by
        rw [List.replicate_succ', List.append_assoc, List.singleton_append]
      rw [List.length_cons] at hfuel
      rw [List.cons_append, hshift, hshift]
      exact ih (by omega) (by omega)

/-! ## Reading -/

/-- A text without line feeds does not begin with a line end where it stands between quotes. -/
theorem Spelled.afterNewline?_eq_none (h : Spelled isBlock quote quotes s cs) (hs : '\n' ∉ s)
    (hquote : quote = '"' ∨ quote = '\'') : afterNewline? (cs ++ quote :: rest) = none := by
  have hplain : isPlain quote := by
    rcases hquote with rfl | rfl <;> decide
  cases h with
  | nil => exact afterNewline?_cons_of_isPlain hplain
  | quote => exact afterNewline?_cons_of_isPlain hplain
  | shows hc =>
      cases hc with
      | plain _ _ hc => exact afterNewline?_cons_of_isPlain hc
      | lineFeed => exact absurd (List.mem_cons_self ..) hs
      | escape => rfl

/-- A string of one line is read. -/
theorem Spelled.string?_line (h : Spelled false quote 0 s cs) (hquote : quote = '"' ∨ quote = '\'')
    (hrest : rest.head? ≠ some quote) :
    string? (quote :: (cs ++ quote :: rest)) = some (s, rest) := by
  have hread : Quoted.single? quote ((cs ++ quote :: rest).length + 1) (cs ++ quote :: rest) =
      some (s, rest) := h.single? (by rw [List.length_append]; omega)
  -- the two quotes of an empty string are not the first of three
  have hthree (tail : List Char) : cs ++ quote :: rest ≠ quote :: quote :: tail := by
    intro heq
    cases cs with
    | nil => simp_all
    | cons c cs =>
        have hne := h.head?_ne
        simp_all
  generalize cs ++ quote :: rest = body at hread hthree
  rcases hquote with rfl | rfl
  · rw [string?]
    · exact hread
    · exact hthree
  · rw [string?]
    · exact hread
    · exact hthree

/-- A string of several lines is read, with a line end in front that does not count. -/
theorem Spelled.string?_block (h : Spelled true quote 0 s cs) (hquote : quote = '"' ∨ quote = '\'')
    (hrest : rest.head? ≠ some quote) :
    string? (quote :: quote :: quote :: ((if s.contains '\n' then ['\n'] else []) ++
      (cs ++ quote :: quote :: quote :: rest))) = some (s, rest) := by
  have hread (fuel : Nat) (hfuel : cs.length < fuel) :
      Quoted.multi? quote fuel (cs ++ quote :: quote :: quote :: rest) = some (s, rest) := by
    simpa using h.multi? (Nat.zero_le 2) hrest (by omega : 0 + cs.length < fuel)
  have hlength : cs.length ≤ (cs ++ quote :: quote :: quote :: rest).length := by
    rw [List.length_append]
    omega
  have hblock : block? quote ((if s.contains '\n' then ['\n'] else []) ++
      (cs ++ quote :: quote :: quote :: rest)) = some (s, rest) := by
    rw [block?]
    split
    · exact hread _ (Nat.lt_succ_of_le hlength)
    · rw [List.nil_append, h.afterNewline?_eq_none (by simp_all) hquote]
      exact hread _ (Nat.lt_succ_of_le hlength)
  rcases hquote with rfl | rfl <;> exact hblock

/-! ## Writing -/

/-- Hexadecimal digits are read as they are written. -/
theorem hexDigit?_upperHex : ∀ n < 16, hexDigit? (upperHex n) = some n := by
  decide

/-- The escape of a control character is read as this character. -/
theorem escape?_pointEscape (h : isControl c) (tail : List Char) :
    escape? ('u' :: '0' :: '0' :: upperHex (c.toNat / 16) :: upperHex (c.toNat % 16) :: tail) =
      some (c, tail) := by
  have hc : c.toNat < 0x80 := by
    simp only [isControl, Bool.or_eq_true, Bool.and_eq_true, decide_eq_true_eq] at h
    omega
  have hhigh := hexDigit?_upperHex (c.toNat / 16) (by omega)
  have hlow := hexDigit?_upperHex (c.toNat % 16) (by omega)
  have hzero : hexDigit? '0' = some 0 := by decide
  have hpoint : c.toNat / 16 * 16 + c.toNat % 16 = c.toNat := by omega
  have hvalid : c.toNat.isValidChar := c.valid
  simp [escape?, codePoint?, hzero, hhigh, hlow, hpoint, hvalid]

/-- A character that needs no escape in a literal string is plain, or a line feed. -/
theorem isPlain_or_eq_of_not_isControl (h : isControl c = false) : isPlain c ∨ c = '\n' := by
  simp only [isControl, Bool.or_eq_false_iff, Bool.and_eq_false_iff, decide_eq_false_iff_not,
    Decidable.not_not] at h
  simp only [isPlain, Bool.or_eq_true, Bool.and_eq_true, decide_eq_true_eq]
  grind

/-- What is written between double quotes is a spelling of any text. -/
theorem spelled_escaped (isBlock : Bool) (hquotes : quotes ≤ 2) (s : List Char) :
    Spelled isBlock '"' quotes s (escaped isBlock quotes s) := by
  induction s generalizing quotes with
  | nil => exact .nil
  | cons c s ih =>
      by_cases hquote : c = '"'
      · rw [escaped, if_pos hquote, hquote]
        split
        · exact .shows (w := ['\\', '"']) (.escape rfl fun _ => rfl) (ih (Nat.zero_le 2))
        · rename_i hraw
          simp only [Bool.or_eq_true, Bool.not_eq_true', decide_eq_true_eq, not_or,
            Bool.not_eq_false] at hraw
          exact .quote hraw.1 (by omega) (ih (by omega))
      · rw [escaped, if_neg hquote]
        refine .shows ?_ (ih (Nat.zero_le 2))
        split_ifs with hbackslash hb ht hf hr hn hblock hcontrol
        · subst hbackslash
          exact .escape rfl fun _ => rfl
        · exact hb ▸ .escape rfl fun _ => rfl
        · exact ht ▸ .escape rfl fun _ => rfl
        · exact hf ▸ .escape rfl fun _ => rfl
        · exact hr ▸ .escape rfl fun _ => rfl
        · subst hn
          exact .lineFeed hblock (by decide)
        · exact hn ▸ .escape rfl fun _ => rfl
        · exact .escape rfl (escape?_pointEscape hcontrol)
        · rw [Bool.not_eq_true] at hcontrol
          exact .plain hquote (fun h => hbackslash h.1)
            ((isPlain_or_eq_of_not_isControl hcontrol).resolve_right hn)

/-- A text without the quote and characters that need an escape stands as it is. -/
theorem spelled_plain (hquote : quote ≠ '"') (hs : ∀ c ∈ s, c ≠ quote ∧ isPlain c) :
    Spelled false quote quotes s s := by
  induction s generalizing quotes with
  | nil => exact .nil
  | cons c s ih =>
      obtain ⟨⟨hc, hplain⟩, hs⟩ := List.forall_mem_cons.1 hs
      exact .shows (.plain hc (fun h => hquote h.2) hplain) (ih hs)

/-- The longest run is no shorter than the one that is under way. -/
theorem le_longestRun (current : Nat) (s : List Char) : current ≤ longestRun c current s := by
  induction s generalizing current with
  | nil => exact Nat.le_refl current
  | cons x s ih =>
      rw [longestRun]
      split
      · exact Nat.le_of_succ_le (ih (current + 1))
      · exact Nat.le_max_left ..

/-- In a block, a text with short runs of quotes and without controls stands as it is. -/
theorem spelled_block (hquote : quote = '\'') (hs : ∀ c ∈ s, isControl c = false)
    (hrun : longestRun quote quotes s < 3) : Spelled true quote quotes s s := by
  induction s generalizing quotes with
  | nil => exact .nil
  | cons c s ih =>
      obtain ⟨hc, hs⟩ := List.forall_mem_cons.1 hs
      rw [longestRun] at hrun
      split at hrun
      · rename_i heq
        have hquotes := le_longestRun (c := quote) (quotes + 1) s
        rw [heq]
        exact .quote rfl (by omega) (ih hs hrun)
      · rename_i hne
        refine .shows (w := [c]) ?_ (ih hs (by omega))
        rcases isPlain_or_eq_of_not_isControl hc with hplain | rfl
        · exact .plain hne (by simp [hquote]) hplain
        · exact .lineFeed rfl (by simp [hquote])

/-- What a form asks of a text. The forms with escapes can hold any. -/
inductive Form.Fits : Form → List Char → Prop where
  | basic (s : List Char) : Fits .basic s
  | basicBlock (s : List Char) : Fits .basicBlock s
  | literal {s : List Char} : '\'' ∉ s → '\n' ∉ s → (∀ c ∈ s, isControl c = false) → Fits .literal s
  | literalBlock {s : List Char} : (∀ c ∈ s, isControl c = false) → longestRun '\'' 0 s < 3 →
      Fits .literalBlock s

/-- The chosen form fits. -/
theorem Form.fits_ofText (s : List Char) : (Form.ofText s).Fits s := by
  unfold ofText
  dsimp only
  split_ifs with hbasic hliteral hblock hliteralBlock
  · exact .basic s
  · simp only [Bool.and_eq_true, Bool.not_eq_true', List.contains_eq_mem, decide_eq_false_iff_not,
      List.any_eq_false] at hliteral
    exact .literal hliteral.1.1 hliteral.1.2 (by simpa using hliteral.2)
  · exact .basicBlock s
  · simp only [Bool.and_eq_true, Bool.not_eq_true', decide_eq_true_eq, List.any_eq_false]
      at hliteralBlock
    exact .literalBlock (by simpa using hliteralBlock.1) hliteralBlock.2
  · exact .basicBlock s
  · exact .basic s

/-- A text written in a form that fits it is read back, whatever follows but another quote. -/
theorem string?_writeAs {form : Form} (hform : form.Fits s) (hdouble : rest.head? ≠ some '"')
    (hsingle : rest.head? ≠ some '\'') : string? (writeAs form s ++ rest) = some (s, rest) := by
  cases hform with
  | basic =>
      have h := (spelled_escaped false (Nat.zero_le 2) s).string?_line (.inl rfl) hdouble
      simpa [writeAs] using h
  | basicBlock =>
      have h := (spelled_escaped true (Nat.zero_le 2) s).string?_block (.inl rfl) hdouble
      simpa [writeAs] using h
  | literal hquote hnewline hcontrol =>
      have hs : ∀ c ∈ s, c ≠ '\'' ∧ isPlain c := by
        intro c hc
        refine ⟨fun h => hquote (h ▸ hc), ?_⟩
        exact (isPlain_or_eq_of_not_isControl (hcontrol c hc)).resolve_right fun h =>
          hnewline (h ▸ hc)
      have h := (spelled_plain (by decide) hs).string?_line (.inr rfl) hsingle
      simpa [writeAs] using h
  | literalBlock hcontrol hrun =>
      have h := (spelled_block rfl hcontrol hrun).string?_block (.inr rfl) hsingle
      simpa [writeAs] using h

end ProjectOrder.Toml.Quoted
