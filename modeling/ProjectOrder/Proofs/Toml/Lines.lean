import ProjectOrder.Proofs.Toml.Quoted
import ProjectOrder.Toml.Parser

/-!
# Documents of pairs

A document of pairs on lines of their own is read as exactly these pairs, in their order:
`parse?_lines`. What is asked of a line is part of it: a key that needs no quotes, and a value in a
spelling that is read to the end of the line (`Writes`).
-/

namespace ProjectOrder.Toml

open Quoted (isBlank takeWhile_append_of_head? dropWhile_append_of_head?)

variable {c : Char} {cs rest text : List Char} {item : Item} {es : Entries} {key : String}

/-! ## Lines -/

/-- A text is read as a value wherever it ends a line. -/
structure Writes (text : List Char) (item : Item) : Prop where
  /-- No blank of the text is lost. -/
  head? : ∀ c ∈ text.head?, isBlank c = false
  value? (fuel nesting : Nat) (rest : List Char) :
    Toml.value? (fuel + 1) nesting (text ++ '\n' :: rest) = some (item, '\n' :: rest)

/-- A pair on a line of its own. -/
structure Line where
  key : String
  value : String
  item : Item
  nonempty : key ≠ ""
  bare : key.toList.all isBareKeyChar
  writes : Writes value.toList item

namespace Line

variable {l : Line} {ls : List Line}

/-- The characters of a line. -/
def chars (l : Line) : List Char :=
  l.key.toList ++ ' ' :: '=' :: ' ' :: (l.value.toList ++ ['\n'])

/-- The pair of a line. -/
def pair (l : Line) : String × Item :=
  (l.key, l.item)

end Line

/-! ## Values -/

/-- A quoted string begins with a quote. -/
theorem Quoted.exists_writeAs_cons (form : Quoted.Form) (s : List Char) :
    ∃ quote tail, Quoted.writeAs form s = quote :: tail ∧ (quote = '"' ∨ quote = '\'') := by
  cases form with
  | basic | basicBlock => exact ⟨_, _, rfl, .inl rfl⟩
  | literal | literalBlock => exact ⟨_, _, rfl, .inr rfl⟩

/-- The quoted form of a text is read as this text wherever it ends a line. -/
theorem writes_string (s : String) : Writes (Quoted.write s).toList (.string s) := by
  obtain ⟨quote, tail, hwrite, hquote⟩ := Quoted.exists_writeAs_cons (.ofText s.toList) s.toList
  have hread (rest : List Char) : Quoted.string? (quote :: (tail ++ '\n' :: rest)) =
      some (s.toList, '\n' :: rest) := by
    rw [← List.cons_append, ← hwrite]
    exact Quoted.string?_writeAs (Quoted.Form.fits_ofText s.toList) (by simp) (by simp)
  rw [Quoted.write, String.toList_ofList, hwrite]
  refine ⟨?_, fun fuel nesting rest => ?_⟩
  · rcases hquote with rfl | rfl <;> simp [isBlank]
  · rcases hquote with rfl | rfl <;> simp [value?, hread]

/-- The word for a truth value is read as this value wherever it ends a line. -/
theorem writes_boolean (b : Bool) : Writes (toString b).toList (.boolean b) := by
  cases b with
  | true => exact ⟨fun _ hc => Option.some.inj hc ▸ rfl, fun _ _ _ => by rfl⟩
  | false => exact ⟨fun _ hc => Option.some.inj hc ▸ rfl, fun _ _ _ => by rfl⟩

/-! ## Reading a line -/

/-- A character of a bare key is none that has another meaning in front of a line. -/
theorem not_mem_of_isBareKeyChar (h : isBareKeyChar c) :
    c ∉ [' ', '\t', '\n', '\r', '#', '[', '"', '\'', '\uFEFF'] := by
  have hnot : [' ', '\t', '\n', '\r', '#', '[', '"', '\'', '\uFEFF'].all (! isBareKeyChar ·) := by
    decide
  intro hc
  have hother := List.all_eq_true.1 hnot c hc
  rw [h] at hother
  cases hother

namespace Line

variable {l : Line} {ls : List Line}

/-- A line begins with a character of its key. -/
theorem exists_chars_cons (l : Line) : ∃ c tail, l.chars = c :: tail ∧ isBareKeyChar c := by
  cases hkey : l.key.toList with
  | nil => exact absurd (String.toList_eq_nil_iff.1 hkey) l.nonempty
  | cons c tail =>
      refine ⟨c, _, by rw [chars, hkey, List.cons_append], List.all_eq_true.1 l.bare c ?_⟩
      rw [hkey]
      exact List.mem_cons_self ..

/-- Nothing is skipped in front of a line. -/
theorem dropWhile_chars (l : Line) (rest : List Char) :
    (l.chars ++ rest).dropWhile isBlank = l.chars ++ rest := by
  obtain ⟨c, tail, hchars, hc⟩ := l.exists_chars_cons
  have hblank : isBlank c = false := by
    have := not_mem_of_isBareKeyChar hc
    simp_all [isBlank]
  rw [hchars, List.cons_append, List.dropWhile_cons_of_neg (by simp [hblank])]

/-- A line begins without a gap. -/
theorem skipGap_chars (l : Line) (rest : List Char) :
    skipGap (l.chars ++ rest) = l.chars ++ rest := by
  rw [skipGap, skipLines, dropWhile_chars]
  obtain ⟨c, tail, hchars, hc⟩ := l.exists_chars_cons
  have hc := not_mem_of_isBareKeyChar hc
  have hcomment : skipComment (c :: (tail ++ rest)) = c :: (tail ++ rest) := by
    unfold skipComment
    split <;> simp_all
  have hnewline : Quoted.afterNewline? (c :: (tail ++ rest)) = none := by
    unfold Quoted.afterNewline?
    split <;> simp_all
  rw [hchars, List.cons_append, hcomment, hnewline]

/-- The key of a line is read up to its equals sign. -/
theorem key?_chars (l : Line) (rest : List Char) :
    key? (l.chars ++ rest) =
      some ([l.key], '=' :: ' ' :: (l.value.toList ++ '\n' :: rest)) := by
  have hkey : l.key.toList ≠ [] := fun h => l.nonempty (String.toList_eq_nil_iff.1 h)
  have hchars : l.chars ++ rest =
      l.key.toList ++ ' ' :: '=' :: ' ' :: (l.value.toList ++ '\n' :: rest) := by
    simp [chars]
  have hsimple : simpleKey? (l.chars ++ rest) =
      some (l.key, ' ' :: '=' :: ' ' :: (l.value.toList ++ '\n' :: rest)) := by
    obtain ⟨c, tail, hcons, hc⟩ := l.exists_chars_cons
    have hc := not_mem_of_isBareKeyChar hc
    have hquote : ¬ (c = '"' ∨ c = '\'') := by
      simp_all
    have hend : ∀ c ∈ (' ' :: '=' :: ' ' :: (l.value.toList ++ '\n' :: rest)).head?,
        isBareKeyChar c = false := by
      simp
      decide
    rw [hcons, List.cons_append, simpleKey?, if_neg hquote, ← List.cons_append, ← hcons, hchars,
      takeWhile_append_of_head? (List.all_eq_true.1 l.bare) hend,
      dropWhile_append_of_head? (List.all_eq_true.1 l.bare) hend]
    simp [hkey]
  rw [key?, dottedKey?, dropWhile_chars, hsimple]
  rfl

/-- A line is read as its pair. -/
theorem statement?_chars (l : Line) (rest : List Char) :
    statement? (l.chars ++ rest) = some (.pair [l.key] l.item, rest) := by
  have hvalue : (' ' :: (l.value.toList ++ '\n' :: rest)).dropWhile isBlank =
      l.value.toList ++ '\n' :: rest := by
    have hhead : ∀ c ∈ (l.value.toList ++ '\n' :: rest).head?, isBlank c = false := by
      cases hvalue : l.value.toList with
      | nil => simp [isBlank]
      | cons c cs =>
          have hhead := l.writes.head?
          rwa [hvalue] at hhead
    rw [List.dropWhile_cons_of_pos (by decide)]
    exact dropWhile_append_of_head? (List.forall_mem_nil _) hhead
  have hkey := l.key?_chars rest
  obtain ⟨c, tail, hcons, hc⟩ := l.exists_chars_cons
  have hc := not_mem_of_isBareKeyChar hc
  rw [hcons, List.cons_append] at hkey ⊢
  rw [statement?]
  · rw [hkey]
    simp [Number.expect?, hvalue, l.writes.value?]
    rfl
  · simp_all
  · simp_all

/-- Lines are read as their pairs. -/
theorem statements?_chars (ls : List Line) {fuel : Nat} (hfuel : ls.length < fuel) :
    statements? fuel (ls.flatMap chars) = some (ls.map fun l => .pair [l.key] l.item) := by
  obtain ⟨fuel, rfl⟩ := Nat.exists_eq_add_one.2 (Nat.zero_lt_of_lt hfuel)
  induction ls generalizing fuel with
  | nil => rfl
  | cons l ls ih =>
      obtain ⟨fuel, rfl⟩ :=
        Nat.exists_eq_add_one.2 (Nat.zero_lt_of_lt (Nat.lt_of_succ_lt_succ hfuel))
      have hstatement := l.statement?_chars (ls.flatMap chars)
      obtain ⟨c, tail, hcons, -⟩ := l.exists_chars_cons
      rw [List.flatMap_cons, statements?, skipGap_chars]
      rw [hcons, List.cons_append] at hstatement ⊢
      dsimp only
      rw [hstatement]
      simp only [Option.bind_eq_bind, Option.bind_some]
      rw [ih fuel (Nat.lt_of_succ_lt_succ hfuel)]
      rfl

/-- Every line has at least one character. -/
theorem length_le_length_chars (ls : List Line) : ls.length ≤ (ls.flatMap chars).length := by
  induction ls with
  | nil => exact Nat.zero_le _
  | cons l ls ih =>
      obtain ⟨c, tail, hcons, -⟩ := l.exists_chars_cons
      rw [List.flatMap_cons, List.length_append, List.length_cons, hcons, List.length_cons]
      omega

end Line

/-! ## Building the table -/

/-- A new key is put behind the others. -/
theorem Entries.set_eq_append (h : key ∉ es.map Prod.fst) :
    es.set key item = es ++ [(key, item)] := by
  induction es with
  | nil => rfl
  | cons e es ih =>
      rw [List.map_cons, List.mem_cons, not_or] at h
      rw [set, if_neg (Ne.symm h.1), ih h.2, List.cons_append]

/-- A pair whose key is new to the top-level table is added to its end. -/
theorem Build.step_pair (h : key ∉ es.map Prod.fst) :
    Build.step ⟨es, []⟩ (.pair [key] item) = some ⟨es ++ [(key, item)], []⟩ := by
  have hlookup : es.lookup key = none := by
    rw [List.lookup_eq_none_iff]
    intro e he
    simpa using fun heq : key = e.1 => h (List.mem_map.2 ⟨e, he, heq.symm⟩)
  have hadd : es.addPair [key] item = some (es ++ [(key, item)]) := by
    simp [Entries.addPair, Entries.descend, hlookup, Entries.set_eq_append h]
  rw [step, Entries.descend, hadd]
  rfl

/-- Pairs whose keys are new and distinct are added to the end of the top-level table. -/
theorem Build.foldlM_step_pairs {ps : List (String × Item)}
    (h : (es.map Prod.fst ++ ps.map Prod.fst).Nodup) :
    (ps.map fun p => Statement.pair [p.1] p.2).foldlM step ⟨es, []⟩ = some ⟨es ++ ps, []⟩ := by
  induction ps generalizing es with
  | nil => simp
  | cons p ps ih =>
      have hnew : p.1 ∉ es.map Prod.fst := fun hp =>
        (List.nodup_append.1 h).2.2 _ hp _ (List.mem_cons_self ..) rfl
      have hrest : ((es ++ [p]).map Prod.fst ++ ps.map Prod.fst).Nodup := by
        simpa using h
      rw [List.map_cons, List.foldlM_cons, step_pair hnew, Option.bind_eq_bind, Option.bind_some,
        ih hrest, List.append_assoc, List.singleton_append]

/-- A document of lines with distinct keys is read as their pairs. -/
theorem parse?_lines {ls : List Line} (h : (ls.map Line.key).Nodup) :
    parse? (String.ofList (ls.flatMap Line.chars)) = some (ls.map Line.pair) := by
  have hmark : (ls.flatMap Line.chars).head? ≠ some '\uFEFF' := by
    cases ls with
    | nil => simp
    | cons l ls =>
        obtain ⟨c, tail, hcons, hc⟩ := l.exists_chars_cons
        have hc := not_mem_of_isBareKeyChar hc
        simp_all
  have hstatements : statements? ((ls.flatMap Line.chars).length + 1) (ls.flatMap Line.chars) =
      some ((ls.map Line.pair).map fun p => Statement.pair [p.1] p.2) := by
    rw [Line.statements?_chars ls (Nat.lt_succ_of_le (Line.length_le_length_chars ls)),
      List.map_map]
    rfl
  have hkeys : (ls.map Line.pair).map Prod.fst = ls.map Line.key := by
    rw [List.map_map]
    rfl
  have hbuild :
      ((ls.map Line.pair).map fun p => Statement.pair [p.1] p.2).foldlM Build.step ⟨[], []⟩ = _ :=
    Build.foldlM_step_pairs (by rwa [List.map_nil, List.nil_append, hkeys])
  rw [parse?, String.toList_ofList, if_neg hmark, hstatements, Option.bind_some, ofStatements,
    hbuild]
  rfl

end ProjectOrder.Toml
