import Mathlib.Data.List.Induction
import ProjectOrder.Files.FilePath

/-!
# Paths piece by piece

A path that ends in the name of a file has the components of what stands in front and then this
name: `components_append_name`. What stands in front also decides the parent: `parent?_append_name`.
-/

namespace ProjectOrder.FilePath

variable {cs ds dir piece : List Char} {p : FilePath} {name : String}

/-! ## Pieces -/

/-- There is always a piece. -/
theorem split_ne_nil (cs : List Char) : split cs ≠ [] := by
  induction cs with
  | nil => simp [split]
  | cons c cs ih =>
      rw [split]
      split
      · simp
      · simpa using ih

/-- A text without separators is one piece. -/
theorem split_of_not_mem (h : '/' ∉ cs) : split cs = [cs] := by
  induction cs with
  | nil => rfl
  | cons c cs ih =>
      rw [List.mem_cons, not_or] at h
      rw [split, if_neg (Ne.symm h.1), ih h.2]
      rfl

/-- A separator ends a piece. -/
theorem split_append_separator (cs ds : List Char) :
    split (cs ++ '/' :: ds) = split cs ++ split ds := by
  induction cs with
  | nil => rfl
  | cons c cs ih =>
      rw [List.cons_append, split, split, ih]
      split
      · rfl
      · obtain ⟨front, rest, hsplit⟩ := List.exists_cons_of_ne_nil (split_ne_nil cs)
        rw [hsplit]
        rfl

/-- No piece has a separator in it. -/
theorem not_mem_of_mem_split (h : piece ∈ split cs) : '/' ∉ piece := by
  induction cs generalizing piece with
  | nil =>
      obtain rfl := List.mem_singleton.1 h
      exact List.not_mem_nil
  | cons c cs ih =>
      obtain ⟨front, rest, hsplit⟩ := List.exists_cons_of_ne_nil (split_ne_nil cs)
      rw [split, hsplit] at h
      split at h
      · rcases List.mem_cons.1 h with rfl | h
        · exact List.not_mem_nil
        · exact ih (hsplit ▸ h)
      · rename_i hc
        rcases List.mem_cons.1 h with rfl | h
        · rw [List.mem_cons, not_or]
          exact ⟨Ne.symm hc, ih (hsplit ▸ List.mem_cons_self ..)⟩
        · exact ih (hsplit ▸ List.mem_cons_of_mem _ h)

/-! ## Names -/

/-- A piece that is the name of a file. -/
structure IsName (piece : List Char) : Prop where
  ne_nil : piece ≠ []
  ne_current : piece ≠ ['.']
  ne_parent : piece ≠ ['.', '.']
  not_mem : '/' ∉ piece

/-- Empty pieces and single dots are no components. -/
theorem Component.ofPiece?_eq_none_iff : ofPiece? piece = none ↔ piece = [] ∨ piece = ['.'] := by
  unfold ofPiece?
  split
  · simpa
  · split <;> simp_all

/-- A name is a component as it is. -/
theorem IsName.ofPiece? (h : IsName piece) : Component.ofPiece? piece = some (.name piece) := by
  rw [Component.ofPiece?, if_neg (not_or.2 ⟨h.ne_nil, h.ne_current⟩), if_neg h.ne_parent]

/-- A component that is a name comes from a piece that is one. -/
theorem isName_of_ofPiece? (hpiece : '/' ∉ piece) (h : Component.ofPiece? piece = some (.name cs)) :
    IsName cs := by
  unfold Component.ofPiece? at h
  split at h
  · cases h
  · rename_i hidle
    split at h
    · cases h
    · rename_i hparent
      cases h
      rw [not_or] at hidle
      exact ⟨hidle.1, hidle.2, hparent, hpiece⟩

/-- One or two dots are no name, and no part of them is. -/
theorem IsName.not_sublist {n : Nat} (h : IsName cs) (hn : n ≤ 2) :
    ¬ cs.Sublist (List.replicate n '.') := by
  intro hsub
  obtain ⟨k, hk, rfl⟩ := List.sublist_replicate_iff.1 hsub
  match k, hk with
  | 0, _ => exact h.ne_nil rfl
  | 1, _ => exact h.ne_current rfl
  | 2, _ => exact h.ne_parent rfl
  | k + 3, hk => omega

/-- A piece with a name in it is a name. -/
theorem IsName.of_sublist (h : IsName cs) (hsub : cs.Sublist ds) (hds : '/' ∉ ds) : IsName ds where
  ne_nil := by
    rintro rfl
    exact h.not_sublist (Nat.zero_le 2) hsub
  ne_current := by
    rintro rfl
    exact h.not_sublist (Nat.le_succ 1) hsub
  ne_parent := by
    rintro rfl
    exact h.not_sublist (Nat.le_refl 2) hsub
  not_mem := hds

/-- A name with more behind it is a name. -/
theorem IsName.append (h : IsName cs) (hds : '/' ∉ ds) : IsName (cs ++ ds) :=
  h.of_sublist (List.sublist_append_left cs ds) (by simp [h.not_mem, hds])

/-- Each name among the components of a path is one of its pieces. -/
theorem mem_components_name (h : .name cs ∈ p.components) :
    ∃ piece ∈ split p.text.toList, Component.ofPiece? piece = some (.name cs) := by
  obtain ⟨front, rest, hsplit⟩ := List.exists_cons_of_ne_nil (split_ne_nil p.text.toList)
  simp only [components, hsplit, List.mem_append, List.mem_filterMap] at h
  rw [hsplit]
  rcases h with hfirst | ⟨piece, hpiece, hname⟩
  · split at hfirst
    · simp at hfirst
    · split at hfirst
      · simp at hfirst
      · exact ⟨front, List.mem_cons_self .., Option.mem_toList.1 hfirst⟩
  · exact ⟨piece, List.mem_cons_of_mem _ hpiece, hname⟩

/-- The name of a file holds no separator. -/
theorem isName_of_fileName? (h : p.fileName? = some name) : IsName name.toList := by
  unfold fileName? at h
  split at h
  · rename_i cs hlast
    obtain ⟨piece, hpiece, hname⟩ := mem_components_name (List.mem_of_getLast? hlast)
    cases h
    rw [String.toList_ofList]
    exact isName_of_ofPiece? (not_mem_of_mem_split hpiece) hname
  · cases h

/-! ## What stands in front of the last name -/

/-- A text after which a name begins: nothing, or a text that ends in a separator. -/
def IsFront (dir : List Char) : Prop :=
  ∀ c ∈ dir.getLast?, c = '/'

/-- A front is empty or ends in a separator. -/
theorem isFront_cases (h : IsFront dir) : dir = [] ∨ ∃ front, dir = front ++ ['/'] := by
  rcases List.eq_nil_or_concat dir with rfl | ⟨front, c, rfl⟩
  · exact .inl rfl
  · obtain rfl := h c (by simp)
    exact .inr ⟨front, by simp⟩

/-- The components of a text that is not empty, up to its last separator and after it. -/
theorem components_append_separator (cs ds : List Char) :
    components ⟨String.ofList (cs ++ '/' :: ds)⟩ =
      components ⟨String.ofList (cs ++ ['/'])⟩ ++ (split ds).filterMap Component.ofPiece? := by
  obtain ⟨front, rest, hsplit⟩ := List.exists_cons_of_ne_nil (split_ne_nil cs)
  have habsolute : isAbsolute ⟨String.ofList (cs ++ '/' :: ds)⟩ =
      isAbsolute ⟨String.ofList (cs ++ ['/'])⟩ := by
    cases cs <;> simp [isAbsolute]
  simp only [components, String.toList_ofList, split_append_separator, hsplit, habsolute,
    List.cons_append, List.filterMap_append, List.append_assoc]
  simp [split, Component.ofPiece?]

/-- A separator at the end of a text that is not empty adds no component. -/
theorem components_concat_separator (h : cs ≠ []) :
    components ⟨String.ofList (cs ++ ['/'])⟩ = components ⟨String.ofList cs⟩ := by
  obtain ⟨front, rest, hsplit⟩ := List.exists_cons_of_ne_nil (split_ne_nil cs)
  have habsolute : isAbsolute ⟨String.ofList (cs ++ ['/'])⟩ = isAbsolute ⟨String.ofList cs⟩ := by
    cases cs with
    | nil => exact absurd rfl h
    | cons => simp [isAbsolute]
  simp only [components, String.toList_ofList, split_append_separator, hsplit, habsolute,
    List.cons_append, List.filterMap_append]
  simp [split, Component.ofPiece?]

/-- The last component of a path that ends in a name is this name. -/
theorem components_append_name (hdir : IsFront dir) (h : IsName cs) :
    components ⟨String.ofList (dir ++ cs)⟩ = components ⟨String.ofList dir⟩ ++ [.name cs] := by
  rcases isFront_cases hdir with rfl | ⟨front, rfl⟩
  · have hrelative : isAbsolute ⟨String.ofList cs⟩ = false := by
      rw [isAbsolute, String.toList_ofList, decide_eq_false_iff_not]
      exact fun hhead => h.not_mem (List.mem_of_head? hhead)
    simp only [components, List.nil_append, String.toList_ofList, split_of_not_mem h.not_mem,
      hrelative, h.ne_current, h.ofPiece?]
    rfl
  · rw [List.append_assoc, List.singleton_append, components_append_separator,
      split_of_not_mem h.not_mem, List.filterMap_cons_some h.ofPiece?, List.filterMap_nil]

/-- A path whose front is followed by a name is the path of a file with this name. -/
theorem fileName?_append_name (hdir : IsFront dir) (h : IsName cs) :
    fileName? ⟨String.ofList (dir ++ cs)⟩ = some (String.ofList cs) := by
  rw [fileName?, components_append_name hdir h, List.getLast?_concat]

/-- The parent of a path that ends in a name is the same for every name. -/
theorem parent?_append_name (hdir : IsFront dir) (h : IsName cs) (h' : IsName ds) :
    parent? ⟨String.ofList (dir ++ cs)⟩ = parent? ⟨String.ofList (dir ++ ds)⟩ := by
  obtain ⟨pieces, hpieces⟩ : ∃ pieces, ∀ cs, IsName cs → split (dir ++ cs) = pieces ++ [cs] := by
    rcases isFront_cases hdir with rfl | ⟨front, rfl⟩
    · exact ⟨[], fun cs h => split_of_not_mem h.not_mem⟩
    · refine ⟨split front, fun cs h => ?_⟩
      rw [List.append_assoc, List.singleton_append, split_append_separator,
        split_of_not_mem h.not_mem]
  -- a name is no idle piece, so the last component is the name and all before it is left
  have hleft {cs : List Char} (h : IsName cs) :
      dropIdle (split (dir ++ cs)).reverse = cs :: pieces.reverse := by
    rw [hpieces cs h, List.reverse_concat]
    cases pieces.reverse with
    | nil => rfl
    | cons => rw [dropIdle, if_neg (not_or.2 ⟨h.ne_nil, h.ne_current⟩)]
  rw [parent?, parent?, String.toList_ofList, String.toList_ofList, hleft h, hleft h']
  obtain ⟨c, cs, rfl⟩ := List.exists_cons_of_ne_nil h.ne_nil
  obtain ⟨d, ds, rfl⟩ := List.exists_cons_of_ne_nil h'.ne_nil
  rfl

/-- Every text is a front and a piece. -/
theorem exists_front (cs : List Char) :
    ∃ dir rest, IsFront dir ∧ '/' ∉ rest ∧ cs = dir ++ rest := by
  induction cs using List.reverseRecOn with
  | nil => exact ⟨[], [], by simp [IsFront], List.not_mem_nil, rfl⟩
  | append_singleton cs c ih =>
      by_cases hc : c = '/'
      · exact ⟨cs ++ [c], [], by simp [IsFront, hc], List.not_mem_nil, (List.append_nil _).symm⟩
      · obtain ⟨dir, rest, hdir, hrest, rfl⟩ := ih
        exact ⟨dir, rest ++ [c], hdir, by simp [hrest, Ne.symm hc], List.append_assoc ..⟩

/-- Where the text of a path ends in the name of its file, this name stands after a separator, or is
the whole text. -/
theorem exists_front_of_fileName? (h : p.fileName? = some name)
    (hend : name.toList <:+ p.text.toList) :
    ∃ dir, IsFront dir ∧ p = ⟨String.ofList (dir ++ name.toList)⟩ := by
  obtain ⟨front, hfront⟩ := hend
  obtain ⟨dir, rest, hdir, hrest, rfl⟩ := exists_front front
  have hname := isName_of_fileName? h
  have hlonger : IsName (rest ++ name.toList) :=
    hname.of_sublist (List.sublist_append_right ..) (by simp [hrest, hname.not_mem])
  have hp : p = ⟨String.ofList (dir ++ (rest ++ name.toList))⟩ := by
    rw [← List.append_assoc, hfront, String.ofList_toList]
  -- the whole last piece is the name of the file
  rw [hp, fileName?_append_name hdir hlonger, Option.some.injEq, ← String.toList_inj,
    String.toList_ofList, List.append_left_eq_self] at h
  rw [h, List.nil_append] at hp
  exact ⟨dir, hdir, hp⟩

end ProjectOrder.FilePath
