import Mathlib.Data.List.TakeWhile
import ProjectOrder.Document.Printer
import ProjectOrder.Proofs.Markup.Cuts

/-!
# How tokens are written

`Token.Written` relates a token to the texts that stand for it, and `next?_eq_ok_iff` says that the
first token of a text is cut off exactly as the relation has it. Of these texts `Token.spelling` is
the one that is written again. Only end tags and type declarations have others.
-/

namespace ProjectOrder.Markup

namespace Token

variable {c : Char} {cs content keyword name rest source text : List Char} {t : Token}

/-- Whether a token is character data. -/
def isText : Token → Bool
  | leaf .text _ => true
  | _ => false

/-- The text that a token is written as. -/
def spelling : Token → List Char
  | openTag content => '<' :: (content ++ ['>'])
  | emptyTag content => '<' :: (content ++ ['/', '>'])
  | closeTag name => '<' :: '/' :: (name ++ ['>'])
  | leaf kind text => kind.delimiters.1 ++ text ++ kind.delimiters.2

/-- `t.Written source` says that a text stands for a token. -/
inductive Written : Token → List Char → Prop where
  | text (text : List Char) : text ≠ [] → '<' ∉ text → Written (leaf .text text) text
  | cdata (text : List Char) : Closes [']', ']', '>'] text →
      Written (leaf .cdata text) (['<', '!', '[', 'C', 'D', 'A', 'T', 'A', '['] ++ text ++
        [']', ']', '>'])
  | comment (text : List Char) : Closes ['-', '-', '>'] text → isCommentText text →
      Written (leaf .comment text) (['<', '!', '-', '-'] ++ text ++ ['-', '-', '>'])
  /-- The keyword may be written in any case of letters, and space may follow it. -/
  | doctype (keyword text : List Char) :
      keyword.map Char.toUpper = ['D', 'O', 'C', 'T', 'Y', 'P', 'E'] → isBalanced 0 text →
      text.all isSpace = false →
      Written (leaf .doctype (text.dropWhile isSpace)) ('<' :: '!' :: keyword ++ text ++ ['>'])
  | instruction (content : List Char) : content.head? ≠ some '>' → Closes ['?', '>'] content →
      Written (leaf (instructionKind content) content) (['<', '?'] ++ content ++ ['?', '>'])
  /-- Space may follow the name. -/
  | closeTag (content : List Char) : isTagText none content →
      Written (closeTag (closingName content)) ('<' :: '/' :: content ++ ['>'])
  | tag (content : List Char) : isTagText none content →
      (∀ c ∈ content.head?, c ≠ '!' ∧ c ≠ '?' ∧ c ≠ '/') →
      Written (ofTag content) ('<' :: content ++ ['>'])

/-! ## The keyword of a type declaration -/

/-- What is left after the keyword of a type declaration, in any case of letters, is the text
without it. -/
theorem afterDoctype?_eq_some_iff :
    afterDoctype? cs = some rest ↔
      ∃ keyword, cs = keyword ++ rest ∧
        keyword.map Char.toUpper = ['D', 'O', 'C', 'T', 'Y', 'P', 'E'] := by
  unfold afterDoctype?
  constructor
  · intro h
    split at h
    · rename_i hupper
      rw [Option.some.injEq] at h
      exact ⟨cs.take 7, by rw [← h, List.take_append_drop], hupper⟩
    · cases h
  · rintro ⟨keyword, rfl, hupper⟩
    have hlength : keyword.length = 7 := by simpa using congrArg List.length hupper
    rw [List.take_left' hlength, if_pos hupper, List.drop_left' hlength]

/-- The letter D has two cases. -/
theorem eq_of_toUpper_eq (h : c.toUpper = 'D') : c = 'D' ∨ c = 'd' := by
  unfold Char.toUpper at h
  split at h
  · right
    rw [Char.ext_iff] at h ⊢
    simp only at h
    grind
  · exact .inl h

/-! ## The names of end tags -/

/-- A tag's text with the space at its end cut off. -/
theorem exists_eq_closingName_append (content : List Char) :
    ∃ spaces, content = closingName content ++ spaces ∧ spaces.all isSpace := by
  unfold closingName
  split
  · exact ⟨[], by simp⟩
  · refine ⟨(content.reverse.takeWhile isSpace).reverse, ?_, ?_⟩
    · rw [← List.reverse_append, List.takeWhile_append_dropWhile, List.reverse_reverse]
    · rw [List.all_reverse, List.all_takeWhile]

/-- Dropping the space after a name leaves no more to drop. -/
theorem closingName_closingName : closingName (closingName content) = closingName content := by
  by_cases hspace : content.all isSpace
  · simp only [closingName, hspace, if_true]
  · have hname : closingName content = (content.reverse.dropWhile isSpace).reverse := by
      simp [closingName, hspace]
    rw [hname]
    unfold closingName
    split
    · rfl
    · rw [List.reverse_reverse,
        List.dropWhile_eq_self_iff.2 (List.dropWhile_get_zero_not _ _)]

/-- The closing name of what is the inside of a tag is the inside of a tag. -/
theorem isTagText_closingName (h : isTagText none content) :
    isTagText none (closingName content) := by
  obtain ⟨spaces, hcontent, hspaces⟩ := exists_eq_closingName_append content
  exact isTagText_of_append_space (.inl rfl) hspaces (hcontent ▸ h)

/-! ## Reading what is written -/

/-- What stands between a start and a stop is cut out exactly if the stop does not occur earlier. -/
theorem after?_bind_cut?_eq_some_iff {start stop : List Char} :
    (after? start cs).bind (cut? stop) = some (text, rest) ↔
      cs = start ++ text ++ stop ++ rest ∧ Closes stop text := by
  simp only [Option.bind_eq_some_iff, after?_eq_some_iff, cut?_eq_some_iff]
  constructor
  · rintro ⟨body, rfl, rfl, hcloses⟩
    exact ⟨by simp, hcloses⟩
  · rintro ⟨rfl, hcloses⟩
    exact ⟨text ++ stop ++ rest, by simp, rfl, hcloses⟩

/-- A type declaration is cut out between its keyword and the first `>` outside brackets. -/
theorem afterDoctype?_bind_cutBalanced?_eq_some_iff :
    (afterDoctype? cs).bind (cutBalanced? 0) = some (text, rest) ↔
      ∃ keyword, cs = keyword ++ text ++ '>' :: rest ∧
        keyword.map Char.toUpper = ['D', 'O', 'C', 'T', 'Y', 'P', 'E'] ∧ isBalanced 0 text := by
  simp only [Option.bind_eq_some_iff, afterDoctype?_eq_some_iff, cutBalanced?_eq_some_iff]
  constructor
  · rintro ⟨body, ⟨keyword, rfl, hkeyword⟩, rfl, hbalanced⟩
    exact ⟨keyword, by simp, hkeyword, hbalanced⟩
  · rintro ⟨keyword, rfl, hkeyword, hbalanced⟩
    exact ⟨text ++ '>' :: rest, ⟨keyword, by simp, hkeyword⟩, rfl, hbalanced⟩

/-- What is read as a token after `<!` is its written form. -/
theorem written_of_nextBang? (h : nextBang? cs = .ok (t, rest)) :
    ∃ source, cs = source ++ rest ∧ Written t ('<' :: '!' :: source) := by
  unfold nextBang? at h
  split at h
  case h_1 =>
      split at h <;> cases h
      obtain ⟨heq, hcloses⟩ := after?_bind_cut?_eq_some_iff.1 ‹_›
      exact ⟨_, heq, .cdata _ hcloses⟩
  case h_2 =>
      split at h
      · rename_i hcut
        split at h <;> cases h
        obtain ⟨heq, hcloses⟩ := after?_bind_cut?_eq_some_iff.1 hcut
        exact ⟨_, heq, .comment _ hcloses ‹_›⟩
      · cases h
  case h_3 | h_4 =>
      split at h
      · rename_i hcut
        split at h <;> cases h
        rename_i hspace
        obtain ⟨keyword, heq, hkeyword, hbalanced⟩ :=
          afterDoctype?_bind_cutBalanced?_eq_some_iff.1 hcut
        exact ⟨keyword ++ _ ++ ['>'], by simpa using heq,
          .doctype keyword _ hkeyword hbalanced (by simpa using hspace)⟩
      · cases h
  case h_5 => cases h

/-- What is read as a token after `<` is its written form. -/
theorem written_of_nextMarkup? (h : nextMarkup? cs = .ok (t, rest)) :
    ∃ source, cs = source ++ rest ∧ Written t ('<' :: source) := by
  unfold nextMarkup? at h
  split at h
  · obtain ⟨source, rfl, hwritten⟩ := written_of_nextBang? h
    exact ⟨_, rfl, hwritten⟩
  · cases h
  · rename_i cs hhead
    split at h <;> cases h
    obtain ⟨rfl, hcloses⟩ := cut?_eq_some_iff.1 ‹_›
    refine ⟨_, rfl, .instruction _ ?_ hcloses⟩
    intro hgt
    obtain ⟨tail, rfl⟩ := List.head?_eq_some_iff.1 hgt
    exact hhead _ rfl
  · split at h <;> cases h
    obtain ⟨rfl, htext⟩ := cutTag?_eq_some_iff.1 ‹_›
    exact ⟨_, by simp, .closeTag _ htext⟩
  · rename_i hbang _ hquestion hslash
    split at h <;> cases h
    obtain ⟨rfl, htext⟩ := cutTag?_eq_some_iff.1 ‹_›
    refine ⟨_, by simp, .tag _ htext ?_⟩
    intro c hc
    obtain ⟨tail, rfl⟩ := List.head?_eq_some_iff.1 hc
    refine ⟨?_, ?_, ?_⟩ <;> rintro rfl
    · exact hbang _ rfl
    · exact hquestion _ rfl
    · exact hslash _ rfl

/-- What begins with neither `!`, `?` nor `/` is read as a tag. -/
theorem nextMarkup?_tag (htext : isTagText none content)
    (hhead : ∀ c ∈ content.head?, c ≠ '!' ∧ c ≠ '?' ∧ c ≠ '/') :
    nextMarkup? (content ++ '>' :: rest) = .ok (ofTag content, rest) := by
  have hcut : cutTag? none (content ++ '>' :: rest) = some (content, rest) :=
    cutTag?_eq_some_iff.2 ⟨rfl, htext⟩
  have hfirst : ∀ c ∈ (content ++ '>' :: rest).head?, c ≠ '!' ∧ c ≠ '?' ∧ c ≠ '/' := by
    cases content with
    | nil => simp
    | cons c content => exact hhead
  -- the first character alone decides between the cases
  generalize content ++ '>' :: rest = cs at hcut hfirst
  unfold nextMarkup?
  split
  · exact absurd rfl (hfirst _ rfl).1
  · exact absurd rfl (hfirst _ rfl).2.1
  · exact absurd rfl (hfirst _ rfl).2.1
  · exact absurd rfl (hfirst _ rfl).2.2
  · rw [hcut]

/-- What stands between `<?` and `?>` is a declaration or an instruction. -/
theorem instructionKind_cases (content : List Char) :
    instructionKind content = .declaration ∨ instructionKind content = .instruction := by
  unfold instructionKind
  split
  · exact .inl rfl
  · split
    · exact .inl rfl
    · exact .inr rfl
  · exact .inr rfl

/-- Neither a declaration nor an instruction is character data. -/
theorem isText_instruction : isText (leaf (instructionKind content) text) = false := by
  rcases instructionKind_cases content with hkind | hkind <;> rw [hkind] <;> rfl

/-- A tag is no character data. -/
theorem isText_ofTag : isText (ofTag content) = false := by
  unfold ofTag
  split <;> rfl

/-- All but character data begins with `<`. -/
theorem Written.head?_eq_some_iff (h : Written t source) :
    source.head? = some '<' ↔ t.isText = false := by
  cases h with
  | text _ hne htag =>
      simp only [isText, Bool.true_eq_false, iff_false]
      exact fun hhead => htag (List.mem_of_mem_head? hhead)
  | cdata | comment | doctype | closeTag => simp [isText]
  | instruction => simp [isText_instruction]
  | tag => simp [isText_ofTag]

/-- Character data is what stands before the next tag. -/
theorem next?_text (hne : source ≠ []) (htag : '<' ∉ source) (hrest : ∀ c ∈ rest.head?, c = '<')
    (heq : c :: cs = source ++ rest) : next? c cs = .ok (leaf .text source, rest) := by
  cases source with
  | nil => exact absurd rfl hne
  | cons d source =>
      rw [List.cons_append, List.cons.injEq] at heq
      obtain ⟨rfl, rfl⟩ := heq
      simp only [List.mem_cons, not_or] at htag
      have hall : ∀ x ∈ source, decide (x ≠ '<') = true := by
        intro x hx
        exact decide_eq_true fun heq => htag.2 (heq ▸ hx)
      have hstop : rest.takeWhile (· ≠ '<') = [] ∧ rest.dropWhile (· ≠ '<') = rest := by
        cases rest with
        | nil => exact ⟨rfl, rfl⟩
        | cons x rest => simp [hrest x rfl]
      rw [next?, if_neg (Ne.symm htag.1), List.takeWhile_append_of_pos hall,
        List.dropWhile_append_of_pos hall, hstop.1, hstop.2, List.append_nil]

/-- A token is cut off a text that begins with its written form. -/
theorem Written.next?_eq_ok (h : Written t source) (hrest : t.isText → ∀ c ∈ rest.head?, c = '<')
    (heq : c :: cs = source ++ rest) : next? c cs = .ok (t, rest) := by
  cases h with
  | text _ hne htag => exact next?_text hne htag (hrest rfl) heq
  | cdata text hcloses =>
      cases heq
      have hcut := after?_bind_cut?_eq_some_iff.2
        (⟨rfl, hcloses⟩ : ['[', 'C', 'D', 'A', 'T', 'A', '['] ++ text ++ [']', ']', '>'] ++ rest =
          _ ∧ _)
      simp only [List.cons_append, List.nil_append, List.append_assoc] at hcut ⊢
      simp [next?, nextMarkup?, nextBang?, hcut]
  | comment text hcloses hcomment =>
      cases heq
      have hcut := after?_bind_cut?_eq_some_iff.2
        (⟨rfl, hcloses⟩ : ['-', '-'] ++ text ++ ['-', '-', '>'] ++ rest = _ ∧ _)
      simp only [List.cons_append, List.nil_append, List.append_assoc] at hcut ⊢
      simp [next?, nextMarkup?, nextBang?, hcut, hcomment]
  | doctype keyword text hkeyword hbalanced hspace =>
      cases heq
      have hcut := afterDoctype?_bind_cutBalanced?_eq_some_iff.2
        ⟨keyword, (rfl : keyword ++ text ++ '>' :: rest = _), hkeyword, hbalanced⟩
      cases keyword with
      | nil => simp at hkeyword
      | cons c letters =>
          rw [List.map_cons] at hkeyword
          rcases eq_of_toUpper_eq (List.cons.inj hkeyword).1 with rfl | rfl <;>
            simp_all [next?, nextMarkup?, nextBang?]
  | instruction content hhead hcloses =>
      cases heq
      have hcut := cut?_eq_some_iff.2 (⟨rfl, hcloses⟩ : content ++ ['?', '>'] ++ rest = _ ∧ _)
      cases content with
      | nil => simp_all [next?, nextMarkup?]
      | cons c content =>
          have hc : c ≠ '>' := by simpa using hhead
          simp_all [next?, nextMarkup?]
  | closeTag content htext =>
      cases heq
      have hcut := cutTag?_eq_some_iff.2 ⟨(rfl : content ++ '>' :: rest = _), htext⟩
      simp [next?, nextMarkup?, hcut]
  | tag content htext hhead =>
      cases heq
      simpa [next?] using nextMarkup?_tag htext hhead

/-- The first token of a text is cut off where a text that stands for it ends, and character data
ends only at a tag. -/
theorem next?_eq_ok_iff :
    next? c cs = .ok (t, rest) ↔
      ∃ source, c :: cs = source ++ rest ∧ Written t source ∧
        (t.isText → ∀ c ∈ rest.head?, c = '<') := by
  constructor
  · intro h
    unfold next? at h
    split at h
    · rename_i hc
      obtain ⟨source, rfl, hwritten⟩ := written_of_nextMarkup? h
      have htext : t.isText = false := hwritten.head?_eq_some_iff.1 rfl
      exact ⟨_, hc ▸ rfl, hwritten, by simp [htext]⟩
    · rename_i hc
      cases h
      refine ⟨c :: cs.takeWhile (· ≠ '<'), by simp [List.takeWhile_append_dropWhile],
        .text _ (by simp) ?_, fun _ d hd => ?_⟩
      · rintro (_ | ⟨_, htake⟩)
        · exact hc rfl
        · simpa using List.mem_takeWhile_imp htake
      · have hstop := List.head?_dropWhile_not (fun x => decide (x ≠ '<')) cs
        rw [Option.mem_def.1 hd] at hstop
        simpa using hstop
  · rintro ⟨source, heq, hwritten, hrest⟩
    exact hwritten.next?_eq_ok hrest heq

/-! ## Writing again -/

/-- A declaration and an instruction are spelled between `<?` and `?>`. -/
theorem spelling_instruction :
    (leaf (instructionKind content) content).spelling = ['<', '?'] ++ content ++ ['?', '>'] := by
  rcases instructionKind_cases content with hkind | hkind <;> rw [hkind] <;> rfl

/-- A tag is spelled between `<` and `>`. -/
theorem spelling_ofTag : (ofTag content).spelling = '<' :: content ++ ['>'] := by
  unfold ofTag
  split
  · rename_i hlast
    obtain ⟨before, rfl⟩ := List.getLast?_eq_some_iff.1 hlast
    simp [spelling]
  · rfl

/-- A token that has a written form has its spelling for one. -/
theorem Written.spelling (h : Written t source) : Written t t.spelling := by
  cases h with
  | text _ hne htag => simpa [Token.spelling, LeafKind.delimiters] using Written.text _ hne htag
  | cdata text hcloses => exact .cdata text hcloses
  | comment text hcloses hcomment => exact .comment text hcloses hcomment
  | doctype keyword text _ hbalanced hspace =>
      -- one space is written for all the space after the keyword
      have hname : (text.dropWhile isSpace).dropWhile isSpace = text.dropWhile isSpace :=
        List.dropWhile_eq_self_iff.2 (List.dropWhile_get_zero_not _ _)
      have hfirst : (' ' :: text.dropWhile isSpace).dropWhile isSpace = text.dropWhile isSpace := by
        rw [List.dropWhile_cons_of_pos rfl, hname]
      have hbalanced' : isBalanced 0 (' ' :: text.dropWhile isSpace) := by
        rwa [← isBalanced_dropWhile, hfirst, isBalanced_dropWhile]
      have hspace' : (' ' :: text.dropWhile isSpace).all isSpace = false := by
        rw [← List.takeWhile_append_dropWhile (p := isSpace) (l := text), List.all_append,
          List.all_takeWhile, Bool.true_and] at hspace
        rw [List.all_cons, hspace, Bool.and_false]
      have hwritten := Written.doctype ['D', 'O', 'C', 'T', 'Y', 'P', 'E'] _ rfl hbalanced' hspace'
      rw [hfirst] at hwritten
      exact hwritten
  | instruction content hhead hcloses =>
      rw [spelling_instruction]
      exact .instruction content hhead hcloses
  | closeTag content htext =>
      have hwritten := Written.closeTag (closingName content) (isTagText_closingName htext)
      rwa [closingName_closingName] at hwritten
  | tag content htext hhead =>
      rw [spelling_ofTag]
      exact .tag content htext hhead

/-- Only end tags and type declarations can be written in more than one way. -/
theorem Written.eq_spelling (h : Written t source) (hclose : ∀ name, t ≠ .closeTag name)
    (hdoctype : ∀ text, t ≠ leaf .doctype text) : source = t.spelling := by
  cases h with
  | text => simp [Token.spelling, LeafKind.delimiters]
  | cdata | comment => rfl
  | doctype => exact absurd rfl (hdoctype _)
  | instruction => rw [spelling_instruction]
  | closeTag => exact absurd rfl (hclose _)
  | tag => rw [spelling_ofTag]

/-- A token is written in characters of the text that it was read off and in ASCII. -/
theorem Written.mem_of_mem_spelling (h : Written t source) (hc : c ∈ t.spelling) :
    c.toNat < 0x80 ∨ c ∈ source := by
  have hascii {d : Char} (hd : d.toNat < 0x80) (heq : c = d) : c.toNat < 0x80 := heq ▸ hd
  cases h with
  | doctype keyword text =>
      have hopening : LeafKind.doctype.delimiters.1.all (·.toNat < 0x80) = true := by decide
      simp only [Token.spelling, List.mem_append] at hc
      rcases hc with (hc | hc) | hc
      · exact .inl (of_decide_eq_true (List.all_eq_true.1 hopening c hc))
      · refine .inr ?_
        have htext := (List.dropWhile_sublist _).subset hc
        simp [htext]
      · exact .inl (hascii (by decide) (List.mem_singleton.1 hc))
  | closeTag content =>
      obtain ⟨spaces, hcontent, -⟩ := exists_eq_closingName_append content
      simp only [Token.spelling, List.mem_cons, List.mem_append, List.not_mem_nil, or_false] at hc
      rcases hc with hc | hc | hc | hc
      · exact .inl (hascii (by decide) hc)
      · exact .inl (hascii (by decide) hc)
      · refine .inr ?_
        have hname : c ∈ content := by
          rw [hcontent]
          exact List.mem_append_left _ hc
        simp [hname]
      · exact .inl (hascii (by decide) hc)
  | text => exact .inr (by simpa [Token.spelling, LeafKind.delimiters] using hc)
  | cdata | comment => exact .inr hc
  | instruction => exact .inr (spelling_instruction ▸ hc)
  | tag => exact .inr (spelling_ofTag ▸ hc)

/-- Character data stands for itself. -/
theorem Written.eq_of_text (h : Written (leaf .text text) source) : source = text := by
  rw [h.eq_spelling (by simp) (by simp)]
  simp [Token.spelling, LeafKind.delimiters]

end Token

end ProjectOrder.Markup
