import Mathlib.Data.List.Infix
import ProjectOrder.Proofs.Markup.Spelling

/-!
# Tokens that are read as they are written

For every kind of token, what it must hold so that its spelling stands for it. A part of this is
judged of leaves when they are written; `LeafKind.ReadsBack` is the rest.
-/

namespace ProjectOrder.Markup

variable {kind : LeafKind} {content cs name source text : List Char}

/-! ## Leaves -/

/-- A comment holds no two hyphens and does not end in one. -/
theorem Token.isCommentText_iff :
    Token.isCommentText text ↔ ¬ ['-', '-'] <:+: text ∧ text.getLast? ≠ some '-' := by
  have hlast : ['-', '-'] <:+ text ++ ['-'] ↔ text.getLast? = some '-' := by
    rw [List.getLast?_eq_some_iff]
    constructor
    · rintro ⟨before, h⟩
      exact ⟨before, (List.append_inj' (h.symm.trans (by simp)) rfl).1⟩
    · rintro ⟨before, rfl⟩
      exact ⟨before, by simp⟩
  rw [isCommentText, Option.isNone_iff_eq_none, cut?_eq_none_iff, List.infix_concat_iff, hlast]
  tauto

namespace LeafKind

/-- What a leaf must hold, besides what is judged when it is written, to be read as it is
written. -/
def ReadsBack : LeafKind → List Char → Prop
  | .text, _ | .cdata, _ => True
  | .comment, text => text.getLast? ≠ some '-'
  | .declaration, text =>
    Token.instructionKind text = .declaration ∧ text.head? ≠ some '>' ∧ ¬ ['?', '>'] <:+: text
  | .instruction, text =>
    Token.instructionKind text = .instruction ∧ text.head? ≠ some '>' ∧ ¬ ['?', '>'] <:+: text
  | .doctype, text => isBalanced 0 text ∧ ∃ c, text.head? = some c ∧ ¬ isSpace c

/-- A leaf is written between its delimiters if it holds nothing forbidden. -/
theorem render_eq_ok_iff :
    kind.render text = .ok cs ↔
      (∀ p ∈ kind.forbidden?, ¬ p.1 <:+: text) ∧ cs = (Token.leaf kind text).spelling := by
  unfold render
  cases kind.forbidden? with
  | none => simp [Token.spelling, eq_comm]
  | some p =>
      simp only [Option.mem_some_iff, forall_eq', ← cut?_eq_none_iff]
      cases cut? p.1 text <;> simp [Token.spelling, eq_comm]

/-- What a written leaf says is read back. -/
theorem readsBack_of_written (h : (Token.leaf kind text).Written source) :
    kind.ReadsBack text ∧ (kind = .text → text ≠ []) := by
  generalize htoken : Token.leaf kind text = t at h
  cases h with
  | text _ hne =>
      cases htoken
      exact ⟨trivial, fun _ => hne⟩
  | cdata =>
      cases htoken
      exact ⟨trivial, nofun⟩
  | comment _ _ hcomment =>
      cases htoken
      exact ⟨(Token.isCommentText_iff.1 hcomment).2, nofun⟩
  | doctype keyword text _ hbalanced hspace =>
      cases htoken
      have hne : text.dropWhile isSpace ≠ [] := by simpa [List.dropWhile_eq_nil_iff] using hspace
      have hfirst := List.head_dropWhile_not isSpace hne
      refine ⟨⟨by rwa [isBalanced_dropWhile], _, List.head?_eq_some_head hne, ?_⟩, nofun⟩
      simp [hfirst]
  | instruction content hhead hcloses =>
      obtain ⟨rfl, rfl⟩ := Token.leaf.inj htoken
      have hinside : ¬ ['?', '>'] <:+: text :=
        (closes_concat_iff (by decide : '>' ∉ ['?'])).1 hcloses
      rcases Token.instructionKind_cases text with hkind | hkind <;> rw [hkind] <;>
        exact ⟨⟨hkind, hhead, hinside⟩, nofun⟩
  | closeTag => cases htoken
  | tag content =>
      unfold Token.ofTag at htoken
      split at htoken <;> cases htoken

/-- What is written for a leaf stands for it if the rest holds as well. -/
theorem written_iff_readsBack (hrender : kind.render text = .ok cs) :
    (Token.leaf kind text).Written (Token.leaf kind text).spelling ↔
      kind.ReadsBack text ∧ (kind = .text → text ≠ []) := by
  refine ⟨readsBack_of_written, fun ⟨hreads, hne⟩ => ?_⟩
  have hforbidden := (render_eq_ok_iff.1 hrender).1
  cases kind with
  | text =>
      have htag : '<' ∉ text := by simpa [forbidden?, List.singleton_infix_iff] using hforbidden
      simpa [Token.spelling, delimiters] using Token.Written.text text (hne rfl) htag
  | comment =>
      have hinside : ¬ ['-', '-'] <:+: text := by simpa [forbidden?] using hforbidden
      refine .comment text ?_ (Token.isCommentText_iff.2 ⟨hinside, hreads⟩)
      refine (closes_concat_iff (by decide : '>' ∉ ['-', '-'])).2 fun hlong => hinside ?_
      exact (List.prefix_append _ _).isInfix.trans hlong
  | cdata =>
      have hinside : ¬ [']', ']', '>'] <:+: text := by simpa [forbidden?] using hforbidden
      exact .cdata text ((closes_concat_iff (by decide : '>' ∉ [']', ']'])).2 hinside)
  | declaration | instruction =>
      obtain ⟨hkind, hhead, hinside⟩ := hreads
      have hwritten := Token.Written.instruction text hhead
        ((closes_concat_iff (by decide : '>' ∉ ['?'])).2 hinside)
      rw [hkind] at hwritten
      exact hwritten
  | doctype =>
      obtain ⟨hbalanced, c, hhead, hc⟩ := hreads
      obtain ⟨rest, rfl⟩ := List.head?_eq_some_iff.1 hhead
      have hwritten := Token.Written.doctype ['D', 'O', 'C', 'T', 'Y', 'P', 'E'] (c :: rest) rfl
        hbalanced (by simp [hc])
      rw [List.dropWhile_cons_of_neg hc] at hwritten
      exact hwritten.spelling

end LeafKind

/-! ## Tags -/

namespace Token

/-- A final `/` opens and ends no quotation. -/
theorem isTagText_append_slash {quote : Option Char}
    (hquote : quote = none ∨ quote = some '"' ∨ quote = some '\'') :
    isTagText quote (content ++ ['/']) = isTagText quote content := by
  induction content generalizing quote with
  | nil => rcases hquote with rfl | rfl | rfl <;> rfl
  | cons c content ih =>
      rw [List.cons_append, isTagText, isTagText, ih (quoteAfter_cases c hquote)]

/-- A start tag can be written as it is spelled if its content is the inside of a tag, begins with
no character of other markup, and does not end in a slash. -/
theorem written_openTag_iff :
    (openTag content).Written (openTag content).spelling ↔
      isTagText none content ∧ (∀ c ∈ content.head?, c ≠ '!' ∧ c ≠ '?' ∧ c ≠ '/') ∧
        content.getLast? ≠ some '/' := by
  constructor
  · intro h
    generalize htoken : openTag content = t at h
    generalize t.spelling = source at h
    cases h with
    | tag _ htext hhead =>
        unfold ofTag at htoken
        split at htoken <;> cases htoken
        exact ⟨htext, hhead, ‹_›⟩
    | _ => cases htoken
  · rintro ⟨htext, hhead, hlast⟩
    have hwritten := Written.tag content htext hhead
    rw [ofTag, if_neg hlast] at hwritten
    exact hwritten.spelling

/-- An empty tag can be written as it is spelled if its content is the inside of a tag and begins
with no character of other markup. -/
theorem written_emptyTag_iff (hne : content ≠ []) :
    (emptyTag content).Written (emptyTag content).spelling ↔
      isTagText none content ∧ ∀ c ∈ content.head?, c ≠ '!' ∧ c ≠ '?' ∧ c ≠ '/' := by
  have hfirst : (content ++ ['/']).head? = content.head? := List.head?_append_of_ne_nil _ hne
  rw [← isTagText_append_slash (.inl rfl), ← hfirst]
  constructor
  · intro h
    generalize htoken : emptyTag content = t at h
    generalize t.spelling = source at h
    cases h with
    | tag _ htext hhead =>
        unfold ofTag at htoken
        split at htoken <;> cases htoken
        obtain ⟨before, rfl⟩ := List.getLast?_eq_some_iff.1 ‹_›
        rw [List.dropLast_concat]
        exact ⟨htext, hhead⟩
    | _ => cases htoken
  · rintro ⟨htext, hhead⟩
    have hwritten := Written.tag (content ++ ['/']) htext hhead
    rw [ofTag, if_pos List.getLast?_concat, List.dropLast_concat] at hwritten
    exact hwritten.spelling

/-- A name without space is its own name in an end tag. -/
theorem closingName_eq_self (hname : ∀ c ∈ name, ¬ isSpace c) : closingName name = name := by
  unfold closingName
  split
  · rfl
  · rw [List.dropWhile_eq_self_iff.2, List.reverse_reverse]
    intro hlength
    exact hname _ (List.mem_reverse.1 (List.getElem_mem hlength))

/-- An end tag can be written as it is spelled if its name is the inside of a tag. -/
theorem written_closeTag_iff (hname : ∀ c ∈ name, ¬ isSpace c) :
    (closeTag name).Written (closeTag name).spelling ↔ isTagText none name := by
  constructor
  · intro h
    generalize htoken : closeTag name = t at h
    generalize t.spelling = source at h
    cases h with
    | closeTag _ htext =>
        cases htoken
        exact isTagText_closingName htext
    | tag =>
        unfold ofTag at htoken
        split at htoken <;> cases htoken
    | _ => cases htoken
  · intro htext
    have hwritten := Written.closeTag name htext
    rw [closingName_eq_self hname] at hwritten
    exact hwritten.spelling

end Token

end ProjectOrder.Markup
