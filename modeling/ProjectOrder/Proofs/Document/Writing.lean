import ProjectOrder.Proofs.Document.Recognition
import ProjectOrder.Proofs.Document.Sorting

/-!
# Writing legible forests

`renderList_eq_ok_iff` says what is written for a legible forest whose entries fit: the spellings of
its tokens. Such a forest is refused only for a tag without a name.
-/

namespace ProjectOrder

open Markup

variable {dialect : Dialect} {cs source text : List Char} {tag : Tag} {kind : LeafKind}

/-- Whether a token is a start tag with a name or no start tag at all. -/
def Markup.Token.Named : Token → Prop
  | .openTag content | .emptyTag content => tagName content ≠ []
  | .closeTag _ | .leaf .. => True

instance Markup.Token.decidableNamed : DecidablePred Token.Named
  | .openTag content | .emptyTag content => inferInstanceAs (Decidable (tagName content ≠ []))
  | .closeTag _ | .leaf .. => inferInstanceAs (Decidable True)

/-- A leaf that can be read off a text holds nothing forbidden. -/
theorem Markup.LeafKind.render_eq_ok (h : (Token.leaf kind text).Written source) :
    kind.render text = .ok (Token.leaf kind text).spelling := by
  generalize htoken : Token.leaf kind text = t at h
  cases h with
  | text _ hne htag =>
      cases htoken
      have hcut : cut? ['<'] source = none := by
        cases hcut : cut? ['<'] source with
        | none => rfl
        | some p => simp [cut?_eq_append hcut] at htag
      simp [LeafKind.render, LeafKind.forbidden?, hcut, Token.spelling]
  | cdata _ hcloses =>
      cases htoken
      have hcut := hcloses.cut?_eq_none (by simp)
      simp [LeafKind.render, LeafKind.forbidden?, hcut, Token.spelling]
  | comment _ hcloses hcomment =>
      cases htoken
      have hcut : cut? ['-', '-'] text = none := by
        cases hcut : cut? ['-', '-'] text with
        | none => rfl
        | some p => simp [Token.isCommentText, cut?_append hcut] at hcomment
      simp [LeafKind.render, LeafKind.forbidden?, hcut, Token.spelling]
  | doctype => cases htoken; rfl
  | instruction content =>
      obtain ⟨rfl, rfl⟩ := Token.leaf.inj htoken
      rcases Token.instructionKind_cases text with hkind | hkind <;> rw [hkind] <;> rfl
  | closeTag => cases htoken
  | tag content =>
      unfold Token.ofTag at htoken
      split at htoken <;> cases htoken

/-- A sound start tag is refused only if it has no name. -/
theorem Tag.check_eq {ns : List Node} (htag : tag.Sound) (hempty : tag.empty → ns = []) :
    tag.check ns = if tag.name = "" then .error (.unnamedTag tag.content) else .ok () := by
  have hprefix : (after? tag.name.toList tag.content.toList).isSome := by
    rw [htag.name_eq, Token.tagName]
    exact Option.isSome_iff_exists.2
      ⟨_, after?_eq_some_iff.2 List.takeWhile_append_dropWhile.symm⟩
  have hnone : (after? tag.name.toList tag.content.toList).isNone = false := by
    simpa using hprefix
  have hchildren : ¬ (tag.empty ∧ ns ≠ []) := fun h => h.2 (hempty h.1)
  simp only [check, hnone, if_neg hchildren, Bool.false_eq_true, or_false]

/-- The name of a sound start tag is what its content begins with. -/
theorem Tag.Sound.name_eq_empty_iff (h : tag.Sound) :
    tag.name = "" ↔ Token.tagName tag.content.toList = [] := by
  rw [← h.name_eq, String.toList_eq_nil_iff]

/-- A sound start tag may be written if it has a name. -/
theorem Tag.check_eq_ok_iff {ns : List Node} (htag : tag.Sound) (hempty : tag.empty → ns = []) :
    tag.check ns = .ok () ↔ Token.tagName tag.content.toList ≠ [] := by
  rw [check_eq htag hempty, Ne, ← htag.name_eq_empty_iff]
  split <;> simp_all

namespace Node

/-- The text of an element is the text of its tokens. -/
theorem wrap_eq_flatMap {entry : Option Entry} {ns : List Node} :
    tag.wrap ((tokensList ns).flatMap Token.spelling) =
      (element entry tag ns).tokens.flatMap Token.spelling := by
  rw [Tag.wrap, tokens]
  split <;> simp [Token.spelling]

/-- An element whose entry fits it is rendered by its check, its children and its tags. -/
theorem render_element {entry : Option Entry} {ns : List Node}
    (hentry : ∀ e ∈ entry, dialect.fits e.kind tag) :
    (element entry tag ns).render dialect = do
      tag.check ns
      let inner ← renderList dialect ns
      return tag.wrap inner := by
  cases entry with
  | none => rfl
  | some e =>
      have hcheck : e.check dialect tag = .ok () := if_pos (hentry e rfl)
      rw [render]
      simp only [hcheck]
      rfl

/-- A tag closed in itself hides no tokens, since it has no nodes inside. -/
theorem mem_tokens_of_mem_inside {entry : Option Entry} {ns : List Node} {t : Token}
    (hempty : tag.empty → ns = []) (ht : t ∈ tokensList ns) :
    t ∈ (element entry tag ns).tokens := by
  by_cases h : tag.empty
  · simp [hempty h, tokensList] at ht
  · simp [tokens, h, ht]

/-- The tags in an element have names if its own has and those inside it have. -/
theorem forall_named_element_iff {entry : Option Entry} {ns : List Node}
    (hempty : tag.empty → ns = []) :
    (∀ t ∈ (element entry tag ns).tokens, t.Named) ↔
      Token.tagName tag.content.toList ≠ [] ∧ ∀ t ∈ tokensList ns, t.Named := by
  by_cases h : tag.empty
  · simp [tokens, h, hempty h, tokensList, Token.Named]
  · simp [tokens, h, or_imp, forall_and, Token.Named]

mutual

/-- What is written for a node is the text of its tokens, and it is refused only for a tag without a
name. -/
theorem render_eq_ok_iff (n : Node) (hsound : n.Sound) (hfits : n.Fits dialect)
    (hwritten : ∀ t ∈ n.tokens, t.Written t.spelling) (cs : List Char) :
    n.render dialect = .ok cs ↔
      (∀ t ∈ n.tokens, t.Named) ∧ cs = n.tokens.flatMap Token.spelling := by
  cases n with
  | leaf kind text =>
      rw [render, LeafKind.render_eq_ok (hwritten _ (by simp [tokens])), Except.ok.injEq, eq_comm]
      simp [tokens, Token.Named]
  | element entry tag ns =>
      obtain ⟨htag, hempty, hns⟩ := hsound
      have hinside : ∀ t ∈ tokensList ns, t.Written t.spelling := fun t ht =>
        hwritten t (mem_tokens_of_mem_inside hempty ht)
      rw [render_element hfits.1, forall_named_element_iff hempty, ← wrap_eq_flatMap]
      simp only [bind_eq_ok_iff, Tag.check_eq_ok_iff htag hempty,
        renderList_eq_ok_iff ns hns hfits.2 hinside]
      constructor
      · rintro ⟨-, hname, inner, ⟨hnames, rfl⟩, hcs⟩
        exact ⟨⟨hname, hnames⟩, (Except.ok.inj hcs).symm⟩
      · rintro ⟨⟨hname, hnames⟩, rfl⟩
        exact ⟨(), hname, _, ⟨hnames, rfl⟩, rfl⟩

/-- Sound nodes that fit are rendered exactly if their tokens have names, and as these are
spelled. -/
theorem renderList_eq_ok_iff (ns : List Node) (hsound : SoundList ns) (hfits : FitsList dialect ns)
    (hwritten : ∀ t ∈ tokensList ns, t.Written t.spelling) (cs : List Char) :
    renderList dialect ns = .ok cs ↔
      (∀ t ∈ tokensList ns, t.Named) ∧ cs = (tokensList ns).flatMap Token.spelling := by
  cases ns with
  | nil => simp [renderList, tokensList, eq_comm]
  | cons n ns =>
      rw [tokensList, List.forall_mem_append] at hwritten
      rw [tokensList, List.forall_mem_append, List.flatMap_append]
      simp only [renderList, bind_eq_ok_iff, render_eq_ok_iff n hsound.1 hfits.1 hwritten.1,
        renderList_eq_ok_iff ns hsound.2 hfits.2 hwritten.2]
      constructor
      · rintro ⟨_, ⟨hfirst, rfl⟩, _, ⟨hrest, rfl⟩, hcs⟩
        exact ⟨⟨hfirst, hrest⟩, (Except.ok.inj hcs).symm⟩
      · rintro ⟨⟨hfirst, hrest⟩, rfl⟩
        exact ⟨_, ⟨hfirst, rfl⟩, _, ⟨hrest, rfl⟩, rfl⟩

end

end Node

end ProjectOrder
