import ProjectOrder.Proofs.Document.Coherence
import ProjectOrder.Proofs.Markup.Legibility

/-!
# The tree that a text describes

Writing takes a tree as it is, whether it was read or made otherwise, and writes the text of its
tokens (`eq_of_renderList_eq_ok`). `Node.reread` is the tree that this text describes: the content
of a tag tells its attributes, and character data that meets is one piece. It is written the same
(`flatMap_tokensList_rereadList`).
-/

namespace ProjectOrder

open Markup

variable {dialect : Dialect} {entry : Option Entry} {m n : Node} {ms ns : List Node} {tag : Tag}
  {cs : List Char} {s : String}

/-- The tag with the attributes that its content lists. -/
def Tag.reread (tag : Tag) : Tag :=
  { tag with attributes := (Attribute.ofTag byteWidth true tag.content.toList).attributes }

namespace Node

/-! ## Joined character data -/

/-- A node put in front of a child list. Character data is joined with what it meets, and left out
where there is none of it. -/
def before : Node → List Node → List Node
  | leaf .text s, leaf .text t :: ns => leaf .text (s ++ t) :: ns
  | leaf .text s, ns => if s = "" then ns else leaf .text s :: ns
  | n, ns => n :: ns

mutual

/-- The node that the text of a node describes. -/
def reread : Node → Node
  | element _ tag ns => element none tag.reread (rereadList ns)
  | leaf kind text => leaf kind text

/-- The forest that the text of a forest describes. -/
def rereadList : List Node → List Node
  | [] => []
  | n :: ns => n.reread.before (rereadList ns)

end

/-- A node is described as text exactly if it is text. -/
theorem isText_reread : n.reread.isText = n.isText := by
  cases n <;> rfl

/-- Text nodes are leaves. -/
theorem exists_eq_text (h : n.isText) : ∃ text, n = leaf .text text := by
  cases n with
  | element => cases h
  | leaf kind text =>
      cases kind with
      | text => exact ⟨text, rfl⟩
      | _ => cases h

/-- Empty text adds nothing to the nodes after it. -/
theorem before_empty (ns : List Node) : (leaf .text "").before ns = ns := by
  cases ns with
  | nil => rfl
  | cons m ns =>
      cases m with
      | element => rfl
      | leaf kind t =>
          cases kind with
          | text => rw [before, String.empty_append]
          | _ => rfl

/-- A node that is not joined with the one after it stands in front of it. -/
theorem before_eq_cons (hn : n ≠ leaf .text "")
    (hns : n.isText → ∀ m ∈ ns.head?, m.isText = false) : n.before ns = n :: ns := by
  cases htext : n.isText with
  | false =>
      cases n with
      | element => rfl
      | leaf kind s =>
          cases kind with
          | text => cases htext
          | _ => rfl
  | true =>
      obtain ⟨s, rfl⟩ := exists_eq_text htext
      have hs : s ≠ "" := fun heq => hn (heq ▸ rfl)
      cases ns with
      | nil => exact if_neg hs
      | cons m ns =>
          have hm : m.isText = false := hns rfl m rfl
          cases m with
          | element => exact if_neg hs
          | leaf kind t =>
              cases kind with
              | text => cases hm
              | _ => exact if_neg hs

/-- A node that is no text stands in front of any others. -/
theorem before_of_not_isText (h : n.isText = false) : n.before ns = n :: ns := by
  refine before_eq_cons ?_ (by simp [h])
  rintro rfl
  cases h

/-- A node in front of a child list stands apart from it, is left out or is joined with what it
meets. -/
theorem before_cases (n : Node) (ns : List Node) :
    (n.before ns = n :: ns ∧ n ≠ leaf .text "" ∧ (n.isText → ∀ m ∈ ns.head?, m.isText = false)) ∨
      (n.before ns = ns ∧ n = leaf .text "") ∨
        ∃ s t ms, n.before ns = leaf .text (s ++ t) :: ms ∧ n = leaf .text s ∧
          ns = leaf .text t :: ms := by
  by_cases hempty : n = leaf .text ""
  · exact .inr (.inl ⟨hempty ▸ before_empty ns, hempty⟩)
  by_cases hapart : n.isText → ∀ m ∈ ns.head?, m.isText = false
  · exact .inl ⟨before_eq_cons hempty hapart, hempty, hapart⟩
  · push Not at hapart
    obtain ⟨hn, m, hm, htext⟩ := hapart
    obtain ⟨s, rfl⟩ := exists_eq_text hn
    obtain ⟨t, rfl⟩ := exists_eq_text (by simpa using htext)
    obtain ⟨ms, rfl⟩ := List.head?_eq_some_iff.1 hm
    exact .inr (.inr ⟨s, t, ms, rfl, rfl, rfl⟩)

/-- Among nodes other than character data, the node in front is one more. -/
theorem mem_before_iff (hm : m.isText = false) : m ∈ n.before ns ↔ m = n ∨ m ∈ ns := by
  have hne (t : String) : m ≠ leaf .text t := by
    rintro rfl
    cases hm
  rcases before_cases n ns with ⟨heq, -⟩ | ⟨heq, rfl⟩ | ⟨s, t, ms, heq, rfl, rfl⟩
  · rw [heq, List.mem_cons]
  · simp [heq, hne]
  · simp [heq, hne]

/-- What is described, other than text, is described for one of the nodes. -/
theorem mem_rereadList_iff (hm : m.isText = false) :
    m ∈ rereadList ns ↔ ∃ n ∈ ns, n.reread = m := by
  induction ns with
  | nil => simp [rereadList]
  | cons n ns ih => simp [rereadList, mem_before_iff hm, ih, eq_comm]

/-- What is put in front of a child list is joined with nothing beyond a node other than character
data. -/
theorem before_append_cons (hn : n.isText = false) :
    m.before (ms ++ n :: ns) = m.before ms ++ n :: ns := by
  rcases before_cases m ms with ⟨heq, hne, hapart⟩ | ⟨heq, rfl⟩ | ⟨s, t, ms, heq, rfl, rfl⟩
  · rw [heq, before_eq_cons hne, List.cons_append]
    intro hm k hk
    cases ms with
    | nil =>
        obtain rfl : n = k := by simpa using hk
        exact hn
    | cons => exact hapart hm k hk
  · rw [heq, before_empty]
  · rw [heq]
    rfl

/-- A node that is no text keeps apart what is described before and after it. -/
theorem rereadList_append_cons (hn : n.isText = false) :
    rereadList (ms ++ n :: ns) = rereadList ms ++ n.reread :: rereadList ns := by
  have hreread : n.reread.isText = false := isText_reread.trans hn
  induction ms with
  | nil => simp [rereadList, before_of_not_isText hreread]
  | cons m ms ih => rw [List.cons_append, rereadList, ih, before_append_cons hreread, rereadList]

/-- The tree of what is written has no entries. -/
theorem plain_reread (n : Node) : n.reread.plain = n.reread := by
  induction n with
  | leaf kind text => rfl
  | element entry tag ns ih =>
      have hinside : plainList (rereadList ns) = rereadList ns := by
        refine plainList_eq_self_iff.2 fun m hm => ?_
        cases htext : m.isText with
        | true =>
            obtain ⟨text, rfl⟩ := exists_eq_text htext
            rfl
        | false =>
            obtain ⟨n, hn, rfl⟩ := (mem_rereadList_iff htext).1 hm
            exact ih n hn
      rw [reread, plain, hinside]

/-- Described nodes are not marked as entries. -/
theorem plainList_rereadList (ns : List Node) : plainList (rereadList ns) = rereadList ns :=
  (element.inj (plain_reread (element none ⟨"", "", [], false⟩ ns))).2.2

/-- Text may stand beside the root if it is blank. -/
theorem beside_text : (leaf .text s).Beside ↔ Text.isBlankText s := by
  simp [Node.Beside, Document.isStrayText]

/-- A node may stand beside the root exactly if what is described for it may. -/
theorem beside_reread_iff : n.reread.Beside ↔ n.Beside := by
  cases n <;> rfl

/-- Joined blanks are blanks. -/
theorem forall_mem_before_beside_iff :
    (∀ m ∈ n.before ns, m.Beside) ↔ n.Beside ∧ ∀ m ∈ ns, m.Beside := by
  rcases before_cases n ns with ⟨heq, -⟩ | ⟨heq, rfl⟩ | ⟨s, t, ms, heq, rfl, rfl⟩
  · rw [heq, List.forall_mem_cons]
  · simp [heq, beside_text, Text.isBlankText]
  · simp [heq, beside_text, Text.isBlankText, and_assoc]

/-- All of some nodes may stand beside the root exactly if all that is described for them may. -/
theorem forall_mem_rereadList_beside_iff :
    (∀ m ∈ rereadList ns, m.Beside) ↔ ∀ n ∈ ns, n.Beside := by
  induction ns with
  | nil => simp [rereadList]
  | cons n ns ih =>
      rw [rereadList, forall_mem_before_beside_iff, ih, beside_reread_iff, List.forall_mem_cons]

/-! ## What is written -/

/-- Joining text with the text after it does not change what is written. -/
theorem flatMap_tokensList_before :
    (tokensList (n.before ns)).flatMap Token.spelling =
      n.tokens.flatMap Token.spelling ++ (tokensList ns).flatMap Token.spelling := by
  rcases before_cases n ns with ⟨heq, -⟩ | ⟨heq, rfl⟩ | ⟨s, t, ms, heq, rfl, rfl⟩
  · rw [heq, tokensList, List.flatMap_append]
  · simp [heq, tokens, Token.spelling, LeafKind.delimiters]
  · simp [heq, tokensList, tokens, Token.spelling, LeafKind.delimiters]

mutual

/-- The tree of what is written for a node is written the same. -/
theorem flatMap_tokens_reread (n : Node) :
    n.reread.tokens.flatMap Token.spelling = n.tokens.flatMap Token.spelling := by
  cases n with
  | leaf kind text => rfl
  | element entry tag ns =>
      rw [reread, ← wrap_eq_flatMap, ← wrap_eq_flatMap, flatMap_tokensList_rereadList]
      rfl

/-- Described nodes are written like the nodes themselves. -/
theorem flatMap_tokensList_rereadList (ns : List Node) :
    (tokensList (rereadList ns)).flatMap Token.spelling =
      (tokensList ns).flatMap Token.spelling := by
  cases ns with
  | nil => rfl
  | cons n ns =>
      rw [rereadList, flatMap_tokensList_before, flatMap_tokens_reread,
        flatMap_tokensList_rereadList, tokensList, List.flatMap_append]

end

/-- An element that can be rendered passes its check, and is its content between its tags. -/
theorem of_render_element_eq_ok (h : (element entry tag ns).render dialect = .ok cs) :
    tag.check ns = .ok () ∧ ∃ inner, renderList dialect ns = .ok inner ∧ cs = tag.wrap inner := by
  have hrest : (do tag.check ns; let inner ← renderList dialect ns; return tag.wrap inner) =
      (Except.ok cs : Except WriteFault (List Char)) := by
    cases entry with
    | none => exact h
    | some e =>
        rw [render] at h
        obtain ⟨_, -, h⟩ := bind_eq_ok_iff.1 h
        exact h
  obtain ⟨_, hcheck, hrest⟩ := bind_eq_ok_iff.1 hrest
  obtain ⟨inner, hinner, hrest⟩ := bind_eq_ok_iff.1 hrest
  exact ⟨hcheck, inner, hinner, (Except.ok.inj hrest).symm⟩

/-- Nodes are rendered one after the other. -/
theorem renderList_cons_eq_ok_iff :
    renderList dialect (n :: ns) = .ok cs ↔
      ∃ first rest, n.render dialect = .ok first ∧ renderList dialect ns = .ok rest ∧
        cs = first ++ rest := by
  simp only [renderList, bind_eq_ok_iff]
  constructor
  · rintro ⟨first, hfirst, rest, hrest, heq⟩
    exact ⟨first, rest, hfirst, hrest, (Except.ok.inj heq).symm⟩
  · rintro ⟨first, rest, hfirst, hrest, rfl⟩
    exact ⟨first, hfirst, rest, hrest, rfl⟩

/-- Where nodes can be rendered, each of them can. -/
theorem exists_render_of_mem (h : renderList dialect ns = .ok cs) (hn : n ∈ ns) :
    ∃ cs, n.render dialect = .ok cs := by
  induction ns generalizing cs with
  | nil => cases hn
  | cons m ns ih =>
      obtain ⟨first, rest, hfirst, hrest, -⟩ := renderList_cons_eq_ok_iff.1 h
      rcases List.mem_cons.1 hn with rfl | hn
      · exact ⟨first, hfirst⟩
      · exact ih hrest hn

mutual

/-- What is written for a node is the text of its tokens. -/
theorem eq_of_render_eq_ok (n : Node) {cs : List Char} (h : n.render dialect = .ok cs) :
    cs = n.tokens.flatMap Token.spelling := by
  cases n with
  | leaf kind text => simpa [tokens] using (LeafKind.render_eq_ok_iff.1 h).2
  | element entry tag ns =>
      obtain ⟨-, inner, hinner, rfl⟩ := of_render_element_eq_ok h
      rw [← wrap_eq_flatMap, eq_of_renderList_eq_ok ns hinner]

/-- Rendered nodes are spelled by their tokens. -/
theorem eq_of_renderList_eq_ok (ns : List Node) {cs : List Char}
    (h : renderList dialect ns = .ok cs) :
    cs = (tokensList ns).flatMap Token.spelling := by
  cases ns with
  | nil =>
      cases h
      rfl
  | cons n ns =>
      obtain ⟨first, rest, hfirst, hrest, rfl⟩ := renderList_cons_eq_ok_iff.1 h
      rw [tokensList, List.flatMap_append, eq_of_render_eq_ok n hfirst,
        eq_of_renderList_eq_ok ns hrest]

end

end Node

end ProjectOrder
