import Mathlib.Data.List.Perm.Basic
import ProjectOrder.Proofs.Document.Forest

/-!
# Sorting and the tokens of a forest

Sorting permutes the tokens of a forest, keeps its start tags sound and brings no two pieces of
character data together. `Node.Legible` collects what a forest needs so that its text can be read
again, and `Legible.sortInner` says that sorting keeps it.
-/

namespace ProjectOrder

open Markup

namespace Node

variable {order : CaseOrder} {n : Node} {ns : List Node}

/-! ## Permuting tokens -/

/-- The tokens of some nodes are those of each node, one after the other. -/
theorem tokensList_eq_flatMap (ns : List Node) : tokensList ns = ns.flatMap tokens := by
  induction ns with
  | nil => rfl
  | cons n ns ih => rw [tokensList, ih, List.flatMap_cons]

/-- Arranging a list moves its tokens and nothing else. -/
theorem tokensList_arrange_perm :
    (tokensList (arrange order ns)).Perm (tokensList ns) := by
  rw [tokensList_eq_flatMap, tokensList_eq_flatMap]
  exact arrange_perm.flatMap_right _

mutual

/-- Sorting a node permutes its tokens. -/
theorem tokens_sort_perm (n : Node) : (n.sort order).tokens.Perm n.tokens := by
  cases n with
  | leaf kind text => exact .refl _
  | element entry tag ns =>
      rw [sort, tokens, tokens]
      by_cases hempty : tag.empty
      · simp [hempty]
      · have hchildren : (tokensList (arrange order (sortInner order ns))).Perm (tokensList ns) :=
          tokensList_arrange_perm.trans (tokensList_sortInner_perm ns)
        simpa [hempty] using hchildren.append_right _

/-- Sorting inside nodes moves their tokens and nothing else. -/
theorem tokensList_sortInner_perm (ns : List Node) :
    (tokensList (sortInner order ns)).Perm (tokensList ns) := by
  cases ns with
  | nil => exact .refl _
  | cons n ns =>
      rw [sortInner, tokensList, tokensList]
      exact (tokens_sort_perm n).append (tokensList_sortInner_perm ns)

end

/-! ## Keeping tags sound -/

/-- Arranging a list makes no difference to soundness. -/
theorem soundList_arrange : SoundList (arrange order ns) ↔ SoundList ns := by
  simp only [soundList_iff, arrange_perm.mem_iff]

mutual

/-- Sorting keeps a node sound. -/
theorem sound_sort (n : Node) (hn : n.Sound) : (n.sort order).Sound := by
  cases n with
  | leaf kind text => trivial
  | element entry tag ns =>
      obtain ⟨htag, hempty, hns⟩ := hn
      refine ⟨htag, fun h => ?_, soundList_arrange.2 (soundList_sortInner ns hns)⟩
      rw [hempty h]
      rfl

/-- Sorting inside nodes keeps them sound. -/
theorem soundList_sortInner (ns : List Node) (hns : SoundList ns) :
    SoundList (sortInner order ns) := by
  cases ns with
  | nil => trivial
  | cons n ns => exact ⟨sound_sort n hns.1, soundList_sortInner ns hns.2⟩

end

/-! ## Keeping character data apart -/

/-- Whether a node is character data. -/
def isText : Node → Bool
  | leaf .text _ => true
  | _ => false

/-- Sorting makes no text and unmakes none. -/
theorem isText_sort : (n.sort order).isText = n.isText := by
  cases n <;> rfl

/-- An entry is no text. -/
theorem isText_of_isEntry (h : n.isEntry) : n.isText = false := by
  cases n with
  | leaf kind text => simp [isEntry, asEntry] at h
  | element => rfl

/-- The first and the last token of a node are character data if the node is. -/
theorem isText_of_mem_ends {t : Token} (ht : t ∈ n.tokens.head? ∨ t ∈ n.tokens.getLast?) :
    t.isText = n.isText := by
  cases n with
  | leaf kind text =>
      obtain rfl : Token.leaf kind text.toList = t := by simpa [tokens] using ht
      cases kind <;> rfl
  | element entry tag ns =>
      rw [tokens] at ht
      split at ht
      · obtain rfl : Token.emptyTag tag.content.toList = t := by simpa using ht
        rfl
      · rw [← List.cons_append, List.getLast?_concat] at ht
        rcases ht with ht | ht <;> cases ht <;> rfl

/-- Every node has a token. -/
theorem tokens_ne_nil (n : Node) : n.tokens ≠ [] := by
  cases n with
  | leaf kind text => simp [tokens]
  | element entry tag ns =>
      rw [tokens]
      split <;> simp

/-- Sorting a node leaves its first token where it is. -/
theorem head?_tokens_sort : (n.sort order).tokens.head? = n.tokens.head? := by
  cases n with
  | leaf kind text => rfl
  | element entry tag ns =>
      rw [sort, tokens, tokens]
      split <;> simp

/-- Sorting the nodes of a forest leaves its first token where it is. -/
theorem head?_tokensList_sortInner :
    (tokensList (sortInner order ns)).head? = (tokensList ns).head? := by
  cases ns with
  | nil => rfl
  | cons n ns =>
      rw [sortInner, tokensList, tokensList, List.head?_append_of_ne_nil _ (tokens_ne_nil _),
        List.head?_append_of_ne_nil _ (tokens_ne_nil _), head?_tokens_sort]

/-- Character data stands apart in a forest if it does so inside each node and among the nodes. -/
theorem isChain_tokensList_iff :
    (tokensList ns).IsChain Token.Apart ↔
      (∀ n ∈ ns, n.tokens.IsChain Token.Apart) ∧
        (ns.map isText).IsChain fun (a b : Bool) => ¬ (a ∧ b) := by
  -- where two nodes meet, the last token of one stands beside the first of the other
  have hends (m n : Node) : (∀ t ∈ m.tokens.getLast?, ∀ u ∈ n.tokens.head?, t.Apart u) ↔
      ¬ (m.isText ∧ n.isText) := by
    obtain ⟨t, ht⟩ := Option.isSome_iff_exists.1 (List.getLast?_isSome.2 m.tokens_ne_nil)
    obtain ⟨u, hu⟩ := Option.isSome_iff_exists.1 (List.isSome_head?.2 n.tokens_ne_nil)
    simp [ht, hu, Token.Apart, isText_of_mem_ends (.inr ht), isText_of_mem_ends (.inl hu)]
  have hne : [] ∉ ns.map tokens := by
    simp [tokens_ne_nil]
  rw [tokensList_eq_flatMap, List.flatMap_def, List.isChain_flatten hne, List.isChain_map,
    List.isChain_map, List.forall_mem_map]
  simp only [hends]

/-- Inside an element character data stands apart if it does so among the nodes inside. -/
theorem isChain_tokens_element_iff {entry : Option Entry} {tag : Tag} :
    (element entry tag ns).tokens.IsChain Token.Apart ↔
      (tag.empty = false → (tokensList ns).IsChain Token.Apart) := by
  rw [tokens]
  split
  · simp_all
  · rw [List.isChain_cons, List.isChain_append]
    simp_all [Token.Apart, Token.isText]

/-- Arranging a child list brings no two pieces of character data together. -/
theorem isChain_tokensList_arrange (hns : (tokensList ns).IsChain Token.Apart) :
    (tokensList (arrange order ns)).IsChain Token.Apart := by
  rw [isChain_tokensList_iff] at hns ⊢
  refine ⟨fun n hn => hns.1 n (arrange_perm.mem_iff.1 hn), ?_⟩
  -- only entries change places, and none of them is character data
  rw [map_arrange fun _ => isText_of_isEntry]
  exact hns.2

/-- Sorting the nodes of a child list brings no two pieces of character data together if it does not
inside each of them. -/
theorem isChain_tokensList_sortInner_of_forall
    (h : ∀ n ∈ ns, n.tokens.IsChain Token.Apart → (n.sort order).tokens.IsChain Token.Apart)
    (hns : (tokensList ns).IsChain Token.Apart) :
    (tokensList (sortInner order ns)).IsChain Token.Apart := by
  rw [isChain_tokensList_iff] at hns ⊢
  rw [sortInner_eq_map, List.forall_mem_map, List.map_map]
  refine ⟨fun n hn => h n hn (hns.1 n hn), ?_⟩
  have htexts : ns.map (isText ∘ sort order) = ns.map isText :=
    List.map_congr_left fun n _ => isText_sort
  rw [htexts]
  exact hns.2

/-- Sorting a node brings no two pieces of character data in it together. -/
theorem isChain_tokens_sort (hn : n.tokens.IsChain Token.Apart) :
    (n.sort order).tokens.IsChain Token.Apart := by
  induction n with
  | leaf kind text => exact hn
  | element entry tag ns ih =>
      rw [isChain_tokens_element_iff] at hn
      rw [sort, isChain_tokens_element_iff]
      intro hempty
      exact isChain_tokensList_arrange (isChain_tokensList_sortInner_of_forall ih (hn hempty))

/-- Sorting inside nodes keeps the character data apart. -/
theorem isChain_tokensList_sortInner (hns : (tokensList ns).IsChain Token.Apart) :
    (tokensList (sortInner order ns)).IsChain Token.Apart :=
  isChain_tokensList_sortInner_of_forall (fun _ _ => isChain_tokens_sort) hns

/-! ## Legible forests -/

/-- A forest is legible if its tokens can be written and read off again as they are. -/
structure Legible (ns : List Node) : Prop where
  sound : SoundList ns
  written : ∀ t ∈ tokensList ns, t.Written t.spelling
  apart : (tokensList ns).IsChain Token.Apart

/-- Whether a forest is legible does not depend on its entries. -/
theorem legible_plainList_iff : Legible (plainList ns) ↔ Legible ns := by
  constructor <;> rintro ⟨hsound, hwritten, hapart⟩
  · rw [soundList_plainList_iff] at hsound
    rw [tokensList_plainList] at hwritten hapart
    exact ⟨hsound, hwritten, hapart⟩
  · refine ⟨(soundList_plainList_iff ns).2 hsound, ?_, ?_⟩ <;> rwa [tokensList_plainList]

/-- A forest stays legible when its nodes are sorted inside. -/
theorem Legible.sortInner (h : Legible ns) : Legible (sortInner order ns) where
  sound := soundList_sortInner ns h.sound
  written := fun t ht => h.written t ((tokensList_sortInner_perm ns).mem_iff.1 ht)
  apart := isChain_tokensList_sortInner h.apart

end Node

end ProjectOrder
