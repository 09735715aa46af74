import ProjectOrder.Proofs.Document.Coherence

/-!
# Where nodes stand

`Node.Stands ns above n` says that a node stands in a forest inside the elements `above`. With it a
statement can name every node of a tree together with the elements around it.
-/

namespace ProjectOrder

namespace Node

/-- `Stands ns above n` says that a node stands in a forest, at whatever depth, and that `above` are
the elements around it, the outermost first. -/
inductive Stands : List Node → List Node → Node → Prop where
  | top {ns : List Node} {n : Node} : n ∈ ns → Stands ns [] n
  | inside {ns ms above : List Node} {n : Node} {entry : Option Entry} {tag : Tag} :
      .element entry tag ms ∈ ns → Stands ms above n →
      Stands ns (.element entry tag ms :: above) n

/-- Whether a node is an element of a name. -/
def HasName (name : String) : Node → Prop
  | element _ tag _ => tag.name = name
  | leaf .. => False

/-- The value of the first attribute with a key, if the node is an element that has one. -/
def value? (key : String) : Node → Option String
  | element _ tag _ => tag.value? key
  | leaf .. => none

variable {ms ns above : List Node} {n : Node} {entry : Option Entry} {tag : Tag}
  {name key text : String} {kind : Markup.LeafKind}

/-- An element has the name of its tag. -/
@[simp] theorem hasName_element : (element entry tag ns).HasName name ↔ tag.name = name := Iff.rfl

/-- A leaf has no name. -/
@[simp] theorem not_hasName_leaf : ¬ (leaf kind text).HasName name := id

/-- An element has the attributes of its tag. -/
@[simp] theorem value?_element : (element entry tag ns).value? key = tag.value? key := rfl

/-- A leaf has no attributes. -/
@[simp] theorem value?_leaf : (leaf kind text).value? key = none := rfl

/-- A node without marks is no entry. -/
theorem isEntry_of_plain (h : n.plain = n) : n.isEntry = false :=
  h ▸ isEntry_plain n

/-- In a forest without entries no node is one, at whatever depth. -/
theorem Stands.isEntry_eq_false (h : Stands ns above n) (hplain : plainList ns = ns) :
    n.isEntry = false := by
  induction h with
  | top hn => exact isEntry_of_plain (plainList_eq_self_iff.1 hplain _ hn)
  | inside hn _ ih =>
      have hchildren := plainList_eq_self_iff.1 hplain _ hn
      exact ih (element.inj hchildren).2.2

/-- What holds wherever a node stands in a forest holds of its nodes and wherever one stands in
these. -/
theorem forall_stands_iff {P : Node → Prop} :
    (∀ above n, Stands ns above n → P n) ↔
      ∀ n ∈ ns, P n ∧ ∀ above m, Stands n.children above m → P m := by
  constructor
  · intro h n hn
    refine ⟨h _ n (.top hn), fun above m hm => ?_⟩
    cases n with
    | leaf kind text => cases hm <;> contradiction
    | element entry tag ms => exact h _ m (.inside hn hm)
  · rintro h above n (hn | ⟨hm, hn⟩)
    · exact (h n hn).1
    · exact (h _ hm).2 _ n hn

/-- All nodes in a sound list are sound. -/
theorem Stands.sound (h : Stands ns above n) (hns : SoundList ns) : n.Sound := by
  induction h with
  | top hn => exact soundList_iff.1 hns _ hn
  | inside hn _ ih => exact ih (soundList_iff.1 hns _ hn).2.2

/-- What stands in some nodes stands in more nodes. -/
theorem Stands.mono (h : Stands ms above n) (hsub : ms ⊆ ns) : Stands ns above n := by
  cases h with
  | top hn => exact .top (hsub hn)
  | inside hm hn => exact .inside (hsub hm) hn

end Node

namespace Document

/-- The root element of a document as a node. -/
def rootNode (d : Document) : Node :=
  .element none d.root.tag d.root.children

/-- The entries of a coherent document stand inside its root. -/
theorem Coherent.stands_cases {d : Document} {above : List Node} {n : Node} (h : d.Coherent)
    (hn : Node.Stands d.nodes above n) :
    above = [] ∧ n.isEntry = false ∨
      ∃ inner, above = d.rootNode :: inner ∧ Node.Stands d.root.children inner n := by
  have hbeside {m : Node} (hm : m ∈ d.nodes) : m.Beside ∨ m = d.rootNode := by
    rw [nodes, List.mem_append, List.mem_cons] at hm
    rcases hm with hm | rfl | hm
    · exact .inl (h.prolog m hm)
    · exact .inr rfl
    · exact .inl (h.epilog m hm)
  cases hn with
  | top hn =>
      refine .inl ⟨rfl, ?_⟩
      rcases hbeside hn with hn | rfl
      · obtain ⟨kind, text, rfl⟩ := hn.exists_leaf
        rfl
      · rfl
  | inside hm hn =>
      rcases hbeside hm with hm | hm
      · exact hm.elim
      · obtain ⟨-, -, rfl⟩ := Node.element.inj hm
        exact .inr ⟨_, by rw [hm], hn⟩

end Document

end ProjectOrder
